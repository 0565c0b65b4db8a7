import EntityScaffold.Document.Comment
import EntityScaffold.Text.Blank

/-!
# Finding declarations

A scan goes through a text from its start. Where a declaration can be read it is an occurrence, and
the scan goes on after it; elsewhere it goes on at the next character. An occurrence counts unless
the line it starts on begins, blanks aside, with a comment sign.
-/

namespace EntityScaffold.Document

open Text

/-- A declaration in a text. -/
structure Occurrence (α : Type) where
  /-- The offset of its first character. -/
  start : Nat
  /-- Its characters. -/
  text : List Char
  /-- What it declares. -/
  value : α
deriving DecidableEq, Repr

/-- The offset after the last character of an occurrence. -/
def Occurrence.stop {α : Type} (occurrence : Occurrence α) : Nat :=
  occurrence.start + occurrence.text.length

/-- The occurrences in a text that starts at an offset, of which some characters are to be passed
over first. -/
def occurrencesFrom {α : Type} (read : List Char → Option (α × List Char)) :
    (skip offset : Nat) → List Char → List (Occurrence α)
  | _, _, [] => []
  | skip + 1, offset, _ :: rest => occurrencesFrom read skip (offset + 1) rest
  | 0, offset, c :: rest =>
    match read (c :: rest) with
    | none => occurrencesFrom read 0 (offset + 1) rest
    | some (value, after) =>
      let length := rest.length + 1 - after.length
      ⟨offset, (c :: rest).take length, value⟩ ::
        occurrencesFrom read (length - 1) (offset + 1) rest

/-- The occurrences in a text, in order. No two share a character. -/
def occurrences {α : Type} (read : List Char → Option (α × List Char)) (text : List Char) :
    List (Occurrence α) :=
  occurrencesFrom read 0 0 text

/-- The sign that makes the rest of a line a comment. -/
def commentSign : List Char := ['/', '/']

/-- Does a text begin with a comment sign? -/
def startsComment (s : List Char) : Bool := commentSign.isPrefixOf s

/-- Is an offset on a line that begins, before the offset, with a comment sign? -/
def isCommented (text : List Char) (offset : Nat) : Bool :=
  startsComment (trim (lineBefore text offset))

end EntityScaffold.Document
