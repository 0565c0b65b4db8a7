import EntityScaffold.Document.Declaration
import EntityScaffold.Document.Scan

/-!
# Taking block comments out

There are two ways to take the block comments out of a text. One goes through the text and passes
over a comment wherever one can be read (`withoutComments`). The other goes through the comments
that a scan finds, collects the slices between them, and keeps beside each comment how long the kept
text was when it was met (`Source.clean`): that is what lines are told by later on. A delimiter that
only comes about when two kept pieces meet opens nothing, since neither way looks at what it keeps
again.
-/

namespace EntityScaffold.Document

/-- Take a block comment off the front. -/
def readComment (s : List Char) : Option (List Char × List Char) := do
  let s ← readLiteral opening s
  let (inside, s) ← cutAfterClosing s
  return (opening ++ inside, s)

/-! ## Passing over comments -/

/-- The kept characters of a text, of which some are to be passed over first. -/
def keptFrom : (skip : Nat) → List Char → List Char
  | _, [] => []
  | skip + 1, _ :: rest => keptFrom skip rest
  | 0, c :: rest =>
    match readComment (c :: rest) with
    | none => c :: keptFrom 0 rest
    | some (_, after) => keptFrom (rest.length - after.length) rest

/-- The text with nothing in the place of its block comments. -/
def withoutComments (text : List Char) : List Char := keptFrom 0 text

/-! ## Collecting what is between comments -/

/-- How far a text has been gone through. -/
structure Cleaning where
  /-- The slices that are kept so far. -/
  pieces : List (List Char)
  /-- What was taken out so far. -/
  removals : List Removal
  /-- The length of the slices together. -/
  length : Nat
  /-- The offset in the text after the last comment. -/
  last : Nat
deriving DecidableEq, Repr

namespace Cleaning

def start : Cleaning := ⟨[], [], 0, 0⟩

/-- Go on to the end of the next comment. -/
def step (text : List Char) (state : Cleaning) (comment : Occurrence (List Char)) : Cleaning :=
  let piece := (text.take comment.start).drop state.last
  let length := state.length + piece.length
  ⟨state.pieces ++ [piece], state.removals ++ [⟨length, comment.text.count '\n'⟩], length,
    comment.stop⟩

/-- Keep what is left of the text. -/
def finish (text : List Char) (state : Cleaning) : Source :=
  ⟨(state.pieces ++ [text.drop state.last]).flatten, state.removals⟩

end Cleaning

/-- A text without its block comments, and what was taken out of it. -/
def Source.clean (text : List Char) : Source :=
  ((occurrences readComment text).foldl (Cleaning.step text) .start).finish text

end EntityScaffold.Document
