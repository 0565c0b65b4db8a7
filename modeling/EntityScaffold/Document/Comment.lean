import EntityScaffold.Text.Position

/-!
# Block comments

A block comment starts with a slash and a star and ends with the first star and slash after those
two characters, on whatever line. A start without such an end is ordinary text, and then so is
everything after it. `Layout.ofText` takes a text apart into what is kept and what is comment; its
pieces in order are the text again (`Layout.text_ofText`). `Source` is the kept text with as much
of the layout as is needed to tell on which line of the text as written a kept character stands.
-/

namespace EntityScaffold.Document

/-- The characters that open a block comment. -/
def opening : List Char := ['/', '*']

/-- The characters that close a block comment. -/
def closing : List Char := ['*', '/']

/-- Cut a text after the first closing of a block comment. -/
def cutAfterClosing : List Char → Option (List Char × List Char)
  | '*' :: '/' :: rest => some (closing, rest)
  | c :: rest => (cutAfterClosing rest).map fun (inside, rest) => (c :: inside, rest)
  | [] => none

/-- Cut a text around its first block comment: what is before it, the comment, what is after. -/
def cutComment : List Char → Option (List Char × List Char × List Char)
  | '/' :: '*' :: rest =>
    (cutAfterClosing rest).map fun (inside, rest) => ([], opening ++ inside, rest)
  | c :: rest => (cutComment rest).map fun (kept, comment) => (c :: kept, comment)
  | [] => none

theorem cutAfterClosing_append {s inside rest : List Char}
    (h : cutAfterClosing s = some (inside, rest)) : inside ++ rest = s := by
  fun_induction cutAfterClosing s generalizing inside with
  | case1 r =>
    simp only [Option.some.injEq, Prod.mk.injEq] at h
    obtain ⟨rfl, rfl⟩ := h
    rfl
  | case2 c r _ ih =>
    obtain ⟨⟨i, r'⟩, found, same⟩ := Option.map_eq_some_iff.1 h
    simp only [Prod.mk.injEq] at same
    obtain ⟨rfl, rfl⟩ := same
    simp [ih found]
  | case3 => simp at h

theorem cutComment_append {s kept comment rest : List Char}
    (h : cutComment s = some (kept, comment, rest)) : kept ++ comment ++ rest = s := by
  fun_induction cutComment s generalizing kept with
  | case1 r =>
    obtain ⟨⟨i, r'⟩, found, same⟩ := Option.map_eq_some_iff.1 h
    simp only [Prod.mk.injEq] at same
    obtain ⟨rfl, rfl, rfl⟩ := same
    simp [opening, cutAfterClosing_append found]
  | case2 c r _ ih =>
    obtain ⟨⟨k, m, r'⟩, found, same⟩ := Option.map_eq_some_iff.1 h
    simp only [Prod.mk.injEq] at same
    obtain ⟨rfl, rfl, rfl⟩ := same
    simpa using ih found
  | case3 => simp at h

theorem cutComment_shorter {s kept comment rest : List Char}
    (h : cutComment s = some (kept, comment, rest)) : rest.length < s.length := by
  fun_induction cutComment s generalizing kept with
  | case1 r =>
    obtain ⟨⟨i, r'⟩, found, same⟩ := Option.map_eq_some_iff.1 h
    simp only [Prod.mk.injEq] at same
    obtain ⟨rfl, rfl, rfl⟩ := same
    have := congrArg List.length (cutAfterClosing_append found)
    simp only [List.length_append] at this
    simp only [List.length_cons]
    omega
  | case2 c r _ ih =>
    obtain ⟨⟨k, m, r'⟩, found, same⟩ := Option.map_eq_some_iff.1 h
    simp only [Prod.mk.injEq] at same
    obtain ⟨rfl, rfl, rfl⟩ := same
    have := ih found
    simp only [List.length_cons]
    omega
  | case3 => simp at h

/-- A stretch of kept text and the block comment after it. -/
structure Stretch where
  kept : List Char
  comment : List Char
deriving DecidableEq, Repr

/-- A text taken apart: stretches that each end with a block comment, and the kept rest. -/
structure Layout where
  stretches : List Stretch
  rest : List Char
deriving DecidableEq, Repr

namespace Layout

/-- Take a text apart at its block comments. -/
def ofText (text : List Char) : Layout :=
  match _found : cutComment text with
  | none => ⟨[], text⟩
  | some (kept, comment, after) =>
    let later := ofText after
    { later with stretches := ⟨kept, comment⟩ :: later.stretches }
termination_by text.length
decreasing_by exact cutComment_shorter ‹_›

/-- The text as written. -/
def text (layout : Layout) : List Char :=
  layout.stretches.flatMap (fun stretch => stretch.kept ++ stretch.comment) ++ layout.rest

/-- The text without its block comments. -/
def plain (layout : Layout) : List Char := layout.stretches.flatMap Stretch.kept ++ layout.rest

/-- Nothing is lost when a text is taken apart. -/
theorem text_ofText (text : List Char) : (ofText text).text = text := by
  fun_induction ofText text with
  | case1 text _ => simp [Layout.text]
  | case2 text kept comment after found later ih =>
    have := cutComment_append found
    simp only [Layout.text, List.flatMap_cons, List.append_assoc] at ih ⊢
    rw [ih, ← this, List.append_assoc]

end Layout

/-- A block comment that was taken out: where it stood in the kept text, and how many line ends it
held. -/
structure Removal where
  offset : Nat
  lineEnds : Nat
deriving DecidableEq, Repr

/-- The removals of some stretches, of which the first starts at an offset of the kept text. -/
def removalsFrom (start : Nat) : List Stretch → List Removal
  | [] => []
  | stretch :: later =>
    let offset := start + stretch.kept.length
    ⟨offset, stretch.comment.count '\n'⟩ :: removalsFrom offset later

/-- How many line ends the removals at or before an offset of the kept text have taken out. -/
def lineEndsUpTo (offset : Nat) : List Removal → Nat
  | [] => 0
  | removal :: later =>
    (if removal.offset ≤ offset then removal.lineEnds else 0) + lineEndsUpTo offset later

/-- A text without block comments, and what was taken out of it. -/
structure Source where
  plain : List Char
  removals : List Removal
deriving DecidableEq, Repr

namespace Source

/-- A text out of which nothing is taken. -/
def asWritten (text : List Char) : Source := ⟨text, []⟩

/-- A text without its block comments. -/
def strip (text : List Char) : Source :=
  let layout := Layout.ofText text
  ⟨layout.plain, removalsFrom 0 layout.stretches⟩

/-- The line, in the text as written, of an offset of the kept text. -/
def lineNumber (source : Source) (offset : Nat) : Nat :=
  Text.lineNumber source.plain offset + lineEndsUpTo offset source.removals

/-- The column of an offset, in the kept text. -/
def columnNumber (source : Source) (offset : Nat) : Nat := Text.columnNumber source.plain offset

end Source

end EntityScaffold.Document
