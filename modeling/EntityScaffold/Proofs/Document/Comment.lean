import EntityScaffold.Document.Comment
import EntityScaffold.Proofs.Text.Pattern
import EntityScaffold.Proofs.Text.Position

/-!
# Where kept characters stand in the text as written

Taking the block comments out of a text moves every character after the first of them. To say where
a kept character came from, the text is written down with a mark on each character that says
whether it is kept (`Layout.marks`): the characters are the text, the kept ones are the kept text,
and `writtenOffset` is the offset of the n-th kept one.

The line that a source computes for a kept offset is the line of that character as written
(`Layout.count_take_written`): each removal counts from the offset at which it took something out.
The column it computes is that of the kept text. The two columns are the same just if the comments
before the character on its line are as long as what other comments join to the front of that line
(`columnNumber_written_iff`).
-/

namespace EntityScaffold.Document

open Text

/-- A character of a text as written. -/
structure Mark where
  char : Char
  /-- Does it stand outside all block comments? -/
  kept : Bool
deriving DecidableEq, Repr

/-- Characters that are all kept, or all not. -/
def markAll (kept : Bool) (s : List Char) : List Mark := s.map fun c => ⟨c, kept⟩

/-- The characters of marks. -/
def writtenText (marks : List Mark) : List Char := marks.map Mark.char

/-- The characters of the marks that are kept. -/
def keptText (marks : List Mark) : List Char := (marks.filter Mark.kept).map Mark.char

/-- The marks of a stretch: its kept characters and then its comment. -/
def Stretch.marks (stretch : Stretch) : List Mark :=
  markAll true stretch.kept ++ markAll false stretch.comment

/-- The marks of a text that is taken apart. -/
def Layout.marks (layout : Layout) : List Mark :=
  layout.stretches.flatMap Stretch.marks ++ markAll true layout.rest

/-- The offset, among all marks, of an offset among those that are kept. The end of the kept ones is
the end of all. -/
def writtenOffset : List Mark → Nat → Nat
  | [], offset => offset
  | ⟨_, false⟩ :: later, offset => writtenOffset later offset + 1
  | ⟨_, true⟩ :: _, 0 => 0
  | ⟨_, true⟩ :: later, offset + 1 => writtenOffset later offset + 1

/-! ## Marks and texts -/

@[simp] theorem writtenText_append (a b : List Mark) :
    writtenText (a ++ b) = writtenText a ++ writtenText b := List.map_append

@[simp] theorem keptText_append (a b : List Mark) :
    keptText (a ++ b) = keptText a ++ keptText b := by
  simp [keptText]

@[simp] theorem length_markAll (kept : Bool) (s : List Char) : (markAll kept s).length = s.length :=
  List.length_map _

@[simp] theorem writtenText_markAll (kept : Bool) (s : List Char) :
    writtenText (markAll kept s) = s := by
  simp [writtenText, markAll, Function.comp_def]

@[simp] theorem keptText_markAll_true (s : List Char) : keptText (markAll true s) = s := by
  simp [keptText, markAll, List.filter_map, Function.comp_def]

@[simp] theorem keptText_markAll_false (s : List Char) : keptText (markAll false s) = [] := by
  simp [keptText, markAll, List.filter_map, Function.comp_def]

/-- The marks are the text as written. -/
theorem Layout.writtenText_marks (layout : Layout) : writtenText layout.marks = layout.text := by
  have h : ∀ stretches : List Stretch, writtenText (stretches.flatMap Stretch.marks) =
      stretches.flatMap fun stretch => stretch.kept ++ stretch.comment := by
    intro stretches
    induction stretches with
    | nil => rfl
    | cons stretch later ih => simp [List.flatMap_cons, Stretch.marks, ih]
  rw [Layout.marks, writtenText_append, h, writtenText_markAll, Layout.text]

/-- The marks that are kept are the kept text. -/
theorem Layout.keptText_marks (layout : Layout) : keptText layout.marks = layout.plain := by
  have h : ∀ stretches : List Stretch, keptText (stretches.flatMap Stretch.marks) =
      stretches.flatMap Stretch.kept := by
    intro stretches
    induction stretches with
    | nil => rfl
    | cons stretch later ih => simp [List.flatMap_cons, Stretch.marks, ih]
  rw [Layout.marks, keptText_append, h, keptText_markAll_true, Layout.plain]

/-! ## Offsets -/

theorem writtenOffset_nil (offset : Nat) : writtenOffset [] offset = offset := by
  rw [writtenOffset]

/-- Inside a kept run the two offsets are the same. -/
theorem writtenOffset_kept_of_lt {run : List Char} {offset : Nat} (h : offset < run.length)
    (later : List Mark) : writtenOffset (markAll true run ++ later) offset = offset := by
  induction run generalizing offset with
  | nil => exact absurd h (Nat.not_lt_zero _)
  | cons c run ih =>
    cases offset with
    | zero => rfl
    | succ offset =>
      exact congrArg (· + 1) (ih (Nat.lt_of_succ_lt_succ h))

/-- A kept run moves both offsets. -/
theorem writtenOffset_kept_append (run : List Char) (later : List Mark) (offset : Nat) :
    writtenOffset (markAll true run ++ later) (run.length + offset) =
      run.length + writtenOffset later offset := by
  induction run with
  | nil => simp [markAll]
  | cons c run ih =>
    have hstep : (c :: run).length + offset = run.length + offset + 1 := by
      rw [List.length_cons]
      omega
    rw [hstep, List.length_cons, show markAll true (c :: run) ++ later =
      ⟨c, true⟩ :: (markAll true run ++ later) from rfl, writtenOffset, ih]
    omega

/-- A comment moves the offset in the text as written only. -/
theorem writtenOffset_comment_append (comment : List Char) (later : List Mark) (offset : Nat) :
    writtenOffset (markAll false comment ++ later) offset =
      comment.length + writtenOffset later offset := by
  induction comment with
  | nil => simp [markAll]
  | cons c comment ih =>
    rw [show markAll false (c :: comment) ++ later = ⟨c, false⟩ :: (markAll false comment ++ later)
      from rfl, writtenOffset, ih, List.length_cons]
    omega

/-- What is kept before an offset in the text as written is what is before it in the kept text. -/
theorem keptText_take_written (marks : List Mark) (offset : Nat) :
    keptText (marks.take (writtenOffset marks offset)) = (keptText marks).take offset := by
  fun_induction writtenOffset marks offset with
  | case1 offset => simp [keptText]
  | case2 c later offset ih => simpa [keptText] using ih
  | case3 => simp [keptText]
  | case4 c later offset ih => simpa [keptText] using ih

/-- The character at an offset of the kept text is the one at that offset as written. -/
theorem getElem?_written (marks : List Mark) (offset : Nat) :
    (writtenText marks)[writtenOffset marks offset]? = (keptText marks)[offset]? := by
  fun_induction writtenOffset marks offset with
  | case1 offset => simp [keptText, writtenText]
  | case2 c later offset ih => simpa [keptText, writtenText] using ih
  | case3 => simp [keptText, writtenText]
  | case4 c later offset ih => simpa [keptText, writtenText] using ih

theorem written_le {marks : List Mark} {offset : Nat} (h : offset ≤ (keptText marks).length) :
    writtenOffset marks offset ≤ (writtenText marks).length := by
  fun_induction writtenOffset marks offset with
  | case1 offset => simpa [keptText, writtenText] using h
  | case2 c later offset ih => simpa [keptText, writtenText] using ih (by simpa [keptText] using h)
  | case3 => exact Nat.zero_le _
  | case4 c later offset ih => simpa [keptText, writtenText] using ih (by simpa [keptText] using h)

/-! ## Lines -/

/-- Removals after an offset do not count. -/
theorem lineEndsUpTo_removalsFrom_of_lt {offset start : Nat} (h : offset < start)
    (stretches : List Stretch) : lineEndsUpTo offset (removalsFrom start stretches) = 0 := by
  induction stretches generalizing start with
  | nil => rfl
  | cons stretch later ih =>
    have hlater : offset < start + stretch.kept.length := by omega
    rw [removalsFrom, lineEndsUpTo, if_neg (Nat.not_le.mpr hlater), ih hlater]

/-- The line ends before a character as written are those before it in the kept text and those that
the removals up to its offset have taken out. -/
theorem Layout.count_take_written (layout : Layout) (start offset : Nat) :
    (layout.text.take (writtenOffset layout.marks offset)).count '\n' =
      (layout.plain.take offset).count '\n' +
        lineEndsUpTo (start + offset) (removalsFrom start layout.stretches) := by
  obtain ⟨stretches, rest⟩ := layout
  simp only [← Layout.writtenText_marks, ← Layout.keptText_marks]
  -- offsets are counted from the start of the text, removals from `start`
  induction stretches generalizing start offset with
  | nil =>
    have hmarks : Layout.marks ⟨[], rest⟩ = markAll true rest ++ [] := by simp [Layout.marks]
    rcases Nat.lt_or_ge offset rest.length with hlt | hge
    · rw [hmarks, writtenOffset_kept_of_lt hlt]
      simp [removalsFrom, lineEndsUpTo]
    · obtain ⟨beyond, rfl⟩ := Nat.exists_eq_add_of_le hge
      rw [hmarks, writtenOffset_kept_append, writtenOffset_nil]
      simp [removalsFrom, lineEndsUpTo]
  | cons stretch later ih =>
    have hmarks : Layout.marks ⟨stretch :: later, rest⟩ = markAll true stretch.kept ++
        (markAll false stretch.comment ++ Layout.marks ⟨later, rest⟩) := by
      simp [Layout.marks, Stretch.marks]
    rcases Nat.lt_or_ge offset stretch.kept.length with hlt | hge
    · -- before the comment: no removal counts yet
      have hnone : lineEndsUpTo (start + offset) (removalsFrom start (stretch :: later)) = 0 := by
        have hfirst : start + offset < start + stretch.kept.length := by omega
        rw [removalsFrom, lineEndsUpTo, if_neg (Nat.not_le.mpr hfirst),
          lineEndsUpTo_removalsFrom_of_lt hfirst]
      rw [hmarks, writtenOffset_kept_of_lt hlt, hnone, writtenText_append, keptText_append,
        writtenText_markAll, keptText_markAll_true, List.take_append_of_le_length hlt.le,
        List.take_append_of_le_length hlt.le, Nat.add_zero]
    · -- after the comment: its removal counts, and the later ones are counted from here on
      obtain ⟨beyond, rfl⟩ := Nat.exists_eq_add_of_le hge
      have hlater := ih (start + stretch.kept.length) beyond
      have hcounts : start + stretch.kept.length ≤ start + (stretch.kept.length + beyond) := by
        omega
      rw [hmarks, writtenOffset_kept_append, writtenOffset_comment_append, removalsFrom,
        lineEndsUpTo, if_pos hcounts, ← Nat.add_assoc start, writtenText_append, keptText_append,
        writtenText_markAll, keptText_markAll_true, List.take_length_add_append,
        List.take_length_add_append, writtenText_append, keptText_append, writtenText_markAll,
        keptText_markAll_false, List.take_length_add_append, List.nil_append]
      simp only [List.count_append]
      omega

/-! ## Columns -/

/-- The marks after the last line feed. -/
def lastLineMarks (marks : List Mark) : List Mark :=
  (marks.reverse.takeWhile fun mark => mark.char != '\n').reverse

/-- The marks up to the last line feed. -/
def earlierMarks (marks : List Mark) : List Mark :=
  (marks.reverse.dropWhile fun mark => mark.char != '\n').reverse

/-- How many characters of comments stand before an offset on its line as written. -/
def commentBefore (marks : List Mark) (written : Nat) : Nat :=
  (lastLineMarks (marks.take written)).countP fun mark => !mark.kept

/-- How many kept characters stand before an offset on earlier lines as written but on its line in
the kept text: comments that held the line feeds between them were taken out. -/
def joinedBefore (marks : List Mark) (written : Nat) : Nat :=
  (lastLine (keptText (earlierMarks (marks.take written)))).length

theorem earlierMarks_append_lastLineMarks (marks : List Mark) :
    earlierMarks marks ++ lastLineMarks marks = marks := by
  unfold earlierMarks lastLineMarks
  rw [← List.reverse_append, List.takeWhile_append_dropWhile,
    List.reverse_reverse]

theorem writtenText_lastLineMarks (marks : List Mark) :
    writtenText (lastLineMarks marks) = lastLine (writtenText marks) := by
  simp only [writtenText, lastLineMarks, lastLine, ← List.map_reverse, List.takeWhile_map]
  rfl

/-- The characters before an offset on its line in the kept text: those that comments join to the
line, and those of the line as written that are kept. -/
theorem length_lastLine_keptText (marks : List Mark) :
    (lastLine (keptText marks)).length =
      (lastLine (keptText (earlierMarks marks))).length +
        (lastLineMarks marks).countP Mark.kept := by
  have hline : '\n' ∉ keptText (lastLineMarks marks) := by
    intro h
    have hsub : keptText (lastLineMarks marks) ⊆ writtenText (lastLineMarks marks) :=
      List.map_subset _ List.filter_sublist.subset
    have hmem := hsub h
    rw [writtenText_lastLineMarks] at hmem
    exact not_mem_lastLine _ hmem
  have hsplit : keptText marks =
      keptText (earlierMarks marks) ++ keptText (lastLineMarks marks) := by
    rw [← keptText_append, earlierMarks_append_lastLineMarks]
  have hkept : (keptText (lastLineMarks marks)).length =
      (lastLineMarks marks).countP Mark.kept := by
    rw [keptText, List.length_map, List.countP_eq_length_filter]
  rw [hsplit, lastLine_append hline, List.length_append, hkept]

/-- **Columns.** The column in the kept text is the column as written just if what comments join to
the front of the line makes up for the comments on the line. -/
theorem columnNumber_written_iff {marks : List Mark} {offset : Nat}
    (h : offset ≤ (keptText marks).length) :
    columnNumber (keptText marks) offset =
        columnNumber (writtenText marks) (writtenOffset marks offset) ↔
      joinedBefore marks (writtenOffset marks offset) =
        commentBefore marks (writtenOffset marks offset) := by
  rw [columnNumber_eq h, columnNumber_eq (written_le h), lineBefore, lineBefore,
    ← keptText_take_written, length_lastLine_keptText, joinedBefore, commentBefore]
  have htake : (writtenText marks).take (writtenOffset marks offset) =
      writtenText (marks.take (writtenOffset marks offset)) := List.map_take.symm
  have hlength : (lastLine (writtenText (marks.take (writtenOffset marks offset)))).length =
      (lastLineMarks (marks.take (writtenOffset marks offset))).length := by
    rw [← writtenText_lastLineMarks, writtenText, List.length_map]
  have hsplit : ∀ line : List Mark,
      line.length = line.countP Mark.kept + line.countP fun mark => !mark.kept := by
    intro line
    simpa using List.length_eq_countP_add_countP Mark.kept (l := line)
  -- the kept characters of the line are counted in both columns
  rw [htake, hlength, hsplit (lastLineMarks _)]
  omega

/-! ## Comments that end on an earlier line

A comment ends with its closing characters, so on the line on which it ends it has characters. Where
no comment stands before a character on its line, no comment joins anything to the line either. -/

theorem exists_of_cutAfterClosing {s inside rest : List Char}
    (h : cutAfterClosing s = some (inside, rest)) : ∃ before, inside = before ++ closing := by
  fun_induction cutAfterClosing s generalizing inside with
  | case1 r =>
    simp only [Option.some.injEq, Prod.mk.injEq] at h
    exact ⟨[], h.1.symm⟩
  | case2 c r _ ih =>
    obtain ⟨⟨i, r'⟩, found, same⟩ := Option.map_eq_some_iff.mp h
    simp only [Prod.mk.injEq] at same
    obtain ⟨rfl, rfl⟩ := same
    obtain ⟨before, rfl⟩ := ih found
    exact ⟨c :: before, rfl⟩
  | case3 => simp at h

theorem exists_of_cutComment {s kept comment rest : List Char}
    (h : cutComment s = some (kept, comment, rest)) : ∃ before, comment = before ++ closing := by
  fun_induction cutComment s generalizing kept with
  | case1 r =>
    obtain ⟨⟨i, r'⟩, found, same⟩ := Option.map_eq_some_iff.mp h
    simp only [Prod.mk.injEq] at same
    obtain ⟨rfl, rfl, rfl⟩ := same
    obtain ⟨before, rfl⟩ := exists_of_cutAfterClosing found
    exact ⟨opening ++ before, by rw [List.append_assoc]⟩
  | case2 c r _ ih =>
    obtain ⟨⟨k, m, r'⟩, found, same⟩ := Option.map_eq_some_iff.mp h
    simp only [Prod.mk.injEq] at same
    obtain ⟨rfl, rfl, rfl⟩ := same
    exact ih found
  | case3 => simp at h

/-- After a line feed of a comment comes another character of a comment. -/
def ClosesLines : List Mark → Prop
  | [] => True
  | mark :: later =>
    (mark = ⟨'\n', false⟩ → ∃ next ∈ later.head?, next.kept = false) ∧ ClosesLines later

theorem closesLines_kept_append (run : List Char) {later : List Mark} (h : ClosesLines later) :
    ClosesLines (markAll true run ++ later) := by
  induction run with
  | nil => exact h
  | cons c run ih => exact ⟨by simp, ih⟩

theorem closesLines_comment_append (before : List Char) {later : List Mark}
    (h : ClosesLines later) : ClosesLines (markAll false (before ++ closing) ++ later) := by
  induction before with
  | nil => exact ⟨by simp, by simp, h⟩
  | cons c before ih =>
    refine ⟨fun _ => ?_, ih⟩
    -- at least the closing characters follow
    cases before with
    | nil => exact ⟨⟨'*', false⟩, rfl, rfl⟩
    | cons d before => exact ⟨⟨d, false⟩, rfl, rfl⟩

theorem ClosesLines.of_append {before : List Mark} {mark : Mark} {later : List Mark}
    (h : ClosesLines (before ++ mark :: later)) (hmark : mark = ⟨'\n', false⟩) :
    ∃ next ∈ later.head?, next.kept = false := by
  induction before with
  | nil => exact h.1 hmark
  | cons first before ih => exact ih h.2

theorem Layout.closesLines_ofText (text : List Char) : ClosesLines (Layout.ofText text).marks := by
  fun_induction Layout.ofText text with
  | case1 text _ =>
    have h := closesLines_kept_append text (show ClosesLines [] from trivial)
    simpa [Layout.marks] using h
  | case2 text kept comment after found later ih =>
    obtain ⟨before, rfl⟩ := exists_of_cutComment found
    have h := closesLines_kept_append kept (closesLines_comment_append before ih)
    simpa [Layout.marks, Stretch.marks] using h

/-- The marks up to the last line feed end with that line feed. -/
theorem earlierMarks_eq_nil_or (marks : List Mark) :
    earlierMarks marks = [] ∨
      ∃ before mark, earlierMarks marks = before ++ [mark] ∧ mark.char = '\n' := by
  unfold earlierMarks
  cases hrest : marks.reverse.dropWhile fun mark => mark.char != '\n' with
  | nil => exact .inl rfl
  | cons mark before =>
    refine .inr ⟨before.reverse, mark, List.reverse_cons, ?_⟩
    have hnot := List.head?_dropWhile_not (fun mark : Mark => mark.char != '\n') marks.reverse
    rw [hrest] at hnot
    simpa using hnot

theorem kept_of_getElem?_written (marks : List Mark) (offset : Nat) :
    ∀ mark ∈ marks[writtenOffset marks offset]?, mark.kept = true := by
  fun_induction writtenOffset marks offset with
  | case1 offset => simp
  | case2 c later offset ih => simpa using ih
  | case3 => simp
  | case4 c later offset ih => simpa using ih

theorem joinedBefore_eq_zero {marks : List Mark} (hcloses : ClosesLines marks) {offset : Nat}
    (h : commentBefore marks (writtenOffset marks offset) = 0) :
    joinedBefore marks (writtenOffset marks offset) = 0 := by
  unfold joinedBefore
  rw [List.length_eq_zero_iff]
  rcases earlierMarks_eq_nil_or (marks.take (writtenOffset marks offset)) with
    hearlier | ⟨before, ⟨c, kept⟩, hearlier, rfl : c = '\n'⟩
  · rw [hearlier]
    rfl
  rw [hearlier, keptText_append]
  cases kept with
  | true => exact lastLine_append_lineFeed _
  | false =>
    -- the line feed belongs to a comment, which must go on: on the line, or at the offset itself
    exfalso
    have hmarks : marks = before ++ ⟨'\n', false⟩ ::
        (lastLineMarks (marks.take (writtenOffset marks offset)) ++
          marks.drop (writtenOffset marks offset)) := by
      rw [List.append_cons, ← hearlier, ← List.append_assoc, earlierMarks_append_lastLineMarks,
        List.take_append_drop]
    rw [hmarks] at hcloses
    obtain ⟨next, hnext, hcomment⟩ := hcloses.of_append rfl
    cases hline : lastLineMarks (marks.take (writtenOffset marks offset)) with
    | nil =>
      rw [hline, List.nil_append, List.head?_drop] at hnext
      rw [kept_of_getElem?_written marks offset next hnext] at hcomment
      exact absurd hcomment (by simp)
    | cons first line =>
      obtain rfl : first = next := by simpa [hline] using hnext
      rw [commentBefore, hline, List.countP_eq_zero] at h
      exact h first List.mem_cons_self (by simp [hcomment])

/-! ## Texts with and without block comments -/

/-- A text without a comment is all kept. -/
theorem Layout.ofText_of_none {text : List Char} (h : cutComment text = none) :
    Layout.ofText text = ⟨[], text⟩ := by
  rw [Layout.ofText]
  split
  · rfl
  · rename_i found
    rw [h] at found
    exact absurd found (by simp)

/-- The first comment ends the first stretch. -/
theorem Layout.ofText_of_some {text kept comment after : List Char}
    (h : cutComment text = some (kept, comment, after)) :
    Layout.ofText text =
      ⟨⟨kept, comment⟩ :: (Layout.ofText after).stretches, (Layout.ofText after).rest⟩ := by
  rw [Layout.ofText]
  split
  · rename_i found
    rw [h] at found
    exact absurd found (by simp)
  · rename_i found
    rw [h] at found
    obtain ⟨rfl, rfl, rfl⟩ : kept = _ ∧ comment = _ ∧ after = _ := by simpa using found
    rfl

theorem cutComment_of_avoids {s : List Char} (h : Avoids opening s) : cutComment s = none := by
  fun_induction cutComment s with
  | case1 rest => exact absurd (List.prefix_append opening rest).isInfix h
  | case2 c rest _ ih =>
    rw [ih (h.of_infix (List.suffix_cons c rest).isInfix)]
    rfl
  | case3 => rfl

/-- Nothing is taken out of a text in which no block comment is opened. -/
theorem Source.strip_of_avoids {text : List Char} (h : Avoids opening text) :
    Source.strip text = .asWritten text := by
  rw [Source.strip, Layout.ofText_of_none (cutComment_of_avoids h)]
  rfl

end EntityScaffold.Document
