import EntityScaffold.Document.LineMap
import EntityScaffold.Proofs.Document.FaultPlace
import Mathlib.Algebra.GroupWithZero.Nat

/-!
# The line map is exact

Halving a stretch of sorted entries keeps what is left of it between the entries up to an offset and
those after it (`Splits.halve`), so it ends where the former end. The total beside the last of them
is then all that the removals up to the offset have taken out (`LineMap.line_eq_lineNumber`), and
the line of an offset is that of its character in the text as written (`lineMap_strip_exact`),
however many comments were taken out at one offset.
-/

namespace EntityScaffold.Document

open Text

/-! ## Searching by halving -/

/-- The entries before `low` are at most an offset, those from `high` on are greater. -/
structure Splits (offsets : List Nat) (offset low high : Nat) : Prop where
  ordered : low ≤ high
  within : high ≤ offsets.length
  below : ∀ i < low, ∀ entry ∈ offsets[i]?, entry ≤ offset
  above : ∀ i, high ≤ i → ∀ entry ∈ offsets[i]?, offset < entry

/-- Entries further on in a sorted list are not smaller. -/
theorem le_of_sorted {offsets : List Nat} (hsorted : offsets.Pairwise (· ≤ ·)) {i j a b : Nat}
    (hij : i ≤ j) (ha : offsets[i]? = some a) (hb : offsets[j]? = some b) : a ≤ b := by
  obtain ⟨hi, rfl⟩ := List.getElem?_eq_some_iff.mp ha
  obtain ⟨hj, rfl⟩ := List.getElem?_eq_some_iff.mp hb
  rcases Nat.lt_or_eq_of_le hij with hlt | rfl
  · exact List.pairwise_iff_getElem.mp hsorted i j hi hj hlt
  · exact Nat.le_refl _

/-- One step: the entry in the middle decides which half the end is in. -/
theorem Splits.step {offsets : List Nat} (hsorted : offsets.Pairwise (· ≤ ·))
    {offset low high middle : Nat} (h : Splits offsets offset low high) (hlow : low ≤ middle)
    (hhigh : middle < high) :
    (offset < offsets.getD middle 0 → Splits offsets offset low middle) ∧
      (¬offset < offsets.getD middle 0 → Splits offsets offset (middle + 1) high) := by
  have hmiddle : middle < offsets.length := hhigh.trans_le h.within
  have hentry : offsets[middle]? = some (offsets.getD middle 0) := by
    simp [hmiddle]
  constructor
  · intro hless
    refine ⟨hlow, hmiddle.le, h.below, fun i hi entry hmem => ?_⟩
    exact hless.trans_le (le_of_sorted hsorted hi hentry hmem)
  · intro hless
    refine ⟨hhigh, h.within, fun i hi entry hmem => ?_, h.above⟩
    exact (le_of_sorted hsorted (Nat.lt_succ_iff.mp hi) hmem hentry).trans (Nat.not_lt.mp hless)

/-- Halving goes on until nothing is left between the two ends. -/
theorem Splits.halve {offsets : List Nat} (hsorted : offsets.Pairwise (· ≤ ·))
    {offset low high : Nat} (h : Splits offsets offset low high) :
    Splits offsets offset (halve offsets offset low high) (halve offsets offset low high) := by
  fun_induction Document.halve offsets offset low high with
  | case1 low high hlt middle hless ih =>
    exact ih ((h.step hsorted (by omega) (by omega)).1 hless)
  | case2 low high hlt middle hless ih =>
    exact ih ((h.step hsorted (by omega) (by omega)).2 hless)
  | case3 low high hlt =>
    obtain rfl : low = high := h.ordered.antisymm (Nat.not_lt.mp hlt)
    exact h

theorem splits_countUpTo {offsets : List Nat} (hsorted : offsets.Pairwise (· ≤ ·)) (offset : Nat) :
    Splits offsets offset (countUpTo offsets offset) (countUpTo offsets offset) := by
  refine Splits.halve hsorted ⟨Nat.zero_le _, Nat.le_refl _, fun i hi => ?_, fun i hi => ?_⟩
  · exact absurd hi (Nat.not_lt_zero i)
  · simp [List.getElem?_eq_none hi]

/-! ## Totals -/

/-- A total adds up the line ends of the removals as far as its own. -/
theorem getD_runningTotals (total : Nat) {removals : List Removal} {i : Nat}
    (h : i < removals.length) :
    (runningTotals total removals).getD i 0 =
      total + ((removals.take (i + 1)).map Removal.lineEnds).sum := by
  induction removals generalizing total i with
  | nil => exact absurd h (Nat.not_lt_zero i)
  | cons removal later ih =>
    cases i with
    | zero => simp [runningTotals]
    | succ i =>
      rw [runningTotals, List.getD_cons_succ, ih _ (Nat.lt_of_succ_lt_succ h),
        List.take_succ_cons, List.map_cons, List.sum_cons, Nat.add_assoc]

/-- The removals up to an offset come first among sorted ones, so their line ends are those of a
front part. -/
theorem lineEndsUpTo_eq_sum {removals : List Removal} {offset count : Nat}
    (h : Splits (removals.map Removal.offset) offset count count) :
    lineEndsUpTo offset removals = ((removals.take count).map Removal.lineEnds).sum := by
  induction removals generalizing count with
  | nil => simp [lineEndsUpTo]
  | cons removal later ih =>
    cases count with
    | zero =>
      have hfirst : offset < removal.offset := h.above 0 (Nat.le_refl 0) _ rfl
      have hlater : Splits (later.map Removal.offset) offset 0 0 :=
        ⟨Nat.le_refl 0, Nat.zero_le _, fun i hi => absurd hi (Nat.not_lt_zero i),
          fun i _ => h.above (i + 1) (Nat.zero_le _)⟩
      rw [lineEndsUpTo, if_neg (Nat.not_le.mpr hfirst), ih hlater]
      simp
    | succ count =>
      have hfirst : removal.offset ≤ offset := h.below 0 (Nat.succ_pos count) _ rfl
      have hlater : Splits (later.map Removal.offset) offset count count :=
        ⟨Nat.le_refl count, Nat.le_of_succ_le_succ h.within,
          fun i hi => h.below (i + 1) (Nat.succ_lt_succ hi),
          fun i hi => h.above (i + 1) (Nat.succ_le_succ hi)⟩
      rw [lineEndsUpTo, if_pos hfirst, ih hlater, List.take_succ_cons, List.map_cons,
        List.sum_cons]

/-- Among sorted removals those up to an offset have taken out the last total beside them. -/
theorem LineMap.hidden_eq_lineEndsUpTo {plain : List Char} {removals : List Removal}
    (hsorted : (removals.map Removal.offset).Pairwise (· ≤ ·)) (offset : Nat) :
    (LineMap.ofRemovals plain removals).hidden offset = lineEndsUpTo offset removals := by
  have hsplits := splits_countUpTo hsorted offset
  have hwithin := hsplits.within
  rw [lineEndsUpTo_eq_sum hsplits, LineMap.hidden, LineMap.ofRemovals]
  cases hcount : countUpTo (removals.map Removal.offset) offset with
  | zero => rfl
  | succ last =>
    rw [hcount, List.length_map] at hwithin
    show (runningTotals 0 removals).getD last 0 = _
    rw [getD_runningTotals 0 hwithin, Nat.zero_add]

/-- A line map over sorted removals tells the lines that going through all removals tells. -/
theorem LineMap.line_eq_lineNumber {source : Source}
    (hsorted : (source.removals.map Removal.offset).Pairwise (· ≤ ·)) (offset : Nat) :
    source.lineMap.line offset = source.lineNumber offset :=
  congrArg (Text.lineNumber source.plain offset + ·) (hidden_eq_lineEndsUpTo hsorted offset)

/-! ## Texts without their comments -/

theorem le_offset_of_mem_removalsFrom {start : Nat} {stretches : List Stretch} {removal : Removal}
    (h : removal ∈ removalsFrom start stretches) : start ≤ removal.offset := by
  induction stretches generalizing start with
  | nil => exact absurd h List.not_mem_nil
  | cons stretch later ih =>
    rcases List.mem_cons.mp h with rfl | hlater
    · exact Nat.le_add_right start _
    · exact (Nat.le_add_right start _).trans (ih hlater)

/-- Removals are found from left to right. Those of comments that follow each other directly have
one offset. -/
theorem sorted_removalsFrom (start : Nat) (stretches : List Stretch) :
    ((removalsFrom start stretches).map Removal.offset).Pairwise (· ≤ ·) := by
  induction stretches generalizing start with
  | nil => exact .nil
  | cons stretch later ih =>
    rw [removalsFrom, List.map_cons, List.pairwise_cons]
    refine ⟨fun offset hoffset => ?_, ih _⟩
    obtain ⟨removal, hremoval, rfl⟩ := List.mem_map.mp hoffset
    exact le_offset_of_mem_removalsFrom hremoval

/-- The end of the kept text is the end of the text as written. -/
theorem writtenOffset_end (marks : List Mark) :
    writtenOffset marks (keptText marks).length = (writtenText marks).length := by
  induction marks with
  | nil => rfl
  | cons mark later ih =>
    obtain ⟨c, kept⟩ := mark
    cases kept with
    | false => exact congrArg (· + 1) ih
    | true => exact congrArg (· + 1) ih

/-- **Line maps.** The line that the line map of a text tells for an offset of the kept text is one
more than the line ends before the place that the offset has in the text as written. There stands,
after as much kept text, the same kept character; and the end of the kept text has its place at the
end of the text. -/
theorem lineMap_strip_exact (text : List Char) :
    let source := Source.strip text
    let marks := (Layout.ofText text).marks
    (∀ offset, source.lineMap.line offset =
        (text.take (writtenOffset marks offset)).count '\n' + 1) ∧
      (∀ offset, text[writtenOffset marks offset]? = source.plain[offset]? ∧
        (∀ mark ∈ marks[writtenOffset marks offset]?, mark.kept = true) ∧
        keptText (marks.take (writtenOffset marks offset)) = source.plain.take offset) ∧
      writtenOffset marks source.plain.length = text.length ∧
      ∀ offset, source.lineMap.line offset = source.lineNumber offset := by
  intro source marks
  have hkept : keptText marks = source.plain := Layout.keptText_marks _
  have hwritten : writtenText marks = text :=
    (Layout.writtenText_marks _).trans (Layout.text_ofText text)
  have hline : ∀ offset, source.lineMap.line offset = source.lineNumber offset :=
    LineMap.line_eq_lineNumber (sorted_removalsFrom 0 _)
  refine ⟨fun offset => ?_, fun offset => ⟨?_, ?_, ?_⟩, ?_, hline⟩
  · rw [hline]
    exact Source.lineNumber_strip_written text offset
  · exact Source.getElem?_strip_written text offset
  · exact kept_of_getElem?_written marks offset
  · rw [keptText_take_written, hkept]
  · rw [← hkept, writtenOffset_end, hwritten]

/-- Two comments follow each other directly: both are taken out at the offset of what comes next,
and both count for its line. -/
example : (Source.strip "a/*\n*//*\n\n*/b".toList).removals = [⟨1, 1⟩, ⟨1, 2⟩] ∧
    (Source.strip "a/*\n*//*\n\n*/b".toList).lineMap.line 1 = 4 := by
  decide +kernel

end EntityScaffold.Document
