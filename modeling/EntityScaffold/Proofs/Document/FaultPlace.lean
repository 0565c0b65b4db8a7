import EntityScaffold.Proofs.Document.Body
import EntityScaffold.Proofs.Document.Comment
import EntityScaffold.Proofs.Document.Scan
import EntityScaffold.Proofs.Document.Strictness

/-!
# The place of a fault

A strict reading ends at the first misfit. The offset of a misfit goes through the lines of a body,
the trimming of a line, the start of the body and the kept text; at the end of that way it is still
the offset of the first character of the offending line (`Source.exists_of_mem_misfits`).

The place that the fault then names is compared with the place at which that character stands in
the document as written. The lines are always the same. The columns are the same just if the
comments before the character on its line are as long as what other comments join to the front of
that line, so always where no comment stands before it on its line (`parse_fault_place`). A comment
of its own before the character makes the column too small (`parse_fault_column_ne`).
-/

namespace EntityScaffold.Document

open Text

/-- A misfit is a line that is not blank, and stands in the kept text at its offset. -/
theorem Source.exists_of_mem_misfits {source : Source} {misfit : Misfit}
    (h : misfit ∈ source.misfits) :
    misfit.line ≠ [] ∧ ∃ before after,
      source.plain = before ++ (misfit.line ++ after) ∧ misfit.offset = before.length := by
  obtain ⟨occurrence, hlive, hmisfit⟩ := List.mem_flatMap.mp h
  obtain ⟨line, hline, rfl⟩ := List.mem_map.mp hmisfit
  obtain ⟨hmem, hfit⟩ := List.mem_filter.mp hline
  obtain ⟨before, after, hplain, hstart⟩ :=
    exists_body_of_mem_occurrences (List.mem_filter.mp hlive).1
  obtain ⟨before', after', hbody, hoffset⟩ := exists_of_mem_bodyLines hmem
  refine ⟨?_, before ++ before', after' ++ '}' :: after, ?_, ?_⟩
  · -- a blank line is idle
    intro (hblank : line.text = [])
    simp [BodyLine.isMisfit, BodyLine.isIdle, hblank] at hfit
  · rw [hplain, hbody]
    simp only [List.append_assoc]
  · rw [hstart, hoffset, List.length_append]

/-- The entity of a misfit is called by a name. -/
theorem Source.isName_of_mem_misfits {source : Source} {misfit : Misfit}
    (h : misfit ∈ source.misfits) : IsName misfit.entity.toList := by
  obtain ⟨occurrence, hlive, hmisfit⟩ := List.mem_flatMap.mp h
  obtain ⟨line, -, rfl⟩ := List.mem_map.mp hmisfit
  obtain ⟨before, after, -, -, hread⟩ :=
    mem_occurrences takesFront_readEntity (List.mem_filter.mp hlive).1
  obtain ⟨text, htext, -⟩ := exists_entityText hread
  rw [String.toList_ofList]
  exact htext.isName

/-- The character at a kept offset is the one at that offset as written. -/
theorem Source.getElem?_strip_written (text : List Char) (offset : Nat) :
    text[writtenOffset (Layout.ofText text).marks offset]? =
      (Source.strip text).plain[offset]? := by
  have hchar := getElem?_written (Layout.ofText text).marks offset
  rw [Layout.writtenText_marks, Layout.text_ofText, Layout.keptText_marks] at hchar
  exact hchar

/-- The line of a kept offset is the line on which its character is written. -/
theorem Source.lineNumber_strip_written (text : List Char) (offset : Nat) :
    (Source.strip text).lineNumber offset =
      Text.lineNumber text (writtenOffset (Layout.ofText text).marks offset) := by
  have hcount := (Layout.ofText text).count_take_written 0 offset
  rw [Layout.text_ofText, Nat.zero_add] at hcount
  rw [Source.lineNumber, Text.lineNumber, Text.lineNumber, hcount]
  exact Nat.add_right_comm _ _ _

/-- A kept offset and its character as written have the same column just if what comments join to
the front of the line is as long as the comments before the character on its line. -/
theorem Source.columnNumber_strip_written_iff {text : List Char} {offset : Nat}
    (h : offset ≤ (Source.strip text).plain.length) :
    (Source.strip text).columnNumber offset =
        Text.columnNumber text (writtenOffset (Layout.ofText text).marks offset) ↔
      joinedBefore (Layout.ofText text).marks (writtenOffset (Layout.ofText text).marks offset) =
        commentBefore (Layout.ofText text).marks
          (writtenOffset (Layout.ofText text).marks offset) := by
  have hkept := (Layout.ofText text).keptText_marks
  have hle : offset ≤ (keptText (Layout.ofText text).marks).length := by
    rw [hkept]
    exact h
  have hiff := columnNumber_written_iff hle
  rw [hkept, Layout.writtenText_marks, Layout.text_ofText] at hiff
  exact hiff

/-- The place at which a character of the kept text stands in the document as written. -/
def placeAsWritten (text : String) (offset : Nat) : Place :=
  let written := writtenOffset (Layout.ofText text.toList).marks offset
  ⟨none, some (lineNumber text.toList written), some (columnNumber text.toList written)⟩

/-- A strict reading fails if there is a misfit, and at the first one. -/
theorem parse_of_misfit {text : String} {misfit : Misfit}
    (h : (Source.strip text.toList).misfits.head? = some misfit) :
    (parse true text).outcome = .error (misfit.fault (Source.strip text.toList).placeAt) := by
  obtain ⟨later, hmisfits⟩ := List.head?_eq_some_iff.mp h
  rw [(parse_agreement text).outcome, hmisfits]
  rfl

theorem exists_misfit_of_fault {text : String} {fault : Fault}
    (h : (parse true text).outcome = .error fault) :
    ∃ misfit, (Source.strip text.toList).misfits.head? = some misfit ∧
      fault = misfit.fault (Source.strip text.toList).placeAt := by
  cases hmisfits : (Source.strip text.toList).misfits with
  | nil =>
    obtain ⟨⟨model, hmodel⟩, -, houtcome⟩ := parse_agreement text
    rw [houtcome, hmisfits, endAtFirst, hmodel] at h
    exact absurd h (by simp)
  | cons misfit later =>
    rw [parse_of_misfit (by rw [hmisfits, List.head?_cons]), Except.error.injEq] at h
    exact ⟨misfit, rfl, h.symm⟩

/-- **The place of a fault.** A strict reading that fails names the entity and the text of the first
misfit, whose first character stands at `written` in the document. It names the line of that
character. It names its column too just if the comments before the character on its line are as long
as what other comments join to the front of the line, and so wherever no comment stands before it on
its line. -/
theorem parse_fault_place (text : String) {fault : Fault}
    (h : (parse true text).outcome = .error fault) :
    ∃ misfit, (Source.strip text.toList).misfits.head? = some misfit ∧
      fault.cause = .malformedField misfit.entity (String.ofList misfit.line) ∧
      misfit.line ≠ [] ∧
      misfit.line <+: (Source.strip text.toList).plain.drop misfit.offset ∧
      let marks := (Layout.ofText text.toList).marks
      let written := writtenOffset marks misfit.offset
      text.toList[written]? = misfit.line.head? ∧
      fault.place.file = none ∧
      fault.place.line = (placeAsWritten text misfit.offset).line ∧
      (fault.place = placeAsWritten text misfit.offset ↔
        joinedBefore marks written = commentBefore marks written) ∧
      (commentBefore marks written = 0 → fault.place = placeAsWritten text misfit.offset) := by
  obtain ⟨misfit, hfirst, rfl⟩ := exists_misfit_of_fault h
  obtain ⟨hne, before, after, hplain, hoffset⟩ :=
    Source.exists_of_mem_misfits (List.mem_of_mem_head? hfirst)
  have hprefix : misfit.line <+: (Source.strip text.toList).plain.drop misfit.offset := by
    rw [hplain, hoffset, List.drop_left]
    exact List.prefix_append _ _
  have hchar : text.toList[writtenOffset (Layout.ofText text.toList).marks misfit.offset]? =
      misfit.line.head? := by
    -- the offending line is not empty, so it begins with the character at the offset
    obtain ⟨later, hlater⟩ := hprefix
    obtain ⟨c, line, hc⟩ := List.exists_cons_of_ne_nil hne
    rw [Source.getElem?_strip_written, ← List.head?_drop, ← hlater, hc]
    rfl
  have hline := Source.lineNumber_strip_written text.toList misfit.offset
  have hcolumn := Source.columnNumber_strip_written_iff
    (show misfit.offset ≤ (Source.strip text.toList).plain.length by
      rw [hplain, hoffset, List.length_append]
      omega)
  have hiff : (misfit.fault (Source.strip text.toList).placeAt).place =
        placeAsWritten text misfit.offset ↔
      joinedBefore (Layout.ofText text.toList).marks
          (writtenOffset (Layout.ofText text.toList).marks misfit.offset) =
        commentBefore (Layout.ofText text.toList).marks
          (writtenOffset (Layout.ofText text.toList).marks misfit.offset) := by
    rw [← hcolumn]
    simp only [Misfit.fault, Source.placeAt, placeAsWritten, hline, Place.mk.injEq,
      Option.some.injEq, Int.ofNat_inj, true_and]
  refine ⟨misfit, hfirst, rfl, hne, hprefix, hchar, rfl, ?_, hiff, ?_⟩
  · simp only [Misfit.fault, Source.placeAt, placeAsWritten, hline]
  · intro hnone
    rw [hiff, hnone]
    exact joinedBefore_eq_zero (Layout.closesLines_ofText _) hnone

/-- A comment of two lines before the entity moves the fault to the line on which it is written. -/
theorem parse_fault_place_after_comment :
    (parse true "/* two\nlines */ entity A \x7b\n  !\n\x7d").outcome =
        .error ⟨.malformedField "A" "!", ⟨none, some 3, some 3⟩⟩ ∧
      placeAsWritten "/* two\nlines */ entity A \x7b\n  !\n\x7d" 14 = ⟨none, some 3, some 3⟩ := by
  have hmisfit : (Source.strip "/* two\nlines */ entity A \x7b\n  !\n\x7d".toList).misfits.head? =
      some ⟨"A", ['!'], 14⟩ := by decide +kernel
  obtain ⟨misfit, hfirst, hcause, -, -, -, -, -, -, hplace⟩ :=
    parse_fault_place _ (parse_of_misfit hmisfit)
  obtain rfl : misfit = ⟨"A", ['!'], 14⟩ := Option.some.inj (hfirst.symm.trans hmisfit)
  have hwritten : placeAsWritten "/* two\nlines */ entity A \x7b\n  !\n\x7d" 14 =
      ⟨none, some 3, some 3⟩ := by decide +kernel
  refine ⟨?_, hwritten⟩
  rw [parse_of_misfit hmisfit, ← hwritten, ← hplace (by decide +kernel)]
  rfl

/-- The comment on the line of the misfit is seven characters long, and the column that the fault
names is too small by seven. -/
theorem parse_fault_column_ne :
    (parse true "entity A \x7b\n/* c */ !\n\x7d").outcome =
        .error ⟨.malformedField "A" "!", ⟨none, some 2, some 2⟩⟩ ∧
      (Source.strip "entity A \x7b\n/* c */ !\n\x7d".toList).misfits.head? = some ⟨"A", ['!'], 12⟩ ∧
      placeAsWritten "entity A \x7b\n/* c */ !\n\x7d" 12 = ⟨none, some 2, some 9⟩ := by
  have hmisfit : (Source.strip "entity A \x7b\n/* c */ !\n\x7d".toList).misfits.head? =
      some ⟨"A", ['!'], 12⟩ := by decide +kernel
  have hplace : (Source.strip "entity A \x7b\n/* c */ !\n\x7d".toList).placeAt 12 =
      ⟨none, some 2, some 2⟩ := by decide +kernel
  refine ⟨?_, hmisfit, by decide +kernel⟩
  rw [parse_of_misfit hmisfit, ← hplace]
  rfl

end EntityScaffold.Document
