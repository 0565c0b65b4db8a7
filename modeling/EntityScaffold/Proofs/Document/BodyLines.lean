import EntityScaffold.Proofs.Document.Body
import EntityScaffold.Proofs.Document.CommentLine
import EntityScaffold.Proofs.Text.Position

/-!
# The lines of a body

A reading of a body counts along at which offset a line starts. The count goes on by a line and its
line feed whatever is made of the line, so behind any lines it is the length of the text that they
make up (`bodyLinesFrom_append`), and a line is given the offset of its first character that is no
blank (`FirstMisfit.exists_eq`).

What a line does depends on the line alone. Most lines fit: such a line adds the field that is on
it, if there is one, and nothing is said (`readLines_cons_of_fit`). The others are misfits, and only
there a strict reading differs from a lenient one (`readLines_cons_of_misfit`). So a strict reading
goes through the lines that fit like any other (`readLines_append`) and ends at the first misfit,
with the place of its offset (`body_read_exactly`). In a body that is read by itself this is a line
and a column, which the count of line feeds and the blanks before the text tell
(`FirstMisfit.placeInBody_eq`).
-/

namespace EntityScaffold.Document

open Text

/-! ## Kinds of lines -/

/-- A line that declares nothing and need not: it is blank, or trimmed it begins with the comment
sign. -/
def IsIdleLine (line : List Char) : Prop :=
  (∀ c ∈ line, isBlank c = true) ∨ commentSign <+: trim line

instance (line : List Char) : Decidable (IsIdleLine line) := inferInstanceAs (Decidable (_ ∨ _))

/-- The field on a line, if there is one. -/
def fieldOnLine (enumNames : List String) (line : List Char) : Option Field :=
  if IsIdleLine line then none else readField enumNames (trim line)

/-- A line that is neither idle nor a field. -/
def IsMisfitLine (enumNames : List String) (line : List Char) : Prop :=
  ¬IsIdleLine line ∧ readField enumNames (trim line) = none

instance (enumNames : List String) (line : List Char) : Decidable (IsMisfitLine enumNames line) :=
  inferInstanceAs (Decidable (_ ∧ _))

theorem isIdle_iff (offset : Nat) (line : List Char) :
    (BodyLine.mk offset (trim line)).isIdle = true ↔ IsIdleLine line := by
  rw [BodyLine.isIdle, IsIdleLine, Bool.or_eq_true, List.isEmpty_iff, trim_eq_nil_iff,
    startsComment, List.isPrefixOf_iff_prefix]

/-! ## Offsets -/

/-- The blanks that a line begins with. -/
def indentOf (line : List Char) : List Char := line.takeWhile isBlank

/-- The offset of the first character of a line that is no blank, by the lines before it. -/
def textOffset (earlier : List (List Char)) (line : List Char) : Nat :=
  (linesOfParts earlier ++ indentOf line).length

theorem indentOf_append_trimStart (line : List Char) : indentOf line ++ trimStart line = line :=
  List.takeWhile_append_dropWhile

/-- The count goes on by the text of the lines that it has gone over. -/
theorem bodyLinesFrom_append (start : Nat) (earlier later : List (List Char)) :
    bodyLinesFrom start (earlier ++ later) =
      bodyLinesFrom start earlier ++ bodyLinesFrom (start + (linesOfParts earlier).length) later := by
  induction earlier generalizing start with
  | nil => rfl
  | cons line earlier ih =>
    have hlength : (linesOfParts (line :: earlier)).length =
        line.length + 1 + (linesOfParts earlier).length := by
      rw [linesOfParts, List.flatMap_cons, List.length_append, List.length_append,
        List.length_singleton, linesOfParts]
    rw [List.cons_append, bodyLinesFrom, bodyLinesFrom, ih, hlength, List.cons_append]
    simp only [Nat.add_assoc]

/-- Whole lines leave nothing on the last one. -/
theorem lastLine_linesOfParts (earlier : List (List Char)) :
    lastLine (linesOfParts earlier) = [] := by
  rcases List.eq_nil_or_concat earlier with rfl | ⟨before, last, rfl⟩
  · rfl
  · rw [List.concat_eq_append, linesOfParts, List.flatMap_append, List.flatMap_singleton,
      ← List.append_assoc, lastLine_append_lineFeed]

/-- A line after others, with the offset of its text. -/
theorem exists_bodyLines_eq {body : List Char} {earlier : List (List Char)} {line : List Char}
    (h : earlier ++ [line] <+: lines body) :
    ∃ later, bodyLines body =
      bodyLinesFrom 0 earlier ++ ⟨textOffset earlier line, trim line⟩ :: later := by
  obtain ⟨later, hlater⟩ := h
  have hindent : line.length - (trimStart line).length = (indentOf line).length := by
    have hlength := congrArg List.length (indentOf_append_trimStart line)
    rw [List.length_append] at hlength
    omega
  rw [bodyLines, ← hlater, List.append_assoc, bodyLinesFrom_append, List.singleton_append,
    bodyLinesFrom, hindent, Nat.zero_add, textOffset, List.length_append]
  exact ⟨_, rfl⟩

/-- A body goes on with a line after the text of the lines before it. -/
theorem exists_body_eq {body : List Char} {earlier : List (List Char)} {line : List Char}
    (h : earlier ++ [line] <+: lines body) :
    ∃ after, body = linesOfParts earlier ++ (line ++ after) := by
  obtain ⟨later, hlater⟩ := h
  have hwhole : (linesOfParts earlier ++ line) ++ '\n' :: linesOfParts later = body ++ ['\n'] := by
    have htext : textOfParts (lines body) = body := List.intercalate_splitOn '\n'
    have hfeed := textOfParts_append_lineFeed (List.splitOn_ne_nil '\n' body)
    rw [← lines, htext, ← hlater, List.append_assoc, List.singleton_append,
      linesOfParts_append_cons] at hfeed
    rw [hfeed, List.append_assoc]
  obtain ⟨after, -, hbody⟩ := exists_of_append_eq_concat (List.cons_ne_nil _ _) hwhole
  exact ⟨after, by rw [hbody, List.append_assoc]⟩

/-! ## Steps of a reading -/

section Steps

variable (reading : BodyReading) {line : List Char}

/-- A line that fits adds the field on it, if there is one. -/
theorem readLines_cons_of_fit (h : ¬IsMisfitLine reading.enumNames line) (offset : Nat)
    (later : List BodyLine) :
    reading.readLines (⟨offset, trim line⟩ :: later) =
      (reading.readLines later).andThen fun fields =>
        .ok ((fieldOnLine reading.enumNames line).toList ++ fields) := by
  rw [BodyReading.readLines]
  by_cases hidle : IsIdleLine line
  · rw [if_pos ((isIdle_iff offset line).mpr hidle), fieldOnLine, if_pos hidle]
    exact (Report.andThen_ok _).symm
  · rw [if_neg (mt (isIdle_iff offset line).mp hidle), fieldOnLine, if_neg hidle]
    cases hread : readField reading.enumNames (trim line) with
    | none => exact absurd ⟨hidle, hread⟩ h
    | some field => rfl

/-- A misfit ends a strict reading, and is noted and passed over by a lenient one. -/
theorem readLines_cons_of_misfit (h : IsMisfitLine reading.enumNames line) (offset : Nat)
    (later : List BodyLine) :
    reading.readLines (⟨offset, trim line⟩ :: later) =
      if reading.strict then
        .fail ⟨.malformedField reading.entity (String.ofList (trim line)), reading.placeAt offset⟩
      else
        (Report.say (.notAField reading.entity (String.ofList (trim line)))).andThen fun _ =>
          reading.readLines later := by
  obtain ⟨hidle, hread⟩ := h
  rw [BodyReading.readLines, if_neg (mt (isIdle_iff offset line).mp hidle), hread]
  rfl

end Steps

/-! ## Readings -/

/-- The fields on the lines of a body, in order. -/
def fieldsOfBody (enumNames : List String) (body : List Char) : List Field :=
  (lines body).filterMap (fieldOnLine enumNames)

/-- Lines that fit add the fields on them to those of the lines that follow. -/
theorem readLines_append (reading : BodyReading) {earlier : List (List Char)}
    (h : ∀ line ∈ earlier, ¬IsMisfitLine reading.enumNames line) (start : Nat)
    (later : List BodyLine) :
    reading.readLines (bodyLinesFrom start earlier ++ later) =
      (reading.readLines later).andThen fun fields =>
        .ok (earlier.filterMap (fieldOnLine reading.enumNames) ++ fields) := by
  induction earlier generalizing start with
  | nil => exact (Report.andThen_ok _).symm
  | cons line earlier ih =>
    obtain ⟨hline, hearlier⟩ := List.forall_mem_cons.mp h
    rw [bodyLinesFrom, List.cons_append, readLines_cons_of_fit reading hline, ih hearlier,
      Report.andThen_assoc]
    simp only [Report.ok_andThen, List.filterMap_eq_flatMap_toList, List.flatMap_cons,
      List.append_assoc]

/-- A lenient reading takes the fields and notes the misfits. -/
theorem readLines_of_lenient (reading : BodyReading) (hlenient : reading.strict = false)
    (start : Nat) (ls : List (List Char)) :
    reading.readLines (bodyLinesFrom start ls) =
      ⟨(ls.filter fun line => IsMisfitLine reading.enumNames line).map fun line =>
          .notAField reading.entity (String.ofList (trim line)),
        .ok (ls.filterMap (fieldOnLine reading.enumNames))⟩ := by
  induction ls generalizing start with
  | nil => rfl
  | cons line later ih =>
    rw [bodyLinesFrom]
    by_cases hmisfit : IsMisfitLine reading.enumNames line
    · have hnone : fieldOnLine reading.enumNames line = none := by
        rw [fieldOnLine, if_neg hmisfit.1, hmisfit.2]
      rw [readLines_cons_of_misfit reading hmisfit, hlenient, if_neg Bool.false_ne_true, ih,
        List.filter_cons_of_pos (by simpa using hmisfit), List.filterMap_cons_none hnone]
      rfl
    · rw [readLines_cons_of_fit reading hmisfit, ih,
        List.filter_cons_of_neg (by simpa using hmisfit)]
      simp only [Report.andThen, Report.ok, List.append_nil, List.filterMap_eq_flatMap_toList,
        List.flatMap_cons]

/-- The first misfit of a body is on `line`, and `earlier` are the lines before it. -/
structure FirstMisfit (enumNames : List String) (body : List Char) (earlier : List (List Char))
    (line : List Char) : Prop where
  comes_next : earlier ++ [line] <+: lines body
  misfit : IsMisfitLine enumNames line
  earlier_fit : ∀ other ∈ earlier, ¬IsMisfitLine enumNames other

/-- Either all lines of a body fit or one of them is the first misfit. -/
theorem fit_or_exists_firstMisfit (enumNames : List String) (body : List Char) :
    (∀ line ∈ lines body, ¬IsMisfitLine enumNames line) ∨
      ∃ earlier line, FirstMisfit enumNames body earlier line := by
  cases hfind : (lines body).find? (IsMisfitLine enumNames ·) with
  | none => exact .inl (by simpa using hfind)
  | some line =>
    obtain ⟨hmisfit, earlier, later, hlines, hearlier⟩ := List.find?_eq_some_iff_append.mp hfind
    refine .inr ⟨earlier, line, ⟨later, ?_⟩, by simpa using hmisfit, by simpa using hearlier⟩
    rw [hlines, List.append_assoc, List.singleton_append]

/-- A body without misfits is read as its fields, strictly or not. -/
theorem read_of_fit (reading : BodyReading) {body : List Char}
    (h : ∀ line ∈ lines body, ¬IsMisfitLine reading.enumNames line) :
    reading.read body = .ok (fieldsOfBody reading.enumNames body) := by
  have hread := readLines_append reading h 0 []
  rw [List.append_nil] at hread
  rw [BodyReading.read, bodyLines, hread, BodyReading.readLines, Report.pure_eq_ok,
    Report.ok_andThen, List.append_nil, fieldsOfBody]

namespace FirstMisfit

variable {enumNames : List String} {body : List Char} {earlier : List (List Char)}
  {line : List Char}

theorem mem_lines (h : FirstMisfit enumNames body earlier line) : line ∈ lines body :=
  h.comes_next.subset (by simp)

/-- A strict reading ends at the first misfit, at the offset of its text. -/
theorem read_eq (h : FirstMisfit enumNames body earlier line) (entity : String)
    (placeAt : Nat → Place) :
    BodyReading.read ⟨entity, enumNames, true, placeAt⟩ body =
      .fail ⟨.malformedField entity (String.ofList (trim line)),
        placeAt (textOffset earlier line)⟩ := by
  obtain ⟨later, hlater⟩ := exists_bodyLines_eq h.comes_next
  rw [BodyReading.read, hlater, readLines_append _ h.earlier_fit,
    readLines_cons_of_misfit _ h.misfit, if_pos rfl, Report.fail_andThen]

/-- The body up to the text of the first misfit, and the first character of that text. -/
theorem exists_eq (h : FirstMisfit enumNames body earlier line) :
    ∃ c after, body = linesOfParts earlier ++ indentOf line ++ c :: after ∧
      (trim line).head? = some c ∧ isBlank c = false := by
  obtain ⟨after, hafter⟩ := exists_body_eq h.comes_next
  have hne : trim line ≠ [] := fun hnil => h.misfit.1 (.inl (trim_eq_nil_iff.mp hnil))
  obtain ⟨c, text, htext⟩ := List.exists_cons_of_ne_nil hne
  obtain ⟨gap, -, hgap⟩ := exists_trimEnd (trimStart line)
  have hline : indentOf line ++ c :: (text ++ gap) = line := by
    rw [← List.cons_append, ← htext, trim, ← hgap, indentOf_append_trimStart]
  refine ⟨c, text ++ gap ++ after, ?_, by rw [htext]; rfl, (stops_trim line).1 c (by simp [htext])⟩
  calc body = linesOfParts earlier ++ ((indentOf line ++ c :: (text ++ gap)) ++ after) := by
        rw [hline, hafter]
    _ = linesOfParts earlier ++ indentOf line ++ c :: (text ++ gap ++ after) := by
        simp only [List.append_assoc, List.cons_append]

/-- The body up to the offset of the first misfit. -/
theorem take_textOffset (h : FirstMisfit enumNames body earlier line) :
    body.take (textOffset earlier line) = linesOfParts earlier ++ indentOf line := by
  obtain ⟨c, after, hbody, -⟩ := h.exists_eq
  rw [hbody, textOffset, List.take_left]

/-- The place of the first misfit in a body that is read by itself. -/
theorem placeInBody_eq (h : FirstMisfit enumNames body earlier line) (firstLine : Int) :
    placeInBody firstLine body (textOffset earlier line) =
      ⟨none, some (firstLine + ((linesOfParts earlier).count '\n' : Nat)),
        some (1 + (indentOf line).length : Nat)⟩ := by
  obtain ⟨c, after, hbody, -⟩ := h.exists_eq
  have hle : textOffset earlier line ≤ body.length := by
    have hlength := congrArg List.length hbody
    rw [List.length_append] at hlength
    rw [textOffset, hlength]
    exact Nat.le_add_right _ _
  have hfeed : '\n' ∉ indentOf line := fun hmem =>
    not_mem_of_mem_splitOn h.mem_lines (List.takeWhile_subset _ hmem)
  rw [placeInBody, columnNumber_eq hle, lineBefore, h.take_textOffset, lastLine_append hfeed,
    lastLine_linesOfParts, List.count_append, List.count_eq_zero_of_not_mem hfeed,
    List.nil_append, Nat.add_zero, Nat.add_comm 1]

end FirstMisfit

/-- A strict reading fails at the first misfit, and only there. -/
theorem outcome_read_eq_error_iff (entity : String) (enumNames : List String) (body : List Char)
    (placeAt : Nat → Place) (fault : Fault) :
    (BodyReading.read ⟨entity, enumNames, true, placeAt⟩ body).outcome = .error fault ↔
      ∃ earlier line, FirstMisfit enumNames body earlier line ∧
        fault = ⟨.malformedField entity (String.ofList (trim line)),
          placeAt (textOffset earlier line)⟩ := by
  constructor
  · intro hfault
    rcases fit_or_exists_firstMisfit enumNames body with hfit | ⟨earlier, line, hfirst⟩
    · rw [read_of_fit _ hfit] at hfault
      contradiction
    · rw [hfirst.read_eq] at hfault
      exact ⟨earlier, line, hfirst, (Except.error.inj hfault).symm⟩
  · rintro ⟨earlier, line, hfirst, rfl⟩
    rw [hfirst.read_eq]
    rfl

/-! ## Bodies -/

/-- How the body of an entity is read. -/
structure BodyReadExactly (entity : String) (enumNames : List String) (body : List Char) :
    Prop where
  /-- A lenient reading gives the fields on the lines, in order, and notes the misfits. It asks for
  no place. -/
  lenient : ∀ placeAt, BodyReading.read ⟨entity, enumNames, false, placeAt⟩ body =
    ⟨((lines body).filter fun line => IsMisfitLine enumNames line).map fun line =>
      .notAField entity (String.ofList (trim line)), .ok (fieldsOfBody enumNames body)⟩
  /-- A strict reading fails just if there is a misfit. -/
  fails_iff : ∀ placeAt,
    (∃ fault, (BodyReading.read ⟨entity, enumNames, true, placeAt⟩ body).outcome = .error fault) ↔
      ∃ line ∈ lines body, IsMisfitLine enumNames line
  /-- Otherwise it gives the same fields. -/
  fields : ∀ placeAt fields,
    (BodyReading.read ⟨entity, enumNames, true, placeAt⟩ body).outcome = .ok fields →
      fields = fieldsOfBody enumNames body
  /-- It fails with the text of the first misfit, and with the place of the offset of that text. -/
  located : ∀ placeAt fault,
    (BodyReading.read ⟨entity, enumNames, true, placeAt⟩ body).outcome = .error fault ↔
      ∃ earlier line, FirstMisfit enumNames body earlier line ∧
        fault = ⟨.malformedField entity (String.ofList (trim line)),
          placeAt (textOffset earlier line)⟩
  /-- The offset is that of the first character on the line that is no blank: before it are the
  lines before and the blanks that the line begins with. -/
  offset : ∀ earlier line, FirstMisfit enumNames body earlier line →
    body.take (textOffset earlier line) = linesOfParts earlier ++ indentOf line ∧
      ∃ c, body[textOffset earlier line]? = some c ∧ (trim line).head? = some c ∧
        isBlank c = false
  /-- The place in a body that is read by itself: the line is counted by the line feeds before it,
  and the column by those blanks. -/
  counted : ∀ firstLine fault,
    (BodyReading.read ⟨entity, enumNames, true, placeInBody firstLine body⟩ body).outcome =
        .error fault ↔
      ∃ earlier line, FirstMisfit enumNames body earlier line ∧
        fault = ⟨.malformedField entity (String.ofList (trim line)),
          ⟨none, some (firstLine + ((linesOfParts earlier).count '\n' : Nat)),
            some (1 + (indentOf line).length : Nat)⟩⟩

/-- **Bodies.** A lenient reading of a body takes the fields on its lines, and a strict one ends at
the first line that is neither idle nor a field. The offset that is counted along leads to the first
character on that line that is no blank, and from there to the line and the column. -/
theorem body_read_exactly (entity : String) (enumNames : List String) (body : List Char) :
    BodyReadExactly entity enumNames body := by
  have hlocated := outcome_read_eq_error_iff entity enumNames body
  constructor
  case lenient =>
    intro placeAt
    exact readLines_of_lenient _ rfl 0 (lines body)
  case fails_iff =>
    intro placeAt
    constructor
    · rintro ⟨fault, hfault⟩
      obtain ⟨earlier, line, hfirst, -⟩ := (hlocated placeAt fault).mp hfault
      exact ⟨line, hfirst.mem_lines, hfirst.misfit⟩
    · rintro ⟨line, hline, hmisfit⟩
      rcases fit_or_exists_firstMisfit enumNames body with hfit | ⟨earlier, line, hfirst⟩
      · exact absurd hmisfit (hfit line hline)
      · exact ⟨_, (hlocated placeAt _).mpr ⟨earlier, line, hfirst, rfl⟩⟩
  case fields =>
    intro placeAt fields hfields
    rcases fit_or_exists_firstMisfit enumNames body with hfit | ⟨earlier, line, hfirst⟩
    · rw [read_of_fit _ hfit] at hfields
      exact (Except.ok.inj hfields).symm
    · rw [hfirst.read_eq] at hfields
      contradiction
  case located => exact hlocated
  case offset =>
    intro earlier line hfirst
    obtain ⟨c, after, hbody, hhead, hsolid⟩ := hfirst.exists_eq
    refine ⟨hfirst.take_textOffset, c, ?_, hhead, hsolid⟩
    rw [hbody, textOffset, List.getElem?_append_right le_rfl, Nat.sub_self, List.getElem?_cons_zero]
  case counted =>
    intro firstLine fault
    rw [hlocated]
    refine exists_congr fun earlier => exists_congr fun line => and_congr_right fun hfirst => ?_
    rw [hfirst.placeInBody_eq]

/-- A vertical tab, an ideographic space and a space are three columns, and the lines of the field
and of the comment count. -/
example :
    let body := "\n name String\n // age Integer\n\x0b\u3000 garbage\r\n !\n".toList
    (BodyReading.read ⟨"User", [], true, placeInBody 5 body⟩ body).outcome =
      .error ⟨.malformedField "User" "garbage", ⟨none, some 8, some 4⟩⟩ := by
  decide +kernel

end EntityScaffold.Document
