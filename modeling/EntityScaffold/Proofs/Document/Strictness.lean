import EntityScaffold.Document.Parse

/-!
# Strict and lenient reading

A strict reading and a lenient one of the same document go through the same lines. They part at the
first *misfit*: a line of a live entity that would have to be a field and is none. The lenient
reading notes it and goes on, the strict one ends there with a fault.

`Agreement` says this of two reports for a list of misfits, and it composes along `andThen`
(`Agreement.andThen`): the list of a sequence is the lists of its parts one after the other. The
proof then follows the readers, and each one adds the misfits of what it reads: the lines of a body,
the entities of a text, the three passes of a document (`parse_agreement`). That a later declaration
of the same name throws the fields of an earlier one away plays no part in it, as no list depends
on a value that was read.
-/

namespace EntityScaffold

/-! ## Records of misfits -/

/-- What the text of a record begins with, by its kind. -/
def Log.Kind.mark : Log.Kind → List Char
  | .skip => "  [SKIP] ".toList
  | .warn => "  [WARN] ".toList
  | .step => "  -> ".toList
  | .generated => "[GENERATED] ".toList

theorem Log.toList_tag (label message : String) (indent : Int) :
    (Log.tag label message indent).toList = List.replicate indent.toNat ' ' ++
      ('[' :: label.toList ++ (']' :: ' ' :: message.toList)) := by
  simp [Log.tag, toString]

theorem Log.Kind.toList_shape (kind : Log.Kind) (message : String) :
    (kind.shape message).toList = kind.mark ++ message.toList := by
  cases kind with
  | step =>
    have h : Log.Kind.step.shape message = "  -> " ++ message := rfl
    rw [h, String.toList_append]
    rfl
  | skip => exact Log.toList_tag "SKIP" message 2
  | warn => exact Log.toList_tag "WARN" message 2
  | generated => exact Log.toList_tag "GENERATED" message 0

/-- The words with which the record of a misfit begins. -/
def misfitWords : List Char := "  [SKIP] Not a field in ".toList

/-- Does a record of the log report a misfit? -/
def Log.Record.reportsMisfit (record : Log.Record) : Bool :=
  misfitWords.isPrefixOf record.text.toList

theorem Note.reportsMisfit_record_eq (note : Note) :
    note.record.reportsMisfit = misfitWords.isPrefixOf (note.kind.mark ++ note.message.toList) := by
  rw [← Log.Kind.toList_shape]
  rfl

/-- A misfit is reported, and by no other note. -/
theorem Note.reportsMisfit_record (note : Note) :
    note.record.reportsMisfit = true ↔ ∃ entity line, note = .notAField entity line := by
  rw [Note.reportsMisfit_record_eq]
  cases note with
  | notAField entity line =>
    have hmessage : (Note.notAField entity line).message.toList =
        "Not a field in ".toList ++ ((entity ++ ": ").toList ++ (Text.quoted line).toList) := by
      rw [← String.toList_append, ← String.toList_append, ← String.append_assoc]
      rfl
    rw [hmessage]
    exact iff_of_true (by rfl) ⟨entity, line, rfl⟩
  | skippedDeclaration line =>
    have hmessage : (Note.skippedDeclaration line).message.toList =
        "Commented declaration at line ".toList ++ (toString line).toList := by
      rw [← String.toList_append]
      rfl
    rw [hmessage]
    exact iff_of_false (Bool.eq_false_iff.mp (by rfl)) (by simp)
  | _ => exact iff_of_false (Bool.eq_false_iff.mp (by rfl)) (by simp)

namespace Document

/-! ## Misfits -/

/-- A line that would have to be a field of its entity and is none. The offset is that of its first
character in the kept text. -/
structure Misfit where
  entity : String
  line : List Char
  offset : Nat
deriving DecidableEq, Repr

namespace Misfit

/-- What a lenient reading says about a misfit. -/
def note (misfit : Misfit) : Note := .notAField misfit.entity (String.ofList misfit.line)

/-- How a strict reading ends at a misfit. -/
def fault (placeAt : Nat → Place) (misfit : Misfit) : Fault :=
  ⟨.malformedField misfit.entity (String.ofList misfit.line), placeAt misfit.offset⟩

end Misfit

/-- Is a line neither idle nor a field? Which enumerations there are does not matter to that. -/
def BodyLine.isMisfit (line : BodyLine) : Bool :=
  !line.isIdle && (readField [] line.text).isNone

/-- The misfits of an entity that a scan found. -/
def Occurrence.misfits (occurrence : Occurrence Block) : List Misfit :=
  ((bodyLines occurrence.value.body).filter BodyLine.isMisfit).map fun line =>
    ⟨String.ofList occurrence.value.name, line.text, occurrence.bodyStart + line.offset⟩

/-- The misfits of a text, in order: those of all entities that are not commented out, also of
those that a later declaration replaces. -/
def Source.misfits (source : Source) : List Misfit :=
  ((occurrences readEntity source.plain).filter fun occurrence =>
    !isCommented source.plain occurrence.start).flatMap Occurrence.misfits

/-- How a strict reading ends: at the first misfit, and otherwise as the lenient one. -/
def endAtFirst {α : Type} (placeAt : Nat → Place) (misfits : List Misfit)
    (otherwise : Except Fault α) : Except Fault α :=
  match misfits with
  | [] => otherwise
  | misfit :: _ => .error (misfit.fault placeAt)

/-! ## Agreement of two reports -/

/-- A strict report agrees with a lenient one up to misfits. -/
structure Agreement {α : Type} (placeAt : Nat → Place) (misfits : List Misfit)
    (strict lenient : Report Fault α) : Prop where
  /-- The lenient reading ends with a value. -/
  succeeds : ∃ value, lenient.outcome = .ok value
  /-- It says of each misfit that it is one, and of nothing else. -/
  notes : (lenient.notes.filter fun note => note.record.reportsMisfit) = misfits.map Misfit.note
  /-- The strict reading ends at the first misfit, or as the lenient one if there is none. -/
  outcome : strict.outcome = endAtFirst placeAt misfits lenient.outcome

section Agreement

variable {α β : Type} {placeAt : Nat → Place} {misfits later : List Misfit}

/-- A report that ends with a value and is silent about misfits agrees with itself. -/
theorem Agreement.refl {report : Report Fault α} {value : α} (h : report.outcome = .ok value)
    (hnotes : ∀ note ∈ report.notes, note.record.reportsMisfit = false) :
    Agreement placeAt [] report report where
  succeeds := ⟨value, h⟩
  notes := by
    rw [List.map_nil, List.filter_eq_nil_iff]
    intro note hnote
    simpa using hnotes note hnote
  outcome := rfl

theorem Agreement.ok (value : α) : Agreement placeAt [] (.ok value) (.ok value) :=
  .refl rfl (by simp [Report.ok])

/-- **Sequencing.** The misfits of two steps are those of the first and then those of the second. -/
theorem Agreement.andThen {strict lenient : Report Fault α} {next next' : α → Report Fault β}
    (h : Agreement placeAt misfits strict lenient)
    (hnext : ∀ value, Agreement placeAt later (next value) (next' value)) :
    Agreement placeAt (misfits ++ later) (strict.andThen next) (lenient.andThen next') := by
  obtain ⟨value, hvalue⟩ := h.succeeds
  have hsecond := hnext value
  have hlenient : lenient.andThen next' =
      ⟨lenient.notes ++ (next' value).notes, (next' value).outcome⟩ := by
    unfold Report.andThen
    rw [hvalue]
  refine ⟨?_, ?_, ?_⟩
  · rw [hlenient]
    exact hsecond.succeeds
  · rw [hlenient, List.filter_append, h.notes, hsecond.notes, List.map_append]
  · have houtcome := h.outcome
    cases misfits with
    | nil =>
      -- no misfit so far: the second step of both readings starts from one value
      rw [hlenient, Report.andThen, houtcome, endAtFirst, hvalue]
      exact hsecond.outcome
    | cons misfit misfits =>
      -- the strict reading has ended, and the lenient one only adds what it says later
      unfold Report.andThen
      rw [houtcome]
      rfl

/-- Agreement only looks at how the strict report ends. -/
theorem Agreement.say {note : Note} {strict lenient : Report Fault α}
    (hnote : note.record.reportsMisfit = false) (h : Agreement placeAt misfits strict lenient) :
    Agreement placeAt misfits ((Report.say note).andThen fun _ => strict)
      ((Report.say note).andThen fun _ => lenient) := by
  have hend : (Report.say note : Report Fault Unit).outcome = .ok () := rfl
  have hsay : Agreement placeAt [] (Report.say note) (Report.say note) :=
    .refl hend (by simpa [Report.say] using hnote)
  simpa using hsay.andThen fun _ => h

end Agreement

/-! ## The lines of a body -/

/-- Whether a line is a field does not depend on the enumerations. -/
theorem readField_eq_none_iff (enumNames : List String) (line : List Char) :
    readField enumNames line = none ↔ readField [] line = none := by
  simp only [readField, Option.bind_eq_bind, Option.bind_eq_none_iff, Option.pure_def, reduceCtorEq]

theorem isMisfit_iff (enumNames : List String) {line : BodyLine} (h : line.isIdle = false) :
    line.isMisfit = true ↔ readField enumNames line.text = none := by
  rw [readField_eq_none_iff]
  simp [BodyLine.isMisfit, h]

/-- The lines of a body, read strictly and leniently. Offsets in the body that starts at `start`
become offsets in the kept text. -/
theorem readLines_agreement (entity : String) (enumNames : List String) (placeAt : Nat → Place)
    (start : Nat) (lines : List BodyLine) :
    Agreement placeAt
      ((lines.filter BodyLine.isMisfit).map fun line => ⟨entity, line.text, start + line.offset⟩)
      (BodyReading.readLines ⟨entity, enumNames, true, fun offset => placeAt (start + offset)⟩
        lines)
      (BodyReading.readLines ⟨entity, enumNames, false, fun offset => placeAt (start + offset)⟩
        lines) := by
  induction lines with
  | nil => exact .ok []
  | cons line later ih =>
    by_cases hidle : line.isIdle = true
    · have hfit : line.isMisfit = false := by simp [BodyLine.isMisfit, hidle]
      simpa only [BodyReading.readLines, hidle, if_true, List.filter_cons, hfit,
        Bool.false_eq_true, if_false] using ih
    · rw [Bool.not_eq_true] at hidle
      cases hread : readField enumNames line.text with
      | some field =>
        have hfit : line.isMisfit = false := by
          rw [Bool.eq_false_iff, ne_eq, isMisfit_iff enumNames hidle, hread]
          simp
        have hcons := ih.andThen fun fields =>
          (.ok (field :: fields) : Agreement placeAt [] _ _)
        simpa only [BodyReading.readLines, hidle, hread, Bool.false_eq_true, if_false,
          List.filter_cons, hfit, List.append_nil, Report.bind_eq_andThen,
          Report.pure_eq_ok] using hcons
      | none =>
        -- the strict reading ends here, and the lenient one goes on with the later lines
        have hmisfit : line.isMisfit = true := (isMisfit_iff enumNames hidle).mpr hread
        simp only [BodyReading.readLines, hidle, hread, Bool.false_eq_true, if_false, if_true,
          List.filter_cons, hmisfit, List.map_cons, Report.bind_eq_andThen, Report.say_andThen]
        have hreports : (Note.notAField entity (String.ofList line.text)).record.reportsMisfit =
            true := (Note.reportsMisfit_record _).mpr ⟨_, _, rfl⟩
        refine ⟨ih.succeeds, ?_, rfl⟩
        rw [List.filter_cons_of_pos (p := fun note : Note => note.record.reportsMisfit) hreports,
          ih.notes]
        rfl

/-! ## The entities of a text -/

/-- The occurrences that are not commented out, read one after the other. -/
theorem foldLive_agreement {α β : Type} (source : Source) {placeAt : Nat → Place}
    {step step' : β → Occurrence α → Report Fault β} {misfits : Occurrence α → List Misfit}
    (hstep : ∀ value occurrence,
      Agreement placeAt (misfits occurrence) (step value occurrence) (step' value occurrence))
    (value : β) (found : List (Occurrence α)) :
    Agreement placeAt
      ((found.filter fun occurrence => !isCommented source.plain occurrence.start).flatMap misfits)
      (foldLive source step value found) (foldLive source step' value found) := by
  induction found generalizing value with
  | nil => exact .ok value
  | cons occurrence later ih =>
    by_cases hdead : isCommented source.plain occurrence.start = true
    · -- a commented declaration is noted, and its body is not looked at
      have hnote : (Note.skippedDeclaration
          (source.lineNumber occurrence.start)).record.reportsMisfit = false := by
        rw [Bool.eq_false_iff, ne_eq, Note.reportsMisfit_record]
        simp
      simpa only [foldLive, hdead, if_true, List.filter_cons, Bool.not_true, Bool.false_eq_true,
        if_false, Report.bind_eq_andThen] using (ih value).say hnote
    · rw [Bool.not_eq_true] at hdead
      have hboth := (hstep value occurrence).andThen fun next => ih next
      simpa only [foldLive, hdead, Bool.false_eq_true, if_false, List.filter_cons, Bool.not_false,
        if_true, List.flatMap_cons, Report.bind_eq_andThen] using hboth

theorem applyAudit_agreement (placeAt : Nat → Place) (entity : Entity) :
    Agreement placeAt [] (applyAudit entity) (applyAudit entity) := by
  unfold applyAudit
  cases entity.audit with
  | none => exact .ok entity
  | enabled =>
    have hnote : (Note.auditEnabled entity.name).record.reportsMisfit = false := by
      rw [Bool.eq_false_iff, ne_eq, Note.reportsMisfit_record]
      simp
    exact (Agreement.ok _).say hnote

theorem readEntityAt_agreement (source : Source) (enumNames : List String)
    (occurrence : Occurrence Block) :
    Agreement source.placeAt occurrence.misfits (readEntityAt source enumNames true occurrence)
      (readEntityAt source enumNames false occurrence) := by
  have hlines := readLines_agreement (String.ofList occurrence.value.name) enumNames
    source.placeAt occurrence.bodyStart (bodyLines occurrence.value.body)
  have hboth := hlines.andThen fun fields => applyAudit_agreement source.placeAt
    ⟨String.ofList occurrence.value.name, fields, auditModeOf occurrence.text⟩
  rw [List.append_nil] at hboth
  exact hboth

theorem readEntities_agreement (source : Source) (enumNames : List String) :
    Agreement source.placeAt source.misfits (readEntities source enumNames true)
      (readEntities source enumNames false) :=
  foldLive_agreement source (fun entities occurrence => by
    have hput := (readEntityAt_agreement source enumNames occurrence).andThen fun entity =>
      Agreement.ok (entities.put entity)
    rw [List.append_nil] at hput
    exact hput) _ _

/-! ## Documents -/

/-- A pass whose steps neither fail nor say anything has no misfits. -/
theorem foldLive_agreement_of_ok {α β : Type} (source : Source) (placeAt : Nat → Place)
    (step : β → Occurrence α → β) (value : β) (found : List (Occurrence α)) :
    Agreement placeAt [] (foldLive source (fun value occurrence => .ok (step value occurrence))
      value found) (foldLive source (fun value occurrence => .ok (step value occurrence))
      value found) := by
  have h := foldLive_agreement source
    (fun value occurrence => (.ok (step value occurrence) : Agreement placeAt [] _ _)) value found
  rw [List.flatMap_eq_nil_iff.mpr fun _ _ => rfl] at h
  exact h

/-- A strict and a lenient reading of a document agree up to the misfits of its kept text. -/
theorem parse_agreement (text : String) :
    Agreement (Source.strip text.toList).placeAt (Source.strip text.toList).misfits
      (parse true text) (parse false text) := by
  unfold parse
  have henums := foldLive_agreement_of_ok (Source.strip text.toList)
    (Source.strip text.toList).placeAt
    (fun (enums : Registry Enumeration) occurrence => enums.put occurrence.value.enumeration)
    .empty (occurrences readEnum (Source.strip text.toList).plain)
  have hrelationships := foldLive_agreement_of_ok (Source.strip text.toList)
    (Source.strip text.toList).placeAt
    (fun (found : List Relationship) occurrence => found ++ [occurrence.value])
    [] (occurrences readRelationship (Source.strip text.toList).plain)
  have hlast : ∀ enums entities, Agreement (Source.strip text.toList).placeAt []
      (do
        let relationships ← readRelationships (Source.strip text.toList)
        return (⟨entities, enums, relationships, none⟩ : Model))
      (do
        let relationships ← readRelationships (Source.strip text.toList)
        return (⟨entities, enums, relationships, none⟩ : Model)) := fun enums entities =>
    hrelationships.andThen fun relationships =>
      Agreement.ok (⟨entities, enums, relationships, none⟩ : Model)
  have hall := henums.andThen fun enums =>
    (readEntities_agreement (Source.strip text.toList) enums.names).andThen (hlast enums)
  rw [List.nil_append, List.append_nil] at hall
  exact hall

/-- **Strict and lenient parsing agree.** A document always has a lenient model. The strict reading
has a model just if the log of the lenient one reports no misfit, and then it is the same model;
otherwise it ends with the entity and the line of the first misfit that the log reports. -/
theorem parse_strict_eq_lenient (text : String) :
    ∃ model, (parse false text).outcome = .ok model ∧
      ((∃ model', (parse true text).outcome = .ok model') ↔
        ∀ note ∈ (parse false text).notes, note.record.reportsMisfit = false) ∧
      (∀ model', (parse true text).outcome = .ok model' → model' = model) ∧
      ∀ fault, (parse true text).outcome = .error fault →
        ∃ entity line, fault.cause = .malformedField entity line ∧
          ((parse false text).notes.find? fun note => note.record.reportsMisfit) =
            some (.notAField entity line) := by
  obtain ⟨⟨model, hmodel⟩, hnotes, houtcome⟩ := parse_agreement text
  refine ⟨model, hmodel, ?_⟩
  cases hmisfits : (Source.strip text.toList).misfits with
  | nil =>
    rw [hmisfits, endAtFirst, hmodel] at houtcome
    rw [hmisfits, List.map_nil, List.filter_eq_nil_iff] at hnotes
    rw [houtcome]
    refine ⟨iff_of_true ⟨model, rfl⟩ ?_, by simp, by simp⟩
    intro note hnote
    simpa using hnotes note hnote
  | cons misfit misfits =>
    rw [hmisfits, endAtFirst] at houtcome
    rw [hmisfits, List.map_cons] at hnotes
    have hmem : misfit.note ∈ (parse false text).notes.filter
        fun note => note.record.reportsMisfit := by
      rw [hnotes]
      exact List.mem_cons_self
    rw [houtcome]
    refine ⟨iff_of_false (by simp) ?_, by simp, ?_⟩
    · intro hsilent
      obtain ⟨hnote, hreports⟩ := List.mem_filter.mp hmem
      rw [hsilent _ hnote] at hreports
      exact absurd hreports (by simp)
    · intro fault hfault
      obtain rfl : misfit.fault (Source.strip text.toList).placeAt = fault := by
        simpa using hfault
      refine ⟨misfit.entity, String.ofList misfit.line, rfl, ?_⟩
      rw [← List.head?_filter, hnotes]
      rfl

end Document

end EntityScaffold
