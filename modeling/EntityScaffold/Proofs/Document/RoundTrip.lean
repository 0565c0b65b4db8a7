import EntityScaffold.Proofs.Document.Comment
import EntityScaffold.Proofs.Document.Live
import EntityScaffold.Proofs.Document.Scan
import EntityScaffold.Proofs.Document.Written

/-!
# Reading undoes writing

Declarations that are written one after the other are read back, whatever they are called and in
whatever order they come. The argument has three parts.

What a scan finds is read as what was declared: the values of an enumeration, the fields of an
entity and whether it is audited, the two ends of a relationship (`enumeration_enumBody`,
`outcome_readEntityAt`).

A scan finds the declarations of its own kind and nothing else (`ReadsOwn`). The invariant of the
induction is that a scan stands at the start of a line: there its own declaration is read as a
whole, another one is passed over character by character, and the line feed after either leads to
the start of a line again (`ReadsOwn.outcome_foldLive`). What starts a line is not commented out.

What is read goes into registries, which keep the last declaration of a name in the place of the
first (`Registry.items_ofList`).
-/

namespace EntityScaffold.Document

open Text

/-! ## Values -/

/-- The values of an enumeration are read back from its body. -/
theorem valuesOf_enumBody {values : List String} (h : ∀ value ∈ values, IsName value.toList) :
    valuesOf (enumBody values) = values.map String.toList := by
  have hindent : ∀ c ∈ "\n  ".toList, isBlank c = true := by decide
  have hend : ∀ c ∈ ['\n'], isBlank c = true := by decide
  rw [valuesOf, enumBody, trim_append_of_blank_right hend, ← valuesOf, valuesOf_intercalate]
  induction values with
  | nil => rfl
  | cons value later ih =>
    have hname := h value List.mem_cons_self
    have htrim : trim ("\n  ".toList ++ value.toList) = value.toList := by
      rw [trim_append_of_blank_left hindent, hname.trim_eq]
    have hlater := ih fun other hother => h other (List.mem_cons_of_mem _ hother)
    rw [List.map_cons, List.map_cons, List.flatMap_cons, hname.valuesOf_eq htrim, hlater]
    rfl

/-- The block that an enumeration is written as declares it. -/
theorem enumeration_enumBody {declared : Enumeration}
    (h : (Declaration.enumeration declared).WellFormed) :
    Block.enumeration ⟨declared.name.toList, enumBody declared.values⟩ = declared := by
  rw [Block.enumeration, valuesOf_enumBody h.2, List.map_map, String.ofList_toList]
  simp [Function.comp_def]

/-! ## Fields -/

/-- Rules end with no blank, and neither does what they follow. -/
theorem stops_reverse_spaced {word : List Char} (hne : word ≠ [])
    (hword : ∀ c ∈ word, isBlank c = false) {rules : List (List Char)}
    (h : ∀ rule ∈ rules, IsRuleWord rule) (before : List Char) :
    Stops isBlank (before ++ (word ++ rules.flatMap fun rule => ' ' :: rule)).reverse := by
  induction rules generalizing before word with
  | nil =>
    rw [List.flatMap_nil, List.append_nil]
    exact stops_reverse_append hne hword before
  | cons rule rules ih =>
    have hrule := h rule List.mem_cons_self
    have hlater := ih hrule.ne_nil hrule.solid (fun other hother => h other (by simp [hother]))
      (before ++ (word ++ [' ']))
    simpa only [List.flatMap_cons, List.append_assoc, List.cons_append, List.nil_append]
      using hlater

/-- What trimming leaves of a comment of a field, with the space before it. -/
def FieldDeclaration.trimmedComment (declared : FieldDeclaration) : List Char :=
  match declared.comment with
  | some comment => ' ' :: '/' :: '/' :: trimEnd (' ' :: comment.toList)
  | none => []

/-- What trimming leaves of the line of a field after the type. -/
def FieldDeclaration.tail (declared : FieldDeclaration) : List Char :=
  (declared.rules.map String.toList).flatMap (fun rule => ' ' :: rule) ++ declared.trimmedComment

theorem FieldDeclaration.tail_eq (declared : FieldDeclaration) :
    declared.tail = restText (declared.rules.map String.toList)
      (declared.comment.map fun comment => trimEnd (' ' :: comment.toList)) := by
  unfold FieldDeclaration.tail FieldDeclaration.trimmedComment
  cases declared.comment with
  | none => rfl
  | some comment => rfl

theorem IsRemark.trim_trimEnd {comment : List Char} (h : IsRemark comment) :
    trim (trimEnd (' ' :: comment)) = comment := by
  have hspace : ∀ c ∈ [' '], isBlank c = true := by decide
  obtain ⟨gap, hgap, heq⟩ := exists_trimEnd (' ' :: comment)
  calc trim (trimEnd (' ' :: comment))
      = trim (trimEnd (' ' :: comment) ++ gap) := (trim_append_of_blank_right hgap _).symm
    _ = trim ([' '] ++ comment) := by
        rw [← heq]
        rfl
    _ = comment := by rw [trim_append_of_blank_left hspace, h.trimmed]

theorem IsRemark.not_mem_trimEnd {comment : List Char} (h : IsRemark comment) :
    '\n' ∉ trimEnd (' ' :: comment) := by
  intro hmem
  obtain ⟨gap, -, heq⟩ := exists_trimEnd (' ' :: comment)
  have hall : '\n' ∈ ' ' :: comment := by
    rw [heq]
    exact List.mem_append_left gap hmem
  rcases List.mem_cons.mp hall with hspace | hcomment
  · exact absurd hspace (by simp)
  · exact h.line hcomment

section Field

variable {declared : FieldDeclaration} (h : declared.WellFormed)

include h

/-- Trimming takes away the indentation, and what a comment without a text leaves at the end. -/
theorem trim_fieldText :
    trim ("  ".toList ++ declared.text) =
      declared.name.toList ++ ([' '] ++ (declared.type.toList ++ declared.tail)) := by
  have hindent : ∀ c ∈ "  ".toList, isBlank c = true := by decide
  rw [trim_append_of_blank_left hindent]
  cases hcomment : declared.comment with
  | none =>
    have htype : ∀ c ∈ declared.type.toList, isBlank c = false :=
      fun c hc => isBlank_of_isTypeChar (h.type c hc)
    have hend :=
      stops_reverse_spaced h.type_ne_nil htype h.isRuleWord (declared.name.toList ++ [' '])
    rw [List.append_assoc] at hend
    simp only [FieldDeclaration.text, FieldDeclaration.tail, FieldDeclaration.trimmedComment,
      hcomment, List.append_nil]
    exact trim_eq_self (h.name.stops_blank _) hend
  | some comment =>
    -- the slash keeps what is before it, and trimming goes on inside the comment
    have hend : Stops isBlank (declared.name.toList ++ ([' '] ++ (declared.type.toList ++
        ((declared.rules.map String.toList).flatMap (fun rule => ' ' :: rule) ++
          [' ', '/', '/'])))).reverse := by
      have hslash : ∀ c ∈ ['/'], isBlank c = false := by decide
      have hstops := stops_reverse_append (by simp) hslash (declared.name.toList ++ ([' '] ++
        (declared.type.toList ++ ((declared.rules.map String.toList).flatMap
          (fun rule => ' ' :: rule) ++ [' ', '/']))))
      simpa only [List.append_assoc, List.cons_append, List.nil_append] using hstops
    have hcut := trimEnd_append hend (' ' :: comment.toList)
    simp only [List.append_assoc, List.cons_append, List.nil_append] at hcut
    simp only [FieldDeclaration.text, FieldDeclaration.tail, FieldDeclaration.trimmedComment,
      hcomment, List.cons_append, List.nil_append]
    rw [trim, trimStart_eq_self (h.name.stops_blank _), hcut]

/-- The rules and the comment of a field are read back. -/
theorem rulesAndComment_tail :
    rulesAndComment declared.tail = (declared.rules, declared.comment) := by
  have hrules : (declared.rules.map String.toList).map String.ofList = declared.rules := by
    simp [Function.comp_def]
  rw [FieldDeclaration.tail_eq, rulesAndComment_restText h.isRuleWord, hrules]
  cases hcomment : declared.comment with
  | none => rfl
  | some comment =>
    rw [Option.map_some, Option.map_some, (h.comment comment hcomment).trim_trimEnd,
      String.ofList_toList]

/-- The line of a field is read as that field. -/
theorem readField_fieldText (enumNames : List String) :
    readField enumNames (trim ("  ".toList ++ declared.text)) =
      some (declared.field enumNames) := by
  have hline : '\n' ∉ declared.tail := by
    rw [FieldDeclaration.tail_eq]
    refine not_mem_restText h.isRuleWord fun text htext => ?_
    obtain ⟨comment, hcomment, rfl⟩ := Option.map_eq_some_iff.mp htext
    exact (h.comment comment hcomment).not_mem_trimEnd
  have hends : Stops isTypeChar declared.tail := by
    rw [FieldDeclaration.tail_eq]
    exact stops_restText _ _
  rw [trim_fieldText h, readField_append enumNames h.name isGap_space h.type_ne_nil h.type hends
    hline, rulesAndComment_tail h]
  simp [FieldDeclaration.field]

/-- The line of a field begins with a word character, so it is neither blank nor a comment. -/
theorem isIdle_fieldText (offset : Nat) :
    BodyLine.isIdle ⟨offset, trim ("  ".toList ++ declared.text)⟩ = false := by
  have hslash : '/' ∉ declared.name.toList := h.name.not_mem (by decide)
  rw [trim_fieldText h]
  cases hname : declared.name.toList with
  | nil => exact absurd hname h.name.1
  | cons c name =>
    have hc : c ≠ '/' := by
      intro hsame
      rw [hname, hsame] at hslash
      exact hslash List.mem_cons_self
    have hsign : ∀ rest, startsComment (c :: rest) = false := by
      intro rest
      rw [Bool.eq_false_iff]
      intro hstarts
      obtain ⟨later, hlater⟩ := List.isPrefixOf_iff_prefix.mp hstarts
      exact hc (List.cons.inj hlater).1.symm
    rw [BodyLine.isIdle, List.cons_append, hsign]
    rfl

theorem not_mem_fieldText : '\n' ∉ "  ".toList ++ declared.text := by
  rw [FieldDeclaration.text_eq]
  simp only [List.mem_append, not_or]
  refine ⟨by simp, h.name.not_mem (by decide), by simp, ?_, not_mem_restText h.isRuleWord ?_⟩
  · intro hc
    exact absurd (h.type _ hc) (by decide)
  · intro text htext
    obtain ⟨comment, hcomment, rfl⟩ := Option.map_eq_some_iff.mp htext
    simpa using (h.comment comment hcomment).line

end Field

/-- The lines of the body of an entity: the rest of the line of the opening brace, one line a field,
and what stands before the closing brace. -/
theorem lines_entityBody {fields : List FieldDeclaration}
    (h : ∀ field ∈ fields, field.WellFormed) :
    lines (entityBody fields) =
      [] :: (fields.map (fun declared => "  ".toList ++ declared.text) ++ [[]]) := by
  have hfields : lines (fields.flatMap fun declared => "  ".toList ++ declared.text ++ ['\n']) =
      fields.map (fun declared => "  ".toList ++ declared.text) ++ [[]] := by
    induction fields with
    | nil => rfl
    | cons field fields ih =>
      have hline := not_mem_fieldText (h field List.mem_cons_self)
      rw [List.flatMap_cons, List.append_assoc, List.singleton_append, lines,
        List.splitOn_append_cons_self_of_not_mem hline, ← lines,
        ih fun other hother => h other (List.mem_cons_of_mem _ hother)]
      rfl
  have hfirst := List.splitOn_append_cons_self_of_not_mem (List.not_mem_nil (a := '\n'))
    (fields.flatMap fun declared => "  ".toList ++ declared.text ++ ['\n'])
  rw [List.nil_append, ← lines, ← lines] at hfirst
  rw [entityBody, hfirst, hfields]

/-- A blank line declares nothing. -/
theorem readLines_blank (reading : BodyReading) (offset : Nat) (later : List BodyLine) :
    reading.readLines (⟨offset, trim []⟩ :: later) = reading.readLines later := by
  rw [BodyReading.readLines, if_pos (by rfl)]

/-- The fields of an entity are read back from its body, strictly or not. -/
theorem outcome_read_entityBody (reading : BodyReading) {fields : List FieldDeclaration}
    (h : ∀ field ∈ fields, field.WellFormed) :
    (reading.read (entityBody fields)).outcome = .ok (fields.map (·.field reading.enumNames)) := by
  have hfields : ∀ start, (reading.readLines (bodyLinesFrom start
      (fields.map (fun declared => "  ".toList ++ declared.text) ++ [[]]))).outcome =
        .ok (fields.map (·.field reading.enumNames)) := by
    induction fields with
    | nil =>
      intro start
      rw [List.map_nil, List.nil_append, bodyLinesFrom, readLines_blank]
      rfl
    | cons field fields ih =>
      intro start
      have hfield := h field List.mem_cons_self
      have hlater := ih fun other hother => h other (List.mem_cons_of_mem _ hother)
      rw [List.map_cons, List.cons_append, bodyLinesFrom, BodyReading.readLines,
        if_neg (by rw [isIdle_fieldText hfield _]; decide), readField_fieldText hfield _]
      exact Report.outcome_andThen_of_ok (hlater _)
  rw [BodyReading.read, bodyLines, lines_entityBody h, bodyLinesFrom, readLines_blank]
  exact hfields _

/-! ## Entities -/

/-- A written entity is one to be audited just if it is declared so. -/
theorem auditModeOf_entityText (declared : EntityDeclaration) :
    auditModeOf (entityText declared) = if declared.audited then .enabled else .none := by
  have hclose : ∀ c ∈ ['}'], isBlank c = false := by decide
  have hend : Stops isBlank (entityText declared).reverse := by
    have hstops := stops_reverse_append (by simp) hclose (annotationText declared.audited ++
      "entity".toList ++ ' ' :: declared.name.toList ++ ' ' :: '{' :: entityBody declared.fields)
    simpa only [entityText, List.append_assoc, List.cons_append] using hstops
  cases haudited : declared.audited with
  | false =>
    have htext : entityText declared = "entity".toList ++ (' ' :: declared.name.toList ++
        ' ' :: '{' :: (entityBody declared.fields ++ ['}'])) := by
      simp only [entityText, annotationText, haudited, Bool.false_eq_true, if_false,
        List.append_assoc, List.nil_append]
    have hstart : Stops isBlank (entityText declared) := by
      rw [htext]
      exact stops_cons.mpr (by decide)
    have hplain : ∀ rest, auditMark.toList.isPrefixOf ("entity".toList ++ rest) = false :=
      fun _ => rfl
    unfold auditModeOf
    rw [trim_eq_self hstart hend, htext, hplain, if_neg Bool.false_ne_true]
  | true =>
    have htext : entityText declared = auditMark.toList ++ ('\n' :: ("entity".toList ++
        (' ' :: declared.name.toList ++ ' ' :: '{' :: (entityBody declared.fields ++ ['}'])))) := by
      simp only [entityText, annotationText, haudited, if_true, List.append_assoc, List.cons_append,
        List.nil_append]
    have hstart : Stops isBlank (entityText declared) := by
      rw [htext]
      exact stops_cons.mpr (by decide)
    unfold auditModeOf
    rw [trim_eq_self hstart hend, htext,
      if_pos (List.isPrefixOf_iff_prefix.mpr (List.prefix_append _ _))]
    rfl

/-- A written entity is read as what it declares, strictly or not. -/
theorem outcome_readEntityAt (source : Source) (enumNames : List String) (strict : Bool)
    (start : Nat) {declared : EntityDeclaration} (h : ∀ field ∈ declared.fields, field.WellFormed) :
    (readEntityAt source enumNames strict ⟨start, entityText declared,
      ⟨declared.name.toList, entityBody declared.fields⟩⟩).outcome =
        .ok (declared.entity enumNames) := by
  have hfields := fun reading => outcome_read_entityBody reading h
  rw [readEntityAt]
  refine (Report.outcome_andThen_of_ok (hfields _)).trans ?_
  rw [auditModeOf_entityText, String.ofList_toList]
  cases haudited : declared.audited with
  | false => simp [applyAudit, EntityDeclaration.entity, haudited, Report.ok]
  | true => simp [applyAudit, EntityDeclaration.entity, haudited, Report.ok, Entity.withAuditFields]

/-! ## Scans -/

/-- A reader takes the declarations that are its own as a whole, and nothing off any part of the
others. -/
structure ReadsOwn {α γ : Type} (read : List Char → Option (α × List Char))
    (select : Declaration → Option γ) (value : γ → α) : Prop where
  own {declaration : Declaration} {content : γ} : declaration.WellFormed →
    select declaration = some content →
      ∀ rest, read (declaration.text ++ rest) = some (value content, rest)
  other {declaration : Declaration} : declaration.WellFormed → select declaration = none →
    ∀ t, t ≠ [] → t <:+ declaration.text → ∀ rest, read (t ++ rest) = none
  lineFeed : ∀ rest, read ('\n' :: rest) = none

theorem text_ne_nil {declaration : Declaration} (h : declaration.WellFormed) :
    declaration.text ≠ [] := by
  obtain ⟨head, inside, htext, -⟩ := Declaration.exists_shape h
  rw [htext]
  simp

/-- A reader whose keyword is announced, and with whose keyword no keyword of another kind of
declaration ends, takes nothing off the others. -/
theorem ReadsOwn.of_announced {α γ : Type} {read : List Char → Option (α × List Char)}
    {select : Declaration → Option γ} {value : γ → α} {keyword : List Char}
    (hread : ReadsAnnounced read keyword) (hname : IsName keyword)
    (hkeyword : ∀ declaration, select declaration = none → ¬keyword <:+ declaration.keyword)
    (hown : ∀ declaration content, declaration.WellFormed → select declaration = some content →
      ∀ rest, read (declaration.text ++ rest) = some (value content, rest))
    (hlineFeed : ∀ rest, read ('\n' :: rest) = none) : ReadsOwn read select value where
  own h hselect rest := hown _ _ h hselect rest
  other := by
    intro declaration h hselect t hne ht rest
    obtain ⟨head, inside, htext, hhead, hplain, hinside, -⟩ := Declaration.exists_shape h
    rw [htext] at ht
    exact read_eq_none_of_suffix hread hname (isName_declaration_keyword declaration)
      (hkeyword declaration hselect) hhead hplain.unbraced hinside hne ht rest
  lineFeed := hlineFeed

theorem readsOwn_readEnum : ReadsOwn readEnum Declaration.enumeration? fun declared =>
    ⟨declared.name.toList, enumBody declared.values⟩ := by
  refine .of_announced readsAnnounced_readEnum isName_enum ?_ ?_ fun _ => rfl
  · intro declaration hselect
    cases declaration with
    | enumeration => exact absurd hselect (by simp [Declaration.enumeration?])
    | entity =>
      show ¬"enum".toList <:+ "entity".toList
      decide
    | relationship =>
      show ¬"enum".toList <:+ "relationship".toList
      decide
  · intro declaration declared h hselect rest
    obtain rfl := Declaration.enumeration?_eq_some_iff.mp hselect
    exact readBlock_append (blockText_enumeration h) rest

theorem readsOwn_readEntity : ReadsOwn readEntity Declaration.entity? fun declared =>
    ⟨declared.name.toList, entityBody declared.fields⟩ := by
  refine .of_announced readsAnnounced_readEntity isName_entity ?_ ?_ fun _ => rfl
  · intro declaration hselect
    cases declaration with
    | enumeration =>
      show ¬"entity".toList <:+ "enum".toList
      decide
    | entity => exact absurd hselect (by simp [Declaration.entity?])
    | relationship =>
      show ¬"entity".toList <:+ "relationship".toList
      decide
  · intro declaration declared h hselect rest
    obtain rfl := Declaration.entity?_eq_some_iff.mp hselect
    exact readEntity_append (entityText_entity h) rest

theorem readsOwn_readRelationship :
    ReadsOwn readRelationship Declaration.relationship? id := by
  refine .of_announced readsAnnounced_readRelationship isName_relationship ?_ ?_ fun _ => rfl
  · intro declaration hselect
    cases declaration with
    | enumeration =>
      show ¬"relationship".toList <:+ "enum".toList
      decide
    | entity =>
      show ¬"relationship".toList <:+ "entity".toList
      decide
    | relationship => exact absurd hselect (by simp [Declaration.relationship?])
  · intro declaration declared h hselect rest
    obtain rfl := Declaration.relationship?_eq_some_iff.mp hselect
    exact readRelationship_append (relationshipText_relationship h) rest

/-- What starts at the start of a line is not commented out. -/
theorem isCommented_of_lineStart {before : List Char} (h : lastLine before = [])
    (after : List Char) : isCommented (before ++ after) before.length = false := by
  rw [isCommented, lineBefore, List.take_left, h]
  rfl

/-- **Scans.** Going through the rest of a document, a scan takes its step for the declarations that
are its reader's own, in order, and for nothing else. The rest starts at the start of a line, and so
does what remains when one declaration and its line feed have been passed. -/
theorem ReadsOwn.outcome_foldLive {α β γ ε : Type} {read : List Char → Option (α × List Char)}
    {select : Declaration → Option γ} {value : γ → α} (h : ReadsOwn read select value)
    {source : Source} {step : β → Occurrence α → Report ε β} {put : β → γ → β}
    {document : List Declaration} (hformed : ∀ declaration ∈ document, declaration.WellFormed)
    (hstep : ∀ result start, ∀ declaration ∈ document, ∀ content,
      select declaration = some content →
        (step result ⟨start, declaration.text, value content⟩).outcome = .ok (put result content))
    {before : List Char} (hline : lastLine before = [])
    (hplain : source.plain = before ++ documentText document) (result : β) :
    (foldLive source step result
      (occurrencesFrom read 0 before.length (documentText document))).outcome =
        .ok ((document.filterMap select).foldl put result) := by
  induction document generalizing before result with
  | nil => rfl
  | cons declaration later ih =>
    have hfirst := hformed declaration List.mem_cons_self
    have hdocument : documentText (declaration :: later) =
        declaration.text ++ ('\n' :: documentText later) := by
      rw [documentText, List.flatMap_cons, List.append_assoc, ← documentText]
      rfl
    have hlineFeed : ∀ offset, occurrencesFrom read 0 offset ('\n' :: documentText later) =
        occurrencesFrom read 0 (offset + 1) (documentText later) := by
      intro offset
      rw [occurrencesFrom]
      simp only [h.lineFeed]
    have hlength : (before ++ declaration.text ++ ['\n']).length =
        before.length + declaration.text.length + 1 := by
      rw [List.length_append, List.length_append, List.length_singleton]
    have hlater := fun result => ih
      (fun other hother => hformed other (List.mem_cons_of_mem _ hother))
      (fun result start other hother => hstep result start other (List.mem_cons_of_mem _ hother))
      (lastLine_append_lineFeed (before ++ declaration.text))
      (by rw [hplain, hdocument]; simp) result
    rw [hdocument]
    cases hselect : select declaration with
    | none =>
      -- of another kind: nothing in it is read, and the step is not taken
      rw [occurrencesFrom_append_of_dead (fun t hne ht => h.other hfirst hselect t hne ht _),
        hlineFeed, ← hlength, List.filterMap_cons_none hselect]
      exact hlater result
    | some content =>
      -- of its own kind: read as a whole from the start of a line, which is no comment
      have hlive : isCommented source.plain before.length = false := by
        rw [hplain]
        exact isCommented_of_lineStart hline _
      rw [occurrencesFrom_append_of_read (text_ne_nil hfirst) (h.own hfirst hselect _), hlineFeed,
        ← hlength, List.filterMap_cons_some hselect, List.foldl_cons, foldLive, hlive,
        if_neg Bool.false_ne_true]
      exact (Report.outcome_andThen_of_ok
        (hstep result before.length declaration List.mem_cons_self content hselect)).trans
          (hlater (put result content))

/-- The same for a whole document, of which each step puts one more declaration in. -/
theorem ReadsOwn.outcome_foldLive_document {α β γ ε : Type}
    {read : List Char → Option (α × List Char)} {select : Declaration → Option γ} {value : γ → α}
    (h : ReadsOwn read select value) {document : List Declaration}
    (hformed : ∀ declaration ∈ document, declaration.WellFormed)
    (step : β → Occurrence α → Report ε β) (put : β → γ → β)
    (hstep : ∀ result start, ∀ declaration ∈ document, ∀ content,
      select declaration = some content →
        (step result ⟨start, declaration.text, value content⟩).outcome = .ok (put result content))
    (result : β) :
    (foldLive (.asWritten (documentText document)) step result
      (occurrences read (documentText document))).outcome =
        .ok ((document.filterMap select).foldl put result) := by
  have hstart : lastLine [] = [] := rfl
  exact h.outcome_foldLive hformed hstep hstart rfl result

/-! ## Documents -/

theorem strip_documentText {document : List Declaration}
    (h : ∀ declaration ∈ document, declaration.WellFormed) :
    Source.strip (documentText document) = .asWritten (documentText document) :=
  Source.strip_of_avoids (avoids_flatMap_concat (by simp [opening]) (by simp [opening])
    fun declaration hdeclaration => avoids_text (h declaration hdeclaration))

/-- What an entity declares depends on the enumerations only through their names. -/
theorem entity_congr {enumNames enumNames' : List String}
    (h : ∀ name, name ∈ enumNames ↔ name ∈ enumNames') (declared : EntityDeclaration) :
    declared.entity enumNames = declared.entity enumNames' := by
  have hcontains : ∀ name, enumNames.contains name = enumNames'.contains name := by
    intro name
    rw [Bool.eq_iff_iff, List.contains_iff_mem, List.contains_iff_mem, h]
  have hfield : ∀ field : FieldDeclaration, field.field enumNames = field.field enumNames' := by
    intro field
    unfold FieldDeclaration.field
    rw [hcontains]
  unfold EntityDeclaration.entity
  rw [List.map_congr_left fun field _ => hfield field]

section Document

variable {document : List Declaration} (h : ∀ declaration ∈ document, declaration.WellFormed)

include h

theorem outcome_readEnums_documentText {ε : Type} :
    (readEnums (.asWritten (documentText document)) : Report ε (Registry Enumeration)).outcome =
      .ok (.ofList (document.filterMap Declaration.enumeration?)) := by
  refine readsOwn_readEnum.outcome_foldLive_document h _ Registry.put ?_ .empty
  intro enums start declaration hmem declared hselect
  obtain rfl := Declaration.enumeration?_eq_some_iff.mp hselect
  exact congrArg (fun declared => Except.ok (enums.put declared)) (enumeration_enumBody (h _ hmem))

theorem outcome_readEntities_documentText (enumNames : List String) (strict : Bool) :
    (readEntities (.asWritten (documentText document)) enumNames strict).outcome =
      .ok (.ofList ((document.filterMap Declaration.entity?).map (·.entity enumNames))) := by
  rw [Registry.ofList, List.foldl_map]
  let put := fun (entities : Registry Entity) (declared : EntityDeclaration) =>
    entities.put (declared.entity enumNames)
  refine readsOwn_readEntity.outcome_foldLive_document h _ put ?_ .empty
  intro entities start declaration hmem content hselect
  obtain rfl := Declaration.entity?_eq_some_iff.mp hselect
  have hfields : ∀ field ∈ content.fields, field.WellFormed :=
    fun field hfield => ((h _ hmem).2 field hfield).1
  exact Report.outcome_andThen_of_ok (outcome_readEntityAt _ enumNames strict start hfields)

theorem outcome_readRelationships_documentText {ε : Type} :
    (readRelationships (.asWritten (documentText document)) :
        Report ε (List Relationship)).outcome =
      .ok (document.filterMap Declaration.relationship?) := by
  conv_rhs => rw [← foldl_concat (document.filterMap Declaration.relationship?)]
  exact readsOwn_readRelationship.outcome_foldLive_document h _
    (fun found relationship => found ++ [relationship]) (fun _ _ _ _ _ _ => rfl) []

/-- **Reading undoes writing.** A document that is written from well-formed declarations, in any
order and with names repeated or not, has a model, strictly or not. Of each name it has the last
enumeration and the last entity, in the order in which the names came first; a field is told to be
of an enumeration just if one of that name is declared anywhere; and it has all relationships, in
order. -/
theorem parse_documentText (strict : Bool) :
    ∃ model, (parse strict (String.ofList (documentText document))).outcome = .ok model ∧
      model.enums.items = lastOfEach (document.filterMap Declaration.enumeration?) ∧
      model.entities.items = lastOfEach ((document.filterMap Declaration.entity?).map
        (·.entity ((document.filterMap Declaration.enumeration?).map Enumeration.name))) ∧
      model.relationships = document.filterMap Declaration.relationship? ∧
      model.filename = none := by
  let enums := Registry.ofList (document.filterMap Declaration.enumeration?)
  have hnames : ∀ name, name ∈ enums.names ↔
      name ∈ (document.filterMap Declaration.enumeration?).map Enumeration.name :=
    fun name => Registry.mem_names_ofList
  refine ⟨⟨.ofList ((document.filterMap Declaration.entity?).map (·.entity enums.names)), enums,
    document.filterMap Declaration.relationship?, none⟩, ?_, Registry.items_ofList _, ?_, rfl, rfl⟩
  · rw [parse, String.toList_ofList, strip_documentText h]
    exact (Report.outcome_andThen_of_ok (outcome_readEnums_documentText h)).trans
      ((Report.outcome_andThen_of_ok (outcome_readEntities_documentText h enums.names strict)).trans
        (Report.outcome_andThen_of_ok (outcome_readRelationships_documentText h)))
  · rw [Registry.items_ofList, List.map_congr_left fun declared _ => entity_congr hnames declared]

end Document

/-- A document whose names are keywords, with an entity that is declared twice and an enumeration
that is declared after its use. -/
theorem parse_documentText_of_keywords :
    let document : List Declaration :=
      [.entity ⟨"enum", [⟨"entity", "to", ["required"], some "all of it"⟩], false⟩,
        .relationship ⟨.oneToMany, ⟨"to", some "entity"⟩, ⟨"enum", none⟩⟩,
        .entity ⟨"enum", [⟨"x", "to", [], none⟩], true⟩,
        .enumeration ⟨"to", ["entity", "enum"]⟩]
    (∀ declaration ∈ document, declaration.WellFormed) ∧
      String.ofList (documentText document) =
        "entity enum \x7b\n  entity to required // all of it\n\x7d\n" ++
        "relationship OneToMany \x7b to(entity) to enum \x7d\n" ++
        "@EnableAudit\nentity enum \x7b\n  x to\n\x7d\n" ++
        "enum to \x7b\n  entity,\n  enum\n\x7d\n" ∧
      ∃ model, (parse true (String.ofList (documentText document))).outcome = .ok model ∧
        model.enums.items = [⟨"to", ["entity", "enum"]⟩] ∧
        model.entities.items =
          [⟨"enum", ⟨"x", "to", true, [], none, none⟩ :: Entity.auditFields, .enabled⟩] ∧
        model.relationships = [⟨.oneToMany, ⟨"to", some "entity"⟩, ⟨"enum", none⟩⟩] := by
  intro document
  have hformed : ∀ declaration ∈ document, declaration.WellFormed := by decide +kernel
  obtain ⟨model, hmodel, henums, hentities, hrelationships, -⟩ := parse_documentText hformed true
  refine ⟨hformed, by decide +kernel, model, hmodel, ?_, ?_, hrelationships⟩
  · rw [henums]
    decide +kernel
  · rw [hentities]
    decide +kernel

end EntityScaffold.Document
