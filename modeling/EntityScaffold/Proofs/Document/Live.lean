import EntityScaffold.Proofs.Document.Strictness
import EntityScaffold.Proofs.Model.Registry
import EntityScaffold.Proofs.Report

/-!
# What a model is made of

The three passes over a text look at its live declarations only: those that a scan finds and that
are not commented out. Where they stand matters to the place of a fault and to nothing else, so the
model of a document is a function of three lists (`modelOf`), and a strict reading has one unless a
live entity has a misfit (`value?_parse`).
-/

namespace EntityScaffold.Document

open Text

/-- A declaration that a scan found, without its place. -/
structure Declared (α : Type) where
  /-- Its characters. -/
  text : List Char
  /-- What it declares. -/
  value : α
deriving DecidableEq, Repr

def Occurrence.declared {α : Type} (occurrence : Occurrence α) : Declared α :=
  ⟨occurrence.text, occurrence.value⟩

/-- The occurrences in a text that are not commented out, without their places. -/
def liveAmong {α : Type} (plain : List Char) (found : List (Occurrence α)) : List (Declared α) :=
  (found.filter fun occurrence => !isCommented plain occurrence.start).map Occurrence.declared

/-- The live declarations of a kind in a text, in order. -/
def liveDeclarations {α : Type} (read : List Char → Option (α × List Char)) (plain : List Char) :
    List (Declared α) :=
  liveAmong plain (occurrences read plain)

/-! ## Passes -/

/-- A pass puts the live declarations in, one after the other, and fails if a step refuses one of
them. -/
theorem value?_foldLive {α β ε : Type} (source : Source)
    (step : β → Occurrence α → Report ε β) (refused : Declared α → Bool)
    (put : β → Declared α → β)
    (hstep : ∀ value occurrence, (step value occurrence).value? =
      if refused occurrence.declared then none else some (put value occurrence.declared))
    (value : β) (found : List (Occurrence α)) :
    (foldLive source step value found).value? =
      if (liveAmong source.plain found).any refused then none
      else some ((liveAmong source.plain found).foldl put value) := by
  induction found generalizing value with
  | nil => rfl
  | cons occurrence later ih =>
    unfold liveAmong at ih ⊢
    by_cases hdead : isCommented source.plain occurrence.start = true
    · simp [foldLive, hdead, ih]
    · rw [Bool.not_eq_true] at hdead
      by_cases hrefused : refused occurrence.declared = true
      · simp [foldLive, hdead, hstep, hrefused]
      · simp [foldLive, hdead, hstep, hrefused, ih]

/-- A pass that refuses nothing. -/
theorem value?_foldLive_of_ok {α β ε : Type} (source : Source) (put : β → α → β)
    (value : β) (found : List (Occurrence α)) :
    (foldLive source (fun value occurrence => .ok (put value occurrence.value)) value found :
        Report ε β).value? =
      some (((liveAmong source.plain found).map Declared.value).foldl put value) := by
  have h := value?_foldLive (ε := ε) source
    (fun value occurrence => .ok (put value occurrence.value)) (fun _ => false)
    (fun value declared => put value declared.value) (fun _ _ => by rfl) value found
  rw [h, List.foldl_map]
  simp

/-! ## The lines of a body -/

/-- The fields that lines declare, without regard to the other lines. -/
def fieldsOfLines (enumNames : List String) (lines : List BodyLine) : List Field :=
  (lines.filter fun line => !line.isIdle).filterMap fun line => readField enumNames line.text

theorem value?_readLines (reading : BodyReading) (lines : List BodyLine) :
    (reading.readLines lines).value? =
      if reading.strict && lines.any BodyLine.isMisfit then none
      else some (fieldsOfLines reading.enumNames lines) := by
  induction lines with
  | nil => simp [BodyReading.readLines, fieldsOfLines]
  | cons line later ih =>
    unfold fieldsOfLines at ih ⊢
    by_cases hidle : line.isIdle = true
    · have hfit : line.isMisfit = false := by simp [BodyLine.isMisfit, hidle]
      simp [BodyReading.readLines, hidle, hfit, ih]
    · rw [Bool.not_eq_true] at hidle
      have hmisfit := isMisfit_iff reading.enumNames hidle
      cases hread : readField reading.enumNames line.text with
      | some field =>
        have hfit : line.isMisfit = false := by simpa [hread] using hmisfit
        by_cases hrefused : (reading.strict && later.any BodyLine.isMisfit) = true
        · simp [BodyReading.readLines, hidle, hread, hfit, ih, hrefused]
        · simp [BodyReading.readLines, hidle, hread, hfit, ih, hrefused]
      | none =>
        have hmisfit : line.isMisfit = true := hmisfit.mpr hread
        cases hstrict : reading.strict with
        | true => simp [BodyReading.readLines, hidle, hread, hmisfit, hstrict]
        | false => simp [BodyReading.readLines, hidle, hread, hstrict, ih]

/-! ## Entities -/

/-- Does the body of a block have a line that would have to be a field and is none? -/
def Block.hasMisfit (block : Block) : Bool := (bodyLines block.body).any BodyLine.isMisfit

/-- An entity with its audit fields, if it is to have them. -/
def audited (entity : Entity) : Entity :=
  match entity.audit with
  | .none => entity
  | .enabled => entity.withAuditFields

theorem fields_audited (entity : Entity) :
    (audited entity).fields =
      entity.fields ++ if entity.audit = .enabled then Entity.auditFields else [] := by
  unfold audited
  cases entity.audit with
  | none => simp
  | enabled => rfl

theorem audit_audited (entity : Entity) : (audited entity).audit = entity.audit := by
  unfold audited
  cases hmode : entity.audit with
  | none => exact hmode
  | enabled => exact hmode

/-- The entity that a declaration stands for among enumerations, misfits left out. -/
def Declared.entity (enumNames : List String) (declared : Declared Block) : Entity :=
  audited ⟨String.ofList declared.value.name,
    fieldsOfLines enumNames (bodyLines declared.value.body), auditModeOf declared.text⟩

/-- A field of a declared entity is one of its lines or one that auditing adds. -/
theorem Declared.mem_fields_cases {enumNames : List String} {declared : Declared Block}
    {field : Field} (h : field ∈ (declared.entity enumNames).fields) :
    field ∈ fieldsOfLines enumNames (bodyLines declared.value.body) ∨
      field ∈ Entity.auditFields := by
  rw [Declared.entity, fields_audited] at h
  rcases List.mem_append.mp h with hline | hadded
  · exact .inl hline
  · split at hadded
    · exact .inr hadded
    · exact absurd hadded List.not_mem_nil

theorem value?_read (reading : BodyReading) (block : Block) :
    (reading.read block.body).value? =
      if reading.strict && block.hasMisfit then none
      else some (fieldsOfLines reading.enumNames (bodyLines block.body)) :=
  value?_readLines reading (bodyLines block.body)

theorem value?_applyAudit {ε : Type} (entity : Entity) :
    (applyAudit entity : Report ε Entity).value? = some (audited entity) := by
  unfold applyAudit audited
  cases entity.audit with
  | none => rfl
  | enabled => rfl

theorem value?_readEntityAt (source : Source) (enumNames : List String) (strict : Bool)
    (occurrence : Occurrence Block) :
    (readEntityAt source enumNames strict occurrence).value? =
      if strict && occurrence.declared.value.hasMisfit then none
      else some (occurrence.declared.entity enumNames) := by
  by_cases hrefused : (strict && occurrence.value.hasMisfit) = true
  · simp [readEntityAt, value?_read, Occurrence.declared, hrefused]
  · simp [readEntityAt, value?_read, value?_applyAudit, Occurrence.declared, Declared.entity,
      hrefused]

/-! ## Documents -/

/-- The model that live declarations make. -/
def modelOf (enums entities : List (Declared Block))
    (relationships : List (Declared Relationship)) : Model :=
  let registry := Registry.ofList (enums.map fun declared => declared.value.enumeration)
  ⟨.ofList (entities.map (Declared.entity registry.names)), registry,
    relationships.map Declared.value, none⟩

theorem foldl_concat {α : Type} (items : List α) :
    items.foldl (fun found item => found ++ [item]) [] = items := by
  induction items using List.reverseRecOn with
  | nil => rfl
  | append_singleton items item ih => rw [List.foldl_append, ih]; rfl

theorem value?_readEnums {ε : Type} (source : Source) :
    (readEnums source : Report ε (Registry Enumeration)).value? =
      some (.ofList ((liveDeclarations readEnum source.plain).map
        fun declared => declared.value.enumeration)) := by
  have h := value?_foldLive_of_ok (ε := ε) source
    (fun (enums : Registry Enumeration) block => enums.put block.enumeration)
    .empty (occurrences readEnum source.plain)
  rw [Registry.ofList, List.foldl_map]
  rw [List.foldl_map] at h
  exact h

theorem value?_readEntities (source : Source) (enumNames : List String) (strict : Bool) :
    (readEntities source enumNames strict).value? =
      if strict && (liveDeclarations readEntity source.plain).any (·.value.hasMisfit) then none
      else some (.ofList ((liveDeclarations readEntity source.plain).map
        (Declared.entity enumNames))) := by
  have h := value?_foldLive source
    (fun (entities : Registry Entity) occurrence => do
      let entity ← readEntityAt source enumNames strict occurrence
      return entities.put entity)
    (fun declared => strict && declared.value.hasMisfit)
    (fun entities declared => entities.put (declared.entity enumNames))
    (by
      intro entities occurrence
      simp only [Report.bind_eq_andThen, Report.value?_andThen, value?_readEntityAt]
      split <;> rfl)
    .empty (occurrences readEntity source.plain)
  rw [Registry.ofList, List.foldl_map, readEntities, h]
  cases strict with
  | true => simp [liveDeclarations]
  | false => simp [liveDeclarations]

theorem value?_readRelationships {ε : Type} (source : Source) :
    (readRelationships source : Report ε (List Relationship)).value? =
      some ((liveDeclarations readRelationship source.plain).map Declared.value) := by
  have h := value?_foldLive_of_ok (ε := ε) source
    (fun (found : List Relationship) relationship => found ++ [relationship])
    [] (occurrences readRelationship source.plain)
  rw [foldl_concat] at h
  exact h

/-- **Models.** The model of a document is made of its live declarations. A strict reading has none
if one of the live entities has a misfit. -/
theorem value?_parse (strict : Bool) (text : String) :
    (parse strict text).value? =
      let plain := (Source.strip text.toList).plain
      if strict && (liveDeclarations readEntity plain).any (·.value.hasMisfit) then none
      else some (modelOf (liveDeclarations readEnum plain) (liveDeclarations readEntity plain)
        (liveDeclarations readRelationship plain)) := by
  simp only [parse, Report.bind_eq_andThen, Report.value?_andThen, value?_readEnums,
    Option.bind_some, value?_readEntities, value?_readRelationships]
  split
  · rfl
  · rfl

/-- Documents with the same live declarations have the same model, or both have none. -/
theorem value?_parse_congr {text text' : String}
    (henums : liveDeclarations readEnum (Source.strip text.toList).plain =
      liveDeclarations readEnum (Source.strip text'.toList).plain)
    (hentities : liveDeclarations readEntity (Source.strip text.toList).plain =
      liveDeclarations readEntity (Source.strip text'.toList).plain)
    (hrelationships : liveDeclarations readRelationship (Source.strip text.toList).plain =
      liveDeclarations readRelationship (Source.strip text'.toList).plain) (strict : Bool) :
    (parse strict text).value? = (parse strict text').value? := by
  simp only [value?_parse, henums, hentities, hrelationships]

/-- A model that a document has is made of its live declarations. -/
theorem eq_modelOf_of_parse {strict : Bool} {text : String} {model : Model}
    (h : (parse strict text).outcome = .ok model) :
    ∃ plain, plain = (Source.strip text.toList).plain ∧
      model = modelOf (liveDeclarations readEnum plain) (liveDeclarations readEntity plain)
        (liveDeclarations readRelationship plain) := by
  rw [← Report.value?_eq_some_iff, value?_parse] at h
  simp only at h
  split at h
  · exact absurd h (by simp)
  · exact ⟨_, rfl, (Option.some.inj h).symm⟩

/-- A field in the model of a document was read off a line, among the enumerations of the model, or
is one that auditing adds. -/
theorem read_or_audit_of_mem_fields {strict : Bool} {text : String} {model : Model}
    (hparse : (parse strict text).outcome = .ok model) {entity : Entity}
    (hentity : entity ∈ model.entities.items) {field : Field} (hfield : field ∈ entity.fields) :
    (∃ line, readField model.enums.names line = some field) ∨ field ∈ Entity.auditFields := by
  obtain ⟨plain, -, rfl⟩ := eq_modelOf_of_parse hparse
  obtain ⟨declared, -, rfl⟩ := List.mem_map.mp (Registry.mem_of_mem_items_ofList hentity)
  rcases Declared.mem_fields_cases hfield with hline | hadded
  · obtain ⟨line, -, hread⟩ := List.mem_filterMap.mp hline
    exact .inl ⟨line.text, hread⟩
  · exact .inr hadded

end EntityScaffold.Document
