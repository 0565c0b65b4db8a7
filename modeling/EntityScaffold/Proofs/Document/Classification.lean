import EntityScaffold.Proofs.Document.Live
import EntityScaffold.Proofs.Generation.Context
import EntityScaffold.Proofs.TypeScript.Type

/-!
# Which fields are told to be of an enumeration

A field that a line declares is told to be of an enumeration just if its type is the name of one,
wherever in the document that one is declared. The audit fields do not go through a line: they are
plain fields of the types `String` and `Instant`, also in a document that has enumerations of these
names. `classification_exact_iff` says that this is the only way in which a classification can be
wrong, and that a field of an enumeration gets the name of the enumeration for its TypeScript type
unless the table of the built-in types has that name.
-/

namespace EntityScaffold.Document

open Generation TypeScript

/-- Every field of an entity is told to be of an enumeration just if its type is the name of one. -/
def IsClassified (enumNames : List String) (fields : List Field) : Prop :=
  ∀ field ∈ fields, field.isEnum = true ↔ field.type ∈ enumNames

theorem isClassified_append {enumNames : List String} {fields later : List Field} :
    IsClassified enumNames (fields ++ later) ↔
      IsClassified enumNames fields ∧ IsClassified enumNames later :=
  List.forall_mem_append

/-- A line is classified by the names of the enumerations. -/
theorem isEnum_of_readField {enumNames : List String} {line : List Char} {field : Field}
    (h : readField enumNames line = some field) : field.isEnum = enumNames.contains field.type := by
  simp only [readField, Option.bind_eq_bind, Option.bind_eq_some_iff, Prod.exists, Option.pure_def,
    Option.some.injEq] at h
  obtain ⟨name, s, -, s', -, type, s'', -, rfl⟩ := h
  rfl

theorem isClassified_fieldsOfLines (enumNames : List String) (lines : List BodyLine) :
    IsClassified enumNames (fieldsOfLines enumNames lines) := by
  intro field hfield
  obtain ⟨line, -, hread⟩ := List.mem_filterMap.mp hfield
  rw [isEnum_of_readField hread, List.contains_iff_mem]

theorem isEnum_of_mem_auditFields : ∀ field ∈ Entity.auditFields, field.isEnum = false := by
  decide

/-- The audit fields are classified rightly unless an enumeration has the name of one of their
types. -/
theorem isClassified_auditFields_iff (enumNames : List String) :
    IsClassified enumNames Entity.auditFields ↔
      ∀ field ∈ Entity.auditFields, field.type ∉ enumNames := by
  constructor
  · intro h field hfield hmem
    have hflag := (h field hfield).mpr hmem
    rw [isEnum_of_mem_auditFields field hfield] at hflag
    exact absurd hflag (by simp)
  · intro h field hfield
    simp [isEnum_of_mem_auditFields field hfield, h field hfield]

/-- The entity of a declaration is classified rightly unless it is audited and an enumeration has
the name of a type of the audit fields. -/
theorem isClassified_entity_iff (enumNames : List String) (declared : Declared Block) :
    IsClassified enumNames (declared.entity enumNames).fields ↔
      ((declared.entity enumNames).audit = .enabled →
        ∀ field ∈ Entity.auditFields, field.type ∉ enumNames) := by
  have hlines := isClassified_fieldsOfLines enumNames (bodyLines declared.value.body)
  unfold Declared.entity audited
  cases hmode : auditModeOf declared.text with
  | none => simpa using hlines
  | enabled =>
    simp only [Entity.withAuditFields, isClassified_append, isClassified_auditFields_iff,
      true_imp_iff]
    exact and_iff_right hlines

/-- A field of a document that is told to be of an enumeration is of one, also in an audited
entity. -/
theorem type_mem_names_of_isEnum {strict : Bool} {text : String} {model : Model}
    (hparse : (parse strict text).outcome = .ok model) {entity : Entity}
    (hentity : entity ∈ model.entities.items) {field : Field} (hfield : field ∈ entity.fields)
    (hflag : field.isEnum = true) : field.type ∈ model.enums.names := by
  rcases read_or_audit_of_mem_fields hparse hentity hfield with ⟨line, hread⟩ | hmem
  · rw [isEnum_of_readField hread] at hflag
    exact List.contains_iff_mem.mp hflag
  · rw [isEnum_of_mem_auditFields field hmem] at hflag
    exact absurd hflag (by simp)

/-! ## TypeScript types -/

/-- A field in a context has the TypeScript type that its declared type stands for. -/
theorem tsType_of_mem_fields {style : Naming.PluralStyle} {relationships : List Relationship}
    {entity : Entity} {field : Field}
    (h : field ∈ (Context.of style relationships entity).entity.fields) :
    field.tsType = some (typeOf field.type) := by
  obtain ⟨declared, -, rfl⟩ := List.mem_map.mp h
  rfl

/-! ## Models -/

/-- **Classification.** In a model of a document the fields of an entity are told to be of an
enumeration just if their types are names of enumerations, unless the entity is audited and a type
of the audit fields is such a name. A field of an enumeration has the name of that one for its
TypeScript type in a context unless the name is that of a built-in type. -/
theorem classification_exact_iff {strict : Bool} {text : String} {model : Model}
    (hparse : (parse strict text).outcome = .ok model) {style : Naming.PluralStyle}
    {strictEnds : Bool} {contexts : List Context}
    (hcontexts : (entityContexts style strictEnds model).outcome = .ok contexts) :
    (∀ entity ∈ model.entities.items, IsClassified model.enums.names entity.fields ↔
      (entity.audit = .enabled →
        ∀ field ∈ Entity.auditFields, field.type ∉ model.enums.names)) ∧
    ∀ context ∈ contexts, ∀ field ∈ context.entity.fields, field.isEnum = true →
      (field.tsType = some field.type ↔ builtinTypes.lookup field.type = none) := by
  obtain ⟨plain, -, rfl⟩ := eq_modelOf_of_parse hparse
  refine ⟨?_, ?_⟩
  · intro entity hentity
    obtain ⟨declared, -, rfl⟩ := List.mem_map.mp (Registry.mem_of_mem_items_ofList hentity)
    exact isClassified_entity_iff _ declared
  · intro context hcontext field hfield _
    rw [contexts_eq_of_outcome hcontexts] at hcontext
    obtain ⟨entity, -, rfl⟩ := List.mem_map.mp hcontext
    rw [tsType_of_mem_fields hfield, Option.some.injEq]
    exact typeOf_eq_self_iff field.type

/-- An audited task with a status: all its fields are classified, and its status has the
enumeration for its TypeScript type. -/
theorem classification_of_task :
    let text := "enum Status \x7b OPEN \x7d\n@EnableAudit\nentity Task \x7b\n  status Status\n\x7d"
    ∃ model contexts, (parse true text).outcome = .ok model ∧
      (entityContexts .naive false model).outcome = .ok contexts ∧
      model.enums.names = ["Status"] ∧
      model.entities.items.map (fun entity => entity.fields.map Field.type) =
        [["Status", "String", "Instant", "String", "Instant"]] ∧
      (∀ entity ∈ model.entities.items, IsClassified model.enums.names entity.fields) ∧
      ∀ context ∈ contexts, ∀ field ∈ context.entity.fields, field.type = "Status" →
        field.isEnum = true → field.tsType = some "Status" := by
  intro text
  have hparts : ((parse true text).value?.map fun model =>
      (model.enums.names, model.entities.items.map fun entity => entity.fields.map Field.type)) =
        some (["Status"], [["Status", "String", "Instant", "String", "Instant"]]) := by
    decide +kernel
  obtain ⟨model, hmodel, hparts⟩ := Option.map_eq_some_iff.mp hparts
  obtain ⟨hnames, htypes⟩ := Prod.mk.inj hparts
  have hcontexts := outcome_entityContexts_lenient .naive model
  rw [Report.value?_eq_some_iff] at hmodel
  obtain ⟨hclassified, htyped⟩ := classification_exact_iff hmodel hcontexts
  refine ⟨model, _, hmodel, hcontexts, hnames, htypes, ?_, ?_⟩
  · intro entity hentity
    rw [hnames] at hclassified ⊢
    exact (hclassified entity hentity).mpr fun _ => by decide
  · intro context hcontext field hfield htype hflag
    rw [← htype]
    exact (htyped context hcontext field hfield hflag).mpr (by rw [htype]; decide)

/-- An enumeration called `String` takes neither the audit fields of that type in nor keeps the
field that names it from becoming a `string`. -/
theorem classification_of_builtin_name :
    ∃ model contexts, (parse true ("enum String \x7b A \x7d\n" ++
        "@EnableAudit\nentity E \x7b\n  x String\n\x7d")).outcome = .ok model ∧
      (entityContexts .naive false model).outcome = .ok contexts ∧
      (∃ entity ∈ model.entities.items, ∃ field ∈ entity.fields,
        field.type ∈ model.enums.names ∧ field.isEnum = false) ∧
      ∃ context ∈ contexts, ∃ field ∈ context.entity.fields,
        field.isEnum = true ∧ field.tsType ≠ some field.type := by
  let declared : Field := ⟨"x", "String", true, [], none, none⟩
  let entity : Entity := ⟨"E", declared :: Entity.auditFields, .enabled⟩
  have hparts : ((parse true ("enum String \x7b A \x7d\n" ++
      "@EnableAudit\nentity E \x7b\n  x String\n\x7d")).value?.map fun model =>
        (model.enums.names, model.entities.items)) = some (["String"], [entity]) := by
    decide +kernel
  obtain ⟨model, hmodel, hparts⟩ := Option.map_eq_some_iff.mp hparts
  obtain ⟨hnames, hitems⟩ := Prod.mk.inj hparts
  refine ⟨model, _, Report.value?_eq_some_iff.mp hmodel,
    outcome_entityContexts_lenient .naive model, ?_, ?_⟩
  · refine ⟨entity, by simp [hitems], .plain "createdBy" "String", by decide, ?_, rfl⟩
    rw [hnames]
    exact List.mem_singleton_self _
  · refine ⟨_, List.mem_map_of_mem (by rw [hitems]; exact List.mem_singleton_self _),
      attachType declared, ?_, rfl, by decide⟩
    exact List.mem_map_of_mem List.mem_cons_self

end EntityScaffold.Document
