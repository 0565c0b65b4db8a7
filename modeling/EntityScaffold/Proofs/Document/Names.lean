import EntityScaffold.Proofs.Document.Body
import EntityScaffold.Proofs.Document.Live
import EntityScaffold.Proofs.Document.Parts

/-!
# Names in the model of a document

A reader takes names off as runs of word characters, so in the model of a document enumerations,
entities, fields and roles are called by names; a type may hold the brackets of generic types
besides, and a value of an enumeration almost anything. A model that is put together by hand may
hold anything.
-/

namespace EntityScaffold.Document

open Text

theorem isName_of_readField {enumNames : List String} {line : List Char} {field : Field}
    (h : readField enumNames line = some field) : IsName field.name.toList := by
  obtain ⟨name, _, _, _, hname, -, -, -, -, rfl⟩ := exists_of_readField h
  rwa [String.toList_ofList]

/-- The fields of an entity are called by names, the audit fields included. -/
theorem isName_of_mem_fields {strict : Bool} {text : String} {model : Model}
    (hparse : (parse strict text).outcome = .ok model) {entity : Entity}
    (hentity : entity ∈ model.entities.items) {field : Field} (hfield : field ∈ entity.fields) :
    IsName field.name.toList := by
  have haudit : ∀ field ∈ Entity.auditFields, IsName field.name.toList := by decide
  rcases read_or_audit_of_mem_fields hparse hentity hfield with ⟨line, hread⟩ | hmem
  · exact isName_of_readField hread
  · exact haudit field hmem

theorem isDeclaredType_of_readField {enumNames : List String} {line : List Char} {field : Field}
    (h : readField enumNames line = some field) : IsDeclaredType field.type.toList := by
  obtain ⟨_, _, type, _, -, -, htype, -, -, rfl⟩ := exists_of_readField h
  rwa [String.toList_ofList]

/-- The types of the fields of an entity can be declared, those of the audit fields included. -/
theorem isDeclaredType_of_mem_fields {strict : Bool} {text : String} {model : Model}
    (hparse : (parse strict text).outcome = .ok model) {entity : Entity}
    (hentity : entity ∈ model.entities.items) {field : Field} (hfield : field ∈ entity.fields) :
    IsDeclaredType field.type.toList := by
  have haudit : ∀ field ∈ Entity.auditFields, IsDeclaredType field.type.toList := by decide
  rcases read_or_audit_of_mem_fields hparse hentity hfield with ⟨line, hread⟩ | hmem
  · exact isDeclaredType_of_readField hread
  · exact haudit field hmem

/-- The value of a live declaration was read from a text of it. -/
theorem ReadsDeclarations.exists_text {α : Type} {read : List Char → Option (α × List Char)}
    {IsText : α → List Char → Prop} (hreads : ReadsDeclarations read IsText) {plain : List Char}
    {declared : Declared α} (h : declared ∈ liveDeclarations read plain) :
    ∃ text, IsText declared.value text := by
  obtain ⟨occurrence, hlive, rfl⟩ := List.mem_map.mp h
  obtain ⟨before, after, -, -, hread⟩ :=
    mem_occurrences hreads.takesFront (List.mem_filter.mp hlive).1
  obtain ⟨text, htext, -⟩ := hreads.reads.mp hread
  exact ⟨text, htext⟩

/-- An enumeration was declared by a block. -/
theorem exists_block_of_mem_enums {strict : Bool} {text : String} {model : Model}
    (hparse : (parse strict text).outcome = .ok model) {enumeration : Enumeration}
    (h : enumeration ∈ model.enums.items) :
    ∃ block : Block, IsName block.name ∧ enumeration = block.enumeration := by
  obtain ⟨plain, -, rfl⟩ := eq_modelOf_of_parse hparse
  obtain ⟨declared, hdeclared, rfl⟩ := List.mem_map.mp (Registry.mem_of_mem_items_ofList h)
  obtain ⟨text, htext⟩ := readsDeclarations_readEnum.exists_text hdeclared
  exact ⟨declared.value, htext.isName, rfl⟩

theorem isName_of_mem_enums {strict : Bool} {text : String} {model : Model}
    (hparse : (parse strict text).outcome = .ok model) {enumeration : Enumeration}
    (h : enumeration ∈ model.enums.items) : IsName enumeration.name.toList := by
  obtain ⟨block, hname, rfl⟩ := exists_block_of_mem_enums hparse h
  rwa [Block.enumeration, String.toList_ofList]

/-- No value of an enumeration is empty. -/
theorem ne_empty_of_mem_values {strict : Bool} {text : String} {model : Model}
    (hparse : (parse strict text).outcome = .ok model) {enumeration : Enumeration}
    (h : enumeration ∈ model.enums.items) {value : String} (hvalue : value ∈ enumeration.values) :
    value ≠ "" := by
  obtain ⟨block, -, rfl⟩ := exists_block_of_mem_enums hparse h
  obtain ⟨piece, hpiece, rfl⟩ := List.mem_map.mp hvalue
  have hne := (List.mem_filter.mp hpiece).2
  rintro hempty
  obtain rfl : piece = [] := by simpa using congrArg String.toList hempty
  exact absurd hne (by simp)

theorem name_audited (entity : Entity) : (audited entity).name = entity.name := by
  unfold audited
  cases entity.audit with
  | none => rfl
  | enabled => rfl

/-- The entities are called by names. -/
theorem isName_of_mem_entities {strict : Bool} {text : String} {model : Model}
    (hparse : (parse strict text).outcome = .ok model) {entity : Entity}
    (h : entity ∈ model.entities.items) : IsName entity.name.toList := by
  obtain ⟨plain, -, rfl⟩ := eq_modelOf_of_parse hparse
  obtain ⟨declared, hdeclared, rfl⟩ := List.mem_map.mp (Registry.mem_of_mem_items_ofList h)
  obtain ⟨text, htext⟩ := readsDeclarations_readEntity.exists_text hdeclared
  rw [Declared.entity, name_audited, String.toList_ofList]
  exact htext.isName

/-- The ends of relationships were declared by texts. -/
theorem exists_text_of_mem_ends {strict : Bool} {text : String} {model : Model}
    (hparse : (parse strict text).outcome = .ok model) {relationship : Relationship}
    (h : relationship ∈ model.relationships) {endpoint : Endpoint}
    (hend : endpoint ∈ relationship.ends) : ∃ text, EndpointText endpoint text := by
  obtain ⟨plain, -, rfl⟩ := eq_modelOf_of_parse hparse
  obtain ⟨declared, hdeclared, rfl⟩ := List.mem_map.mp h
  obtain ⟨text, htext⟩ := readsDeclarations_readRelationship.exists_text hdeclared
  cases hvalue : declared.value with
  | mk cardinality source target =>
    rw [hvalue] at htext hend
    cases htext with
    | intro _ _ _ hsource _ _ htarget _ =>
      simp only [Relationship.ends, List.mem_cons, List.not_mem_nil, or_false] at hend
      rcases hend with rfl | rfl
      · exact ⟨_, hsource⟩
      · exact ⟨_, htarget⟩

/-- The entities in relationships are called by names. -/
theorem isName_of_mem_ends {strict : Bool} {text : String} {model : Model}
    (hparse : (parse strict text).outcome = .ok model) {relationship : Relationship}
    (h : relationship ∈ model.relationships) {endpoint : Endpoint}
    (hend : endpoint ∈ relationship.ends) : IsName endpoint.entity.toList := by
  obtain ⟨_, htext⟩ := exists_text_of_mem_ends hparse h hend
  cases htext with
  | bare hname => rwa [String.toList_ofList]
  | withRole hname hword => rwa [String.toList_ofList]

/-- The roles in relationships are names. -/
theorem isName_of_role {strict : Bool} {text : String} {model : Model}
    (hparse : (parse strict text).outcome = .ok model) {relationship : Relationship}
    (h : relationship ∈ model.relationships) {endpoint : Endpoint}
    (hend : endpoint ∈ relationship.ends) {role : String} (hrole : endpoint.role = some role) :
    IsName role.toList := by
  obtain ⟨_, htext⟩ := exists_text_of_mem_ends hparse h hend
  cases htext with
  | bare hname => cases hrole
  | withRole hname hword =>
    obtain rfl := Option.some.inj hrole
    rwa [String.toList_ofList]

end EntityScaffold.Document
