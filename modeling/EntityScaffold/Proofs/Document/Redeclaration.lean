import EntityScaffold.Proofs.Document.Chain
import EntityScaffold.Proofs.Document.Names

/-!
# Entities that are declared again

A later declaration of an entity takes the place of an earlier one as a whole. What the entity of a
name is, its audit fields included, can be told from the text of the last declaration of that name
(`Occurrence.Declares`): nothing is kept of the declarations it replaces, and nothing comes over
from those beside it or from those that do not count (`last_declaration_counts`).
-/

namespace EntityScaffold.Document

open Text

/-! ## One declaration -/

/-- The name of the entity that is declared. -/
def Occurrence.entityName (occurrence : Occurrence Block) : String :=
  String.ofList occurrence.value.name

/-- Is the declaration annotated? -/
def Occurrence.IsAnnotated (occurrence : Occurrence Block) : Prop :=
  auditMark.toList <+: occurrence.text

instance (occurrence : Occurrence Block) : Decidable occurrence.IsAnnotated :=
  inferInstanceAs (Decidable (_ <+: _))

/-- The names of the fields that auditing adds, in order. -/
def auditFieldNames : List String :=
  ["createdBy", "createdDate", "lastModifiedBy", "lastModifiedDate"]

/-- An entity is what a lenient reading makes of its declaration: the fields of the body, and the
audit fields after them if the declaration is annotated. -/
structure Occurrence.Declares (enumNames : List String) (occurrence : Occurrence Block)
    (entity : Entity) : Prop where
  name : entity.name = occurrence.entityName
  audit : entity.audit = .enabled ↔ occurrence.IsAnnotated
  fields : ∀ placeAt : Nat → Place, ∃ declared added : List Field,
    (BodyReading.read ⟨occurrence.entityName, enumNames, false, placeAt⟩
      occurrence.value.body).outcome = .ok declared ∧
    entity.fields = declared ++ added ∧
    added.map Field.name = (if occurrence.IsAnnotated then auditFieldNames else []) ∧
    ∀ field ∈ added, field.rules = [] ∧ field.comment = none

/-- There are no blanks around the text of an entity. -/
theorem EntityText.trim_eq {block : Block} {text : List Char} (h : EntityText block text) :
    trim text = text := by
  have hclose : ∀ c ∈ ['}'], isBlank c = false := by decide
  have hstart : Stops isBlank text := by
    cases h with
    | plain hblock =>
      cases hblock
      exact stops_cons.mpr (by decide)
    | annotated _ _ =>
      simp only [List.append_assoc]
      exact stops_cons.mpr (by decide)
  obtain ⟨head, hhead⟩ := h.exists_body
  rw [hhead] at hstart ⊢
  exact trim_eq_self hstart (stops_reverse_append (by simp) hclose _)

/-- An entity is to be audited just if it begins with the annotation. -/
theorem EntityText.auditModeOf_eq_enabled_iff {block : Block} {text : List Char}
    (h : EntityText block text) :
    auditModeOf text = .enabled ↔ auditMark.toList <+: text := by
  rw [auditModeOf, h.trim_eq, ← List.isPrefixOf_iff_prefix]
  split
  · simp_all
  · simp_all

/-- What an entity is can be told from its declaration. -/
theorem Occurrence.declares_entity {occurrence : Occurrence Block}
    (h : EntityText occurrence.value occurrence.text) (enumNames : List String) :
    occurrence.Declares enumNames (occurrence.declared.entity enumNames) := by
  have haudit : auditModeOf occurrence.text = .enabled ↔ occurrence.IsAnnotated :=
    h.auditModeOf_eq_enabled_iff
  refine ⟨name_audited _, ?_, fun placeAt => ?_⟩
  · rw [Declared.entity, audit_audited]
    exact haudit
  · refine ⟨_, _, Report.value?_eq_some_iff.mp (value?_read _ _), fields_audited _, ?_, ?_⟩
    · simp only [Occurrence.declared, haudit]
      split
      · rfl
      · rfl
    · intro field hfield
      split at hfield
      · have hplain : ∀ field ∈ Entity.auditFields, field.rules = [] ∧ field.comment = none := by
          decide
        exact hplain field hfield
      · exact absurd hfield List.not_mem_nil

/-! ## All declarations -/

/-- The declarations of entities in a text that count, in order. -/
def liveEntities (plain : List Char) : List (Occurrence Block) :=
  (occurrences readEntity plain).filter fun occurrence => ¬OnCommentLine plain occurrence.start

theorem map_declared_liveEntities (plain : List Char) :
    (liveEntities plain).map Occurrence.declared = liveDeclarations readEntity plain := by
  unfold liveEntities liveDeclarations liveAmong
  congr 1
  refine List.filter_congr fun occurrence _ => ?_
  simp only [← isCommented_iff, Bool.not_eq_true, Bool.decide_eq_false]

theorem entityText_of_mem_liveEntities {plain : List Char} {occurrence : Occurrence Block}
    (h : occurrence ∈ liveEntities plain) : EntityText occurrence.value occurrence.text :=
  (readsDeclarations_readEntity.standsIn_of_mem (List.mem_of_mem_filter h)).isText

/-- **Redeclaration.** A lenient reading of the entities of a text ends with an entity for each name
that is declared, in the order in which the names come first. The entity is what the last
declaration of the name declares, and no other declaration has a part in it. -/
theorem last_declaration_counts (source : Source) (enumNames : List String) :
    ∃ registry : Registry Entity,
      (readEntities source enumNames false).outcome = .ok registry ∧
      registry.names = ((liveEntities source.plain).map Occurrence.entityName).eraseDups ∧
      (∀ name entity, registry.get? name = some entity → entity.name = name) ∧
      ∀ before last later, liveEntities source.plain = before ++ last :: later →
        (∀ other ∈ later, other.entityName ≠ last.entityName) →
        registry.get? last.entityName = some (last.declared.entity enumNames) ∧
        last.Declares enumNames (last.declared.entity enumNames) := by
  let entityOf : Occurrence Block → Entity := fun occurrence => occurrence.declared.entity enumNames
  have hname : ∀ occurrence, Named.name (entityOf occurrence) = occurrence.entityName :=
    fun occurrence => name_audited _
  have hvalue := value?_readEntities source enumNames false
  rw [Bool.false_and, if_neg Bool.false_ne_true, ← map_declared_liveEntities,
    List.map_map] at hvalue
  refine ⟨.ofList ((liveEntities source.plain).map entityOf),
    Report.value?_eq_some_iff.mp hvalue, ?_, ?_, ?_⟩
  · rw [Registry.names, Registry.items_ofList, map_name_lastOfEach, List.map_map]
    exact congrArg List.eraseDups (List.map_congr_left fun occurrence _ => hname occurrence)
  · intro name entity hget
    rw [Registry.get?_ofList] at hget
    exact name_of_lastNamed? hget
  · intro before last later hlive hlater
    have hmem : last ∈ liveEntities source.plain := by simp [hlive]
    refine ⟨?_, last.declares_entity (entityText_of_mem_liveEntities hmem) enumNames⟩
    rw [Registry.get?_ofList, hlive, List.map_append, List.map_cons, ← hname last]
    refine lastNamed?_append_cons fun entity hentity => ?_
    obtain ⟨other, hother, rfl⟩ := List.mem_map.mp hentity
    rw [hname, hname]
    exact hlater other hother

/-- The annotation goes with the declaration that is replaced. -/
example :
    let text := "@EnableAudit entity A \x7b x X \x7d entity B \x7b y Y \x7d entity A \x7b z Z \x7d"
    (readEntities (.asWritten text.toList) [] false).value?.map Registry.items =
      some [⟨"A", [.plain "z" "Z"], .none⟩, ⟨"B", [.plain "y" "Y"], .none⟩] := by
  decide +kernel

end EntityScaffold.Document
