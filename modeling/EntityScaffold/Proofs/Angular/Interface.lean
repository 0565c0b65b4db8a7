import EntityScaffold.Angular.Interface
import EntityScaffold.Document.Parse
import EntityScaffold.Proofs.Generation.Context

/-!
# The names in an interface

An interface declares the number, the fields that are listed and the relationship properties. No
listed field is called like the number or like a relationship property; apart from that nothing
keeps two properties from having one name. `HasClearNames` says what an entity and its relationship
properties must be like for that, and `memberNames_nodup_iff` that no less will do.
-/

namespace EntityScaffold.Angular

open Document Generation Naming

/-- The names of an entity and of its relationship properties do not clash in the interface. -/
structure HasClearNames (entity : Entity) (properties : List String) : Prop where
  /-- A name that a listed field has is the name of one field only. -/
  listed : (entity.fieldNames.filter fun name => name ≠ idName ∧ name ∉ properties).Nodup
  /-- No two relationship properties have one name. -/
  related : properties.Nodup
  /-- No relationship property is called like the number. -/
  number : idName ∉ properties

/-- The names of the relationship properties of an entity. -/
def propertiesOf (style : PluralStyle) (relationships : List Relationship) (entity : Entity) :
    List String :=
  (viewsFrom style entity.name relationships).map View.property

/-- The fields that an interface lists are those that are called neither like the number nor like a
relationship property. -/
theorem map_name_listedFields (style : PluralStyle) (relationships : List Relationship)
    (entity : Entity) :
    (listedFields (.of style relationships entity)).map Field.name =
      entity.fieldNames.filter fun name =>
        name ≠ idName ∧ name ∉ propertiesOf style relationships entity := by
  have hnames : entity.fieldNames = (attachTypes entity).fields.map Field.name := by
    simp [Entity.fieldNames, attachTypes, attachType]
  rw [hnames, List.filter_map, listedFields, Context.of, List.filter_filter]
  congr 1
  apply List.filter_congr
  intro field _
  have htaken : ((viewsFrom style entity.name relationships).any fun view =>
      view.property = field.name) = true ↔
        field.name ∈ propertiesOf style relationships entity := by
    simp [propertiesOf]
  rw [Function.comp_apply, Bool.eq_iff_iff, Bool.and_eq_true, decide_eq_true_iff,
    decide_eq_true_iff, Bool.not_eq_true', ← Bool.not_eq_true, htaken]

/-- The names in an interface: the number, the listed fields, the relationship properties. -/
theorem memberNames_ofContext (style : PluralStyle) (relationships : List Relationship)
    (entity : Entity) :
    (Interface.ofContext (.of style relationships entity)).memberNames =
      idName :: ((entity.fieldNames.filter fun name =>
          name ≠ idName ∧ name ∉ propertiesOf style relationships entity) ++
        propertiesOf style relationships entity) := by
  rw [Interface.memberNames, ← map_name_listedFields]
  simp [Interface.ofContext, propertiesOf, Context.of, Function.comp_def, Member.ofField,
    Member.ofView]

theorem nodup_memberNames_iff_hasClearNames (style : PluralStyle)
    (relationships : List Relationship) (entity : Entity) :
    (Interface.ofContext (.of style relationships entity)).memberNames.Nodup ↔
      HasClearNames entity (propertiesOf style relationships entity) := by
  rw [memberNames_ofContext, List.nodup_cons, List.mem_append, List.nodup_append, not_or]
  constructor
  · intro h
    obtain ⟨⟨-, hnumber⟩, hlisted, hrelated, -⟩ := h
    exact ⟨hlisted, hrelated, hnumber⟩
  · intro h
    obtain ⟨hlisted, hrelated, hnumber⟩ := h
    -- a listed field is called neither like the number nor like a property
    have hfield : ∀ name ∈ entity.fieldNames.filter fun name =>
        name ≠ idName ∧ name ∉ propertiesOf style relationships entity,
        name ≠ idName ∧ name ∉ propertiesOf style relationships entity :=
      fun name hname => of_decide_eq_true (List.mem_filter.mp hname).2
    refine ⟨⟨fun hid => (hfield _ hid).1 rfl, hnumber⟩, hlisted, hrelated, ?_⟩
    intro name hname property hproperty hsame
    rw [← hsame] at hproperty
    exact (hfield name hname).2 hproperty

/-- **Members.** Every context that is made of a model belongs to one of its entities, and the names
in its interface are distinct just if the names of the entity and of its relationship properties do
not clash. -/
theorem memberNames_nodup_iff {style : PluralStyle} {strict : Bool} {model : Model}
    {contexts : List Context} (h : (entityContexts style strict model).outcome = .ok contexts)
    {context : Context} (hcontext : context ∈ contexts) :
    ∃ entity ∈ model.entities.items, context.entity = attachTypes entity ∧
      ((Interface.ofContext context).memberNames.Nodup ↔
        HasClearNames entity (propertiesOf style model.relationships entity)) := by
  rw [contexts_eq_of_outcome h] at hcontext
  obtain ⟨entity, hentity, rfl⟩ := List.mem_map.mp hcontext
  exact ⟨entity, hentity, rfl, nodup_memberNames_iff_hasClearNames _ _ _⟩

/-- A book whose pages are a relationship: the field of that name gives way, and no names clash. -/
theorem memberNames_nodup_of_shadowed_field :
    let book : Entity := ⟨"Book", [.plain "title" "String", .plain "pages" "Integer"], .none⟩
    let pages : Relationship := ⟨.oneToMany, ⟨"Book", some "pages"⟩, ⟨"Book", none⟩⟩
    let model : Model := ⟨.ofList [book], .empty, [pages], none⟩
    (entityContexts .naive true model).outcome = .ok [.of .naive [pages] book] ∧
      (Interface.ofContext (.of .naive [pages] book)).memberNames.Nodup := by
  intro book pages model
  have hcontexts : (entityContexts .naive true model).outcome = .ok [.of .naive [pages] book] := by
    rfl
  obtain ⟨entity, hentity, -, hiff⟩ := memberNames_nodup_iff hcontexts (List.mem_singleton_self _)
  obtain rfl : entity = book := List.mem_singleton.mp hentity
  exact ⟨hcontexts, hiff.mpr ⟨by decide +kernel, by decide +kernel, by decide +kernel⟩⟩

/-- Nothing keeps an entity from declaring a field twice, and then its interface does so too. -/
theorem memberNames_of_repeated_field :
    let model := (parse true "entity A \x7b\n  x String\n  x Long\n\x7d").outcome.toOption
    let contexts := model.bind fun model => (entityContexts .naive true model).outcome.toOption
    (contexts.map fun contexts => contexts.map fun context =>
      (Interface.ofContext context).memberNames) = some [["id", "x", "x"]] ∧
      ¬["id", "x", "x"].Nodup := by
  exact ⟨by decide +kernel, by decide⟩

end EntityScaffold.Angular
