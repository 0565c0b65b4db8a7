import EntityScaffold.Proofs.Generation.Dangling
import EntityScaffold.Proofs.Report

/-!
# What contexts are made of

Making the contexts of a model only speaks on the way. If it ends with contexts they are one for
each entity, in order, and each depends on its entity and the relationships only (`Context.of`).
A lenient run always ends with contexts, a strict one only if both ends of every relationship are
declared.
-/

namespace EntityScaffold.Generation

open Naming

/-- The context of an entity among relationships, without what is said when it is made. -/
def Context.of (style : PluralStyle) (relationships : List Relationship) (entity : Entity) :
    Context :=
  let views := viewsFrom style entity.name relationships
  ⟨attachTypes entity, views, Naming.plural style (kebab entity.name),
    (attachTypes entity).fields.filter fun field =>
      !views.any fun view => view.property = field.name⟩

theorem outcome_visibleFields {ε : Type} (entity : String) (views : List View)
    (fields : List Field) :
    (visibleFields entity views fields : Report ε (List Field)).outcome =
      .ok (fields.filter fun field => !views.any fun view => view.property = field.name) := by
  induction fields with
  | nil => rfl
  | cons field later ih =>
    rw [visibleFields]
    by_cases htaken : (views.any fun view => view.property = field.name) = true
    · rw [if_pos htaken, List.filter_cons_of_neg (by simpa using htaken)]
      exact ih
    · rw [if_neg htaken, List.filter_cons_of_pos (by simpa using htaken)]
      exact Report.outcome_andThen_of_ok ih

theorem outcome_contextOf {ε : Type} (style : PluralStyle) (relationships : List Relationship)
    (entity : Entity) :
    (contextOf style relationships entity : Report ε Context).outcome =
      .ok (.of style relationships entity) :=
  Report.outcome_andThen_of_ok (outcome_visibleFields _ _ _)

theorem outcome_contextsOf {ε : Type} (style : PluralStyle) (relationships : List Relationship)
    (entities : List Entity) :
    (contextsOf style relationships entities : Report ε (List Context)).outcome =
      .ok (entities.map (.of style relationships)) := by
  induction entities with
  | nil => rfl
  | cons entity later ih =>
    rw [contextsOf]
    exact (Report.outcome_andThen_of_ok (outcome_contextOf style relationships entity)).trans
      (Report.outcome_andThen_of_ok ih)

/-- Contexts that are made of a model are those of its entities, in order. -/
theorem contexts_eq_of_outcome {style : PluralStyle} {strict : Bool} {model : Model}
    {contexts : List Context} (h : (entityContexts style strict model).outcome = .ok contexts) :
    contexts = model.entities.items.map (.of style model.relationships) := by
  obtain ⟨_, -, hlater⟩ := Report.exists_of_andThen_ok h
  rw [outcome_contextsOf, Except.ok.injEq] at hlater
  exact hlater.symm

/-! ## Dangling references -/

/-- A lenient run always has contexts. -/
theorem outcome_entityContexts_lenient (style : PluralStyle) (model : Model) :
    (entityContexts style false model).outcome =
      .ok (model.entities.items.map (.of style model.relationships)) := by
  have hdangling :
      (danglingReferences model.entities.names false model.relationships).outcome =
        .ok (danglingAmong model.entities.names model.relationships) := by
    rw [danglingReferences_lenient]
  exact (Report.outcome_andThen_of_ok hdangling).trans (outcome_contextsOf _ _ _)

/-- Both ends of every relationship of a model are declared. -/
def EndsDeclared (model : Model) : Prop :=
  ∀ relationship ∈ model.relationships, ∀ endpoint ∈ relationship.ends,
    endpoint.entity ∈ model.entities.names

/-- A run has contexts if it is lenient or all ends are declared. -/
theorem outcome_entityContexts (style : PluralStyle) {strict : Bool} {model : Model}
    (h : strict = true → EndsDeclared model) :
    (entityContexts style strict model).outcome =
      .ok (model.entities.items.map (.of style model.relationships)) := by
  cases strict with
  | false => exact outcome_entityContexts_lenient style model
  | true =>
    have hnone := (danglingAmong_eq_nil_iff _ _).mpr (h rfl)
    have hdangling : (danglingReferences model.entities.names true model.relationships).outcome =
        .ok [] := (outcome_danglingReferences_strict_iff _ _ _).mpr ⟨hnone, rfl⟩
    exact (Report.outcome_andThen_of_ok hdangling).trans (outcome_contextsOf _ _ _)

/-- Where a strict run has contexts, both ends of every relationship are declared. -/
theorem ends_declared_of_strict {style : PluralStyle} {model : Model} {contexts : List Context}
    (h : (entityContexts style true model).outcome = .ok contexts) :
    ∀ relationship ∈ model.relationships, ∀ endpoint ∈ relationship.ends,
      endpoint.entity ∈ model.entities.names := by
  obtain ⟨dangling, hdangling, -⟩ := Report.exists_of_andThen_ok h
  exact (danglingAmong_eq_nil_iff _ _).mp
    ((outcome_danglingReferences_strict_iff _ _ _).mp hdangling).1

end EntityScaffold.Generation
