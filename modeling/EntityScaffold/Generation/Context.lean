import EntityScaffold.Model.Basic
import EntityScaffold.Model.Fault
import EntityScaffold.Naming.Case
import EntityScaffold.Naming.Plural
import EntityScaffold.Report
import EntityScaffold.TypeScript.Type

/-!
# What the files of an entity are made from

The files of an entity need more than its declaration: the TypeScript types of its fields, the
relationships that start at it with the names they go by, and a plural. A relationship property
wins over a field of its name. Before anything is put together every relationship is checked for
ends that are not declared; a strict run stops at the first one, so it has said and changed nothing
yet.
-/

namespace EntityScaffold.Generation

open Naming

/-! ## Relationships seen from their source -/

/-- A relationship as its source entity sees it. -/
structure View where
  relationship : Relationship
  /-- The plural of the entity at the other end. -/
  otherPlural : String
deriving DecidableEq, Repr

namespace View

/-- The view of a relationship, with plurals of a style. -/
def ofRelationship (style : PluralStyle) (relationship : Relationship) : View :=
  ⟨relationship, plural style relationship.target.entity⟩

/-- The entity at the other end. -/
def other (view : View) : String := view.relationship.target.entity

/-- The symbol of the entity at the other end. -/
def otherPascal (view : View) : String := pascal view.other

/-- The property that holds the other end: its role, or else the entity in camel case. -/
def property (view : View) : String :=
  view.relationship.source.namedRole.getD (camel view.other)

/-- Does the property hold several? -/
def toMany (view : View) : Bool := view.relationship.cardinality.toMany

end View

/-- The views of the relationships that start at an entity, in order. -/
def viewsFrom (style : PluralStyle) (entity : String) (relationships : List Relationship) :
    List View :=
  (relationships.filter fun relationship => relationship.source.entity = entity).map
    (View.ofRelationship style)

/-! ## Fields -/

/-- Give a field the TypeScript type that its declared type stands for. -/
def attachType (field : Field) : Field :=
  { field with tsType := some (TypeScript.typeOf field.type) }

/-- Give every field of an entity its TypeScript type. -/
def attachTypes (entity : Entity) : Entity :=
  { entity with fields := entity.fields.map attachType }

/-- The fields of an entity that no relationship property takes the place of. Each field that is
left out is noted. -/
def visibleFields {ε : Type} (entity : String) (views : List View) :
    List Field → Report ε (List Field)
  | [] => return []
  | field :: later =>
    if views.any fun view => view.property = field.name then do
      .say (.shadowedField entity field.name)
      visibleFields entity views later
    else do
      let fields ← visibleFields entity views later
      return field :: fields

/-! ## Dangling references -/

/-- The first end of a relationship, source before target, that is none of the given entities. -/
def missingEnd? (known : List String) (relationship : Relationship) : Option String :=
  (relationship.ends.map Endpoint.entity).find? fun name => !known.contains name

/-- The relationships with an end that is not among the known entities, in order. Each is noted; a
strict check fails at the first instead. -/
def danglingReferences (known : List String) (strict : Bool) :
    List Relationship → Report Fault (List Relationship)
  | [] => return []
  | relationship :: later =>
    match missingEnd? known relationship with
    | none => danglingReferences known strict later
    | some missing =>
      if strict then .fail ⟨.danglingReference relationship missing, .unknown⟩
      else do
        .say (.danglingReference relationship missing)
        let others ← danglingReferences known strict later
        return relationship :: others

/-! ## Contexts -/

/-- What the files of one entity are made from. -/
structure Context where
  /-- The entity, its fields with their TypeScript types. -/
  entity : Entity
  /-- The relationships that start at the entity. -/
  views : List View
  /-- The plural of the entity's kebab case. -/
  plural : String
  /-- The fields that no relationship property takes the place of. -/
  fields : List Field
deriving DecidableEq, Repr

/-- The context of an entity among relationships. -/
def contextOf {ε : Type} (style : PluralStyle) (relationships : List Relationship)
    (entity : Entity) : Report ε Context := do
  let entity := attachTypes entity
  let views := viewsFrom style entity.name relationships
  let fields ← visibleFields entity.name views entity.fields
  return ⟨entity, views, plural style (kebab entity.name), fields⟩

/-- The contexts of some entities, in order. -/
def contextsOf {ε : Type} (style : PluralStyle) (relationships : List Relationship) :
    List Entity → Report ε (List Context)
  | [] => return []
  | entity :: later => do
    let context ← contextOf style relationships entity
    let contexts ← contextsOf style relationships later
    return context :: contexts

/-- The contexts of all entities of a model. -/
def entityContexts (style : PluralStyle) (strict : Bool) (model : Model) :
    Report Fault (List Context) := do
  let _ ← danglingReferences model.entities.names strict model.relationships
  contextsOf style model.relationships model.entities.items

/-- A model whose fields all have their TypeScript types. -/
def prepare (model : Model) : Model :=
  { model with entities := model.entities.update attachTypes fun _ => rfl }

/-- The model that is left when contexts have been made from it, or could not be: a dangling
reference stops the making before a field is touched. -/
def afterContexts {α : Type} (report : Report Fault α) (model : Model) : Model :=
  match report.outcome with
  | .ok _ => prepare model
  | .error _ => model

end EntityScaffold.Generation
