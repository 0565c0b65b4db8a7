import EntityScaffold.Generation.Context

/-!
# Contexts made in a model

A model that is kept is changed when contexts are made from it: entity by entity the fields get
their TypeScript types in the model itself, and a context is made of the entity as it then stands
there. The relationships are checked before the first entity is touched.
-/

namespace EntityScaffold.Generation

open Naming

/-- The contexts of some entities of a model, made one after the other, and the model with the types
that the fields of these entities got on the way. -/
def assembleEntities {ε : Type} (style : PluralStyle) :
    List Entity → Model → Report ε (List Context) × Model
  | [], model => (.ok [], model)
  | entity :: later, model =>
    let model := model.putEntity (attachTypes entity)
    let context := contextOf style model.relationships entity
    let (contexts, model) := assembleEntities style later model
    (do return (← context) :: (← contexts), model)

/-- The contexts of all entities of a model, and the model afterwards. A model that is refused stays
as it is. -/
def assemble (style : PluralStyle) (strict : Bool) (model : Model) :
    Report Fault (List Context) × Model :=
  let dangling := danglingReferences model.entities.names strict model.relationships
  match dangling.outcome with
  | .error fault => (⟨dangling.notes, .error fault⟩, model)
  | .ok _ =>
    let (contexts, model) := assembleEntities style model.entities.items model
    (do let _ ← dangling; contexts, model)

end EntityScaffold.Generation
