import EntityScaffold.Model.Entity
import EntityScaffold.Model.Relationship

/-!
# Models

A model is everything that one document declares: enumerations and entities, each under a name of
its own, and the relationships in order.
-/

namespace EntityScaffold

/-- A named list of values, in order of declaration, repeats included. -/
structure Enumeration where
  name : String
  values : List String
deriving DecidableEq, Repr, Inhabited

instance : Named Enumeration := ⟨Enumeration.name⟩

/-- A one-line summary: name and values. -/
def Enumeration.summary (enumeration : Enumeration) : String :=
  s!"<Enum {enumeration.name} " ++ Text.quotedList enumeration.values ++ ">"

/-- What a document declares. -/
structure Model where
  entities : Registry Entity
  enums : Registry Enumeration
  relationships : List Relationship
  /-- The file the model was read from. -/
  filename : Option String
deriving Inhabited

namespace Model

/-- The model that declares nothing. -/
def empty : Model := ⟨.empty, .empty, [], none⟩

/-- A model without entities has nothing to generate from. -/
def isEmpty (model : Model) : Bool := model.entities.isEmpty

/-- Add an entity, or replace the one of its name. -/
def putEntity (model : Model) (entity : Entity) : Model :=
  { model with entities := model.entities.put entity }

/-- Remove the entity of a name. -/
def dropEntity (model : Model) (name : String) : Model :=
  { model with entities := model.entities.erase name }

/-- Add an enumeration, or replace the one of its name. -/
def putEnum (model : Model) (enumeration : Enumeration) : Model :=
  { model with enums := model.enums.put enumeration }

/-- Add a relationship after the others. -/
def addRelationship (model : Model) (relationship : Relationship) : Model :=
  { model with relationships := model.relationships ++ [relationship] }

end Model

end EntityScaffold
