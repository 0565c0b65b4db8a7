import EntityScaffold.Document.Body
import EntityScaffold.Model.Basic

/-!
# From a document to a model

The three kinds of declaration are looked for one after the other, each in the whole text.
Enumerations come first, so that a field is told to be one of them wherever they are declared. A
declaration that repeats a name replaces the earlier one and keeps its place.
-/

namespace EntityScaffold.Document

/-- Go through occurrences from an initial value: note those that are commented out, take a step
for the others. -/
def foldLive {ε α β : Type} (source : Source) (step : β → Occurrence α → Report ε β) :
    β → List (Occurrence α) → Report ε β
  | value, [] => return value
  | value, occurrence :: later =>
    if isCommented source.plain occurrence.start then do
      .say (.skippedDeclaration (source.lineNumber occurrence.start))
      foldLive source step value later
    else do
      let value ← step value occurrence
      foldLive source step value later

/-- The occurrences of a kind of declaration that are not commented out. -/
def liveOccurrences {ε α : Type} (read : List Char → Option (α × List Char)) (source : Source) :
    Report ε (List (Occurrence α)) :=
  foldLive source (fun found occurrence => return found ++ [occurrence]) []
    (occurrences read source.plain)

/-- The enumeration that a block declares. -/
def Block.enumeration (block : Block) : Enumeration :=
  ⟨String.ofList block.name, (valuesOf block.body).map String.ofList⟩

/-- The enumerations of a text. -/
def readEnums {ε : Type} (source : Source) : Report ε (Registry Enumeration) :=
  foldLive source (fun enums occurrence => return enums.put occurrence.value.enumeration) .empty
    (occurrences readEnum source.plain)

/-- The relationships of a text, repeats included. -/
def readRelationships {ε : Type} (source : Source) : Report ε (List Relationship) :=
  foldLive source (fun found occurrence => return found ++ [occurrence.value]) []
    (occurrences readRelationship source.plain)

/-- A declaration that begins with the annotation asks for auditing. -/
def auditModeOf (declaration : List Char) : AuditMode :=
  if auditMark.toList.isPrefixOf (Text.trim declaration) then .enabled else .none

/-- An entity with its audit fields, if it is to have them. -/
def applyAudit {ε : Type} (entity : Entity) : Report ε Entity :=
  match entity.audit with
  | .none => return entity
  | .enabled => do
    .say (.auditEnabled entity.name)
    return entity.withAuditFields

/-- The place, in the document as written, of an offset of its kept text. The line counts the lines
of the comments that were taken out, the column does not count their characters. -/
def Source.placeAt (source : Source) (offset : Nat) : Place :=
  ⟨none, some (source.lineNumber offset), some (source.columnNumber offset)⟩

/-- The offset of the body of an entity. -/
def Occurrence.bodyStart (occurrence : Occurrence Block) : Nat :=
  occurrence.stop - 1 - occurrence.value.body.length

/-- The entity that an occurrence declares. -/
def readEntityAt (source : Source) (enumNames : List String) (strict : Bool)
    (occurrence : Occurrence Block) : Report Fault Entity := do
  let name := String.ofList occurrence.value.name
  let reading : BodyReading :=
    ⟨name, enumNames, strict, fun offset => source.placeAt (occurrence.bodyStart + offset)⟩
  let fields ← reading.read occurrence.value.body
  applyAudit ⟨name, fields, auditModeOf occurrence.text⟩

/-- The entities of a text. -/
def readEntities (source : Source) (enumNames : List String) (strict : Bool) :
    Report Fault (Registry Entity) :=
  foldLive source
    (fun entities occurrence => do
      let entity ← readEntityAt source enumNames strict occurrence
      return entities.put entity)
    .empty (occurrences readEntity source.plain)

/-- The model that a document declares. -/
def parse (strict : Bool) (text : String) : Report Fault Model := do
  let source := Source.strip text.toList
  let enums ← readEnums source
  let entities ← readEntities source enums.names strict
  let relationships ← readRelationships source
  return ⟨entities, enums, relationships, none⟩

end EntityScaffold.Document
