import EntityScaffold.Angular.Symbols
import EntityScaffold.Console.Tree
import EntityScaffold.Document.Declaration

/-!
# The overview of a model

What a document declares, as a tree: the enumerations with their values, the entities with their
fields, and the relationships. Rules, comments and relationships are shown as they are; what else
comes from the document is taken as markup.
-/

namespace EntityScaffold.Run

open Console

/-- A text that is shown as it is. -/
def verbatim (text : String) : String := String.ofList (escape text.toList)

/-- A text in a style. -/
def styled (style text : String) : String := s!"[{style}]{text}[/{style}]"

/-- The label of a field: name, type, TypeScript type if it differs, and what else is known. -/
def fieldLabel (field : Field) : String :=
  let tsType := Angular.tsTypeOf field
  styled "bold" field.name ++ s!": {field.type}" ++
    (if tsType = field.type then "" else s!" -> {tsType}") ++
    (if field.isEnum then " " ++ styled "magenta" "(enum)" else "") ++
    (if field.rules.isEmpty then ""
      else " " ++ verbatim ("[" ++ String.intercalate " " field.rules ++ "]")) ++
    (match field.remark with
      | some remark => " " ++ styled "dim" ("// " ++ verbatim remark)
      | none => "")

/-- The label of an enumeration: name and values. -/
def enumLabel (enumeration : Enumeration) : String :=
  let values := String.intercalate ", " enumeration.values
  styled "bold" enumeration.name ++ ": " ++ (if values = "" then "(no values)" else values)

/-- The label of an entity: name, and the annotation if it is audited. -/
def entityLabel (entity : Entity) : String :=
  styled "bold" entity.name ++
    match entity.audit with
    | .enabled => " " ++ styled "cyan" Document.auditMark
    | .none => ""

def entityNode (entity : Entity) : Tree :=
  .node (entityLabel entity) (entity.fields.map fun field => .node (fieldLabel field) [])

/-- A node that says how many children it has. -/
def counted (title : String) (children : List Tree) : Tree :=
  .node s!"{title} ({children.length})" children

def overview (model : Model) : Tree :=
  .node (styled "bold" ((model.filename.filter (· ≠ "")).getD "JDL model"))
    [counted "Enums" (model.enums.items.map fun enumeration => .node (enumLabel enumeration) []),
      counted "Entities" (model.entities.items.map entityNode),
      counted "Relationships" (model.relationships.map fun relationship =>
        .node (verbatim relationship.text) [])]

end EntityScaffold.Run
