import EntityScaffold.Model.Registry
import EntityScaffold.Text.Quoted

/-!
# Fields, entities and auditing

A field is what one line of an entity declares: a name, a type, validation rules and perhaps a
comment. An entity is a named list of fields. An audited entity has four more fields, after its own,
that say who made and last changed it and when.
-/

namespace EntityScaffold

/-- One property of an entity, as declared. -/
structure Field where
  name : String
  /-- The type as it is written in the document. -/
  type : String
  /-- Is the type the name of an enumeration of the document? -/
  isEnum : Bool
  /-- The validation rules, in order, each without blanks. -/
  rules : List String
  /-- The comment that ends the line. It may be there and be empty. -/
  comment : Option String
  /-- The TypeScript type, once the entity has been prepared for generation. -/
  tsType : Option String
deriving DecidableEq, Repr, Inhabited

namespace Field

/-- A field without rules and comment. -/
def plain (name type : String) : Field := ⟨name, type, false, [], none, none⟩

/-- A field must be given a value if one of its rules says so. -/
def isRequired (field : Field) : Bool := field.rules.contains "required"

/-- The comment, if it says anything. -/
def remark (field : Field) : Option String := field.comment.filter (· ≠ "")

/-- A one-line summary: name, type and rules. -/
def summary (field : Field) : String :=
  s!"<Field {field.name}: {field.type}" ++ String.join (field.rules.map (" " ++ ·)) ++ ">"

end Field

/-- Does an entity record its changes? -/
inductive AuditMode
  | none
  | enabled
deriving DecidableEq, Repr, Inhabited

namespace AuditMode

def name : AuditMode → String
  | none => "none"
  | enabled => "enabled"

def ofName? : String → Option AuditMode
  | "none" => some none
  | "enabled" => some enabled
  | _ => Option.none

end AuditMode

/-- A named list of fields. -/
structure Entity where
  name : String
  fields : List Field
  audit : AuditMode
deriving DecidableEq, Repr, Inhabited

instance : Named Entity := ⟨Entity.name⟩

namespace Entity

def fieldNames (entity : Entity) : List String := entity.fields.map Field.name

/-- The first field of a name. -/
def field? (entity : Entity) (name : String) : Option Field :=
  entity.fields.find? fun field => field.name = name

/-- The fields that auditing adds: who and when, for the making and for the last change. -/
def auditFields : List Field :=
  [.plain "createdBy" "String", .plain "createdDate" "Instant",
    .plain "lastModifiedBy" "String", .plain "lastModifiedDate" "Instant"]

/-- Add the audit fields after those the entity has. -/
def withAuditFields (entity : Entity) : Entity :=
  { entity with fields := entity.fields ++ auditFields }

/-- A one-line summary: name, field names and whether the entity is audited. -/
def summary (entity : Entity) : String :=
  let audited := match entity.audit with
    | .enabled => " audited"
    | .none => ""
  s!"<Entity {entity.name} fields=" ++ Text.quotedList entity.fieldNames ++ audited ++ ">"

end Entity

end EntityScaffold
