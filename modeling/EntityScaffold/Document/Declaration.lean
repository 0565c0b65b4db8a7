import EntityScaffold.Model.Relationship
import EntityScaffold.Text.Blank
import EntityScaffold.Text.Word

/-!
# The grammar of declarations

A document declares enumerations, entities and relationships:

    enum NAME { BODY }
    @EnableAudit entity NAME { BODY }
    relationship CARDINALITY { NAME(ROLE) to NAME(ROLE) }

The annotation and the roles may be missing. Blanks may stand around braces; they must stand after
a keyword, a cardinality's name apart, and around `to`. A body is not empty and ends at the first
closing brace, so what it holds plays no part here. A reader takes a declaration off the front of a
text and returns the rest; each of its steps takes as much as it can, and as the character after a
step is never one that the step could have given up, no other division of the text would do better.
-/

namespace EntityScaffold.Document

open Text

/-- Take given characters off the front. -/
def readLiteral : List Char → List Char → Option (List Char)
  | [], s => some s
  | w :: ws, c :: s => if w = c then readLiteral ws s else none
  | _ :: _, [] => none

/-- Take one character or more of a class off the front, as many as there are. -/
def readRun (p : Char → Bool) (s : List Char) : Option (List Char × List Char) :=
  match s.takeWhile p with
  | [] => none
  | run => some (run, s.dropWhile p)

/-- Take one blank or more off the front. -/
def readBlanks (s : List Char) : Option (List Char) := (readRun isBlank s).map Prod.snd

/-- Take a name off the front. -/
def readName (s : List Char) : Option (List Char × List Char) := readRun isWord s

/-- A named body: the common shape of enumerations and entities. -/
structure Block where
  name : List Char
  body : List Char
deriving DecidableEq, Repr

/-- Take a keyword, a name and a body off the front. -/
def readBlock (keyword : String) (s : List Char) : Option (Block × List Char) := do
  let s ← readLiteral keyword.toList s
  let s ← readBlanks s
  let (name, s) ← readName s
  let s ← readLiteral ['{'] (trimStart s)
  let (body, s) ← readRun (· != '}') s
  let s ← readLiteral ['}'] s
  return (⟨name, body⟩, s)

/-- Take the declaration of an enumeration off the front. -/
def readEnum (s : List Char) : Option (Block × List Char) := readBlock "enum" s

/-- The annotation that makes an entity an audited one. -/
def auditMark : String := "@EnableAudit"

/-- Take the declaration of an entity off the front, with its annotation if there is one. -/
def readEntity (s : List Char) : Option (Block × List Char) :=
  match readLiteral auditMark.toList s with
  | some s => (readBlanks s).bind (readBlock "entity")
  | none => readBlock "entity" s

/-- Take the name of a cardinality off the front. -/
def readCardinality (s : List Char) : Option (Cardinality × List Char) :=
  Cardinality.all.findSome? fun cardinality =>
    (readLiteral cardinality.keyword.toList s).map fun rest => (cardinality, rest)

/-- Take a role in parentheses off the front, if there is one. -/
def readRole (s : List Char) : Option (List Char) × List Char :=
  let role := do
    let s ← readLiteral ['('] s
    let (role, s) ← readName s
    let s ← readLiteral [')'] s
    return (role, s)
  match role with
  | some (role, rest) => (some role, rest)
  | none => (none, s)

/-- Take one end of a relationship off the front. -/
def readEndpoint (s : List Char) : Option (Endpoint × List Char) := do
  let (entity, s) ← readName s
  let (role, s) := readRole s
  return (⟨String.ofList entity, role.map String.ofList⟩, s)

/-- Take the declaration of a relationship off the front. -/
def readRelationship (s : List Char) : Option (Relationship × List Char) := do
  let s ← readLiteral "relationship".toList s
  let s ← readBlanks s
  let (cardinality, s) ← readCardinality s
  let s ← readLiteral ['{'] (trimStart s)
  let (source, s) ← readEndpoint (trimStart s)
  let s ← readBlanks s
  let s ← readLiteral "to".toList s
  let s ← readBlanks s
  let (target, s) ← readEndpoint s
  let s ← readLiteral ['}'] (trimStart s)
  return (⟨cardinality, source, target⟩, s)

end EntityScaffold.Document
