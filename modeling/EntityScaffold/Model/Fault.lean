import EntityScaffold.Model.Relationship

/-!
# Faults of a document

Reading a document is lenient unless it is asked to be strict, and only a strict run ends with one
of these faults. A fault may know the file, line and column it is at; what it knows is added to its
message in parentheses.
-/

namespace EntityScaffold

/-- As much of a place in a file as is known. Whoever reads a part of a document says which line it
starts at, and may count lines from wherever it likes. -/
structure Place where
  file : Option String
  line : Option Int
  column : Option Int
deriving DecidableEq, Repr, Inhabited

namespace Place

/-- Nothing is known. -/
def unknown : Place := ⟨none, none, none⟩

/-- The parts that are known, in words. An empty file name says nothing. -/
def parts (place : Place) : List String :=
  (place.file.filter (· ≠ "")).toList ++
    (place.line.map fun line => s!"line {line}").toList ++
    (place.column.map fun column => s!"col {column}").toList

/-- A message with what is known of its place. -/
def annotate (place : Place) (message : String) : String :=
  if place.parts.isEmpty then message
  else s!"{message} (" ++ String.intercalate ", " place.parts ++ ")"

end Place

/-- Why a strict run refuses a document. -/
inductive Fault.Cause
  /-- A line of an entity is no field. -/
  | malformedField (entity line : String)
  /-- A relationship names an entity that is not declared. -/
  | danglingReference (relationship : Relationship) (missing : String)
deriving DecidableEq, Repr

def Fault.Cause.message : Fault.Cause → String
  | malformedField entity line => s!"Malformed field '{line}' in entity '{entity}'."
  | danglingReference relationship missing =>
    s!"Relationship {relationship.text} references unknown entity '{missing}'."

/-- A reason to refuse a document, and where it is. -/
structure Fault where
  cause : Fault.Cause
  place : Place
deriving DecidableEq, Repr

namespace Fault

/-- The words of a fault, with its place. -/
def message (fault : Fault) : String := fault.place.annotate fault.cause.message

/-- The fault as one of a file. -/
def inFile (fault : Fault) (file : String) : Fault :=
  { fault with place := { fault.place with file := some file } }

end Fault

end EntityScaffold
