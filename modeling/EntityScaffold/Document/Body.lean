import EntityScaffold.Document.Declaration
import EntityScaffold.Document.Scan
import EntityScaffold.Model.Entity
import EntityScaffold.Model.Fault
import EntityScaffold.Report

/-!
# Bodies

The body of an enumeration lists values between commas; a literal in parentheses after a value is
passed over. The body of an entity declares one field a line: a name, a type, rules between blanks
and perhaps a comment. A blank line and a line that is a comment declare nothing; any other line
that is no field is passed over with a note, or refused if the reading is strict.
-/

namespace EntityScaffold.Document

open Text

/-! ## Values of an enumeration -/

/-- The value that one piece of an enumeration's body names: what stands before the first opening
parenthesis. -/
def valueOf (piece : List Char) : List Char := trim ((trim piece).takeWhile (· != '('))

/-- The values that the body of an enumeration names, in order. -/
def valuesOf (body : List Char) : List (List Char) :=
  (((trim body).splitOn ',').map valueOf).filter fun value => !value.isEmpty

/-! ## Fields -/

/-- A text up to its first comment sign, and what follows the sign if there is one. -/
def cutAtComment : List Char → List Char × Option (List Char)
  | '/' :: '/' :: rest => ([], some rest)
  | c :: rest =>
    let (before, comment) := cutAtComment rest
    (c :: before, comment)
  | [] => ([], none)

/-- The rules and the comment that follow the type of a field. -/
def rulesAndComment (rest : List Char) : List String × Option String :=
  let (rules, comment) := cutAtComment rest
  ((fields rules).map String.ofList, comment.map fun text => String.ofList (trim text))

/-- A character of a type: types may be generic. -/
def isTypeChar (c : Char) : Bool := isWord c || c == '<' || c == '>'

/-- The field that a line declares, if it declares one. The types in `enumNames` are
enumerations. -/
def readField (enumNames : List String) (line : List Char) : Option Field := do
  let (name, s) ← readName line
  let s ← readBlanks s
  let (type, s) ← readRun isTypeChar s
  let (rules, comment) := rulesAndComment (s.takeWhile (· != '\n'))
  return {
    name := String.ofList name
    type := String.ofList type
    isEnum := enumNames.contains (String.ofList type)
    rules, comment
    tsType := none }

/-! ## The lines of an entity -/

/-- A line of a body without the blanks at its ends, and the offset in the body at which it starts
once they are gone. -/
structure BodyLine where
  offset : Nat
  text : List Char
deriving DecidableEq, Repr

/-- The lines of a body, of which the first starts at an offset. -/
def bodyLinesFrom (start : Nat) : List (List Char) → List BodyLine
  | [] => []
  | line :: later =>
    ⟨start + (line.length - (trimStart line).length), trim line⟩ ::
      bodyLinesFrom (start + line.length + 1) later

/-- The lines of a body. -/
def bodyLines (body : List Char) : List BodyLine := bodyLinesFrom 0 (lines body)

/-- A line that declares nothing and need not: it is blank or a comment. -/
def BodyLine.isIdle (line : BodyLine) : Bool := line.text.isEmpty || startsComment line.text

/-- How the lines of an entity are read. -/
structure BodyReading where
  /-- The name of the entity. -/
  entity : String
  /-- The names of the enumerations of the document. -/
  enumNames : List String
  /-- Is a line that is no field refused? -/
  strict : Bool
  /-- The place in the document of an offset in the body. -/
  placeAt : Nat → Place

/-- The fields that the lines of an entity declare, in order. -/
def BodyReading.readLines (reading : BodyReading) : List BodyLine → Report Fault (List Field)
  | [] => return []
  | line :: later =>
    if line.isIdle then reading.readLines later
    else match readField reading.enumNames line.text with
      | some field => do
        let fields ← reading.readLines later
        return field :: fields
      | none =>
        let text := String.ofList line.text
        if reading.strict then
          .fail ⟨.malformedField reading.entity text, reading.placeAt line.offset⟩
        else do
          .say (.notAField reading.entity text)
          reading.readLines later

/-- The fields that the body of an entity declares. -/
def BodyReading.read (reading : BodyReading) (body : List Char) : Report Fault (List Field) :=
  reading.readLines (bodyLines body)

/-- The place of an offset in a body that is a document by itself and starts on a given line. -/
def placeInBody (firstLine : Int) (body : List Char) (offset : Nat) : Place :=
  ⟨none, some (firstLine + ((body.take offset).count '\n' : Nat)), some (columnNumber body offset)⟩

end EntityScaffold.Document
