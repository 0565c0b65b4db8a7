import EntityScaffold.Log
import EntityScaffold.Model.Relationship
import EntityScaffold.Path
import EntityScaffold.Text.Quoted

/-!
# Reports

Reading a document and generating from it never print. What they have to say is a list of notes,
in order, that stands beside the value or the error they end with; the notes before an error are
kept. Each note is a cause with its data, and one function words it.
-/

namespace EntityScaffold

/-- Something a run has to say. -/
inductive Note
  /-- A declaration on a commented line was passed over. -/
  | skippedDeclaration (line : Nat)
  /-- A line of an entity is no field and was passed over. -/
  | notAField (entity line : String)
  /-- An entity got its audit fields. -/
  | auditEnabled (entity : String)
  /-- A relationship names an entity that is not declared. -/
  | danglingReference (relationship : Relationship) (missing : String)
  /-- A field gives way to a relationship property of its name. -/
  | shadowedField (entity field : String)
  /-- The files of an entity are about to be generated. -/
  | generatingEntity (entity : String)
  /-- The file of an enumeration is about to be generated. -/
  | generatingEnum (enumeration : String)
  /-- A file of an entity was written. -/
  | wroteEntityFile (path : Path)
  /-- A file of an enumeration was written. -/
  | wroteEnumFile (path : Path)
deriving DecidableEq, Repr

namespace Note

def kind : Note → Log.Kind
  | skippedDeclaration .. | notAField .. => .skip
  | danglingReference .. | shadowedField .. => .warn
  | auditEnabled .. | generatingEntity .. | generatingEnum .. => .step
  | wroteEntityFile .. | wroteEnumFile .. => .generated

def logger : Note → String
  | skippedDeclaration .. => "jdl.gen.scanner"
  | notAField .. | auditEnabled .. => "jdl.gen.entity_extractor"
  | danglingReference .. | shadowedField .. => "jdl.gen.context_builders"
  | generatingEntity .. | generatingEnum .. => "jdl.gen.generator"
  | wroteEntityFile .. => "jdl.gen.entity_generator"
  | wroteEnumFile .. => "jdl.gen.enum_generator"

def message : Note → String
  | skippedDeclaration line => s!"Commented declaration at line {line}"
  | notAField entity line => s!"Not a field in {entity}: " ++ Text.quoted line
  | auditEnabled entity => s!"Audit fields enabled for entity: {entity}"
  | danglingReference relationship missing =>
    s!"Relationship {relationship.text} references unknown entity '{missing}'"
  | shadowedField entity field =>
    s!"Field {entity}.{field} is replaced by the relationship property of the same name"
  | generatingEntity entity => s!"Generating files for entity: {entity}"
  | generatingEnum enumeration => s!"Generating file for enum: {enumeration}"
  | wroteEntityFile path | wroteEnumFile path => path.text

def record (note : Note) : Log.Record :=
  ⟨note.kind.level, note.logger, note.kind.shape note.message⟩

/-- A dangling reference is also a warning to the calling program. -/
def warning? : Note → Option String
  | note@(danglingReference ..) => some note.message
  | _ => none

end Note

/-- What a run says, and how it ends. -/
structure Report (ε α : Type) where
  notes : List Note
  outcome : Except ε α

namespace Report

variable {ε α β : Type}

/-- End with a value and nothing to say. -/
def ok (value : α) : Report ε α := ⟨[], .ok value⟩

/-- End with an error. -/
def fail (error : ε) : Report ε α := ⟨[], .error error⟩

/-- Say one thing. -/
def say (note : Note) : Report ε Unit := ⟨[note], .ok ()⟩

/-- Go on with a second run after a first one that ended with a value. -/
def andThen (report : Report ε α) (next : α → Report ε β) : Report ε β :=
  match report.outcome with
  | .error error => ⟨report.notes, .error error⟩
  | .ok value =>
    let rest := next value
    ⟨report.notes ++ rest.notes, rest.outcome⟩

instance : Monad (Report ε) where
  pure := ok
  bind := andThen

/-- End with an outcome that is known already. -/
def ofExcept (outcome : Except ε α) : Report ε α := ⟨[], outcome⟩

/-- Change the errors of a report. -/
def mapError {ε' : Type} (f : ε → ε') (report : Report ε α) : Report ε' α :=
  ⟨report.notes, report.outcome.mapError f⟩

@[simp] theorem pure_eq_ok (value : α) : (pure value : Report ε α) = ok value := rfl

@[simp] theorem bind_eq_andThen (report : Report ε α) (next : α → Report ε β) :
    report >>= next = report.andThen next := rfl

@[simp] theorem ok_andThen (value : α) (next : α → Report ε β) :
    (ok value).andThen next = next value := rfl

@[simp] theorem fail_andThen (error : ε) (next : α → Report ε β) :
    (fail error : Report ε α).andThen next = fail error := rfl

@[simp] theorem say_andThen (note : Note) (next : Unit → Report ε β) :
    (say note).andThen next = ⟨note :: (next ()).notes, (next ()).outcome⟩ := rfl

@[simp] theorem andThen_ok (report : Report ε α) : report.andThen ok = report := by
  cases report with
  | mk notes outcome => cases outcome <;> simp [andThen, ok]

theorem andThen_assoc {γ : Type} (report : Report ε α) (next : α → Report ε β)
    (last : β → Report ε γ) :
    (report.andThen next).andThen last = report.andThen fun value => (next value).andThen last := by
  cases report with
  | mk notes outcome =>
    cases outcome with
    | error e => rfl
    | ok value =>
      cases h : next value with
      | mk notes' outcome' => cases outcome' <;> simp [andThen, h, List.append_assoc]

end Report

end EntityScaffold
