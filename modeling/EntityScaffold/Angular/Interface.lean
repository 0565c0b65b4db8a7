import EntityScaffold.Angular.Symbols

/-!
# The interface of an entity

The interface declares the properties of an entity: its number, its fields and the other ends of
its relationships. An entity that is not stored yet is the same without a number.
-/

namespace EntityScaffold.Angular

open Generation Naming TypeScript

/-- A property of an interface, after the number. -/
structure Member where
  name : String
  type : String
  remark : Option String
deriving DecidableEq, Repr

def Member.ofField (field : Field) : Member := ⟨field.name, tsTypeOf field, field.remark⟩

/-- The property of a relationship: the number of the other end, or of each of them. -/
def Member.ofView (view : View) : Member :=
  ⟨view.property,
    s!"Pick<I{view.otherPascal}, 'id'>" ++ (if view.toMany then "[]" else ""), none⟩

/-- A property as a line of code. Any of them may be missing. -/
def Member.line (member : Member) : Line :=
  let remark := match member.remark with
    | some remark => " // " ++ remark
    | none => ""
  [.plain (s!"{member.name}?: {member.type} | null;" ++ remark)]

/-- The file of an entity's interface. -/
structure Interface where
  symbols : Symbols
  imports : List Import
  members : List Member

namespace Interface

/-- The entities at other ends, the entity itself apart, each once. -/
def relatedEntities (context : Context) : List String :=
  distinctBy id [] ((context.views.filter fun view => view.other ≠ context.entity.name).map
    View.other)

def ofContext (context : Context) : Interface where
  symbols := .ofName context.entity.name
  imports := dateImports context ++ enumImports context ++
    (relatedEntities context).map fun name => .symbols ["I" ++ pascal name] (entityModule name)
  members := (listedFields context).map .ofField ++ context.views.map .ofView

/-- The names of the properties, the number first. -/
def memberNames (interface : Interface) : List String :=
  idName :: interface.members.map Member.name

def file (interface : Interface) : SourceFile :=
  let p := interface.symbols.pascal
  { imports := [interface.imports]
    body := Code.block s!"export interface I{p} "
        (Code.lines ["id: number;"] ++ interface.members.map Member.line) "" ++
      Code.lines ["", s!"export type New{p} = Omit<I{p}, 'id'> & " ++ braced "id: null" ++ ";"] }

end Interface

end EntityScaffold.Angular
