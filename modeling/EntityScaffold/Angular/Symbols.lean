import EntityScaffold.Generation.Context
import EntityScaffold.Text.Lower
import EntityScaffold.TypeScript.Code

/-!
# Names in generated files

The spellings of an entity's name that its files use, the modules by which generated files refer to
each other from anywhere in the application, and the lists of types that imports are made from.
-/

namespace EntityScaffold.Angular

open Generation Naming

/-- The spellings of a name. -/
structure Symbols where
  /-- File names and selectors. -/
  kebab : String
  /-- Variables and members. -/
  camel : String
  /-- Classes and types. -/
  pascal : String
deriving DecidableEq, Repr

def Symbols.ofName (name : String) : Symbols :=
  ⟨Naming.kebab name, Naming.camel name, Naming.pascal name⟩

def enumModule (name : String) : String := s!"app/enums/{kebab name}.model"

def entityModule (name : String) : String := s!"app/entities/{kebab name}/{kebab name}.model"

def serviceModule (name : String) : String :=
  s!"app/entities/{kebab name}/service/{kebab name}.service"

/-- The elements whose key, case aside, is not the key of one before. `seen` are the small letters
of the keys that came before the list. -/
def distinctBy {α : Type} (key : α → String) (seen : List String) : List α → List α
  | [] => []
  | x :: later =>
    let small := Text.lower (key x)
    if seen.contains small then distinctBy key seen later
    else x :: distinctBy key (small :: seen) later

/-- The property that every entity has by itself. -/
def idName : String := "id"

/-- The TypeScript type of a field. -/
def tsTypeOf (field : Field) : String := field.tsType.getD (TypeScript.typeOf field.type)

/-- The fields that a file lists: all but the one that every entity has by itself. -/
def listedFields (context : Context) : List Field :=
  context.fields.filter fun field => field.name ≠ idName

/-- The fields that hold dates. -/
def dateFields (context : Context) : List Field :=
  context.fields.filter fun field => TypeScript.isDate field.type

/-- The enumerations that are types of fields, each once. -/
def enumTypes (context : Context) : List String :=
  distinctBy id [] ((context.fields.filter Field.isEnum).map Field.type)

/-- The relationship properties that hold one entity. -/
def singleViews (context : Context) : List View := context.views.filter fun view => !view.toMany

/-- The import of dates, in a file that has them. -/
def dateImports (context : Context) : List TypeScript.Import :=
  if (dateFields context).isEmpty then [] else [.default "dayjs" "dayjs/esm"]

/-- The imports of the enumerations that are types of fields. -/
def enumImports (context : Context) : List TypeScript.Import :=
  (enumTypes context).map fun name => .symbols [name] (enumModule name)

end EntityScaffold.Angular
