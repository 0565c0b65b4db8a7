import EntityScaffold.Angular.Symbols

/-!
# The form service of an entity

The form service makes the group of controls behind an entity's form: one control for the number,
one for each field and one for each relationship property, whether it holds one or several.
-/

namespace EntityScaffold.Angular

open Generation TypeScript

/-- A control of the form, after the one for the number. -/
structure Control where
  name : String
  required : Bool
deriving DecidableEq, Repr

namespace Control

def ofField (field : Field) : Control := ⟨field.name, field.isRequired⟩

def ofView (view : View) : Control := ⟨view.property, false⟩

/-- The type of a control: that of the property of the same name. -/
def typeLine (p : String) (control : Control) : String :=
  s!"{control.name}: FormControl<I{p}['{control.name}']>;"

def line (control : Control) : String :=
  let validators :=
    if control.required then ", " ++ braced "validators: [Validators.required]" else ""
  s!"{control.name}: new FormControl(raw.{control.name}{validators}),"

end Control

/-- The file of an entity's form service. -/
structure FormService where
  symbols : Symbols
  controls : List Control
  /-- The properties that are not missing at first, and what they hold then. -/
  defaults : List (String × String)

namespace FormService

def ofContext (context : Context) : FormService where
  symbols := .ofName context.entity.name
  controls := (listedFields context).map .ofField ++ context.views.map .ofView
  defaults :=
    ((listedFields context).filter fun field => tsTypeOf field = "boolean").map fun field =>
      (field.name, defaultOf (tsTypeOf field))

/-- Raw values: the defaults, then what is given. -/
def rawLine (camel : String) : String :=
  "const raw = " ++ braced s!"...this.defaults(), ...{camel}" ++ ";"

/-- The control of the number, which is there but not to be changed. -/
def idLine : String :=
  "id: new FormControl(" ++ braced "value: raw.id, disabled: true" ++ ", " ++
    braced "nonNullable: true" ++ "),"

/-- A property that is not missing at first. -/
def defaultLine (property : String × String) : String := s!"{property.1}: {property.2},"

def members (service : FormService) : Code :=
  let p := service.symbols.pascal
  let c := service.symbols.camel
  Code.block
    (s!"create{p}FormGroup({c}: {p}FormGroupInput = " ++ braced "id: null" ++ s!"): {p}FormGroup ")
    (Code.lines [rawLine c] ++
      Code.block s!"return new FormGroup<{p}FormGroupContent>("
        (Code.lines (idLine :: service.controls.map Control.line)) ");")
    "" ++
  Code.lines [""] ++
  Code.block s!"get{p}(form: {p}FormGroup): I{p} | New{p} "
    (Code.lines [s!"return form.getRawValue() as I{p} | New{p};"]) "" ++
  Code.lines [""] ++
  Code.block s!"reset{p}(form: {p}FormGroup, {c}: {p}FormGroupInput): void "
    (Code.lines
      [rawLine c,
        "form.reset(" ++ braced ("...raw, id: " ++ braced "value: raw.id, disabled: true") ++
          " as any);"]) "" ++
  Code.lines [""] ++
  Code.block s!"private defaults(): PartialWithRequiredKeyOf<New{p}> "
    (Code.block "return " (Code.lines ("id: null," :: service.defaults.map defaultLine)) ";") ""

/-- The types that the class is about. -/
def types (service : FormService) : Code :=
  let p := service.symbols.pascal
  Code.lines
    ["type PartialWithRequiredKeyOf<T extends " ++ braced "id: unknown" ++
        "> = Partial<Omit<T, 'id'>> & " ++ braced "id: T['id']" ++ ";",
      "",
      s!"type {p}FormGroupInput = I{p} | PartialWithRequiredKeyOf<New{p}>;",
      ""] ++
  Code.block s!"type {p}FormGroupContent = "
    (Code.lines (s!"id: FormControl<I{p}['id'] | New{p}['id']>;" ::
      service.controls.map (Control.typeLine p))) ";" ++
  Code.lines ["", s!"export type {p}FormGroup = FormGroup<{p}FormGroupContent>;"]

def file (service : FormService) : SourceFile where
  imports :=
    let p := service.symbols.pascal
    [[.symbols ["Injectable"] "@angular/core",
        .symbols ["FormControl", "FormGroup", "Validators"] "@angular/forms"],
      [.symbols [s!"I{p}", s!"New{p}"] s!"../{service.symbols.kebab}.model"]]
  body :=
    service.types ++
    Code.lines ["", "@Injectable(" ++ braced "providedIn: 'root'" ++ ")"] ++
    Code.block s!"export class {service.symbols.pascal}FormService " service.members ""

end FormService

end EntityScaffold.Angular
