import EntityScaffold.Angular.FormComponent
import EntityScaffold.Html.Basic

/-!
# The form of an entity

The form has an input for each field and for each relationship property that holds one entity. What
kind of input it is depends on the type of the property. An input that must be filled in says so
when it was left empty.
-/

namespace EntityScaffold.Angular

open Generation Naming Html

/-- How a property is put in. -/
inductive InputKind
  /-- One of the values that a member of the component holds. -/
  | enumValue (member : String)
  | checkbox
  | number
  | moment
  | text
  /-- One of the entities in a collection of the component. -/
  | entity (collection : String)
deriving DecidableEq, Repr

/-- An input of the form. -/
structure Input where
  name : String
  kind : InputKind
  hint : Option String
  required : Bool
deriving DecidableEq, Repr

namespace Input

def kindOfField (field : Field) : InputKind :=
  if field.isEnum then .enumValue (FormComponent.enumValuesMember field.type)
  else if tsTypeOf field = "boolean" then .checkbox
  else if tsTypeOf field = "number" then .number
  else if TypeScript.isDate field.type then .moment
  else .text

def ofField (field : Field) : Input :=
  ⟨field.name, kindOfField field, field.remark, field.isRequired⟩

def ofView (view : View) : Input :=
  ⟨view.property, .entity (OptionCollection.ofView view).name, none, false⟩

/-- The attributes that tie an element to the property it is for. -/
def binding (name : String) : List Attribute :=
  [attr "id" s!"field_{name}", attr "formControlName" name]

/-- An element in which one of several options is chosen, or none of them. -/
def choice (name item source value expression : String) : Node :=
  .element "select" (attr "class" "form-control" :: binding name)
    [.leaf "option" [attr "[ngValue]" "null"] "",
      .leaf "option" [attr "*ngFor" s!"let {item} of {source}", attr value item]
        (shown expression)]

/-- An element of a simple type. -/
def simple (type style name : String) : Node :=
  .void "input" ([attr "type" type, attr "class" style] ++ binding name)

/-- The element in which a property is put in. -/
def control (input : Input) : Node :=
  match input.kind with
  | .enumValue member => choice input.name "value" member "[value]" "value"
  | .checkbox => simple "checkbox" "form-check" input.name
  | .number => simple "number" "form-control" input.name
  | .moment => simple "datetime-local" "form-control" input.name
  | .text => simple "text" "form-control" input.name
  | .entity collection => choice input.name "option" collection "[ngValue]" "option.id"

/-- The message that a property must be given. -/
def requiredMessage (name : String) : Node :=
  .element "div"
    [attr "*ngIf" s!"editForm.get('{name}')!.invalid && editForm.get('{name}')!.dirty"]
    [.leaf "small" [attr "class" "form-text text-danger"] "This field is required."]

/-- An input with its label, and its hint and message if it has them. -/
def node (input : Input) : Node :=
  .element "div" [attr "class" "mb-3"]
    ([.leaf "label" [attr "class" "form-label", attr "for" s!"field_{input.name}"] input.name,
        input.control] ++
      input.hint.toList.map (.leaf "small" [attr "class" "form-text text-muted"]) ++
      (if input.required then [requiredMessage input.name] else []))

end Input

/-- The form of an entity. -/
structure FormPage where
  symbols : Symbols
  inputs : List Input

namespace FormPage

def ofContext (context : Context) : FormPage where
  symbols := .ofName context.entity.name
  inputs := (listedFields context).map .ofField ++ (singleViews context).map .ofView

/-- The buttons below the inputs. -/
def buttons : Node :=
  .element "div" []
    [.leaf "button"
        [attr "type" "button", attr "class" "btn btn-secondary", attr "(click)" "previousState()"]
        "Cancel",
      .leaf "button"
        [attr "type" "submit", attr "class" "btn btn-primary",
          attr "[disabled]" "editForm.invalid || isSaving"]
        "Save"]

def page (form : FormPage) : Node :=
  .element "div" [attr "class" "d-flex justify-content-center"]
    [.element "div" [attr "class" "col-8"]
      [.element "form"
        [attr "name" "editForm", flag "novalidate", attr "(ngSubmit)" "save()",
          attr "[formGroup]" "editForm"]
        ([.leaf "h2" [attr "id" s!"app-{form.symbols.kebab}-heading"]
            s!"Create or edit a {form.symbols.pascal}",
            .blank] ++
          form.inputs.flatMap (fun input => [input.node, .blank]) ++
          [buttons])]]

end FormPage

end EntityScaffold.Angular
