import EntityScaffold.Angular.ListComponent
import EntityScaffold.Html.Basic

/-!
# The list of an entity

A table of all entities of a kind with a column for the number, for each field and for each
relationship property that holds one entity, and a last column for what can be done with them.
-/

namespace EntityScaffold.Angular

open Generation Naming Html

/-- A column of the table, between the number and the last. -/
structure Column where
  heading : String
  /-- What a row shows of its entity. -/
  access : String
deriving DecidableEq, Repr

namespace Column

/-- The column of a field. Dates are shown to the minute. -/
def ofField (field : Field) : Column :=
  ⟨field.name,
    if TypeScript.isDate field.type then s!"{field.name}?.format('YYYY-MM-DD HH:mm')"
    else field.name⟩

/-- The column of a relationship property: the number of the other end. -/
def ofView (view : View) : Column := ⟨view.property, s!"{view.property}?.id"⟩

def headingNode (heading : String) : Node := .leaf "th" [attr "scope" "col"] heading

/-- What a row shows of an entity. -/
def cell (variable_ access : String) : Node := .leaf "td" [] (shown s!"{variable_}.{access}")

end Column

/-- The list of an entity. -/
structure ListPage where
  symbols : Symbols
  /-- The member of the component that holds the entities. -/
  collection : String
  columns : List Column

namespace ListPage

def ofContext (context : Context) : ListPage where
  symbols := .ofName context.entity.name
  collection := camel context.plural
  columns := (listedFields context).map .ofField ++ (singleViews context).map .ofView

/-- What can be done with the entity of a row. -/
def actions (camel : String) : Node :=
  .element "td" [attr "class" "text-end"]
    [.leaf "button"
        [attr "type" "button", attr "class" "btn btn-primary btn-sm",
          attr "[routerLink]" s!"[{camel}.id, 'edit']"]
        "Edit",
      .leaf "button"
        [attr "type" "button", attr "class" "btn btn-danger btn-sm",
          attr "(click)" s!"delete({camel})"]
        "Delete"]

/-- The headings of the columns, those of the number and of the last included. -/
def headings (list : ListPage) : List String := "ID" :: list.columns.map Column.heading ++ [""]

def table (list : ListPage) : Node :=
  let c := list.symbols.camel
  .element "table" [attr "class" "table table-striped"]
    [.element "thead" [] [.element "tr" [] (list.headings.map Column.headingNode)],
      .element "tbody" []
        [.element "tr" [attr "*ngFor" s!"let {c} of {list.collection}; trackBy: trackId"]
          (Column.cell c "id" :: list.columns.map (fun column => Column.cell c column.access) ++
            [actions c])]]

def page (list : ListPage) : Node :=
  let p := list.symbols.pascal
  .element "div" []
    [.element "h2" [attr "id" "page-heading"]
        [.leaf "span" [] p,
          .leaf "button" [attr "class" "btn btn-primary float-end", attr "[routerLink]" "['new']"]
            s!"Create a new {p}"],
      .blank,
      .leaf "div"
        [attr "class" "alert alert-warning",
          attr "*ngIf" s!"!isLoading && {list.collection}.length === 0"]
        s!"No {p} found",
      .blank,
      .element "div"
        [attr "class" "table-responsive", attr "*ngIf" s!"{list.collection}.length > 0"]
        [list.table]]

end ListPage

end EntityScaffold.Angular
