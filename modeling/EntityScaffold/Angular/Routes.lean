import EntityScaffold.Angular.Symbols

/-!
# The routes of an entity

Three pages: the list of all, the form for a new one and the form for an existing one. A page's
component is loaded when the page is first visited.
-/

namespace EntityScaffold.Angular

open Generation TypeScript

/-- A page: where it is, which component shows it and what it is called. -/
structure Route where
  path : String
  module : String
  component : String
  title : String
deriving DecidableEq, Repr

def Route.code (route : Route) : Code :=
  Code.block ""
    (Code.lines [s!"path: '{route.path}',"] ++
      [[.plain "loadComponent: () => import(", .module route.module,
        .plain s!").then(m => m.{route.component}),"]] ++
      Code.lines [s!"title: '{route.title}',"])
    ","

def routesOf (symbols : Symbols) : List Route :=
  let list := s!"./list/{symbols.kebab}-list.component"
  let form := s!"./form/{symbols.kebab}-form.component"
  let p := symbols.pascal
  [⟨"", list, s!"{p}ListComponent", p⟩,
    ⟨"new", form, s!"{p}FormComponent", s!"New {p}"⟩,
    ⟨":id/edit", form, s!"{p}FormComponent", s!"Edit {p}"⟩]

def routesFile (symbols : Symbols) : SourceFile where
  imports := [[.symbols ["Routes"] "@angular/router"]]
  body := Code.lines [s!"const {symbols.camel}Routes: Routes = ["] ++
    Code.indent ((routesOf symbols).flatMap Route.code) ++
    Code.lines ["];", "", s!"export default {symbols.camel}Routes;"]

end EntityScaffold.Angular
