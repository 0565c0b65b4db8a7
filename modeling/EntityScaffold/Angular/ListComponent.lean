import EntityScaffold.Angular.Symbols

/-!
# The list component of an entity

The component behind the list of all entities of a kind fetches them and deletes them.
-/

namespace EntityScaffold.Angular

open Generation Naming TypeScript

/-- The file of an entity's list component. -/
structure ListComponent where
  symbols : Symbols
  /-- The member that holds the entities. -/
  collection : String

namespace ListComponent

def ofContext (context : Context) : ListComponent where
  symbols := .ofName context.entity.name
  collection := camel context.plural

def templateFile (symbols : Symbols) : String := s!"./{symbols.kebab}-list.component.html"

def members (component : ListComponent) : Code :=
  let p := component.symbols.pascal
  let c := component.symbols.camel
  Code.lines
    [s!"{component.collection}: I{p}[] = [];",
      "isLoading = false;",
      "",
      s!"protected readonly {c}Service = inject({p}Service);",
      ""] ++
  Code.block "ngOnInit(): void " (Code.lines ["this.load();"]) "" ++
  Code.lines [""] ++
  Code.block "load(): void "
    (Code.lines ["this.isLoading = true;"] ++
      Code.block s!"this.{c}Service.query().subscribe("
        (Code.block "next: res => "
            (Code.lines
              [s!"this.{component.collection} = res.body ?? [];", "this.isLoading = false;"]) "," ++
          Code.lines ["error: () => (this.isLoading = false),"]) ");") "" ++
  Code.lines [""] ++
  Code.block s!"trackId(_index: number, item: I{p}): number " (Code.lines ["return item.id;"]) "" ++
  Code.lines [""] ++
  Code.block s!"delete({c}: I{p}): void "
    (Code.lines [s!"this.{c}Service.delete({c}.id).subscribe(() => this.load());"]) ""

def file (component : ListComponent) : SourceFile where
  imports :=
    let p := component.symbols.pascal
    let k := component.symbols.kebab
    [[.symbols ["Component", "OnInit", "inject"] "@angular/core",
        .symbols ["CommonModule"] "@angular/common",
        .symbols ["RouterModule"] "@angular/router"],
      [.symbols [s!"I{p}"] s!"../{k}.model",
        .symbols [s!"{p}Service"] s!"../service/{k}.service"]]
  body :=
    Code.block "@Component("
      (Code.lines
          ["standalone: true,", s!"selector: 'app-{component.symbols.kebab}-list',"] ++
        [[.plain "templateUrl: ", .template (templateFile component.symbols), .plain ","]] ++
        Code.lines ["imports: [CommonModule, RouterModule],"]) ")" ++
    Code.block s!"export class {component.symbols.pascal}ListComponent implements OnInit "
      component.members ""

end ListComponent

end EntityScaffold.Angular
