import EntityScaffold.Angular.Symbols

/-!
# The form component of an entity

The component behind an entity's form loads the entity, stores it, and holds what the form lets one
choose from: the values of enumerations, and for every relationship property that holds one entity
the collection of all entities it may hold.
-/

namespace EntityScaffold.Angular

open Generation Naming TypeScript

/-- The entities that a relationship property lets one choose from. -/
structure OptionCollection where
  /-- The name of the collection. -/
  name : String
  /-- The entity that the collection holds. -/
  entity : String
deriving DecidableEq, Repr

namespace OptionCollection

/-- The collection behind a relationship property. -/
def ofView (view : View) : OptionCollection :=
  ⟨view.otherPlural ++ "SharedCollection", view.other⟩

def declaration (collection : OptionCollection) : String :=
  s!"{collection.name}: I{pascal collection.entity}[] = [];"

/-- The member that holds the service of an entity. -/
def serviceMember (entity : String) : String := camel entity ++ "Service"

def loading (collection : OptionCollection) : List String :=
  [s!"this.{serviceMember collection.entity}",
    "  .query()",
    s!"  .subscribe(res => (this.{collection.name} = res.body ?? []));"]

end OptionCollection

/-- The file of an entity's form component. -/
structure FormComponent where
  symbols : Symbols
  /-- The enumerations one chooses from. -/
  enums : List String
  /-- The collections one chooses from. -/
  collections : List OptionCollection
  /-- The other entities in those collections. -/
  foreignEntities : List String

namespace FormComponent

/-- The properties that hold one entity, one for each entity. -/
def optionViews (context : Context) : List View := distinctBy View.other [] (singleViews context)

def ofContext (context : Context) : FormComponent where
  symbols := .ofName context.entity.name
  enums := enumTypes context
  collections := (optionViews context).map .ofView
  foreignEntities := ((optionViews context).map View.other).filter fun name =>
    name ≠ context.entity.name

/-- The member that holds the values of an enumeration. -/
def enumValuesMember (name : String) : String := camel name ++ "Values"

def templateFile (symbols : Symbols) : String := s!"./{symbols.kebab}-form.component.html"

/-- The member that holds the service of an entity. -/
def serviceLine (name : String) : String :=
  s!"protected readonly {OptionCollection.serviceMember name} = inject({pascal name}Service);"

def foreignImports (name : String) : List Import :=
  [.symbols ["I" ++ pascal name] (entityModule name),
    .symbols [pascal name ++ "Service"] (serviceModule name)]

def imports (component : FormComponent) : List (List Import) :=
  let p := component.symbols.pascal
  let k := component.symbols.kebab
  [[.symbols ["Component", "OnInit", "inject"] "@angular/core",
      .symbols ["CommonModule"] "@angular/common",
      .symbols ["HttpResponse"] "@angular/common/http",
      .symbols ["ActivatedRoute", "Router", "RouterModule"] "@angular/router",
      .symbols ["ReactiveFormsModule"] "@angular/forms",
      .symbols ["Observable"] "rxjs",
      .symbols ["finalize"] "rxjs/operators"],
    component.enums.map (fun name => .symbols [name] (enumModule name)) ++
      component.foreignEntities.flatMap foreignImports ++
      [.symbols [s!"I{p}"] s!"../{k}.model",
        .symbols [s!"{p}Service"] s!"../service/{k}.service",
        .symbols [s!"{p}FormGroup", s!"{p}FormService"] s!"../update/{k}-form.service"]]

/-- The member that holds the values of an enumeration, declared. -/
def enumLine (name : String) : String := s!"{enumValuesMember name} = Object.keys({name});"

/-- What the component holds. -/
def state (component : FormComponent) : Code :=
  let p := component.symbols.pascal
  let c := component.symbols.camel
  Code.lines
    (["isSaving = false;", s!"{c}: I{p} | null = null;"] ++
      component.enums.map enumLine ++
      component.collections.map OptionCollection.declaration ++
      ["",
        s!"protected readonly {c}Service = inject({p}Service);",
        s!"protected readonly {c}FormService = inject({p}FormService);"] ++
      component.foreignEntities.map serviceLine ++
      ["protected readonly route = inject(ActivatedRoute);",
        "protected readonly router = inject(Router);",
        "",
        s!"editForm: {p}FormGroup = this.{c}FormService.create{p}FormGroup();"])

/-- The start: an existing entity is fetched. -/
def start (symbols : Symbols) : Code :=
  let p := symbols.pascal
  let c := symbols.camel
  Code.block "ngOnInit(): void "
    (Code.lines ["const id = this.route.snapshot.paramMap.get('id');"] ++
      Code.block "if (id) "
        (Code.block s!"this.{c}Service.find(+id).subscribe(res => "
          (Code.lines [s!"this.{c} = res.body;"] ++
            Code.block "if (res.body) "
              (Code.lines [s!"this.{c}FormService.reset{p}(this.editForm, res.body);"]) "")
          ");") "" ++
      Code.lines ["this.loadRelationshipsOptions();"]) ""

/-- Storing: an entity with a number is changed, one without is made. -/
def saving (symbols : Symbols) : Code :=
  let p := symbols.pascal
  let c := symbols.camel
  Code.block "save(): void "
    (Code.lines
        ["this.isSaving = true;",
          s!"const {c} = this.{c}FormService.get{p}(this.editForm);",
          s!"if ({c}.id !== null) \x7b"] ++
      Code.indent
        (Code.lines
          [s!"this.subscribeToSaveResponse(this.{c}Service.update({c} as I{p}));"]) ++
      Code.block "\x7d else "
        (Code.lines [s!"this.subscribeToSaveResponse(this.{c}Service.create({c}));"]) "") "" ++
  Code.lines [""] ++
  Code.block s!"protected subscribeToSaveResponse(result: Observable<HttpResponse<I{p}>>): void "
    (Code.block "result.pipe(finalize(() => (this.isSaving = false))).subscribe("
      (Code.lines ["next: () => this.previousState(),"]) ");") ""

def members (component : FormComponent) : Code :=
  component.state ++ Code.lines [""] ++
  start component.symbols ++ Code.lines [""] ++
  Code.block "previousState(): void "
    (Code.lines
      ["this.router.navigate(['../'], " ++ braced "relativeTo: this.route" ++ ");"]) "" ++
  Code.lines [""] ++
  saving component.symbols ++ Code.lines [""] ++
  Code.block "protected loadRelationshipsOptions(): void "
    (Code.lines (component.collections.flatMap OptionCollection.loading)) ""

def file (component : FormComponent) : SourceFile where
  imports := component.imports
  body :=
    Code.block "@Component("
      (Code.lines
          ["standalone: true,", s!"selector: 'app-{component.symbols.kebab}-form',"] ++
        [[.plain "templateUrl: ", .template (templateFile component.symbols), .plain ","]] ++
        Code.lines ["imports: [CommonModule, ReactiveFormsModule, RouterModule],"]) ")" ++
    Code.block s!"export class {component.symbols.pascal}FormComponent implements OnInit "
      component.members ""

end FormComponent

end EntityScaffold.Angular
