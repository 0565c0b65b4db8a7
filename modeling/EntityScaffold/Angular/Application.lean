import EntityScaffold.Angular.EnumFile
import EntityScaffold.Angular.FormPage
import EntityScaffold.Angular.FormService
import EntityScaffold.Angular.Interface
import EntityScaffold.Angular.ListPage
import EntityScaffold.Angular.Routes
import EntityScaffold.Angular.Service
import EntityScaffold.Failure
import EntityScaffold.Settings

/-!
# The generated application

An entity has a folder with eight files, an enumeration has one file. What is to be written is
planned first, as a value, and then written in order; a name without letters and digits has no
folder of its own, and names with one kebab case share their files, of which the last one stays.
-/

namespace EntityScaffold.Angular

open Generation Naming

/-- What a generated file holds. -/
inductive Content
  | source (file : TypeScript.SourceFile)
  | page (node : Html.Node)

def Content.text : Content → String
  | source file => file.text
  | page node => node.text

/-- A file to be written. -/
structure OutputFile where
  path : Path
  content : Content

def entityFolder (output : Path) (name : String) : Path :=
  (output.enter "entities").enter (kebab name)

def entityFiles (output : Path) (apiBaseUrl : String) (context : Context) : List OutputFile :=
  let folder := entityFolder output context.entity.name
  let k := kebab context.entity.name
  let symbols := Symbols.ofName context.entity.name
  [⟨folder.enter s!"{k}.model.ts", .source (Interface.ofContext context).file⟩,
    ⟨folder.enter s!"{k}.routes.ts", .source (routesFile symbols)⟩,
    ⟨folder.enter s!"service/{k}.service.ts", .source (Service.ofContext apiBaseUrl context).file⟩,
    ⟨folder.enter s!"update/{k}-form.service.ts", .source (FormService.ofContext context).file⟩,
    ⟨folder.enter s!"form/{k}-form.component.ts", .source (FormComponent.ofContext context).file⟩,
    ⟨folder.enter s!"form/{k}-form.component.html", .page (FormPage.ofContext context).page⟩,
    ⟨folder.enter s!"list/{k}-list.component.ts", .source (ListComponent.ofContext context).file⟩,
    ⟨folder.enter s!"list/{k}-list.component.html", .page (ListPage.ofContext context).page⟩]

def enumOutput (output : Path) (enumeration : Enumeration) : OutputFile :=
  ⟨(output.enter "enums").enter s!"{kebab enumeration.name}.model.ts",
    .source (enumFile enumeration)⟩

/-- A part of a run: what is said before its files are written, the files, and what is said after
each. -/
structure Job where
  announcement : Note
  files : List OutputFile
  wrote : Path → Note

/-- What is to be written for contexts and enumerations: the entities first. -/
def jobs (settings : Settings) (contexts : List Context) (enums : List Enumeration) : List Job :=
  contexts.map (fun context =>
    ⟨.generatingEntity context.entity.name,
      entityFiles settings.outputFolder settings.apiBaseUrl context, .wroteEntityFile⟩) ++
  enums.map fun enumeration =>
    ⟨.generatingEnum enumeration.name, [enumOutput settings.outputFolder enumeration],
      .wroteEnumFile⟩

/-- A run so far: the tree, and the paths written, in order. -/
structure Progress where
  tree : FileTree
  written : List Path

/-- Write files one after the other. The notes tell which were written; so does the progress, up to
a file that could not be. -/
def writeFiles (wrote : Path → Note) :
    Progress → List OutputFile → Progress × Report FileFault Unit
  | progress, [] => (progress, .ok ())
  | progress, file :: later =>
    match progress.tree.write file.path file.content.text.toUTF8 with
    | .error fault => (progress, .fail fault)
    | .ok tree =>
      let (progress, report) := writeFiles wrote ⟨tree, progress.written ++ [file.path]⟩ later
      (progress, do .say (wrote file.path); report)

/-- Do jobs one after the other. -/
def perform : Progress → List Job → Progress × Report FileFault Unit
  | progress, [] => (progress, .ok ())
  | progress, job :: later =>
    let (progress, report) := writeFiles job.wrote progress job.files
    let announced : Report FileFault Unit := do .say job.announcement; report
    match report.outcome with
    | .error _ => (progress, announced)
    | .ok _ =>
      let (progress, rest) := perform progress later
      (progress, do announced; rest)

/-- Generate the files of a model into a tree. The contexts are made first, so a model that is
refused leaves the tree as it is. -/
def generate (settings : Settings) (tree : FileTree) (model : Model) :
    Progress × Report Failure Unit :=
  let contexts := entityContexts settings.pluralStyle settings.strict model
  match contexts.outcome with
  | .error fault => (⟨tree, []⟩, ⟨contexts.notes, .error (.document fault)⟩)
  | .ok contexts' =>
    let (progress, report) := perform ⟨tree, []⟩ (jobs settings contexts' model.enums.items)
    (progress, ⟨contexts.notes ++ report.notes, report.outcome.mapError .file⟩)

end EntityScaffold.Angular
