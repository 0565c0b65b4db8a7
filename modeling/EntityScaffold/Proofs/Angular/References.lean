import EntityScaffold.Angular.Application
import EntityScaffold.Proofs.Angular.Symbols
import EntityScaffold.Proofs.Path
import EntityScaffold.Proofs.TypeScript.Code

/-!
# What generated files refer to

A module of the project is named from the root of the application or from the folder of the file
that imports it, a template from the folder of its component. For every kind of file the files it
refers to are listed: those of its own entity, and those of the enumerations and other entities
that it imports. A kebab case is one step of a path, or none if it is empty; with its ending it is
always one, and that is all that the paths on both sides need to be equal.
-/

namespace EntityScaffold.Angular

open Generation Naming TypeScript

/-! ## Files of names -/

/-- A folder below the folder of an entity. -/
def entitySubfolder (output : Path) (name : String) (below : List String) : Path :=
  { entityFolder output name with steps := (entityFolder output name).steps ++ below }

/-- A file of an entity: where it is below the folder of the entity, and what its name has after
the kebab case. -/
def entityPath (output : Path) (name : String) (below : List String) (ending : String) : Path :=
  entitySubfolder output name (below ++ [kebab name ++ ending])

/-- The file of an enumeration. -/
def enumPath (output : Path) (name : String) : Path :=
  (output.enter "enums").enter (kebab name ++ ".model.ts")

/-- The files of an entity. -/
def entityPaths (output : Path) (name : String) : List Path :=
  [entityPath output name [] ".model.ts", entityPath output name [] ".routes.ts",
    entityPath output name ["service"] ".service.ts",
    entityPath output name ["update"] "-form.service.ts",
    entityPath output name ["form"] "-form.component.ts",
    entityPath output name ["form"] "-form.component.html",
    entityPath output name ["list"] "-list.component.ts",
    entityPath output name ["list"] "-list.component.html"]

theorem slash_not_mem_kebab (name : String) : '/' ∉ (kebab name).toList := by
  intro h
  cases mem_kebab h with
  | inl hhyphen => exact absurd hhyphen (by decide)
  | inr hletter => exact hletter.ne (by decide) (by decide) rfl

/-- What makes one step of a kebab case, even of an empty one. -/
def IsEnding (ending : String) : Prop := '/' ∉ ending.toList ∧ 2 < ending.toList.length

instance (ending : String) : Decidable (IsEnding ending) := inferInstanceAs (Decidable (_ ∧ _))

theorem isStep_kebab_append (name : String) {ending : String} (h : IsEnding ending) :
    Path.IsStep (kebab name ++ ending) := by
  obtain ⟨hslash, hlong⟩ := h
  apply Path.IsStep.of_length
  · simp [slash_not_mem_kebab, hslash]
  · rw [String.toList_append, List.length_append]
    omega

theorem entitySubfolder_nil (output : Path) (name : String) :
    entitySubfolder output name [] = entityFolder output name := by
  simp [entitySubfolder]

theorem enter_entitySubfolder (output : Path) (name : String) (below : List String)
    {text : String} (h : Path.IsStep text) :
    (entitySubfolder output name below).enter text =
      entitySubfolder output name (below ++ [text]) := by
  simp [entitySubfolder, Path.enter, h.stepsOf_eq]

theorem parent_entitySubfolder (output : Path) (name : String) (below : List String)
    (last : String) : (entitySubfolder output name (below ++ [last])).parent =
      entitySubfolder output name below := by
  simp [entitySubfolder, Path.parent, ← List.append_assoc]

theorem enter_kebab_append (output : Path) (name : String) {ending : String}
    (h : IsEnding ending) :
    (entityFolder output name).enter (kebab name ++ ending) = entityPath output name [] ending := by
  rw [← entitySubfolder_nil, enter_entitySubfolder _ _ _ (isStep_kebab_append name h), entityPath]

theorem enter_below (output : Path) (name : String) {below ending : String}
    (hbelow : Path.IsStep below) (h : IsEnding ending) :
    (entityFolder output name).enter (below ++ "/" ++ (kebab name ++ ending)) =
      entityPath output name [below] ending := by
  rw [← entitySubfolder_nil, Path.enter_slash, enter_entitySubfolder _ _ _ hbelow,
    enter_entitySubfolder _ _ _ (isStep_kebab_append name h), entityPath, List.nil_append]

/-- The files that are written for a context, by where they are. -/
theorem entityFiles_eq (output : Path) (apiBaseUrl : String) (context : Context) :
    let name := context.entity.name
    entityFiles output apiBaseUrl context =
      [⟨entityPath output name [] ".model.ts", .source (Interface.ofContext context).file⟩,
        ⟨entityPath output name [] ".routes.ts", .source (routesFile (.ofName name))⟩,
        ⟨entityPath output name ["service"] ".service.ts",
          .source (Service.ofContext apiBaseUrl context).file⟩,
        ⟨entityPath output name ["update"] "-form.service.ts",
          .source (FormService.ofContext context).file⟩,
        ⟨entityPath output name ["form"] "-form.component.ts",
          .source (FormComponent.ofContext context).file⟩,
        ⟨entityPath output name ["form"] "-form.component.html",
          .page (FormPage.ofContext context).page⟩,
        ⟨entityPath output name ["list"] "-list.component.ts",
          .source (ListComponent.ofContext context).file⟩,
        ⟨entityPath output name ["list"] "-list.component.html",
          .page (ListPage.ofContext context).page⟩] := by
  have hbelow : ∀ {below ending text : String},
      text = below ++ "/" ++ (kebab context.entity.name ++ ending) → Path.IsStep below →
      IsEnding ending → (entityFolder output context.entity.name).enter text =
        entityPath output context.entity.name [below] ending := by
    rintro below ending text rfl hstep hending
    exact enter_below output _ hstep hending
  simp only [entityFiles, List.cons.injEq, OutputFile.mk.injEq, and_true]
  refine ⟨enter_kebab_append output _ (by decide), enter_kebab_append output _ (by decide),
    ?_, ?_, ?_, ?_, ?_, ?_⟩
  all_goals exact hbelow (by simp [← String.toList_inj, toString]) (by decide) (by decide)

theorem map_path_entityFiles (output : Path) (apiBaseUrl : String) (context : Context) :
    (entityFiles output apiBaseUrl context).map OutputFile.path =
      entityPaths output context.entity.name := by
  rw [entityFiles_eq]
  rfl

theorem parent_entityPath (output : Path) (name : String) (below : List String)
    (ending : String) :
    (entityPath output name below ending).parent = entitySubfolder output name below :=
  parent_entitySubfolder output name below (kebab name ++ ending)

/-! ## Where specifiers lead -/

/-- The file that a specifier names, if it names one of the project: from the output folder or from
the folder of the importing file. -/
def projectModule? (output folder : Path) (specifier : String) : Option Path :=
  match specifier.toList with
  | 'a' :: 'p' :: 'p' :: '/' :: rest => some (output.enter (String.ofList rest ++ ".ts"))
  | '.' :: _ => some (folder.follow (specifier ++ ".ts"))
  | _ => none

/-- The files of the project that a source in a folder refers to. -/
def references (output folder : Path) (source : SourceFile) : List Path :=
  source.code.modules.filterMap (projectModule? output folder) ++
    source.code.templates.map folder.follow

theorem projectModule?_app (output folder : Path) (rest : String) :
    projectModule? output folder ("app/" ++ rest) = some (output.enter (rest ++ ".ts")) := by
  simp [projectModule?]

/-- Packages of others are no files of the project. -/
theorem filterMap_packages (output folder : Path) {packages : List String}
    (h : ∀ package ∈ packages,
      package.toList.head? ≠ some '.' ∧ package.toList.head? ≠ some 'a') :
    packages.filterMap (projectModule? output folder) = [] := by
  rw [List.filterMap_eq_nil_iff]
  intro package hpackage
  obtain ⟨hdot, hletter⟩ := h package hpackage
  unfold projectModule?
  split
  · exact absurd (by simp [*]) hletter
  · exact absurd (by simp [*]) hdot
  · rfl

theorem projectModule?_enumModule (output folder : Path) (name : String) :
    projectModule? output folder (enumModule name) = some (enumPath output name) := by
  have hmodule : enumModule name = "app/" ++ ("enums/" ++ kebab name ++ ".model") := by
    simp [enumModule_eq, ← String.toList_inj]
  have htext : "enums/" ++ kebab name ++ ".model" ++ ".ts" =
      "enums" ++ "/" ++ (kebab name ++ ".model.ts") := by
    simp [← String.toList_inj]
  rw [hmodule, projectModule?_app, htext, Path.enter_slash, enumPath]

theorem projectModule?_entityModule (output folder : Path) (name : String) :
    projectModule? output folder (entityModule name) =
      some (entityPath output name [] ".model.ts") := by
  have hmodule : entityModule name =
      "app/" ++ ("entities/" ++ kebab name ++ "/" ++ kebab name ++ ".model") := by
    simp [entityModule_eq, ← String.toList_inj]
  have htext : "entities/" ++ kebab name ++ "/" ++ kebab name ++ ".model" ++ ".ts" =
      "entities" ++ "/" ++ kebab name ++ "/" ++ (kebab name ++ ".model.ts") := by
    simp [← String.toList_inj]
  rw [hmodule, projectModule?_app, htext, Path.enter_slash, Path.enter_slash,
    ← entityFolder, enter_kebab_append output name (by decide)]

theorem projectModule?_serviceModule (output folder : Path) (name : String) :
    projectModule? output folder (serviceModule name) =
      some (entityPath output name ["service"] ".service.ts") := by
  have hmodule : serviceModule name =
      "app/" ++ ("entities/" ++ kebab name ++ "/service/" ++ kebab name ++ ".service") := by
    simp [serviceModule_eq, ← String.toList_inj]
  have htext : "entities/" ++ kebab name ++ "/service/" ++ kebab name ++ ".service" ++ ".ts" =
      "entities" ++ "/" ++ kebab name ++ "/" ++
        ("service" ++ "/" ++ (kebab name ++ ".service.ts")) := by
    simp [← String.toList_inj]
  rw [hmodule, projectModule?_app, htext, Path.enter_slash, Path.enter_slash output,
    ← entityFolder, enter_below output name (by decide) (by decide)]

theorem projectModule?_relative (output folder : Path) {specifier text : String}
    (hdot : specifier.toList.head? = some '.') (htext : specifier ++ ".ts" = text) :
    projectModule? output folder specifier = some (folder.follow text) := by
  obtain ⟨rest, hrest⟩ := List.head?_eq_some_iff.mp hdot
  simp [projectModule?, hrest, htext]

/-- Up from a folder of an entity and on to one of its files. -/
theorem follow_up (output : Path) (name folder : String) {ending : String} (h : IsEnding ending) :
    (entitySubfolder output name [folder]).follow (".." ++ "/" ++ (kebab name ++ ending)) =
      entityPath output name [] ending := by
  rw [Path.follow_slash, Path.follow_parent, Path.follow_step _ (isStep_kebab_append name h),
    ← List.nil_append [folder], parent_entitySubfolder,
    enter_entitySubfolder _ _ _ (isStep_kebab_append name h), entityPath]

/-- Up from a folder of an entity and into another one. -/
theorem follow_across (output : Path) (name folder : String) {other ending : String}
    (hother : Path.IsStep other) (h : IsEnding ending) :
    (entitySubfolder output name [folder]).follow
        (".." ++ "/" ++ other ++ "/" ++ (kebab name ++ ending)) =
      entityPath output name [other] ending := by
  rw [Path.follow_slash, Path.follow_slash, Path.follow_parent, Path.follow_step _ hother,
    Path.follow_step _ (isStep_kebab_append name h), ← List.nil_append [folder],
    parent_entitySubfolder, enter_entitySubfolder _ _ _ hother,
    enter_entitySubfolder _ _ _ (isStep_kebab_append name h), entityPath, List.nil_append]

/-- From the folder of an entity into one below. -/
theorem follow_into (output : Path) (name : String) {below ending : String}
    (hbelow : Path.IsStep below) (h : IsEnding ending) :
    (entitySubfolder output name []).follow
        ("." ++ "/" ++ below ++ "/" ++ (kebab name ++ ending)) =
      entityPath output name [below] ending := by
  rw [Path.follow_slash, Path.follow_slash, Path.follow_dot, Path.follow_step _ hbelow,
    Path.follow_step _ (isStep_kebab_append name h), enter_entitySubfolder _ _ _ hbelow,
    enter_entitySubfolder _ _ _ (isStep_kebab_append name h), entityPath, List.nil_append]

/-- From a folder of an entity to a file in it. -/
theorem follow_beside (output : Path) (name folder : String) {ending : String}
    (h : IsEnding ending) :
    (entitySubfolder output name [folder]).follow ("./" ++ kebab name ++ ending) =
      entityPath output name [folder] ending := by
  have htext : "./" ++ kebab name ++ ending = "." ++ "/" ++ (kebab name ++ ending) := by
    simp [← String.toList_inj]
  rw [htext, Path.follow_slash, Path.follow_dot,
    Path.follow_step _ (isStep_kebab_append name h),
    enter_entitySubfolder _ _ _ (isStep_kebab_append name h), entityPath]

/-! ## What files refer to -/

section

variable (output : Path) (name folder : String)

theorem projectModule?_ownModel :
    projectModule? output (entitySubfolder output name [folder]) s!"../{kebab name}.model" =
      some (entityPath output name [] ".model.ts") := by
  have htext : s!"../{kebab name}.model" ++ ".ts" =
      ".." ++ "/" ++ (kebab name ++ ".model.ts") := by
    simp [← String.toList_inj, toString]
  rw [projectModule?_relative output _ (by simp [toString]) htext,
    follow_up output name folder (by decide)]

theorem projectModule?_ownService :
    projectModule? output (entitySubfolder output name [folder])
        s!"../service/{kebab name}.service" =
      some (entityPath output name ["service"] ".service.ts") := by
  have htext : s!"../service/{kebab name}.service" ++ ".ts" =
      ".." ++ "/" ++ "service" ++ "/" ++ (kebab name ++ ".service.ts") := by
    simp [← String.toList_inj, toString]
  rw [projectModule?_relative output _ (by simp [toString]) htext,
    follow_across output name folder (by decide) (by decide)]

theorem projectModule?_ownFormService :
    projectModule? output (entitySubfolder output name [folder])
        s!"../update/{kebab name}-form.service" =
      some (entityPath output name ["update"] "-form.service.ts") := by
  have htext : s!"../update/{kebab name}-form.service" ++ ".ts" =
      ".." ++ "/" ++ "update" ++ "/" ++ (kebab name ++ "-form.service.ts") := by
    simp [← String.toList_inj, toString]
  rw [projectModule?_relative output _ (by simp [toString]) htext,
    follow_across output name folder (by decide) (by decide)]

theorem projectModule?_ownForm :
    projectModule? output (entitySubfolder output name [])
        s!"./form/{kebab name}-form.component" =
      some (entityPath output name ["form"] "-form.component.ts") := by
  have htext : s!"./form/{kebab name}-form.component" ++ ".ts" =
      "." ++ "/" ++ "form" ++ "/" ++ (kebab name ++ "-form.component.ts") := by
    simp [← String.toList_inj, toString]
  rw [projectModule?_relative output _ (by simp [toString]) htext,
    follow_into output name (by decide) (by decide)]

theorem projectModule?_ownList :
    projectModule? output (entitySubfolder output name [])
        s!"./list/{kebab name}-list.component" =
      some (entityPath output name ["list"] "-list.component.ts") := by
  have htext : s!"./list/{kebab name}-list.component" ++ ".ts" =
      "." ++ "/" ++ "list" ++ "/" ++ (kebab name ++ "-list.component.ts") := by
    simp [← String.toList_inj, toString]
  rw [projectModule?_relative output _ (by simp [toString]) htext,
    follow_into output name (by decide) (by decide)]

end

variable (output : Path) (context : Context)

theorem filterMap_dateImports (folder : Path) :
    ((dateImports context).map Import.specifier).filterMap (projectModule? output folder) = [] := by
  apply filterMap_packages
  unfold dateImports
  split
  · simp
  · simp [Import.specifier]

/-- An interface refers to the enumerations and the other entities that it imports. -/
theorem references_interface (folder : Path) :
    references output folder (Interface.ofContext context).file =
      (enumTypes context).map (enumPath output) ++
        (Interface.relatedEntities context).map fun name =>
          entityPath output name [] ".model.ts" := by
  have hmodules : (Interface.ofContext context).file.code.modules =
      (dateImports context).map Import.specifier ++ ((enumTypes context).map enumModule ++
        (Interface.relatedEntities context).map entityModule) := by
    have hmembers : Code.modules ((Interface.ofContext context).members.map Member.line) = [] := by
      simp [Code.modules, Member.line]
    rw [SourceFile.modules_code]
    simp [Interface.file, hmembers]
    simp [Interface.ofContext, enumImports, Function.comp_def, Import.specifier]
  have htemplates : (Interface.ofContext context).file.code.templates = [] := by
    have hmembers :
        Code.templates ((Interface.ofContext context).members.map Member.line) = [] := by
      simp [Code.templates, Member.line]
    rw [SourceFile.templates_code]
    simp [Interface.file, hmembers]
  rw [references, hmodules, htemplates, List.filterMap_append, filterMap_dateImports]
  simp [List.filterMap_map, projectModule?_enumModule, projectModule?_entityModule]

/-- The routes refer to the components of the list and of the form, which has two routes. -/
theorem references_routes (name : String) :
    references output (entitySubfolder output name []) (routesFile (.ofName name)) =
      [entityPath output name ["list"] "-list.component.ts",
        entityPath output name ["form"] "-form.component.ts",
        entityPath output name ["form"] "-form.component.ts"] := by
  have hmodules : (routesFile (.ofName name)).code.modules =
      ["@angular/router"] ++ [s!"./list/{kebab name}-list.component",
        s!"./form/{kebab name}-form.component", s!"./form/{kebab name}-form.component"] := by
    rw [SourceFile.modules_code]
    simp [routesFile, routesOf, Route.code, Symbols.ofName, Import.specifier, List.filterMap_cons]
  have htemplates : (routesFile (.ofName name)).code.templates = [] := by
    rw [SourceFile.templates_code]
    simp [routesFile, routesOf, Route.code, List.filterMap_cons]
  rw [references, hmodules, htemplates, List.filterMap_append,
    filterMap_packages output _ (by decide)]
  simp [projectModule?_ownForm, projectModule?_ownList]

theorem references_service (apiBaseUrl folder : String) :
    references output (entitySubfolder output context.entity.name [folder])
        (Service.ofContext apiBaseUrl context).file =
      [entityPath output context.entity.name [] ".model.ts"] := by
  have hmodules : (Service.ofContext apiBaseUrl context).file.code.modules =
      ["@angular/core", "@angular/common/http", "rxjs"] ++
        ((dateImports context).map Import.specifier ++
          [s!"../{kebab context.entity.name}.model"]) := by
    rw [SourceFile.modules_code]
    simp [Service.file, Service.imports, Service.ofContext, Service.requests, Service.request,
      Service.conversions, Import.specifier, Symbols.ofName]
  have htemplates : (Service.ofContext apiBaseUrl context).file.code.templates = [] := by
    rw [SourceFile.templates_code]
    simp [Service.file, Service.ofContext, Service.requests, Service.request, Service.conversions]
  rw [references, hmodules, htemplates, List.filterMap_append, List.filterMap_append,
    filterMap_packages output _ (by decide), filterMap_dateImports]
  simp [projectModule?_ownModel]

theorem references_formService (folder : String) :
    references output (entitySubfolder output context.entity.name [folder])
        (FormService.ofContext context).file =
      [entityPath output context.entity.name [] ".model.ts"] := by
  have hmodules : (FormService.ofContext context).file.code.modules =
      ["@angular/core", "@angular/forms"] ++ [s!"../{kebab context.entity.name}.model"] := by
    rw [SourceFile.modules_code]
    simp [FormService.file, FormService.types, FormService.members, FormService.ofContext,
      Import.specifier, Symbols.ofName]
  have htemplates : (FormService.ofContext context).file.code.templates = [] := by
    rw [SourceFile.templates_code]
    simp [FormService.file, FormService.types, FormService.members]
  rw [references, hmodules, htemplates, List.filterMap_append,
    filterMap_packages output _ (by decide)]
  simp [projectModule?_ownModel]

/-- The component of a form refers to the enumerations and the other entities one chooses from, and
to the interface, the service, the form service and the form of its entity. -/
theorem references_formComponent :
    references output (entitySubfolder output context.entity.name ["form"])
        (FormComponent.ofContext context).file =
      (FormComponent.ofContext context).enums.map (enumPath output) ++
      ((FormComponent.ofContext context).foreignEntities.flatMap fun name =>
        [entityPath output name [] ".model.ts",
          entityPath output name ["service"] ".service.ts"]) ++
      [entityPath output context.entity.name [] ".model.ts",
        entityPath output context.entity.name ["service"] ".service.ts",
        entityPath output context.entity.name ["update"] "-form.service.ts",
        entityPath output context.entity.name ["form"] "-form.component.html"] := by
  have hmodules : (FormComponent.ofContext context).file.code.modules =
      ["@angular/core", "@angular/common", "@angular/common/http", "@angular/router",
        "@angular/forms", "rxjs", "rxjs/operators"] ++
      ((FormComponent.ofContext context).enums.map enumModule ++
        (((FormComponent.ofContext context).foreignEntities.flatMap fun name =>
          [entityModule name, serviceModule name]) ++
        [s!"../{kebab context.entity.name}.model",
          s!"../service/{kebab context.entity.name}.service",
          s!"../update/{kebab context.entity.name}-form.service"])) := by
    have henums : ∀ names : List String, (names.map fun name =>
        Import.symbols [name] (enumModule name)).map Import.specifier = names.map enumModule := by
      simp [Import.specifier]
    have hforeign : ∀ names : List String,
        (names.flatMap FormComponent.foreignImports).map Import.specifier =
          names.flatMap fun name => [entityModule name, serviceModule name] := by
      simp [List.map_flatMap, FormComponent.foreignImports, Import.specifier]
    rw [SourceFile.modules_code]
    simp only [FormComponent.file, FormComponent.imports, List.flatten_cons, List.flatten_nil,
      List.map_append, henums, hforeign]
    simp [FormComponent.members, FormComponent.state, FormComponent.start, FormComponent.saving,
      FormComponent.ofContext, Symbols.ofName, Import.specifier, List.filterMap_cons]
  have htemplates : (FormComponent.ofContext context).file.code.templates =
      [s!"./{kebab context.entity.name}-form.component.html"] := by
    rw [SourceFile.templates_code]
    simp [FormComponent.file, FormComponent.members, FormComponent.state, FormComponent.start,
      FormComponent.saving, FormComponent.templateFile, FormComponent.ofContext, Symbols.ofName,
      List.filterMap_cons]
  have hforeign : ∀ names : List String,
      (names.flatMap fun name => [entityModule name, serviceModule name]).filterMap
          (projectModule? output (entitySubfolder output context.entity.name ["form"])) =
        names.flatMap fun name => [entityPath output name [] ".model.ts",
          entityPath output name ["service"] ".service.ts"] := by
    simp [List.filterMap_flatMap, projectModule?_entityModule, projectModule?_serviceModule]
  have htemplate : (entitySubfolder output context.entity.name ["form"]).follow
      s!"./{kebab context.entity.name}-form.component.html" =
        entityPath output context.entity.name ["form"] "-form.component.html" :=
    follow_beside output _ _ (by decide)
  rw [references, hmodules, htemplates, List.filterMap_append, List.filterMap_append,
    List.filterMap_append, filterMap_packages output _ (by decide), hforeign,
    List.filterMap_map]
  simp [projectModule?_enumModule, projectModule?_ownModel, projectModule?_ownService,
    projectModule?_ownFormService, htemplate]

/-- The component of a list refers to the interface, the service and the page of its entity. -/
theorem references_listComponent :
    references output (entitySubfolder output context.entity.name ["list"])
        (ListComponent.ofContext context).file =
      [entityPath output context.entity.name [] ".model.ts",
        entityPath output context.entity.name ["service"] ".service.ts",
        entityPath output context.entity.name ["list"] "-list.component.html"] := by
  have hmodules : (ListComponent.ofContext context).file.code.modules =
      ["@angular/core", "@angular/common", "@angular/router"] ++
        [s!"../{kebab context.entity.name}.model",
          s!"../service/{kebab context.entity.name}.service"] := by
    rw [SourceFile.modules_code]
    simp [ListComponent.file, ListComponent.members, ListComponent.ofContext, Symbols.ofName,
      Import.specifier, List.filterMap_cons]
  have htemplates : (ListComponent.ofContext context).file.code.templates =
      [s!"./{kebab context.entity.name}-list.component.html"] := by
    rw [SourceFile.templates_code]
    simp [ListComponent.file, ListComponent.members, ListComponent.templateFile,
      ListComponent.ofContext, Symbols.ofName, List.filterMap_cons]
  have htemplate : (entitySubfolder output context.entity.name ["list"]).follow
      s!"./{kebab context.entity.name}-list.component.html" =
        entityPath output context.entity.name ["list"] "-list.component.html" :=
    follow_beside output _ _ (by decide)
  rw [references, hmodules, htemplates, List.filterMap_append,
    filterMap_packages output _ (by decide)]
  simp [projectModule?_ownModel, projectModule?_ownService, htemplate]

/-- The file of an enumeration refers to nothing. -/
theorem references_enumFile (folder : Path) (enumeration : Enumeration) :
    references output folder (enumFile enumeration) = [] := by
  simp [references, SourceFile.modules_code, SourceFile.templates_code, enumFile]

/-- A file of an entity refers to files of the entity, to enumerations that its fields are of and to
files of the entities at the other ends of its relationships. -/
theorem mem_references_entityFiles {output : Path} {apiBaseUrl : String} {context : Context}
    {file : OutputFile} (hfile : file ∈ entityFiles output apiBaseUrl context)
    {source : SourceFile} (hsource : file.content = .source source) {path : Path}
    (h : path ∈ references output file.path.parent source) :
    path ∈ entityPaths output context.entity.name ∨
      (∃ name ∈ enumTypes context, path = enumPath output name) ∨
      ∃ view ∈ context.views, path ∈ entityPaths output view.other := by
  simp only [entityFiles_eq, List.mem_cons, List.not_mem_nil, or_false] at hfile
  rcases hfile with rfl | rfl | rfl | rfl | rfl | rfl | rfl | rfl
  · obtain rfl := Content.source.inj hsource
    rw [references_interface] at h
    rcases List.mem_append.mp h with h | h
    · obtain ⟨name, hname, rfl⟩ := List.mem_map.mp h
      exact .inr (.inl ⟨name, hname, rfl⟩)
    · obtain ⟨name, hname, rfl⟩ := List.mem_map.mp h
      obtain ⟨view, hview, rfl⟩ := List.mem_map.mp (mem_of_mem_distinctBy hname)
      exact .inr (.inr ⟨view, (List.mem_filter.mp hview).1, List.mem_cons_self⟩)
  · obtain rfl := Content.source.inj hsource
    rw [parent_entityPath, references_routes] at h
    left
    simp only [entityPaths, List.mem_cons, List.not_mem_nil, or_false] at h ⊢
    tauto
  · obtain rfl := Content.source.inj hsource
    rw [parent_entityPath, references_service] at h
    rw [List.mem_singleton.mp h]
    exact .inl List.mem_cons_self
  · obtain rfl := Content.source.inj hsource
    rw [parent_entityPath, references_formService] at h
    rw [List.mem_singleton.mp h]
    exact .inl List.mem_cons_self
  · obtain rfl := Content.source.inj hsource
    rw [parent_entityPath, references_formComponent] at h
    rcases List.mem_append.mp h with h | h
    · rcases List.mem_append.mp h with h | h
      · obtain ⟨name, hname, rfl⟩ := List.mem_map.mp h
        exact .inr (.inl ⟨name, hname, rfl⟩)
      · obtain ⟨name, hname, hpath⟩ := List.mem_flatMap.mp h
        obtain ⟨view, hview, rfl⟩ := List.mem_map.mp (List.mem_filter.mp hname).1
        have hsingle := (List.mem_filter.mp (mem_of_mem_distinctBy hview)).1
        refine .inr (.inr ⟨view, hsingle, ?_⟩)
        simp only [entityPaths, List.mem_cons, List.not_mem_nil, or_false] at hpath ⊢
        tauto
    · left
      simp only [entityPaths, List.mem_cons, List.not_mem_nil, or_false] at h ⊢
      tauto
  · cases hsource
  · obtain rfl := Content.source.inj hsource
    rw [parent_entityPath, references_listComponent] at h
    left
    simp only [entityPaths, List.mem_cons, List.not_mem_nil, or_false] at h ⊢
    tauto
  · cases hsource

end EntityScaffold.Angular
