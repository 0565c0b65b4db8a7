import EntityScaffold.Proofs.Angular.Application
import EntityScaffold.Proofs.Angular.Layout
import EntityScaffold.Proofs.FileTree
import EntityScaffold.Proofs.Generation.Context

/-!
# What a run leaves in the file tree

A run plans its files from the contexts of the model and writes them in order, so it ends well just
if the check of the ends passes and the planned files can all be written into the tree. All paths
start with the output folder and go on by plain names; so the file tree can tell two of them apart
just if they differ, and what is left is told path by path: each holds the last file that was
planned for it, and no other place has changed but that folders were made.
-/

namespace EntityScaffold.Angular

open Document Generation Naming

/-! ## Running the jobs -/

/-- A file as it is written: its path and its bytes. -/
def OutputFile.entry (file : OutputFile) : Path × ByteArray :=
  (file.path, file.content.text.toUTF8)

/-- Writing files goes on after a file that could be written. -/
theorem writeFiles_of_ok {wrote : Path → Note} {progress : Progress} {file : OutputFile}
    {tree : FileTree} (h : progress.tree.write file.entry.1 file.entry.2 = .ok tree)
    (later : List OutputFile) :
    writeFiles wrote progress (file :: later) =
      let rest := writeFiles wrote ⟨tree, progress.written ++ [file.path]⟩ later
      (rest.1, do .say (wrote file.path); rest.2) := by
  have hwrite : progress.tree.write file.path file.content.text.toUTF8 = .ok tree := h
  rw [writeFiles, hwrite]

/-- Writing files stops at a file that cannot be written. -/
theorem writeFiles_of_error {wrote : Path → Note} {progress : Progress} {file : OutputFile}
    {fault : FileFault} (h : progress.tree.write file.entry.1 file.entry.2 = .error fault)
    (later : List OutputFile) :
    writeFiles wrote progress (file :: later) = (progress, .fail fault) := by
  have hwrite : progress.tree.write file.path file.content.text.toUTF8 = .error fault := h
  rw [writeFiles, hwrite]

/-- Writing files ends as writing them into the tree one after the other does. -/
theorem outcome_writeFiles (wrote : Path → Note) (files : List OutputFile) (progress : Progress) :
    (writeFiles wrote progress files).2.outcome =
      (progress.tree.writeAll (files.map OutputFile.entry)).map fun _ => () := by
  induction files generalizing progress with
  | nil => rfl
  | cons file files ih =>
    rw [List.map_cons, FileTree.writeAll_cons]
    cases hwrite : progress.tree.write file.entry.1 file.entry.2 with
    | error fault =>
      rw [writeFiles_of_error hwrite]
      rfl
    | ok tree =>
      rw [writeFiles_of_ok hwrite]
      exact ih _

/-- Where files could be written, the run goes on from the tree they leave. -/
theorem progress_writeFiles {wrote : Path → Note} {files : List OutputFile} {progress : Progress}
    {later : FileTree} (h : progress.tree.writeAll (files.map OutputFile.entry) = .ok later) :
    (writeFiles wrote progress files).1 =
      ⟨later, progress.written ++ files.map OutputFile.path⟩ := by
  induction files generalizing progress with
  | nil =>
    obtain rfl : progress.tree = later := Except.ok.inj h
    simp [writeFiles]
  | cons file files ih =>
    rw [List.map_cons, FileTree.writeAll_cons] at h
    obtain ⟨middle, hwrite, hfiles⟩ := FileTree.exists_of_bind_ok h
    rw [writeFiles_of_ok hwrite, ih hfiles, List.map_cons, List.append_assoc,
      List.singleton_append]

/-- The files of a row of jobs, as they are written. -/
def entriesOf (jobs : List Job) : List (Path × ByteArray) :=
  (jobs.flatMap Job.files).map OutputFile.entry

theorem entriesOf_cons (job : Job) (later : List Job) :
    entriesOf (job :: later) = job.files.map OutputFile.entry ++ entriesOf later := by
  simp [entriesOf]

/-- A row of jobs goes on after a job whose files could be written. -/
theorem perform_of_ok {progress : Progress} {job : Job}
    (h : (writeFiles job.wrote progress job.files).2.outcome = .ok ()) (later : List Job) :
    (perform progress (job :: later)).1 =
        (perform (writeFiles job.wrote progress job.files).1 later).1 ∧
      (perform progress (job :: later)).2.outcome =
        (perform (writeFiles job.wrote progress job.files).1 later).2.outcome := by
  refine ⟨by simp [perform, h], ?_⟩
  simp only [perform, h, Report.bind_eq_andThen]
  exact Report.outcome_andThen_of_ok h

/-- A row of jobs stops at a job of whose files one cannot be written. -/
theorem perform_of_error {progress : Progress} {job : Job} {fault : FileFault}
    (h : (writeFiles job.wrote progress job.files).2.outcome = .error fault) (later : List Job) :
    (perform progress (job :: later)).2.outcome = .error fault := by
  simp [perform, h]

/-- A row of jobs ends as writing the files of all of them does. -/
theorem outcome_perform (jobs : List Job) (progress : Progress) :
    (perform progress jobs).2.outcome =
      (progress.tree.writeAll (entriesOf jobs)).map fun _ => () := by
  induction jobs generalizing progress with
  | nil => rfl
  | cons job later ih =>
    have hjob := outcome_writeFiles job.wrote job.files progress
    rw [entriesOf_cons, FileTree.writeAll_append]
    cases hwrites : progress.tree.writeAll (job.files.map OutputFile.entry) with
    | error fault =>
      rw [hwrites] at hjob
      rw [perform_of_error hjob]
      rfl
    | ok middle =>
      rw [hwrites] at hjob
      rw [(perform_of_ok hjob later).2, ih, progress_writeFiles hwrites]
      rfl

theorem progress_perform {jobs : List Job} {progress : Progress} {later : FileTree}
    (h : progress.tree.writeAll (entriesOf jobs) = .ok later) :
    (perform progress jobs).1 =
      ⟨later, progress.written ++ (jobs.flatMap Job.files).map OutputFile.path⟩ := by
  induction jobs generalizing progress with
  | nil =>
    obtain rfl : progress.tree = later := Except.ok.inj h
    simp [perform]
  | cons job jobs ih =>
    rw [entriesOf_cons, FileTree.writeAll_append] at h
    obtain ⟨middle, hwrites, hlater⟩ := FileTree.exists_of_bind_ok h
    have hjob := outcome_writeFiles job.wrote job.files progress
    rw [hwrites] at hjob
    rw [(perform_of_ok hjob jobs).1, progress_writeFiles hwrites, ih hlater]
    simp

/-! ## Runs on models -/

/-- The files that a run on a model writes, in order: those of the contexts of its entities, then
one for each enumeration. -/
def plannedFiles (settings : Settings) (model : Model) : List OutputFile :=
  (model.entities.items.map (Context.of settings.pluralStyle model.relationships)).flatMap
      (entityFiles settings.outputFolder settings.apiBaseUrl) ++
    model.enums.items.map (enumOutput settings.outputFolder)

/-- The planned files can be written into a tree one after the other, and then leave this one. -/
def CanWrite (settings : Settings) (model : Model) (tree later : FileTree) : Prop :=
  tree.writeAll ((plannedFiles settings model).map OutputFile.entry) = .ok later

theorem flatMap_files_jobs (settings : Settings) (model : Model) :
    (jobs settings
        (model.entities.items.map (Context.of settings.pluralStyle model.relationships))
        model.enums.items).flatMap Job.files =
      plannedFiles settings model := by
  simp [jobs, plannedFiles, List.flatMap_append, List.flatMap_map, ← List.map_eq_flatMap]

/-- A run that has contexts writes the planned files. -/
theorem generate_of_endsDeclared {settings : Settings} {model : Model}
    (h : settings.strict = true → EndsDeclared model) (tree : FileTree) :
    let run := perform ⟨tree, []⟩ (jobs settings (model.entities.items.map
      (Context.of settings.pluralStyle model.relationships)) model.enums.items)
    (generate settings tree model).1 = run.1 ∧
      (generate settings tree model).2.outcome = run.2.outcome.mapError .file := by
  simp [generate, outcome_entityContexts settings.pluralStyle h]

/-- A run ends well just if it has contexts and can write its files. -/
theorem outcome_generate_iff {settings : Settings} {tree : FileTree} {model : Model} :
    (generate settings tree model).2.outcome = .ok () ↔
      (settings.strict = true → EndsDeclared model) ∧
        ∃ later, CanWrite settings model tree later := by
  constructor
  · intro h
    have hends : settings.strict = true → EndsDeclared model := by
      intro hstrict
      obtain ⟨contexts, hcontexts, -⟩ := written_generate h
      rw [hstrict] at hcontexts
      exact ends_declared_of_strict hcontexts
    refine ⟨hends, ?_⟩
    rw [(generate_of_endsDeclared hends tree).2, outcome_perform, entriesOf,
      flatMap_files_jobs] at h
    cases hwrites : tree.writeAll ((plannedFiles settings model).map OutputFile.entry) with
    | error fault =>
      rw [hwrites] at h
      exact absurd h (by simp [Except.map, Except.mapError])
    | ok later => exact ⟨later, hwrites⟩
  · rintro ⟨hends, later, hwrites⟩
    rw [(generate_of_endsDeclared hends tree).2, outcome_perform, entriesOf, flatMap_files_jobs,
      hwrites]
    rfl

theorem map_path_plannedFiles (settings : Settings) (model : Model) :
    (plannedFiles settings model).map OutputFile.path =
      pathsOf settings.outputFolder model.entities.names model.enums.names := by
  have hentity : ∀ entity : Entity,
      (entityFiles settings.outputFolder settings.apiBaseUrl
        (Context.of settings.pluralStyle model.relationships entity)).map OutputFile.path =
      entityPaths settings.outputFolder entity.name :=
    fun entity => map_path_entityFiles _ _ _
  simp only [plannedFiles, pathsOf, List.map_append, List.map_flatMap, List.flatMap_map, hentity,
    List.map_map, Registry.names]
  rfl

/-- What is left of a run that ends well: the tree of the planned writes, and their paths. -/
theorem progress_generate {settings : Settings} {model : Model}
    (hends : settings.strict = true → EndsDeclared model) {tree later : FileTree}
    (hwrites : CanWrite settings model tree later) :
    (generate settings tree model).1 =
      ⟨later, pathsOf settings.outputFolder model.entities.names model.enums.names⟩ := by
  have hentries : tree.writeAll (entriesOf (jobs settings (model.entities.items.map
      (Context.of settings.pluralStyle model.relationships)) model.enums.items)) = .ok later := by
    rw [entriesOf, flatMap_files_jobs]
    exact hwrites
  rw [(generate_of_endsDeclared hends tree).1, progress_perform hentries, flatMap_files_jobs,
    map_path_plannedFiles, List.nil_append]

/-! ## Where planned paths lead -/

/-- A planned path goes on below the output folder by plain names, and leads to the place that these
names lead to from where the output folder leads. -/
theorem exists_place_of_mem_pathsOf {settings : Settings} {model : Model} {tree later : FileTree}
    (hwrites : CanWrite settings model tree later) {path : Path}
    (h : path ∈ pathsOf settings.outputFolder model.entities.names model.enums.names) :
    ∃ base steps, later.locate settings.outputFolder = .ok base ∧ steps ≠ [] ∧
      (∀ step ∈ steps, Path.IsStep step) ∧ path = settings.outputFolder.below steps ∧
      later.locate path = .ok (base.below steps) := by
  obtain ⟨steps, hne, hsteps, hpath⟩ := exists_steps_of_mem_pathsOf h
  have hplain : ".." ∉ steps := fun hparent => (hsteps ".." hparent).ne_parent rfl
  rw [← map_path_plannedFiles] at h
  obtain ⟨file, hfile, hfilePath⟩ := List.mem_map.mp h
  obtain ⟨place, hplace⟩ : ∃ place, later.locate path = .ok place := by
    rw [← hfilePath]
    exact (FileTree.isWritten_writeAll hwrites).located _ (List.mem_map_of_mem hfile)
  obtain ⟨base, hbase, hbelow⟩ := FileTree.exists_of_locate_below hplain (hpath ▸ hplace)
  exact ⟨base, steps, hbase, hne, hsteps, hpath, hbelow ▸ hplace⟩

/-- Planned paths lead to one place just if they are one path. -/
theorem leadsTo_of_mem_pathsOf {settings : Settings} {model : Model} {tree later : FileTree}
    (hwrites : CanWrite settings model tree later) {path other : Path} {place : Path}
    (h : path ∈ pathsOf settings.outputFolder model.entities.names model.enums.names)
    (hother : other ∈ pathsOf settings.outputFolder model.entities.names model.enums.names)
    (hplace : later.locate path = .ok place) :
    later.leadsTo other place = (other = path : Bool) := by
  obtain ⟨base, steps, hbase, -, -, hpath, hlocate⟩ := exists_place_of_mem_pathsOf hwrites h
  obtain ⟨base', steps', hbase', -, -, hpath', hlocate'⟩ :=
    exists_place_of_mem_pathsOf hwrites hother
  obtain rfl : base = base' := Except.ok.inj (hbase.symm.trans hbase')
  obtain rfl : place = base.below steps := Except.ok.inj (hplace.symm.trans hlocate)
  rw [Bool.eq_iff_iff, FileTree.leadsTo_iff, hlocate', decide_eq_true_iff, hpath, hpath']
  rw [Except.ok.injEq, Path.below_inj, Path.below_inj]

/-- The last file that was planned for a path. -/
def lastPlanned? (settings : Settings) (model : Model) (path : Path) : Option OutputFile :=
  (plannedFiles settings model).reverse.find? fun file => file.path = path

theorem mem_pathsOf_of_mem_plannedFiles {settings : Settings} {model : Model} {file : OutputFile}
    (h : file ∈ plannedFiles settings model) :
    file.path ∈ pathsOf settings.outputFolder model.entities.names model.enums.names := by
  rw [← map_path_plannedFiles]
  exact List.mem_map_of_mem h

/-- The last file written to the place that a planned path leads to is the last one that was
planned for the path. -/
theorem lastAt?_plannedFiles {settings : Settings} {model : Model} {tree later : FileTree}
    (hwrites : CanWrite settings model tree later) {path place : Path}
    (h : path ∈ pathsOf settings.outputFolder model.entities.names model.enums.names)
    (hplace : later.locate path = .ok place) :
    later.lastAt? place ((plannedFiles settings model).map OutputFile.entry) =
      (lastPlanned? settings model path).map OutputFile.entry := by
  rw [FileTree.lastAt?, ← List.map_reverse, List.find?_map, lastPlanned?]
  congr 1
  apply List.find?_congr
  intro file hfile
  have hmem := mem_pathsOf_of_mem_plannedFiles (List.mem_reverse.mp hfile)
  exact leadsTo_of_mem_pathsOf hwrites h hmem hplace

theorem exists_lastPlanned? {settings : Settings} {model : Model} {path : Path}
    (h : path ∈ pathsOf settings.outputFolder model.entities.names model.enums.names) :
    ∃ file, lastPlanned? settings model path = some file := by
  rw [← map_path_plannedFiles] at h
  obtain ⟨file, hfile, hpath⟩ := List.mem_map.mp h
  rw [lastPlanned?, ← Option.isSome_iff_exists, List.find?_isSome]
  exact ⟨file, List.mem_reverse.mpr hfile, by simpa using hpath⟩

/-- A planned path holds at the end what was last planned for it. -/
theorem read_of_mem_pathsOf {settings : Settings} {model : Model} {tree later : FileTree}
    (hwrites : CanWrite settings model tree later) {path : Path} {file : OutputFile}
    (h : path ∈ pathsOf settings.outputFolder model.entities.names model.enums.names)
    (hlast : lastPlanned? settings model path = some file) :
    later.read path = .ok file.content.text.toUTF8 := by
  obtain ⟨base, steps, -, -, -, -, hplace⟩ := exists_place_of_mem_pathsOf hwrites h
  have hfile := lastAt?_plannedFiles hwrites h hplace
  rw [hlast, Option.map_some] at hfile
  exact FileTree.read_of_stored? hplace ((FileTree.isWritten_writeAll hwrites).holds _ _ hfile)

/-- A place that no planned path leads to is as it was, or has become a folder. -/
theorem keptAt_of_no_path {settings : Settings} {model : Model} {tree later : FileTree}
    (hwrites : CanWrite settings model tree later) {place : Path}
    (h : ∀ path ∈ pathsOf settings.outputFolder model.entities.names model.enums.names,
      later.locate path ≠ .ok place) :
    FileTree.KeptAt tree later place := by
  apply (FileTree.isWritten_writeAll hwrites).kept
  rw [FileTree.lastAt?, List.find?_eq_none]
  intro entry hentry
  obtain ⟨file, hfile, rfl⟩ := List.mem_map.mp (List.mem_reverse.mp hentry)
  rw [FileTree.leadsTo_iff]
  exact h file.path (mem_pathsOf_of_mem_plannedFiles hfile)

/-! ## What a run leaves -/

/-- What a run that could write all its files leaves: which paths it has written, where they lead,
what they hold, and what is elsewhere. -/
structure LeavesOutput (settings : Settings) (model : Model) (tree : FileTree)
    (run : Progress) : Prop where
  /-- The eight paths of each entity are written, then one for each enumeration. -/
  written : run.written =
    (model.entities.names.flatMap fun name =>
      entityLayout.map fun file => settings.outputFolder.below (entitySteps name file)) ++
    model.enums.names.map fun name => settings.outputFolder.below (enumSteps name)
  /-- They go on below the output folder by plain names, and lead below where it leads. -/
  confined : ∀ path ∈ run.written, ∃ base steps,
    run.tree.locate settings.outputFolder = .ok base ∧ steps ≠ [] ∧
    (∀ step ∈ steps, Path.IsStep step) ∧ path = settings.outputFolder.below steps ∧
    run.tree.locate path = .ok (base.below steps)
  /-- Each holds what was last planned for it. -/
  holds : ∀ path ∈ run.written, ∃ file, lastPlanned? settings model path = some file ∧
    run.tree.read path = .ok file.content.text.toUTF8
  /-- Where none of them leads everything is as it was, but for folders that were made. -/
  kept : ∀ place, (∀ path ∈ run.written, run.tree.locate path ≠ .ok place) →
    FileTree.KeptAt tree run.tree place

theorem pathsOf_eq (output : Path) (entities enums : List String) :
    pathsOf output entities enums =
      (entities.flatMap fun name =>
        entityLayout.map fun file => output.below (entitySteps name file)) ++
      enums.map fun name => output.below (enumSteps name) := by
  have hentity : entityPaths output =
      fun name => entityLayout.map fun file => output.below (entitySteps name file) :=
    funext (entityPaths_eq output)
  have henum : enumPath output = fun name => output.below (enumSteps name) :=
    funext (enumPath_eq output)
  rw [pathsOf, hentity, henum]

/-- **Output.** A run whose check of the ends passes and whose files can be written ends well, and
has put them in the output folder and changed nothing else, whatever the names are: their kebab
cases hold small letters, decimal digits and hyphens only. -/
theorem generate_output {settings : Settings} {model : Model} {tree later : FileTree}
    (hends : settings.strict = true → EndsDeclared model)
    (hwrites : CanWrite settings model tree later) :
    (generate settings tree model).2.outcome = .ok () ∧
      LeavesOutput settings model tree (generate settings tree model).1 ∧
      ∀ name ∈ model.entities.names ++ model.enums.names, ∀ c ∈ (kebab name).toList,
        c = '-' ∨ IsKebabLetter c := by
  have hprogress := progress_generate hends hwrites
  refine ⟨outcome_generate_iff.mpr ⟨hends, later, hwrites⟩, ?_, fun _ _ _ hc => mem_kebab hc⟩
  rw [hprogress]
  constructor
  case written => exact pathsOf_eq _ _ _
  case confined => exact fun path hpath => exists_place_of_mem_pathsOf hwrites hpath
  case holds =>
    intro path hpath
    obtain ⟨file, hlast⟩ := exists_lastPlanned? hpath
    exact ⟨file, hlast, read_of_mem_pathsOf hwrites hpath hlast⟩
  case kept => exact fun place hplace => keptAt_of_no_path hwrites hplace

/-- Names that would lead out of the output folder, have one kebab case with another name or have an
empty one: a strict run ends well, in a tree that holds a file already. -/
theorem generate_output_of_odd_names :
    let model : Model :=
      ⟨.ofList [⟨"../x", [.plain "y" "String"], .none⟩, ⟨"X", [], .none⟩, ⟨"_", [], .none⟩],
        .ofList [⟨"../../e", ["A"]⟩], [⟨.manyToOne, ⟨"../x", none⟩, ⟨"_", some "r"⟩⟩], none⟩
    let settings : Settings := ⟨.here, .ofString "out", "shop", none, .naive, true⟩
    let tree := FileTree.empty.set (.ofString "notes.txt") (.file "kept".toUTF8)
    EndsDeclared model ∧ ∃ later, CanWrite settings model tree later ∧
      (generate settings tree model).2.outcome = .ok () ∧
      LeavesOutput settings model tree (generate settings tree model).1 ∧
      ∀ name ∈ model.entities.names ++ model.enums.names, ∀ c ∈ (kebab name).toList,
        c = '-' ∨ IsKebabLetter c := by
  intro model settings tree
  have hrun : (generate settings tree model).2.value? = some () := by decide +kernel
  rw [Report.value?_eq_some_iff, outcome_generate_iff] at hrun
  obtain ⟨hends, later, hwrites⟩ := hrun
  exact ⟨hends rfl, later, hwrites, generate_output hends hwrites⟩

/-! ## One path, one file -/

/-- Where no path is planned twice, each file is the last one that is planned for its path. -/
theorem lastPlanned?_of_nodup {settings : Settings} {model : Model}
    (hnodup : (pathsOf settings.outputFolder model.entities.names model.enums.names).Nodup)
    {file : OutputFile} (h : file ∈ plannedFiles settings model) :
    lastPlanned? settings model file.path = some file := by
  rw [← map_path_plannedFiles] at hnodup
  obtain ⟨last, hlast⟩ := exists_lastPlanned? (mem_pathsOf_of_mem_plannedFiles h)
  have hpath : last.path = file.path := by simpa using List.find?_some hlast
  have hmem : last ∈ plannedFiles settings model :=
    List.mem_reverse.mp (List.mem_of_find?_eq_some hlast)
  rw [hlast, List.inj_on_of_nodup_map hnodup hmem h hpath]

/-- **Own files.** The paths that a run has written are distinct just if no two entities and no two
enumerations have one kebab case. Then every file of an entity or an enumeration is there at the
end as it was planned. -/
theorem written_nodup_iff {settings : Settings} {tree : FileTree} {model : Model}
    (hrun : (generate settings tree model).2.outcome = .ok ()) :
    ((generate settings tree model).1.written.Nodup ↔
      (model.entities.names.map kebab).Nodup ∧ (model.enums.names.map kebab).Nodup) ∧
    ((generate settings tree model).1.written.Nodup →
      ∀ file ∈ plannedFiles settings model,
        (generate settings tree model).1.tree.read file.path =
          .ok file.content.text.toUTF8) := by
  obtain ⟨hends, later, hwrites⟩ := outcome_generate_iff.mp hrun
  rw [progress_generate hends hwrites]
  refine ⟨nodup_pathsOf_iff _ _ _, ?_⟩
  intro hnodup file hfile
  exact read_of_mem_pathsOf hwrites (mem_pathsOf_of_mem_plannedFiles hfile)
    (lastPlanned?_of_nodup hnodup hfile)

/-- The kebab cases of two entities and of two enumerations differ: eighteen paths are distinct. -/
theorem written_nodup_of_orders :
    let text := "enum Status \x7b OPEN \x7d\nenum OrderStatus \x7b NEW \x7d\n" ++
      "entity Order \x7b\n  status Status\n\x7d\nentity orderItem \x7b\n  name String\n\x7d\n"
    let settings : Settings := ⟨.here, .ofString "out", "shop", none, .naive, false⟩
    ∃ model, (parse false text).outcome = .ok model ∧
      (generate settings .empty model).2.outcome = .ok () ∧
      (generate settings .empty model).1.written.length = 18 ∧
      (generate settings .empty model).1.written.Nodup ∧
      ((generate settings .empty model).1.written.Nodup ↔
        (model.entities.names.map kebab).Nodup ∧ (model.enums.names.map kebab).Nodup) ∧
      ((generate settings .empty model).1.written.Nodup →
        ∀ file ∈ plannedFiles settings model,
          (generate settings .empty model).1.tree.read file.path =
            .ok file.content.text.toUTF8) := by
  intro text settings
  have hparts : ((parse false text).value?.bind fun model =>
      (generate settings .empty model).2.value?.map fun _ =>
        ((generate settings .empty model).1.written.length,
          decide (generate settings .empty model).1.written.Nodup)) = some (18, true) := by
    decide +kernel
  obtain ⟨model, hmodel, hparts⟩ := Option.bind_eq_some_iff.mp hparts
  obtain ⟨_, hrun, hparts⟩ := Option.map_eq_some_iff.mp hparts
  obtain ⟨hlength, hnodup⟩ := Prod.mk.inj hparts
  rw [Report.value?_eq_some_iff] at hmodel hrun
  exact ⟨model, hmodel, hrun, hlength, of_decide_eq_true hnodup, written_nodup_iff hrun⟩

/-- Two enumerations whose names differ in case only are written to one path, and the first one is
lost. -/
theorem written_of_one_kebab_case :
    let text := "enum Status \x7b A \x7d\nenum status \x7b B \x7d"
    let settings : Settings := ⟨.here, .ofString "out", "store", none, .naive, false⟩
    ∃ model, (parse false text).outcome = .ok model ∧
      model.enums.names = ["Status", "status"] ∧
      (generate settings .empty model).2.outcome = .ok () ∧
      ¬(generate settings .empty model).1.written.Nodup ∧
      ¬∀ file ∈ plannedFiles settings model,
        (generate settings .empty model).1.tree.read file.path =
          .ok file.content.text.toUTF8 := by
  intro text settings
  have hparts : ((parse false text).value?.bind fun model =>
      (generate settings .empty model).2.value?.map fun _ =>
        (model.enums.names, decide (generate settings .empty model).1.written.Nodup,
          (plannedFiles settings model).all fun file =>
            ((generate settings .empty model).1.tree.read file.path).toOption =
              some file.content.text.toUTF8)) = some (["Status", "status"], false, false) := by
    decide +kernel
  obtain ⟨model, hmodel, hparts⟩ := Option.bind_eq_some_iff.mp hparts
  obtain ⟨_, hrun, hparts⟩ := Option.map_eq_some_iff.mp hparts
  obtain ⟨hnames, hparts⟩ := Prod.mk.inj hparts
  obtain ⟨hnodup, hall⟩ := Prod.mk.inj hparts
  rw [Report.value?_eq_some_iff] at hmodel hrun
  refine ⟨model, hmodel, hnames, hrun, of_decide_eq_false hnodup, ?_⟩
  intro hread
  refine Bool.eq_false_iff.mp hall (List.all_eq_true.mpr fun file hfile => ?_)
  rw [hread file hfile]
  exact decide_eq_true rfl

end EntityScaffold.Angular
