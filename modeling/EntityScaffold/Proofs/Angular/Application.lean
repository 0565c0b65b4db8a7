import EntityScaffold.Proofs.Angular.References
import EntityScaffold.Proofs.Document.Classification

/-!
# What a run writes

A run that ends well has written every planned file, in order. It has then written all that its
files refer to, if it was strict: an enumeration that a file imports is the type of a field that is
told to be of one, hence declared; an entity that a file imports is the end of a relationship, and
the strict check of the ends has found it declared.
-/

namespace EntityScaffold.Angular

open Document Generation Naming TypeScript

/-! ## Writing files -/

/-- Writing that ends well has written all the files. -/
theorem written_writeFiles {wrote : Path → Note} {files : List OutputFile} {progress : Progress}
    (h : (writeFiles wrote progress files).2.outcome = .ok ()) :
    (writeFiles wrote progress files).1.written =
      progress.written ++ files.map OutputFile.path := by
  induction files generalizing progress with
  | nil => simp [writeFiles]
  | cons file later ih =>
    rw [writeFiles] at h ⊢
    cases hwrite : progress.tree.write file.path file.content.text.toUTF8 with
    | error fault =>
      rw [hwrite] at h
      exact absurd h (by simp [Report.fail])
    | ok tree =>
      rw [hwrite] at h
      have hlater : (writeFiles wrote ⟨tree, progress.written ++ [file.path]⟩ later).1.written =
          (progress.written ++ [file.path]) ++ later.map OutputFile.path := ih h
      simpa using hlater

/-- A run whose jobs all end well has written the files of all of them. -/
theorem written_perform {jobs : List Job} {progress : Progress}
    (h : (perform progress jobs).2.outcome = .ok ()) :
    (perform progress jobs).1.written =
      progress.written ++ (jobs.flatMap Job.files).map OutputFile.path := by
  induction jobs generalizing progress with
  | nil => simp [perform]
  | cons job later ih =>
    cases hfiles : (writeFiles job.wrote progress job.files).2.outcome with
    | error fault => simp [perform, hfiles] at h
    | ok done =>
      have hlater : (perform (writeFiles job.wrote progress job.files).1 later).2.outcome =
          .ok () := by
        simp only [perform, hfiles] at h
        obtain ⟨_, -, hlater⟩ := Report.exists_of_andThen_ok h
        exact hlater
      have hwritten := ih hlater
      rw [written_writeFiles hfiles] at hwritten
      simp [perform, hfiles, hwritten]

/-- A run that ends well has contexts, and has written all that is planned for them. -/
theorem written_generate {settings : Settings} {tree : FileTree} {model : Model}
    (h : (generate settings tree model).2.outcome = .ok ()) :
    ∃ contexts,
      (entityContexts settings.pluralStyle settings.strict model).outcome = .ok contexts ∧
      (generate settings tree model).1.written =
        ((jobs settings contexts model.enums.items).flatMap Job.files).map OutputFile.path := by
  cases hcontexts : (entityContexts settings.pluralStyle settings.strict model).outcome with
  | error fault => simp [generate, hcontexts] at h
  | ok contexts =>
    have hperform : (perform ⟨tree, []⟩ (jobs settings contexts model.enums.items)).2.outcome =
        .ok () := by
      cases hperform :
          (perform ⟨tree, []⟩ (jobs settings contexts model.enums.items)).2.outcome with
      | error fault => simp [generate, hcontexts, hperform, Except.mapError] at h
      | ok done => rfl
    refine ⟨contexts, rfl, ?_⟩
    have hwritten := written_perform hperform
    simpa [generate, hcontexts] using hwritten

/-! ## Planned files -/

section

variable {settings : Settings} {contexts : List Context} {enums : List Enumeration}

theorem mem_files_iff {file : OutputFile} :
    file ∈ (jobs settings contexts enums).flatMap Job.files ↔
      (∃ context ∈ contexts,
        file ∈ entityFiles settings.outputFolder settings.apiBaseUrl context) ∨
      ∃ enumeration ∈ enums, file = enumOutput settings.outputFolder enumeration := by
  simp [jobs, List.flatMap_append, List.mem_flatMap]

/-- The files of an entity that has a context are planned. -/
theorem mem_paths_of_entity {context : Context} (hcontext : context ∈ contexts) {path : Path}
    (h : path ∈ entityPaths settings.outputFolder context.entity.name) :
    path ∈ ((jobs settings contexts enums).flatMap Job.files).map OutputFile.path := by
  rw [← map_path_entityFiles settings.outputFolder settings.apiBaseUrl context] at h
  obtain ⟨file, hfile, rfl⟩ := List.mem_map.mp h
  exact List.mem_map_of_mem (mem_files_iff.mpr (.inl ⟨context, hcontext, hfile⟩))

/-- The file of an enumeration is planned. -/
theorem mem_paths_of_enum {name : String} (h : name ∈ enums.map Enumeration.name) :
    enumPath settings.outputFolder name ∈
      ((jobs settings contexts enums).flatMap Job.files).map OutputFile.path := by
  obtain ⟨enumeration, henumeration, rfl⟩ := List.mem_map.mp h
  exact List.mem_map_of_mem (mem_files_iff.mpr (.inr ⟨enumeration, henumeration, rfl⟩))

end

/-! ## What is referred to is planned -/

/-- The enumerations that the files of a context import are declared. -/
theorem mem_enum_names_of_mem_enumTypes {strict : Bool} {text : String} {model : Model}
    (hparse : (parse strict text).outcome = .ok model) {style : PluralStyle} {entity : Entity}
    (hentity : entity ∈ model.entities.items) {name : String}
    (h : name ∈ enumTypes (.of style model.relationships entity)) : name ∈ model.enums.names := by
  obtain ⟨field, hfield, rfl⟩ := List.mem_map.mp (mem_of_mem_distinctBy h)
  obtain ⟨hvisible, hflag⟩ := List.mem_filter.mp hfield
  obtain ⟨declared, hdeclared, rfl⟩ := List.mem_map.mp (List.mem_filter.mp hvisible).1
  have hname : declared.type ∈ model.enums.names :=
    type_mem_names_of_isEnum hparse hentity hdeclared hflag
  exact hname

/-- Where a strict run has contexts, the entity at the other end of a relationship has one. -/
theorem exists_context_of_view {style : PluralStyle} {model : Model} {contexts : List Context}
    (h : (entityContexts style true model).outcome = .ok contexts) {entity : Entity} {view : View}
    (hview : view ∈ (Context.of style model.relationships entity).views) :
    ∃ context ∈ contexts, context.entity.name = view.other := by
  obtain ⟨relationship, hrelationship, rfl⟩ := List.mem_map.mp hview
  have hdeclared := ends_declared_of_strict h relationship (List.mem_filter.mp hrelationship).1
    relationship.target (by simp [Relationship.ends])
  obtain ⟨other, hother, hname⟩ := List.mem_map.mp hdeclared
  rw [contexts_eq_of_outcome h]
  exact ⟨_, List.mem_map_of_mem hother, hname⟩

end EntityScaffold.Angular
