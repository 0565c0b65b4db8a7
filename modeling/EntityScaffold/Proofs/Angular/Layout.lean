import EntityScaffold.Proofs.Angular.References
import Mathlib.Data.List.Nodup

/-!
# Where files are put

Every planned path goes on below the output folder by steps that are plain names, and what these
steps are depends on the kebab case of a name only. Two names with one kebab case have all their
files in common; if the kebab cases differ they have none in common, also if one of them is empty,
so that its files stand beside the folders of the others. So no path is planned twice just if no
two entities and no two enumerations have one kebab case.
-/

namespace EntityScaffold.Angular

open Naming

/-! ## Steps below the output folder -/

/-- Where the files of an entity are below its folder, and what their names have after the kebab
case. -/
def entityLayout : List (List String × String) :=
  [([], ".model.ts"), ([], ".routes.ts"), (["service"], ".service.ts"),
    (["update"], "-form.service.ts"), (["form"], "-form.component.ts"),
    (["form"], "-form.component.html"), (["list"], "-list.component.ts"),
    (["list"], "-list.component.html")]

/-- The folder that an entity has among those of the entities, if its kebab case names one. -/
def ownFolder (name : String) : List String := if kebab name = "" then [] else [kebab name]

/-- The steps to a file of an entity from the output folder. -/
def entitySteps (name : String) (file : List String × String) : List String :=
  "entities" :: (ownFolder name ++ file.1 ++ [kebab name ++ file.2])

/-- The steps to the file of an enumeration from the output folder. -/
def enumSteps (name : String) : List String := ["enums", kebab name ++ ".model.ts"]

theorem dot_not_mem_kebab (name : String) : '.' ∉ (kebab name).toList := by
  intro h
  cases mem_kebab h with
  | inl hhyphen => exact absurd hhyphen (by decide)
  | inr hletter => exact hletter.ne (by decide) (by decide) rfl

theorem isStep_kebab {name : String} (h : kebab name ≠ "") : Path.IsStep (kebab name) where
  slashFree := slash_not_mem_kebab name
  ne_empty := h
  ne_dot hdot := dot_not_mem_kebab name (by rw [hdot]; decide)
  ne_parent hparent := dot_not_mem_kebab name (by rw [hparent]; decide)

theorem stepsOf_kebab (name : String) : Path.stepsOf (kebab name) = ownFolder name := by
  unfold ownFolder
  split
  · rename_i hempty
    rw [hempty]
    decide
  · rename_i hne
    exact (isStep_kebab hne).stepsOf_eq

theorem entityPath_eq (output : Path) (name : String) (below : List String) (ending : String) :
    entityPath output name below ending = output.below (entitySteps name (below, ending)) := by
  have hentities : Path.stepsOf "entities" = ["entities"] :=
    Path.IsStep.stepsOf_eq (by decide)
  simp [entityPath, entitySubfolder, entityFolder, Path.enter, Path.below, entitySteps, hentities,
    stepsOf_kebab]

theorem enumPath_eq (output : Path) (name : String) :
    enumPath output name = output.below (enumSteps name) := by
  have henums : Path.stepsOf "enums" = ["enums"] := Path.IsStep.stepsOf_eq (by decide)
  have hending : IsEnding ".model.ts" := by decide
  have hfile := (isStep_kebab_append name hending).stepsOf_eq
  simp [enumPath, Path.enter, Path.below, enumSteps, henums, hfile]

theorem entityPaths_eq (output : Path) (name : String) :
    entityPaths output name =
      entityLayout.map fun file => output.below (entitySteps name file) := by
  simp [entityPaths, entityLayout, entityPath_eq]

/-- The steps to a file of an entity are plain names. -/
theorem isStep_of_mem_entitySteps {name : String} {file : List String × String}
    (hfile : file ∈ entityLayout) : ∀ step ∈ entitySteps name file, Path.IsStep step := by
  have hfolders : ∀ file ∈ entityLayout, ∀ folder ∈ file.1, Path.IsStep folder := by decide
  have hendings : ∀ file ∈ entityLayout, IsEnding file.2 := by decide
  intro step hstep
  simp only [entitySteps, List.mem_cons, List.mem_append, List.not_mem_nil, or_false] at hstep
  rcases hstep with rfl | (hown | hfolder) | rfl
  · decide
  · unfold ownFolder at hown
    split at hown
    · exact absurd hown List.not_mem_nil
    · rename_i hne
      rw [List.mem_singleton.mp hown]
      exact isStep_kebab hne
  · exact hfolders file hfile step hfolder
  · exact isStep_kebab_append name (hendings file hfile)

theorem isStep_of_mem_enumSteps {name : String} : ∀ step ∈ enumSteps name, Path.IsStep step := by
  intro step hstep
  simp only [enumSteps, List.mem_cons, List.not_mem_nil, or_false] at hstep
  rcases hstep with rfl | rfl
  · decide
  · exact isStep_kebab_append name (by decide)

/-! ## Different files -/

/-- A file beside the folders of entities is not in one of them: its name would need another
ending. -/
theorem entityLayout_apart : ∀ file ∈ entityLayout, ∀ other ∈ entityLayout,
    ∀ folder ∈ file.1, file.1 = folder :: other.1 → file.2 ≠ folder ++ other.2 := by
  decide

/-- A file of an entity without a folder of its own is no file of one that has a folder. -/
theorem entitySteps_ne {a b : String} (ha : kebab a = "") (hb : kebab b ≠ "")
    {file other : List String × String} (hfile : file ∈ entityLayout)
    (hother : other ∈ entityLayout) : entitySteps a file ≠ entitySteps b other := by
  intro h
  simp only [entitySteps, ownFolder, if_pos ha, if_neg hb, List.cons.injEq, true_and,
    List.append_singleton_inj, List.nil_append] at h
  obtain ⟨hfolders, hlast⟩ := h
  have hmem : kebab b ∈ file.1 := by
    rw [hfolders]
    exact List.mem_append_left _ (List.mem_singleton_self _)
  apply entityLayout_apart file hfile other hother (kebab b) hmem hfolders
  rw [← hlast, ha, String.empty_append]

/-- The steps to a file of an entity tell the kebab case and which file it is. -/
theorem entitySteps_inj {a b : String} {file other : List String × String}
    (hfile : file ∈ entityLayout) (hother : other ∈ entityLayout) :
    entitySteps a file = entitySteps b other ↔ kebab a = kebab b ∧ file = other := by
  constructor
  · intro h
    have hown : kebab a = "" ↔ kebab b = "" := by
      by_cases ha : kebab a = ""
      · by_cases hb : kebab b = ""
        · simp [ha, hb]
        · exact absurd h (entitySteps_ne ha hb hfile hother)
      · by_cases hb : kebab b = ""
        · exact absurd h.symm (entitySteps_ne hb ha hother hfile)
        · simp [ha, hb]
    simp only [entitySteps, ownFolder, List.cons.injEq, true_and, List.append_singleton_inj] at h
    obtain ⟨hfolders, hlast⟩ := h
    by_cases ha : kebab a = ""
    · have hb : kebab b = "" := hown.mp ha
      rw [if_pos ha, if_pos hb, List.nil_append, List.nil_append] at hfolders
      rw [ha, hb, String.empty_append, String.empty_append] at hlast
      exact ⟨by rw [ha, hb], Prod.ext hfolders hlast⟩
    · have hb : ¬kebab b = "" := mt hown.mpr ha
      rw [if_neg ha, if_neg hb, List.singleton_append, List.singleton_append,
        List.cons.injEq] at hfolders
      obtain ⟨hkebab, hfolders⟩ := hfolders
      rw [hkebab, String.append_right_inj] at hlast
      exact ⟨hkebab, Prod.ext hfolders hlast⟩
  · rintro ⟨hkebab, rfl⟩
    rw [entitySteps, entitySteps, ownFolder, ownFolder, hkebab]

/-- Two entities have no file in common just if their kebab cases differ. -/
theorem disjoint_entityPaths_iff {output : Path} {a b : String} :
    List.Disjoint (entityPaths output a) (entityPaths output b) ↔ kebab a ≠ kebab b := by
  rw [entityPaths_eq, entityPaths_eq]
  constructor
  · intro hdisjoint hkebab
    have hfile : ([], ".model.ts") ∈ entityLayout := List.mem_cons_self
    have hsame := (entitySteps_inj hfile hfile).mpr ⟨hkebab, rfl⟩
    refine hdisjoint (List.mem_map_of_mem hfile) ?_
    rw [hsame]
    exact List.mem_map_of_mem hfile
  · intro hne path ha hb
    obtain ⟨file, hfile, rfl⟩ := List.mem_map.mp ha
    obtain ⟨other, hother, hpath⟩ := List.mem_map.mp hb
    exact hne ((entitySteps_inj hother hfile).mp (Path.below_inj.mp hpath)).1.symm

theorem nodup_entityPaths (output : Path) (name : String) : (entityPaths output name).Nodup := by
  rw [entityPaths_eq, List.nodup_map_iff_inj_on (by decide)]
  intro file hfile other hother h
  exact ((entitySteps_inj hfile hother).mp (Path.below_inj.mp h)).2

theorem enumPath_inj {output : Path} {a b : String} :
    enumPath output a = enumPath output b ↔ kebab a = kebab b := by
  rw [enumPath_eq, enumPath_eq, Path.below_inj]
  simp [enumSteps]

theorem enumPath_not_mem_entityPaths (output : Path) (a b : String) :
    enumPath output a ∉ entityPaths output b := by
  rw [entityPaths_eq, enumPath_eq]
  intro h
  obtain ⟨file, -, hpath⟩ := List.mem_map.mp h
  rw [Path.below_inj] at hpath
  simp [entitySteps, enumSteps] at hpath

/-- The paths of the files of entities and enumerations, in the order in which they are written. -/
def pathsOf (output : Path) (entities enums : List String) : List Path :=
  entities.flatMap (entityPaths output) ++ enums.map (enumPath output)

/-- A planned path goes on below the output folder by plain names. -/
theorem exists_steps_of_mem_pathsOf {output path : Path} {entities enums : List String}
    (h : path ∈ pathsOf output entities enums) :
    ∃ steps, steps ≠ [] ∧ (∀ step ∈ steps, Path.IsStep step) ∧ path = output.below steps := by
  rcases List.mem_append.mp h with h | h
  · obtain ⟨name, -, hmem⟩ := List.mem_flatMap.mp h
    rw [entityPaths_eq] at hmem
    obtain ⟨file, hfile, rfl⟩ := List.mem_map.mp hmem
    exact ⟨entitySteps name file, List.cons_ne_nil _ _, isStep_of_mem_entitySteps hfile, rfl⟩
  · obtain ⟨name, -, rfl⟩ := List.mem_map.mp h
    exact ⟨enumSteps name, List.cons_ne_nil _ _, isStep_of_mem_enumSteps, enumPath_eq output name⟩

/-- No path is planned twice just if no two entities and no two enumerations have one kebab
case. -/
theorem nodup_pathsOf_iff (output : Path) (entities enums : List String) :
    (pathsOf output entities enums).Nodup ↔
      (entities.map kebab).Nodup ∧ (enums.map kebab).Nodup := by
  have hentities : (entities.flatMap (entityPaths output)).Nodup ↔ (entities.map kebab).Nodup := by
    rw [List.nodup_flatMap, and_iff_right fun name _ => nodup_entityPaths output name,
      List.Nodup, List.pairwise_map]
    exact List.Pairwise.iff fun _ _ => disjoint_entityPaths_iff
  have henums : (enums.map (enumPath output)).Nodup ↔ (enums.map kebab).Nodup := by
    rw [List.Nodup, List.Nodup, List.pairwise_map, List.pairwise_map]
    exact List.Pairwise.iff fun _ _ => not_congr enumPath_inj
  have happart : ∀ path ∈ entities.flatMap (entityPaths output),
      ∀ other ∈ enums.map (enumPath output), path ≠ other := by
    rintro path hpath other hother rfl
    obtain ⟨name, -, hmem⟩ := List.mem_flatMap.mp hpath
    obtain ⟨enumeration, -, rfl⟩ := List.mem_map.mp hother
    exact enumPath_not_mem_entityPaths output enumeration name hmem
  rw [pathsOf, List.nodup_append, hentities, henums, and_iff_left happart]

end EntityScaffold.Angular
