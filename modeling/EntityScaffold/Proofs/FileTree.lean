import EntityScaffold.Proofs.Path
import Mathlib.Data.List.Find

/-!
# What writing leaves in a file tree

A write that succeeds makes folders where there was nothing and changes one more place, the one its
path leads to, which held no folder; so every path that led somewhere leads there still. A row of
writes is described by where its paths lead in the tree that it leaves (`IsWritten`): a place that
one of them leads to holds the file of the last one, and every other place is as it was or has
become a folder. Rows are put together by `IsWritten.append`, so all that is needed of a single
write is `isWritten_write`.
-/

namespace EntityScaffold.FileTree

/-- Steps that succeed one after the other succeed each. -/
theorem exists_of_bind_ok {α β : Type} {first : Except FileFault α}
    {next : α → Except FileFault β} {result : β} (h : (first >>= next) = .ok result) :
    ∃ value, first = .ok value ∧ next value = .ok result := by
  cases first with
  | error fault => exact absurd h (by simp [bind, Except.bind])
  | ok value => exact ⟨value, rfl, h⟩

/-! ## Entries -/

theorem stored_set_self (tree : FileTree) {place : Path} (h : place.steps ≠ []) (entry : Entry) :
    FileTree.stored? (tree.set place entry) place = some entry := by
  simp [stored?, set, h]

theorem stored_set_of_ne (tree : FileTree) {place other : Path} (h : other ≠ place)
    (entry : Entry) :
    FileTree.stored? (tree.set place entry) other = tree.stored? other := by
  have hkey : (other == place) = false := by simpa using h
  simp [stored?, set, List.lookup_cons, hkey]

/-- A place that holds something else than a folder is not an origin. -/
theorem steps_ne_nil_of_ne_folder {tree : FileTree} {place : Path}
    (h : tree.stored? place ≠ some .folder) : place.steps ≠ [] := by
  intro hnil
  exact h (by simp [stored?, hnil])

/-! ## Paths that lead somewhere lead there still -/

/-- No folder of a tree is missing in another one, where relative paths start from the same
folder. -/
structure KeepsFolders (tree later : FileTree) : Prop where
  start : later.folder = tree.folder
  folders : ∀ place, tree.stored? place = some .folder → later.stored? place = some .folder

theorem KeepsFolders.refl (tree : FileTree) : KeepsFolders tree tree := ⟨rfl, fun _ h => h⟩

theorem KeepsFolders.trans {tree middle later : FileTree} (h : KeepsFolders tree middle)
    (h' : KeepsFolders middle later) : KeepsFolders tree later :=
  ⟨h'.start.trans h.start, fun place hplace => h'.folders place (h.folders place hplace)⟩

/-- Only folders are walked through. -/
theorem KeepsFolders.walk {tree later : FileTree} (h : KeepsFolders tree later)
    {place target : Path} {steps : List String} (hwalk : tree.walk place steps = .ok target) :
    later.walk place steps = .ok target := by
  induction steps generalizing place with
  | nil => exact hwalk
  | cons step steps ih =>
    rw [FileTree.walk] at hwalk ⊢
    cases hentry : tree.stored? place with
    | none => simp [hentry] at hwalk
    | some entry =>
      cases entry with
      | file bytes => simp [hentry] at hwalk
      | folder =>
        rw [hentry] at hwalk
        rw [h.folders place hentry]
        exact ih hwalk

theorem locate_eq_ok_iff {tree : FileTree} {path place : Path} :
    tree.locate path = .ok place ↔
      tree.walk { path.within tree.folder with steps := [] } (path.within tree.folder).steps =
        .ok place := by
  simp only [locate]
  cases hwalk : tree.walk { path.within tree.folder with steps := [] }
      (path.within tree.folder).steps with
  | error cause => simp
  | ok target => simp

theorem KeepsFolders.locate {tree later : FileTree} (h : KeepsFolders tree later)
    {path place : Path} (hlocate : tree.locate path = .ok place) :
    later.locate path = .ok place := by
  rw [locate_eq_ok_iff] at hlocate ⊢
  rw [h.start]
  exact h.walk hlocate

/-! ## Making folders -/

/-- At a place a tree is as before, or has a folder where there was nothing. -/
def KeptAt (tree later : FileTree) (place : Path) : Prop :=
  later.stored? place = tree.stored? place ∨
    (tree.stored? place = none ∧ later.stored? place = some .folder)

theorem KeptAt.trans {tree middle later : FileTree} {place : Path} (h : KeptAt tree middle place)
    (h' : KeptAt middle later place) : KeptAt tree later place := by
  rcases h with hsame | ⟨hnone, hfolder⟩
  · unfold KeptAt at h' ⊢
    rwa [hsame] at h'
  · rcases h' with hsame | ⟨hnone', -⟩
    · exact .inr ⟨hnone, hsame.trans hfolder⟩
    · rw [hnone'] at hfolder
      exact absurd hfolder (by simp)

/-- A file is where it was just if it was there. -/
theorem KeptAt.file_iff {tree later : FileTree} {place : Path} (h : KeptAt tree later place)
    (bytes : ByteArray) :
    later.stored? place = some (.file bytes) ↔ tree.stored? place = some (.file bytes) := by
  rcases h with hsame | ⟨hnone, hfolder⟩
  · rw [hsame]
  · simp [hnone, hfolder]

/-- A tree in which nothing happened to another one but that folders were made. -/
structure Grows (tree later : FileTree) : Prop where
  start : later.folder = tree.folder
  kept : ∀ place, KeptAt tree later place

theorem Grows.refl (tree : FileTree) : Grows tree tree := ⟨rfl, fun _ => .inl rfl⟩

theorem Grows.trans {tree middle later : FileTree} (h : Grows tree middle)
    (h' : Grows middle later) : Grows tree later :=
  ⟨h'.start.trans h.start, fun place => (h.kept place).trans (h'.kept place)⟩

theorem Grows.keepsFolders {tree later : FileTree} (h : Grows tree later) :
    KeepsFolders tree later := by
  refine ⟨h.start, ?_⟩
  intro place hplace
  rcases h.kept place with hsame | ⟨hnone, -⟩
  · rw [hsame, hplace]
  · rw [hnone] at hplace
    exact absurd hplace (by simp)

theorem grows_set_folder {tree : FileTree} {place : Path} (h : tree.stored? place = none) :
    Grows tree (tree.set place .folder) := by
  refine ⟨rfl, ?_⟩
  intro other
  by_cases hother : other = place
  · subst hother
    have hsteps := steps_ne_nil_of_ne_folder (by rw [h]; simp)
    exact .inr ⟨h, stored_set_self tree hsteps .folder⟩
  · exact .inl (stored_set_of_ne tree hother .folder)

theorem grows_makeLast {tree later : FileTree} {path : Path} (h : tree.makeLast path = .ok later) :
    Grows tree later := by
  obtain ⟨place, -, hlast⟩ := exists_of_bind_ok h
  split at hlast
  · obtain rfl := Except.ok.inj hlast
    exact .refl tree
  · exact absurd hlast (by simp)
  · rename_i hentry
    obtain rfl := Except.ok.inj hlast
    exact grows_set_folder hentry

theorem grows_makeFolder {tree later : FileTree} {path : Path}
    (h : tree.makeFolder path = .ok later) : Grows tree later := by
  fun_induction makeFolder tree path generalizing later with
  | case1 path missing hmissing hroot => simp at h
  | case2 path missing hmissing hnot ih =>
    obtain ⟨middle, hparent, hlast⟩ := exists_of_bind_ok h
    exact (ih hparent).trans (grows_makeLast hlast)
  | case3 path hother =>
    exact grows_makeLast h

/-! ## Writes -/

/-- Write files one after the other, each with its path. -/
def writeAll (tree : FileTree) (files : List (Path × ByteArray)) : Except FileFault FileTree :=
  files.foldlM (fun tree file => tree.write file.1 file.2) tree

theorem writeAll_cons (tree : FileTree) (file : Path × ByteArray)
    (files : List (Path × ByteArray)) :
    tree.writeAll (file :: files) =
      tree.write file.1 file.2 >>= fun middle => middle.writeAll files :=
  List.foldlM_cons

theorem writeAll_append (tree : FileTree) (files more : List (Path × ByteArray)) :
    tree.writeAll (files ++ more) =
      tree.writeAll files >>= fun middle => middle.writeAll more :=
  List.foldlM_append

/-- Does a path lead to a place? -/
def leadsTo (tree : FileTree) (path place : Path) : Bool :=
  match tree.locate path with
  | .ok found => found = place
  | .error _ => false

theorem leadsTo_iff {tree : FileTree} {path place : Path} :
    tree.leadsTo path place = true ↔ tree.locate path = .ok place := by
  unfold leadsTo
  cases tree.locate path with
  | error fault => simp
  | ok found => simp

/-- The last of some files whose path leads to a place. -/
def lastAt? (tree : FileTree) (place : Path) (files : List (Path × ByteArray)) :
    Option (Path × ByteArray) :=
  files.reverse.find? fun file => tree.leadsTo file.1 place

theorem lastAt?_append (tree : FileTree) (place : Path) (files more : List (Path × ByteArray)) :
    tree.lastAt? place (files ++ more) =
      (tree.lastAt? place more).or (tree.lastAt? place files) := by
  rw [lastAt?, List.reverse_append, List.find?_append, lastAt?, lastAt?]

/-- A tree as it is left when files were written into another one. -/
structure IsWritten (tree : FileTree) (files : List (Path × ByteArray)) (later : FileTree) :
    Prop where
  keepsFolders : KeepsFolders tree later
  /-- The path of each file leads somewhere. -/
  located : ∀ file ∈ files, ∃ place, later.locate file.1 = .ok place
  /-- A place that paths lead to holds the last of their files. -/
  holds : ∀ place file, later.lastAt? place files = some file →
    later.stored? place = some (.file file.2)
  /-- A place that no path leads to is as it was, or has become a folder. -/
  kept : ∀ place, later.lastAt? place files = none → KeptAt tree later place

theorem IsWritten.nil (tree : FileTree) : IsWritten tree [] tree where
  keepsFolders := .refl tree
  located := by simp
  holds := by simp [lastAt?]
  kept _ _ := .inl rfl

/-- A path of a file leads where it led when the file was written. -/
theorem IsWritten.lastAt?_eq {tree middle later : FileTree} {files : List (Path × ByteArray)}
    (h : IsWritten tree files middle) (hkeeps : KeepsFolders middle later) (place : Path) :
    later.lastAt? place files = middle.lastAt? place files := by
  apply List.find?_congr
  intro file hfile
  obtain ⟨found, hfound⟩ := h.located file (List.mem_reverse.mp hfile)
  simp [leadsTo, hfound, hkeeps.locate hfound]

theorem IsWritten.append {tree middle later : FileTree} {files more : List (Path × ByteArray)}
    (h : IsWritten tree files middle) (h' : IsWritten middle more later) :
    IsWritten tree (files ++ more) later where
  keepsFolders := h.keepsFolders.trans h'.keepsFolders
  located := by
    intro file hfile
    rcases List.mem_append.mp hfile with hfile | hfile
    · obtain ⟨place, hplace⟩ := h.located file hfile
      exact ⟨place, h'.keepsFolders.locate hplace⟩
    · exact h'.located file hfile
  holds := by
    intro place file hlast
    rw [lastAt?_append, h.lastAt?_eq h'.keepsFolders] at hlast
    cases hmore : later.lastAt? place more with
    | some other =>
      obtain rfl : other = file := by simpa [hmore] using hlast
      exact h'.holds place other hmore
    | none =>
      rw [hmore, Option.none_or] at hlast
      exact ((h'.kept place hmore).file_iff _).mpr (h.holds place file hlast)
  kept := by
    intro place hlast
    rw [lastAt?_append, h.lastAt?_eq h'.keepsFolders, Option.or_eq_none_iff] at hlast
    obtain ⟨hmore, hfiles⟩ := hlast
    exact (h.kept place hfiles).trans (h'.kept place hmore)

/-- What a write does: folders are made, then the place its path leads to changes. -/
theorem exists_of_write {tree later : FileTree} {path : Path} {bytes : ByteArray}
    (h : tree.write path bytes = .ok later) :
    ∃ grown place, Grows tree grown ∧ grown.locate path = .ok place ∧
      grown.stored? place ≠ some .folder ∧ later = grown.set place (.file bytes) := by
  obtain ⟨grown, hfolder, hfile⟩ := exists_of_bind_ok h
  obtain ⟨place, hlocate, hset⟩ := exists_of_bind_ok hfile
  split at hset
  · exact absurd hset (by simp)
  · rename_i hentry
    exact ⟨grown, place, grows_makeFolder hfolder, hlocate, hentry, (Except.ok.inj hset).symm⟩

theorem isWritten_write {tree later : FileTree} {path : Path} {bytes : ByteArray}
    (h : tree.write path bytes = .ok later) : IsWritten tree [(path, bytes)] later := by
  obtain ⟨grown, place, hgrows, hlocate, hentry, rfl⟩ := exists_of_write h
  have hkeeps : KeepsFolders grown (grown.set place (.file bytes)) := by
    refine ⟨rfl, ?_⟩
    intro other hother
    have hne : other ≠ place := by
      rintro rfl
      exact hentry hother
    rw [stored_set_of_ne grown hne, hother]
  have hleads : ∀ other, (grown.set place (.file bytes)).leadsTo path other = true ↔
      place = other := by
    intro other
    rw [leadsTo_iff, hkeeps.locate hlocate, Except.ok.injEq]
  refine ⟨hgrows.keepsFolders.trans hkeeps, ?_, ?_, ?_⟩
  · intro file hfile
    rw [List.mem_singleton.mp hfile]
    exact ⟨place, hkeeps.locate hlocate⟩
  · intro other file hlast
    obtain ⟨hfile, hother⟩ : (path, bytes) = file ∧ place = other := by
      simpa [lastAt?, hleads, and_comm] using hlast
    subst hfile hother
    exact stored_set_self grown (steps_ne_nil_of_ne_folder hentry) _
  · intro other hlast
    have hne : other ≠ place := by
      rintro rfl
      simp [lastAt?, hleads] at hlast
    have hsame : KeptAt grown (grown.set place (.file bytes)) other :=
      .inl (stored_set_of_ne grown hne _)
    exact (hgrows.kept other).trans hsame

/-- **Writes.** Files that could all be written are there, the last ones where paths lead to one
place, and everything else is as it was but for folders. -/
theorem isWritten_writeAll {tree later : FileTree} {files : List (Path × ByteArray)}
    (h : tree.writeAll files = .ok later) : IsWritten tree files later := by
  induction files generalizing tree with
  | nil =>
    obtain rfl : tree = later := Except.ok.inj h
    exact .nil tree
  | cons file files ih =>
    rw [writeAll_cons] at h
    obtain ⟨middle, hfirst, hlater⟩ := exists_of_bind_ok h
    exact (isWritten_write hfirst).append (ih hlater)

/-- Where a path leads to a file, its bytes are read. -/
theorem read_of_stored? {tree : FileTree} {path place : Path} {bytes : ByteArray}
    (hlocate : tree.locate path = .ok place) (hentry : tree.stored? place = some (.file bytes)) :
    tree.read path = .ok bytes := by
  simp [read, hlocate, hentry, bind, Except.bind]

/-! ## Paths below a folder -/

theorem walk_append (tree : FileTree) (place : Path) (steps more : List String) :
    tree.walk place (steps ++ more) =
      (tree.walk place steps).bind fun target => tree.walk target more := by
  induction steps generalizing place with
  | nil => rfl
  | cons step steps ih =>
    rw [List.cons_append, walk, walk]
    split
    · exact ih _
    · rfl
    · rfl

/-- Steps that do not lead to a parent are added to a place. -/
theorem eq_below_of_walk {tree : FileTree} {place target : Path} {steps : List String}
    (hplain : ".." ∉ steps) (h : tree.walk place steps = .ok target) :
    target = place.below steps := by
  induction steps generalizing place with
  | nil =>
    obtain rfl : place = target := Except.ok.inj h
    simp [Path.below]
  | cons step steps ih =>
    obtain ⟨hstep, hsteps⟩ := not_or.mp (mt List.mem_cons.mpr hplain)
    rw [walk] at h
    split at h
    · rw [ih hsteps h, stepFrom, if_neg (Ne.symm hstep)]
      simp [Path.below]
    · exact absurd h (by simp)
    · exact absurd h (by simp)

/-- Where a path goes on below another one without steps to a parent, it leads to a place below
where that one leads. -/
theorem exists_of_locate_below {tree : FileTree} {path place : Path} {steps : List String}
    (hplain : ".." ∉ steps) (h : tree.locate (path.below steps) = .ok place) :
    ∃ base, tree.locate path = .ok base ∧ place = base.below steps := by
  rw [locate_eq_ok_iff, Path.within_below] at h
  simp only [Path.below, walk_append] at h
  cases hbase : tree.walk { path.within tree.folder with steps := [] }
      (path.within tree.folder).steps with
  | error cause => simp [hbase, Except.bind] at h
  | ok base =>
    refine ⟨base, locate_eq_ok_iff.mpr hbase, ?_⟩
    simp only [hbase, Except.bind] at h
    exact eq_below_of_walk hplain h

end EntityScaffold.FileTree
