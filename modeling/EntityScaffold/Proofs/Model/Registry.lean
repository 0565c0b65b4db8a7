import EntityScaffold.Model.Registry
import Mathlib.Data.List.Basic
import Mathlib.Data.List.Induction

/-!
# What a registry holds after several puts

Things put in one after the other leave one thing under each name, the last one, in the place that
the first one got: `lastOfEach` says so without a registry, and `Registry.items_ofList` that it is
what the registry holds.
-/

namespace EntityScaffold

variable {α : Type} [Named α]

/-- The last of the things of a name. -/
def lastNamed? (things : List α) (name : String) : Option α :=
  things.reverse.find? fun x => Named.name x = name

/-- The names of things in the order of their first mention, each with the last thing of that
name. -/
def lastOfEach (things : List α) : List α :=
  (things.map Named.name).eraseDups.filterMap (lastNamed? things)

theorem name_of_lastNamed? {things : List α} {name : String} {x : α}
    (h : lastNamed? things name = some x) : Named.name x = name := by
  simpa using List.find?_some h

/-- A thing that comes last is the last of its name, and of no other. -/
theorem lastNamed?_concat (things : List α) (x : α) (name : String) :
    lastNamed? (things ++ [x]) name =
      if Named.name x = name then some x else lastNamed? things name := by
  unfold lastNamed?
  rw [List.reverse_concat, List.find?_cons]
  by_cases h : Named.name x = name
  · simp [h]
  · simp [h]

/-- The last thing of its name is what no other of that name comes after. -/
theorem lastNamed?_append_cons {before later : List α} {x : α}
    (h : ∀ y ∈ later, Named.name y ≠ Named.name x) :
    lastNamed? (before ++ x :: later) (Named.name x) = some x := by
  have hlater : later.reverse.find? (fun y => Named.name y = Named.name x) = none := by
    simpa using h
  rw [lastNamed?, List.reverse_append, List.reverse_cons, List.append_assoc, List.find?_append,
    hlater]
  simp

/-- Every name of a thing has a last thing. -/
theorem exists_lastNamed? {things : List α} {name : String}
    (h : name ∈ things.map Named.name) : ∃ x, lastNamed? things name = some x := by
  obtain ⟨x, hx, rfl⟩ := List.mem_map.mp h
  rw [← Option.isSome_iff_exists, lastNamed?, List.find?_isSome]
  exact ⟨x, List.mem_reverse.mpr hx, by simp⟩

theorem map_name_lastOfEach (things : List α) :
    (lastOfEach things).map Named.name = (things.map Named.name).eraseDups := by
  have hnames : ∀ names : List String, (∀ name ∈ names, name ∈ things.map Named.name) →
      (names.filterMap (lastNamed? things)).map Named.name = names := by
    intro names hmem
    induction names with
    | nil => rfl
    | cons name names ih =>
      obtain ⟨x, hx⟩ := exists_lastNamed? (hmem name List.mem_cons_self)
      rw [List.filterMap_cons_some hx, List.map_cons, name_of_lastNamed? hx,
        ih fun other hother => hmem other (List.mem_cons_of_mem _ hother)]
  exact hnames _ fun name hname => List.mem_eraseDups.mp hname

theorem eraseDups_concat (names : List String) (name : String) :
    (names ++ [name]).eraseDups =
      if name ∈ names then names.eraseDups else names.eraseDups ++ [name] := by
  rw [List.eraseDups_append]
  by_cases h : name ∈ names
  · simp [List.removeAll, h]
  · simp [List.removeAll, h, List.eraseDups_cons]

/-- A thing takes the place of the one of its name, if no other has that name. -/
theorem replaceIn_append_cons {before later : List α} {x y : α}
    (hname : Named.name x = Named.name y)
    (hdistinct : ((before ++ y :: later).map Named.name).Nodup) :
    Registry.replaceIn x (before ++ y :: later) = before ++ x :: later := by
  have hother : ∀ z ∈ before ++ later, Named.name z ≠ Named.name x := by
    intro z hz hsame
    have hperm : (before ++ y :: later).Perm (y :: (before ++ later)) := List.perm_middle
    rw [(hperm.map Named.name).nodup_iff, List.map_cons, List.nodup_cons, ← hname, ← hsame]
      at hdistinct
    exact hdistinct.1 (List.mem_map_of_mem hz)
  have hkeep : ∀ things, (∀ z ∈ things, Named.name z ≠ Named.name x) →
      Registry.replaceIn x things = things := by
    intro things hthings
    refine (List.map_congr_left fun z hz => ?_).trans (List.map_id things)
    rw [if_neg (hthings z hz), id_eq]
  have hbefore := hkeep before fun z hz => hother z (List.mem_append_left _ hz)
  have hlater := hkeep later fun z hz => hother z (List.mem_append_right _ hz)
  unfold Registry.replaceIn at hbefore hlater ⊢
  rw [List.map_append, List.map_cons, hbefore, hlater, if_pos hname.symm]

namespace Registry

/-- A registry is told by what it holds. -/
theorem eq_of_items {registry other : Registry α} (h : registry.items = other.items) :
    registry = other := by
  cases registry
  cases other
  cases h
  rfl

/-- Two changes one after the other are one change. -/
theorem update_update (registry : Registry α) {f g h : α → α} (hsame : ∀ x, g (f x) = h x)
    (hf : ∀ x, Named.name (f x) = Named.name x) (hg : ∀ x, Named.name (g x) = Named.name x)
    (hh : ∀ x, Named.name (h x) = Named.name x) :
    (registry.update f hf).update g hg = registry.update h hh := by
  apply eq_of_items
  show (registry.items.map f).map g = registry.items.map h
  rw [List.map_map]
  exact List.map_congr_left fun x _ => hsame x

theorem items_put (registry : Registry α) (x : α) :
    (registry.put x).items = if Named.name x ∈ registry.items.map Named.name
      then replaceIn x registry.items else registry.items ++ [x] := by
  unfold put
  split <;> rfl

/-- What was put in last is what its name stands for, and other names stand for what they did. -/
theorem get?_put (registry : Registry α) (x : α) (name : String) :
    (registry.put x).get? name = if Named.name x = name then some x else registry.get? name := by
  unfold get?
  rw [items_put]
  by_cases htaken : Named.name x ∈ registry.items.map Named.name
  · obtain ⟨y, hy, hsame⟩ := List.mem_map.mp htaken
    have hkeep : ∀ z, Named.name (if Named.name z = Named.name x then x else z) = Named.name z := by
      intro z
      split
      · rename_i heq
        exact heq.symm
      · rfl
    rw [if_pos htaken, replaceIn, List.find?_map]
    simp only [Function.comp_def, hkeep]
    cases hfind : registry.items.find? fun z => Named.name z = name with
    | none =>
      have hother : Named.name x ≠ name := by
        have hnone := List.find?_eq_none.mp hfind y hy
        simpa [hsame] using hnone
      rw [if_neg hother, Option.map_none]
    | some z =>
      have hz : Named.name z = name := by simpa using List.find?_some hfind
      rw [Option.map_some, hz]
      by_cases heq : Named.name x = name
      · rw [if_pos heq.symm, if_pos heq]
      · rw [if_neg (Ne.symm heq), if_neg heq]
  · rw [if_neg htaken, List.find?_append]
    by_cases heq : Named.name x = name
    · have hnone : (registry.items.find? fun z => Named.name z = name) = none := by
        rw [List.find?_eq_none]
        intro z hz hsame
        have hz' : Named.name z = Named.name x := (of_decide_eq_true hsame).trans heq.symm
        exact htaken (hz' ▸ List.mem_map_of_mem hz)
      simp [hnone, heq]
    · simp [heq]

theorem names_update (registry : Registry α) {f : α → α}
    (keeps : ∀ x, Named.name (f x) = Named.name x) :
    (registry.update f keeps).names = registry.names := by
  show (registry.items.map f).map Named.name = registry.items.map Named.name
  rw [List.map_map]
  exact List.map_congr_left fun y _ => keeps y

/-- A change that keeps names can be made before or after a thing is put in. -/
theorem update_put (registry : Registry α) {f : α → α}
    (keeps : ∀ x, Named.name (f x) = Named.name x) (x : α) :
    (registry.put x).update f keeps = (registry.update f keeps).put (f x) := by
  have hnames : (registry.items.map f).map Named.name = registry.items.map Named.name :=
    names_update registry keeps
  apply eq_of_items
  rw [items_put]
  show ((registry.put x).items).map f = _
  rw [items_put]
  simp only [update, hnames, keeps]
  split
  · rw [replaceIn, replaceIn, List.map_map, List.map_map]
    refine List.map_congr_left fun y _ => ?_
    simp only [Function.comp_apply, keeps]
    split
    · rfl
    · rfl
  · rw [List.map_append, List.map_singleton]

theorem ofList_concat (things : List α) (x : α) :
    ofList (things ++ [x]) = (ofList things).put x := by
  rw [ofList, List.foldl_append]
  rfl

/-- **Puts.** Of several things the registry holds the last one of each name, in the order in which
the names came first. -/
theorem items_ofList (things : List α) : (ofList things).items = lastOfEach things := by
  induction things using List.reverseRecOn with
  | nil => rfl
  | append_singleton things x ih =>
    have hnames : Named.name x ∈ (lastOfEach things).map Named.name ↔
        Named.name x ∈ things.map Named.name := by
      rw [map_name_lastOfEach, List.mem_eraseDups]
    have hafter : lastOfEach (things ++ [x]) =
        (if Named.name x ∈ things.map Named.name then (things.map Named.name).eraseDups
          else (things.map Named.name).eraseDups ++ [Named.name x]).filterMap
            (lastNamed? (things ++ [x])) := by
      rw [lastOfEach, List.map_append, List.map_singleton, eraseDups_concat]
    rw [ofList_concat, items_put, ih, hafter]
    by_cases htaken : Named.name x ∈ things.map Named.name
    · -- the names stay, and under the name of `x` it is now `x` that comes last
      rw [if_pos (hnames.mpr htaken), if_pos htaken, replaceIn, lastOfEach, List.map_filterMap]
      refine List.filterMap_congr fun name hname => ?_
      obtain ⟨y, hy⟩ := exists_lastNamed? (List.mem_eraseDups.mp hname)
      rw [lastNamed?_concat, hy, Option.map_some, name_of_lastNamed? hy]
      by_cases hsame : name = Named.name x
      · rw [if_pos hsame, if_pos hsame.symm]
      · rw [if_neg hsame, if_neg (Ne.symm hsame)]
    · -- the name of `x` is new and comes last
      have hlast : [Named.name x].filterMap (lastNamed? (things ++ [x])) = [x] := by
        simp [lastNamed?_concat]
      rw [if_neg (mt hnames.mp htaken), if_neg htaken, List.filterMap_append, hlast, lastOfEach]
      congr 1
      refine List.filterMap_congr fun name hname => ?_
      have hother : Named.name x ≠ name := by
        intro hsame
        rw [hsame] at htaken
        exact htaken (List.mem_eraseDups.mp hname)
      rw [lastNamed?_concat, if_neg hother]

/-- Under a name is the last thing of that name. -/
theorem get?_ofList (things : List α) (name : String) :
    (ofList things).get? name = lastNamed? things name := by
  induction things using List.reverseRecOn with
  | nil => rfl
  | append_singleton things x ih => rw [ofList_concat, get?_put, lastNamed?_concat, ih]

/-- Whatever a registry holds was put in. -/
theorem mem_of_mem_items_ofList {things : List α} {x : α} (h : x ∈ (ofList things).items) :
    x ∈ things := by
  rw [items_ofList, lastOfEach] at h
  obtain ⟨name, -, hlast⟩ := List.mem_filterMap.mp h
  exact List.mem_reverse.mp (List.mem_of_find?_eq_some hlast)

/-- A registry has exactly the names of the things that were put in. -/
theorem mem_names_ofList {things : List α} {name : String} :
    name ∈ (ofList things).names ↔ name ∈ things.map Named.name := by
  rw [names, items_ofList, map_name_lastOfEach, List.mem_eraseDups]

end Registry

end EntityScaffold
