import EntityScaffold.Angular.Symbols
import EntityScaffold.Proofs.Naming.Case

/-!
# Lists of types and names of modules

A list of types keeps each once and does not tell names apart that differ in case only: of these
the first stays. The modules of a name have its kebab case in them and tell it.
-/

namespace EntityScaffold.Angular

open Naming

/-! ## Names kept once -/

/-- A name is the first of some names that agree with it up to case. -/
def IsFirstSpelling (names : List String) (name : String) : Prop :=
  names.find? (fun other => Text.lower other = Text.lower name) = some name

instance (names : List String) (name : String) : Decidable (IsFirstSpelling names name) :=
  inferInstanceAs (Decidable (_ = _))

/-- What is kept is what is met first with its key, unless the key is one of those seen. -/
theorem mem_distinctBy {α : Type} {key : α → String} {seen : List String} {items : List α}
    {item : α} :
    item ∈ distinctBy key seen items ↔ Text.lower (key item) ∉ seen ∧
      items.find? (fun other => Text.lower (key other) = Text.lower (key item)) = some item := by
  induction items generalizing seen with
  | nil => simp [distinctBy]
  | cons first later ih =>
    by_cases hsame : Text.lower (key first) = Text.lower (key item)
    · rw [List.find?_cons_of_pos (by simpa using hsame), distinctBy, ← hsame]
      by_cases hseen : Text.lower (key first) ∈ seen
      · simp [hseen, ih, ← hsame]
      · simp [hseen, ih, ← hsame, eq_comm]
    · have hne : item ≠ first := by
        rintro rfl
        exact hsame rfl
      rw [List.find?_cons_of_neg (by simpa using hsame), distinctBy]
      by_cases hseen : Text.lower (key first) ∈ seen
      · simp [hseen, ih]
      · simp [hseen, ih, hne, Ne.symm hsame]

theorem mem_of_mem_distinctBy {α : Type} {key : α → String} {seen : List String} {items : List α}
    {item : α} (h : item ∈ distinctBy key seen items) : item ∈ items :=
  List.mem_of_find?_eq_some (mem_distinctBy.mp h).2

/-- No key is kept twice, case aside. -/
theorem nodup_map_distinctBy {α : Type} (key : α → String) (seen : List String) (items : List α) :
    ((distinctBy key seen items).map fun item => Text.lower (key item)).Nodup := by
  induction items generalizing seen with
  | nil => exact List.nodup_nil
  | cons first later ih =>
    rw [distinctBy]
    by_cases hseen : Text.lower (key first) ∈ seen
    · simpa [hseen] using ih seen
    · have hfirst : Text.lower (key first) ∉
          (distinctBy key (Text.lower (key first) :: seen) later).map
            fun item => Text.lower (key item) := by
        intro hmem
        obtain ⟨item, hitem, hsame⟩ := List.mem_map.mp hmem
        exact (mem_distinctBy.mp hitem).1 (hsame ▸ List.mem_cons_self)
      simpa [hseen] using List.nodup_cons.mpr ⟨hfirst, ih _⟩

theorem mem_distinctBy_id {names : List String} {name : String} :
    name ∈ distinctBy id [] names ↔ IsFirstSpelling names name := by
  simp [mem_distinctBy, IsFirstSpelling]

/-! ## Modules of names -/

theorem enumModule_eq (name : String) :
    enumModule name = "app/enums/" ++ kebab name ++ ".model" := rfl

theorem entityModule_eq (name : String) : entityModule name =
    "app/entities/" ++ kebab name ++ "/" ++ kebab name ++ ".model" := rfl

theorem serviceModule_eq (name : String) : serviceModule name =
    "app/entities/" ++ kebab name ++ "/service/" ++ kebab name ++ ".service" := rfl

theorem entityModule_inj {a b : String} :
    entityModule a = entityModule b ↔ kebab a = kebab b := by
  rw [entityModule_eq, entityModule_eq]
  generalize kebab a = first, kebab b = second
  constructor
  · intro h
    have htexts := congrArg String.toList h
    simp only [String.toList_append, List.append_assoc, List.append_cancel_left_eq] at htexts
    -- each text holds its kebab case twice, so the kebab cases are equally long
    have hlengths := congrArg List.length htexts
    simp only [List.length_append] at hlengths
    exact String.toList_inj.mp (List.append_inj_left htexts (by omega))
  · rintro rfl
    rfl

theorem enumModule_ne_entityModule (a b : String) : enumModule a ≠ entityModule b := by
  simp [enumModule_eq, entityModule_eq, ← String.toList_inj]

end EntityScaffold.Angular
