/-!
# Registries

A registry holds named things in the order in which their names were first put in. Putting a thing
in under a name that is taken replaces the holder of the name and keeps its place, so no name
occurs twice; the type carries that fact.
-/

namespace EntityScaffold

/-- Types whose values have a name. -/
class Named (α : Type) where
  /-- The name of a value. -/
  name : α → String

/-- Named things in order of first mention, no two under one name. -/
structure Registry (α : Type) [Named α] where
  /-- The things, in order. -/
  items : List α
  /-- No name occurs twice. -/
  distinct : (items.map Named.name).Nodup

namespace Registry

variable {α : Type} [Named α]

def empty : Registry α := ⟨[], List.Pairwise.nil⟩

instance : Inhabited (Registry α) := ⟨empty⟩

/-- The names, in order. -/
def names (registry : Registry α) : List String := registry.items.map Named.name

/-- Put `x` in the place of what has its name. -/
def replaceIn (x : α) (items : List α) : List α :=
  items.map fun y => if Named.name y = Named.name x then x else y

theorem map_name_replaceIn (x : α) (items : List α) :
    (replaceIn x items).map Named.name = items.map Named.name := by
  rw [replaceIn, List.map_map]
  apply List.map_congr_left
  intro y _
  by_cases h : Named.name y = Named.name x <;> simp [h]

/-- Put a thing in: in the place of the holder of its name, else at the end. -/
def put (registry : Registry α) (x : α) : Registry α :=
  if taken : Named.name x ∈ registry.items.map Named.name then
    ⟨replaceIn x registry.items, by rw [map_name_replaceIn]; exact registry.distinct⟩
  else
    ⟨registry.items ++ [x], by
      rw [List.map_append, List.nodup_append]
      refine ⟨registry.distinct, by simp, ?_⟩
      intro a mem b memX
      rw [List.map_singleton, List.mem_singleton] at memX
      rintro rfl
      exact taken (memX ▸ mem)⟩

/-- A registry of the things of a list, put in one after the other. -/
def ofList (things : List α) : Registry α := things.foldl put empty

/-- The holder of a name. -/
def get? (registry : Registry α) (name : String) : Option α :=
  registry.items.find? fun x => Named.name x = name

/-- Take the holder of a name out, if there is one. -/
def erase (registry : Registry α) (name : String) : Registry α :=
  ⟨registry.items.filter fun x => Named.name x ≠ name,
    registry.distinct.sublist (List.filter_sublist.map _)⟩

/-- Change every thing in a way that keeps its name. -/
def update (registry : Registry α) (f : α → α) (keeps : ∀ x, Named.name (f x) = Named.name x) :
    Registry α :=
  ⟨registry.items.map f, by
    rw [List.map_map]
    have : (Named.name ∘ f : α → String) = Named.name := funext keeps
    rw [this]
    exact registry.distinct⟩

/-- Is nothing in the registry? -/
def isEmpty (registry : Registry α) : Bool := registry.items.isEmpty

end Registry

end EntityScaffold
