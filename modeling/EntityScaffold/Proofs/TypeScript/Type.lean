import EntityScaffold.TypeScript.Type

/-!
# What declared types stand for

A declared type stands for what the table of the built-in types says, or for itself if it is not in
the table. No built-in type stands for itself. So the types of dates are those that stand for the
type of the generated code for dates, unless a document could declare that one by its own name.
-/

namespace EntityScaffold.TypeScript

/-- A type stands for itself, or for what stands beside it in the table. -/
theorem typeOf_cases (declared : String) :
    (builtinTypes.lookup declared = none ∧ typeOf declared = declared) ∨
      (builtinTypes.lookup declared = some (typeOf declared) ∧
        (declared, typeOf declared) ∈ builtinTypes) := by
  unfold typeOf
  cases hlookup : builtinTypes.lookup declared with
  | none => exact .inl ⟨rfl, rfl⟩
  | some type =>
    obtain ⟨before, after, hsplit, -⟩ := List.lookup_eq_some_iff.mp hlookup
    refine .inr ⟨rfl, ?_⟩
    rw [hsplit]
    simp

/-- No built-in type stands for itself. -/
theorem typeOf_eq_self_iff (declared : String) :
    typeOf declared = declared ↔ builtinTypes.lookup declared = none := by
  have hother : ∀ entry ∈ builtinTypes, entry.2 ≠ entry.1 := by decide
  rcases typeOf_cases declared with ⟨hnone, hself⟩ | ⟨hsome, hentry⟩
  · simp [hnone, hself]
  · simpa [hsome] using hother _ hentry

/-- The types of dates are those that stand for the type of dates, other than that one itself. -/
theorem isDate_iff {declared : String} (h : declared ≠ dateType) :
    isDate declared = true ↔ typeOf declared = dateType := by
  unfold isDate
  rcases typeOf_cases declared with ⟨hnone, hself⟩ | ⟨hsome, -⟩
  · simp [hnone, hself, h]
  · simp [hsome]

end EntityScaffold.TypeScript
