import EntityScaffold.Naming.Plural
import EntityScaffold.Proofs.Text.Blank
import EntityScaffold.Proofs.Text.Lower

/-!
# What plurals hold

A plural holds letters besides what the small letters of the name hold, so of blanks, quotation
marks and brackets it holds what the name holds. A naive plural has no capital letter and can be
told where one follows it.
-/

namespace EntityScaffold.Naming

/-! ## Naive plurals -/

/-- A naive plural holds no capital letter of ASCII. -/
theorem isUpper_of_mem_naivePlural {name : String} {c : Char}
    (h : c ∈ (naivePlural name).toList) : c.isUpper = false := by
  rw [naivePlural, String.toList_append, List.mem_append] at h
  cases h with
  | inl h => exact Text.isUpper_of_mem_lower h
  | inr h =>
    rw [List.mem_singleton.mp h]
    decide

/-- So it can be told where it stands in a line. -/
theorem naivePlural_unique {a b : String} {x y : List Char}
    (h : (naivePlural a).toList ++ 'S' :: x = (naivePlural b).toList ++ 'S' :: y) :
    naivePlural a = naivePlural b := by
  have hrun : ∀ name, ∀ c ∈ (naivePlural name).toList, (!c.isUpper) = true := by
    intro name c hc
    rw [isUpper_of_mem_naivePlural hc]
    rfl
  exact String.toList_inj.mp (Text.run_unique (hrun a) (hrun b) (by simp) (by simp) h).1

/-! ## English plurals -/

/-- The irregular plurals and the suffixes of the rules are made of letters. -/
theorem all_irregularPlurals :
    ∀ entry ∈ irregularPlurals, entry.2.toList.all Char.isAlpha = true := by
  decide +kernel

theorem all_suffix : ∀ rule ∈ englishRules, rule.suffix.toList.all Char.isAlpha = true := by
  decide +kernel

theorem mem_pluralByRules {text : List Char} {c : Char} (h : c ∈ pluralByRules text) :
    c ∈ text ∨ c.isAlpha = true := by
  rw [pluralByRules] at h
  cases hfound : englishRules.findSome? fun rule => rule.pluralOf? text with
  | none =>
    rw [hfound] at h
    exact .inl h
  | some plural =>
    rw [hfound] at h
    obtain ⟨rule, hrule, hplural⟩ := List.exists_of_findSome?_eq_some hfound
    obtain ⟨ending, -, rfl⟩ := Option.map_eq_some_iff.mp hplural
    cases List.mem_append.mp h with
    | inl hkept => exact .inl (List.mem_of_mem_take hkept)
    | inr hsuffix => exact .inr (List.all_eq_true.mp (all_suffix rule hrule) c hsuffix)

theorem mem_pluralOfLower {name : String} {c : Char} (h : c ∈ (pluralOfLower name).toList) :
    c ∈ name.toList ∨ c.isAlpha = true := by
  unfold pluralOfLower at h
  split at h
  · exact .inl h
  · split at h
    · rename_i many hlookup
      obtain ⟨before, after, htable, -⟩ := List.lookup_eq_some_iff.mp hlookup
      have hmem : (name, many) ∈ irregularPlurals := by simp [htable]
      exact .inr (List.all_eq_true.mp (all_irregularPlurals _ hmem) c h)
    · split at h
      · exact .inl h
      · dsimp only at h
        split at h
        · rename_i hlast
          rw [String.toList_ofList, List.mem_append, List.mem_singleton] at h
          rcases h with h | rfl
          · exact (mem_pluralByRules h).imp_left List.mem_of_mem_dropLast
          · exact .inl (List.mem_of_getLast? hlast)
        · rw [String.toList_ofList] at h
          exact mem_pluralByRules h

/-! ## Both styles -/

/-- Of the characters of ASCII that are no letters a plural holds those that the name holds. -/
theorem mem_of_mem_plural {style : PluralStyle} {name : String} {c : Char}
    (hascii : c.toNat < 128) (hletter : c.isAlpha = false) (h : c ∈ (plural style name).toList) :
    c ∈ name.toList := by
  have hnone : ¬c.isAlpha = true := by simp [hletter]
  cases style with
  | naive =>
    rw [plural, naivePlural, String.toList_append, List.mem_append] at h
    refine Text.mem_of_mem_lower hascii hletter (h.resolve_right fun hs => hnone ?_)
    rw [List.mem_singleton.mp hs]
    decide
  | english =>
    exact Text.mem_of_mem_lower hascii hletter ((mem_pluralOfLower h).resolve_right hnone)

end EntityScaffold.Naming
