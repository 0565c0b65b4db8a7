import EntityScaffold.Naming.Case
import EntityScaffold.Proofs.Naming.Words
import EntityScaffold.Proofs.Text.Pattern

/-!
# What the spellings of a name hold

A word of a name is not empty and holds ASCII letters or decimal digits, so the kebab case of a name
holds small letters, decimal digits and hyphens. Its words are those of the name in small letters
(`words_kebabOfWords`), and none of the spellings depends on the case of the letters of a word, so a
name and its kebab case have all spellings in common (`kebab_canonical`).
-/

namespace EntityScaffold.Naming

theorem isWordLetter_of_mem_words {s word : List Char} (h : word ∈ words s) :
    ∀ c ∈ word, IsWordLetter c := by
  obtain ⟨-, hkind⟩ := mem_words h
  intro c hc
  exact hkind.imp (fun hall => hall c hc) fun hall => hall c hc

/-! ## Kebab case -/

/-- A digit has no small letter. -/
theorem toLower_of_isDecimal {c : Char} (h : Text.isDecimal c = true) : c.toLower = c := by
  refine Char.toLower_eq_of_not_isUpper fun hupper => ?_
  have halpha := isAlpha_of_isDecimal h
  rw [Char.isAlpha, hupper] at halpha
  exact absurd halpha (by simp)

/-- A character of a kebab case that is no hyphen. -/
def IsKebabLetter (c : Char) : Prop := c.isLower = true ∨ Text.isDecimal c = true

theorem IsWordLetter.toLower {c : Char} (h : IsWordLetter c) : IsKebabLetter c.toLower := by
  cases h with
  | inl halpha => exact .inl (by rw [Char.isLower_toLower_eq_isAlpha, halpha])
  | inr hdecimal =>
    rw [toLower_of_isDecimal hdecimal]
    exact .inr hdecimal

theorem IsKebabLetter.ne {c d : Char} (h : IsKebabLetter c) (hlower : d.isLower = false)
    (hdecimal : Text.isDecimal d = false) : c ≠ d := by
  rintro rfl
  rw [IsKebabLetter, hlower, hdecimal] at h
  simp at h

/-- In small letters a word is a run. -/
theorem isRun_small {s word : List Char} (h : word ∈ words s) : IsRun (small word) := by
  obtain ⟨hne, hkind⟩ := mem_words h
  refine ⟨by simpa [small] using hne, ?_⟩
  simp only [small, List.forall_mem_map]
  refine hkind.imp (fun hall c hc => ?_) fun hall c hc => ?_
  · rw [Char.isLower_toLower_eq_isAlpha, hall c hc]
  · rw [toLower_of_isDecimal (hall c hc), hall c hc]

theorem isRun_of_mem_map_small {s word : List Char} (h : word ∈ (words s).map small) :
    IsRun word := by
  obtain ⟨original, horiginal, rfl⟩ := List.mem_map.mp h
  exact isRun_small horiginal

/-- Kebab cases hold small letters, decimal digits and hyphens. -/
theorem mem_kebab {name : String} {c : Char} (h : c ∈ (kebab name).toList) :
    c = '-' ∨ IsKebabLetter c := by
  rw [kebab, String.toList_ofList] at h
  refine (Text.mem_intercalate h).imp List.mem_singleton.mp ?_
  rintro ⟨word, hword, hc⟩
  exact (isRun_of_mem_map_small hword).2.imp (fun hall => hall c hc) fun hall => hall c hc

/-- The words of the kebab case of a name are those of the name in small letters. -/
theorem words_kebabOfWords (s : List Char) :
    words (kebabOfWords (words s)) = (words s).map small :=
  words_intercalate (by decide) fun _ h => isRun_of_mem_map_small h

/-! ## Camel and pascal case -/

theorem IsWordLetter.of_toLower {c : Char} (h : IsWordLetter c) : IsWordLetter c.toLower := by
  cases h.toLower with
  | inl hlower => exact .inl (by simp [Char.isAlpha, hlower])
  | inr hdecimal => exact .inr hdecimal

theorem IsWordLetter.toUpper {c : Char} (h : IsWordLetter c) : IsWordLetter c.toUpper := by
  by_cases hlower : c.isLower = true
  · left
    simp [Char.isAlpha, Char.isUpper_toUpper_eq_isAlpha, hlower]
  · rwa [Char.toUpper_eq_of_not_isLower hlower]

theorem IsWordLetter.ne {c d : Char} (h : IsWordLetter c) (halpha : d.isAlpha = false)
    (hdecimal : Text.isDecimal d = false) : c ≠ d := by
  rintro rfl
  rw [IsWordLetter, halpha, hdecimal] at h
  simp at h

theorem isWordLetter_of_mem_small {word : List Char} (h : ∀ c ∈ word, IsWordLetter c) :
    ∀ c ∈ small word, IsWordLetter c := by
  intro c hc
  obtain ⟨letter, hletter, rfl⟩ := List.mem_map.mp hc
  exact (h letter hletter).of_toLower

theorem isWordLetter_of_mem_capitalized {word : List Char} (h : ∀ c ∈ word, IsWordLetter c) :
    ∀ c ∈ capitalized word, IsWordLetter c := by
  cases word with
  | nil => simp [capitalized]
  | cons first later =>
    rw [List.forall_mem_cons] at h
    exact List.forall_mem_cons.mpr ⟨h.1.toUpper, isWordLetter_of_mem_small h.2⟩

/-- Camel cases hold letters and decimal digits. -/
theorem mem_camel {name : String} {c : Char} (h : c ∈ (camel name).toList) : IsWordLetter c := by
  rw [camel, String.toList_ofList] at h
  have hwords : ∀ word ∈ words name.toList, ∀ c ∈ word, IsWordLetter c :=
    fun _ hword => isWordLetter_of_mem_words hword
  cases hw : words name.toList with
  | nil => simp [hw, camelOfWords] at h
  | cons word later =>
    rw [hw, camelOfWords] at h
    rw [hw, List.forall_mem_cons] at hwords
    rcases List.mem_append.mp h with h | h
    · exact isWordLetter_of_mem_small hwords.1 c h
    · obtain ⟨other, hother, h⟩ := List.mem_flatMap.mp h
      exact isWordLetter_of_mem_capitalized (hwords.2 other hother) c h

/-- So do pascal cases. -/
theorem mem_pascal {name : String} {c : Char} (h : c ∈ (pascal name).toList) : IsWordLetter c := by
  have hcamel : ∀ c ∈ camelOfWords (words name.toList), IsWordLetter c :=
    fun c hc => mem_camel (by rwa [camel, String.toList_ofList])
  rw [pascal, String.toList_ofList] at h
  cases hletters : camelOfWords (words name.toList) with
  | nil => simp [hletters, upperFirst] at h
  | cons first later =>
    rw [hletters, List.forall_mem_cons] at hcamel
    rw [hletters, upperFirst] at h
    rcases List.mem_cons.mp h with rfl | h
    · exact hcamel.1.toUpper
    · exact hcamel.2 c h

theorem small_small (word : List Char) : small (small word) = small word := by
  simp [small]

theorem capitalized_small (word : List Char) : capitalized (small word) = capitalized word := by
  cases word with
  | nil => rfl
  | cons c rest => simp [small, capitalized]

theorem camelOfWords_map_small (ws : List (List Char)) :
    camelOfWords (ws.map small) = camelOfWords ws := by
  cases ws with
  | nil => rfl
  | cons word later =>
    simp only [List.map_cons, camelOfWords, small_small, List.flatMap_map, capitalized_small]

/-! ## Names with one kebab case -/

theorem kebabOfWords_map_small (ws : List (List Char)) :
    kebabOfWords (ws.map small) = kebabOfWords ws := by
  simp [kebabOfWords, Function.comp_def, small_small]

theorem kebab_kebab (name : String) : kebab (kebab name) = kebab name := by
  rw [kebab, kebab, String.toList_ofList, words_kebabOfWords, kebabOfWords_map_small]

theorem camel_kebab (name : String) : camel (kebab name) = camel name := by
  rw [camel, kebab, String.toList_ofList, words_kebabOfWords, camelOfWords_map_small, camel]

theorem pascal_kebab (name : String) : pascal (kebab name) = pascal name := by
  rw [pascal, kebab, String.toList_ofList, words_kebabOfWords, camelOfWords_map_small, pascal]

/-- Names with one kebab case have one pascal case. -/
theorem pascal_eq_of_kebab_eq {a b : String} (h : kebab a = kebab b) : pascal a = pascal b := by
  rw [← pascal_kebab, h, pascal_kebab]

/-- **Spellings.** All spellings of the kebab case of a name are those of the name, and so are those
of every other name with this kebab case. -/
theorem kebab_canonical (name : String) :
    kebab (kebab name) = kebab name ∧ camel (kebab name) = camel name ∧
      pascal (kebab name) = pascal name ∧
      ∀ other, kebab other = kebab name →
        camel other = camel name ∧ pascal other = pascal name := by
  refine ⟨kebab_kebab name, camel_kebab name, pascal_kebab name, fun other h => ⟨?_, ?_⟩⟩
  · rw [← camel_kebab, h, camel_kebab]
  · exact pascal_eq_of_kebab_eq h

/-- Capitals and low lines make no difference. -/
theorem kebab_canonical_of_capitals :
    kebab "HTTPServer" = kebab "http_server" ∧ camel "HTTPServer" = camel "http_server" ∧
      pascal "HTTPServer" = pascal "http_server" := by
  have hkebab : kebab "HTTPServer" = kebab "http_server" := by decide +kernel
  exact ⟨hkebab, (kebab_canonical "http_server").2.2.2 "HTTPServer" hkebab⟩

end EntityScaffold.Naming
