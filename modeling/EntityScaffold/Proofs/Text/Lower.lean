import EntityScaffold.Text.Lower
import Mathlib

/-!
# Small letters

An ASCII character becomes small by itself, and what the table makes of another character is a
letter or lies beyond ASCII. So a text in small letters holds no capital letter of ASCII, and of the
characters of ASCII that are no letters it holds those that the text holds.
-/

namespace EntityScaffold.Text

theorem isUpper_of_le {c : Char} (h : 91 ≤ c.toNat) : c.isUpper = false := by
  rw [Bool.eq_false_iff]
  intro hupper
  have hrange : 65 ≤ c.toNat ∧ c.toNat ≤ 90 := by
    simpa [Char.isUpper, UInt32.le_iff_toNat_le] using hupper
  omega

/-- The runs of the table lead to characters beyond ASCII, but for that of the Kelvin sign, which
leads to a letter. -/
theorem mem_lowerRuns_cases : ∀ run ∈ lowerRuns,
    (run.first = run.last ∧ run.first + run.shift = 'k'.toNat) ∨
      (128 ≤ run.first + run.shift ∧ run.last + run.shift < 0xd800) ∨
      (0xe000 ≤ run.first + run.shift ∧ run.last + run.shift < 0x110000) := by
  decide +kernel

/-- What becomes of a character. -/
theorem lowerChar_cases (c : Char) :
    lowerChar c = c.toLower ∨ lowerChar c = 'k' ∨ 128 ≤ (lowerChar c).toNat := by
  unfold lowerChar
  split
  · exact .inl rfl
  · rename_i hbeyond
    dsimp only
    split
    · rename_i run hrun
      have hfits := List.find?_some hrun
      simp only [Bool.and_eq_true, decide_eq_true_iff] at hfits
      obtain ⟨⟨hfirst, hlast⟩, -⟩ := hfits
      rcases mem_lowerRuns_cases run (List.mem_of_find?_eq_some hrun) with
        ⟨hsingle, hkelvin⟩ | hrange | hrange
      · have hsame : (c.toNat + run.shift : Int) = 'k'.toNat := by omega
        rw [hsame]
        exact .inr (.inl rfl)
      all_goals
        have hvalid : (c.toNat + run.shift : Int).toNat.isValidChar := by
          unfold Nat.isValidChar
          omega
        rw [Char.toNat_ofNat, if_pos hvalid]
        exact .inr (.inr (by omega))
    · exact .inr (.inr (Nat.le_of_not_lt hbeyond))

theorem isUpper_lowerChar (c : Char) : (lowerChar c).isUpper = false := by
  rcases lowerChar_cases c with h | h | h
  · rw [h]
    exact Char.isUpper_toLower_eq_false c
  · rw [h]
    decide
  · exact isUpper_of_le (Nat.le_trans (by decide) h)

/-- A character of ASCII that is no letter is made of no other one. -/
theorem eq_of_lowerChar_eq {c d : Char} (hascii : d.toNat < 128) (hletter : d.isAlpha = false)
    (h : lowerChar c = d) : c = d := by
  rcases lowerChar_cases c with hlower | hkelvin | hbeyond
  · rw [hlower] at h
    by_cases hupper : c.isUpper = true
    · have hsmall : d.isLower = true := by
        rw [← h, Char.isLower_toLower_eq_isAlpha, Char.isAlpha, hupper, Bool.true_or]
      rw [Char.isAlpha, hsmall, Bool.or_true] at hletter
      exact absurd hletter (by decide)
    · rwa [Char.toLower_eq_of_not_isUpper hupper] at h
  · rw [← h, hkelvin] at hletter
    exact absurd hletter (by decide)
  · rw [h] at hbeyond
    omega

/-- A text in small letters is made of the small forms of characters, of which the sigma and the
capital I with a dot have others. -/
theorem exists_of_mem_lower {s : String} {c : Char} (h : c ∈ (lower s).toList) :
    ∃ d ∈ s.toList, c ∈ ['ς', 'σ', 'i', '\u0307'] ∨ c = lowerChar d := by
  have hafter : ∀ before s, c ∈ lowerAfter before s →
      ∃ d ∈ s, c ∈ ['ς', 'σ', 'i', '\u0307'] ∨ c = lowerChar d := by
    intro before s hmem
    induction s generalizing before with
    | nil => exact absurd hmem List.not_mem_nil
    | cons d rest ih =>
      rcases List.mem_append.mp hmem with hmem | hmem
      · refine ⟨d, List.mem_cons_self, ?_⟩
        unfold lowerAt at hmem
        split_ifs at hmem
        · exact .inl (by simp [List.mem_singleton.mp hmem])
        · exact .inl (by simp [List.mem_singleton.mp hmem])
        · exact .inl (List.mem_cons_of_mem _ (List.mem_cons_of_mem _ hmem))
        · exact .inr (List.mem_singleton.mp hmem)
      · obtain ⟨e, he, hcase⟩ := ih _ hmem
        exact ⟨e, List.mem_cons_of_mem _ he, hcase⟩
  rw [lower, String.toList_ofList] at h
  exact hafter [] s.toList h

/-- A text in small letters holds no capital letter of ASCII. -/
theorem isUpper_of_mem_lower {s : String} {c : Char} (h : c ∈ (lower s).toList) :
    c.isUpper = false := by
  have hspecial : ∀ c ∈ ['ς', 'σ', 'i', '\u0307'], c.isUpper = false := by
    simp only [List.forall_mem_cons, List.not_mem_nil, IsEmpty.forall_iff, implies_true, and_true]
    decide
  obtain ⟨d, -, hc | rfl⟩ := exists_of_mem_lower h
  · exact hspecial c hc
  · exact isUpper_lowerChar d

/-- Of the characters of ASCII that are no letters it holds those that the text holds. -/
theorem mem_of_mem_lower {s : String} {c : Char} (hascii : c.toNat < 128)
    (hletter : c.isAlpha = false) (h : c ∈ (lower s).toList) : c ∈ s.toList := by
  have hspecial : ∀ c ∈ ['ς', 'σ', 'i', '\u0307'], c.isAlpha = true ∨ 128 ≤ c.toNat := by
    simp only [List.forall_mem_cons, List.not_mem_nil, IsEmpty.forall_iff, implies_true, and_true]
    decide
  obtain ⟨d, hd, hc | hsame⟩ := exists_of_mem_lower h
  · rcases hspecial c hc with halpha | hbeyond
    · exact absurd (hletter.symm.trans halpha) (by decide)
    · omega
  · rwa [eq_of_lowerChar_eq hascii hletter hsame.symm] at hd

end EntityScaffold.Text
