import Mathlib
import EntityScaffold.Naming.Case
import EntityScaffold.Proofs.Text.Blank

/-!
# Where the words of a name end

How long a word is depends on whole runs of characters. Said for one letter at a time the rule is
short: a word ends with a letter if what comes next is neither letter nor digit, or begins a word of
its own (`EndsWord`). So the words of a text are those of the text without its first character,
which is left out, is a word of its own or is added to the first of them (`words_cons_cases`). What
is true of all words is proved with this, by induction on the text.

Two things follow. No letter is lost and the cuts are where the rule says (`words_cut_exactly`), and
runs of small letters or digits are the words of what they make with separators between them
(`words_intercalate`).
-/

namespace EntityScaffold.Naming

open Text (Stops stops_cons takeWhile_append_stops)

/-! ## Letters -/

/-- A character that a word can hold. -/
def IsWordLetter (c : Char) : Prop := c.isAlpha = true ∨ Text.isDecimal c = true

instance (c : Char) : Decidable (IsWordLetter c) := inferInstanceAs (Decidable (_ ∨ _))

/-- The letters and digits of a text. -/
def lettersOf (s : List Char) : List Char := s.filter fun c => IsWordLetter c

theorem lettersOf_cons {c : Char} (hc : IsWordLetter c) (rest : List Char) :
    lettersOf (c :: rest) = c :: lettersOf rest :=
  List.filter_cons_of_pos (by simpa using hc)

theorem lettersOf_cons_of_not {c : Char} (hc : ¬IsWordLetter c) (rest : List Char) :
    lettersOf (c :: rest) = lettersOf rest :=
  List.filter_cons_of_neg (by simpa using hc)

theorem isAlpha_of_isDecimal {c : Char} (h : Text.isDecimal c = true) : c.isAlpha = false := by
  rw [Bool.eq_false_iff]
  intro halpha
  have hrange : (65 ≤ c.toNat ∧ c.toNat ≤ 90) ∨ (97 ≤ c.toNat ∧ c.toNat ≤ 122) := by
    simpa [Char.isAlpha, Char.isUpper, Char.isLower, UInt32.le_iff_toNat_le] using halpha
  rw [Text.isDecimal, if_pos (by omega)] at h
  have hdigit : 48 ≤ c.toNat ∧ c.toNat ≤ 57 := by
    simpa [Char.isDigit, UInt32.le_iff_toNat_le] using h
  omega

/-- A letter is a capital, a small one or a digit, and only one of the three. -/
theorem IsWordLetter.cases {c : Char} (h : IsWordLetter c) :
    (c.isUpper = true ∧ c.isLower = false ∧ Text.isDecimal c = false) ∨
    (c.isUpper = false ∧ c.isLower = true ∧ Text.isDecimal c = false) ∨
    (c.isUpper = false ∧ c.isLower = false ∧ Text.isDecimal c = true) := by
  cases hdecimal : Text.isDecimal c with
  | true => simpa [Char.isAlpha] using isAlpha_of_isDecimal hdecimal
  | false =>
    have halpha : c.isUpper = true ∨ c.isLower = true := by
      simpa [IsWordLetter, hdecimal, Char.isAlpha] using h
    rcases halpha with hupper | hlower
    · simp [hupper, Char.not_isLower_of_isUpper hupper]
    · simp [hlower, Char.not_isUpper_of_isLower hlower]

/-! ## Ends of words -/

/-- Does a word of its own begin with `d` after the letter or digit `c`, if `after` comes next? It
does between a digit and a letter, between a small letter and a capital, and between two capitals if
a small letter follows them. -/
def BeginsWord (c d : Char) (after : List Char) : Prop :=
  (Text.isDecimal c = true ∧ d.isAlpha = true) ∨ (c.isAlpha = true ∧ Text.isDecimal d = true) ∨
  (c.isLower = true ∧ d.isUpper = true) ∨
  (c.isUpper = true ∧ d.isUpper = true ∧ ∃ e ∈ after.head?, e.isLower = true)

instance (c d : Char) (after : List Char) : Decidable (BeginsWord c d after) :=
  inferInstanceAs (Decidable (_ ∨ _ ∨ _ ∨ _ ∧ _ ∧ _))

/-- Does a word end with the letter or digit `c` before a text? -/
def EndsWord (c : Char) : List Char → Prop
  | [] => True
  | d :: after => IsWordLetter d → BeginsWord c d after

instance (c : Char) : (rest : List Char) → Decidable (EndsWord c rest)
  | [] => inferInstanceAs (Decidable True)
  | _ :: _ => inferInstanceAs (Decidable (_ → _))

/-- How long a word is that begins with a small letter. -/
theorem wordLength_of_isLower {c : Char} (h : c.isLower = true) (rest : List Char) :
    wordLength (c :: rest) = (rest.takeWhile Char.isLower).length + 1 := by
  have hupper : c.isUpper = false := by simpa using Char.not_isUpper_of_isLower h
  simp [wordLength, hupper, h]

/-- How long a word is that begins with a digit. -/
theorem wordLength_of_isDecimal {c : Char} (h : Text.isDecimal c = true) (rest : List Char) :
    wordLength (c :: rest) = (rest.takeWhile Text.isDecimal).length + 1 := by
  obtain ⟨hupper, hlower⟩ : c.isUpper = false ∧ c.isLower = false := by
    simpa [Char.isAlpha] using isAlpha_of_isDecimal h
  simp [wordLength, hupper, hlower, h]

/-- How long a word is that begins with a capital before something else. -/
theorem wordLength_of_isUpper {c : Char} (h : c.isUpper = true) {rest : List Char}
    (hrest : Stops Char.isUpper rest) :
    wordLength (c :: rest) = (rest.takeWhile Char.isLower).length + 1 := by
  have hone : ∀ d ∈ [c], d.isUpper = true := by simpa using h
  have hrun : (c :: rest).takeWhile Char.isUpper = [c] := takeWhile_append_stops hone hrest
  simp only [wordLength, hrun, List.length_singleton, List.drop_one, List.tail_cons]
  split
  · contradiction
  · split <;> simp [*, Nat.add_comm]

/-- How long a word is that begins with two capitals: one letter if the second is the capital of a
word in small letters, else one letter more than what begins with the second. -/
theorem wordLength_of_isUpper_of_isUpper {c d : Char} (hc : c.isUpper = true)
    (hd : d.isUpper = true) (after : List Char) :
    wordLength (c :: d :: after) =
      if ∃ e ∈ after.head?, e.isLower = true then 1 else wordLength (d :: after) + 1 := by
  cases after with
  | nil => simp [wordLength, hc, hd]
  | cons e after =>
    cases hlower : e.isLower with
    | true =>
      have hupper : e.isUpper = false := by simpa using Char.not_isUpper_of_isLower hlower
      simp [wordLength, hc, hd, hlower, hupper]
    | false =>
      -- if `e` is no capital either, no small letters follow the capitals
      cases hupper : e.isUpper with
      | false => simp [wordLength, hc, hd, hlower, hupper]
      | true =>
        simp only [wordLength, List.takeWhile_cons, hc, hd, hupper, if_true, List.length_cons,
          List.drop_succ_cons, List.head?_cons, Option.mem_some_iff, exists_eq_left', hlower,
          Bool.false_eq_true, if_false, Nat.add_one_ne_zero]
        split_ifs <;> omega

/-! ## One letter at a time -/

/-- What is neither letter nor digit belongs to no word. -/
theorem words_cons_of_not {c : Char} (hc : ¬IsWordLetter c) (rest : List Char) :
    words (c :: rest) = words rest := by
  rw [IsWordLetter, Char.isAlpha, Bool.or_eq_true, not_or, not_or] at hc
  have hlength : wordLength (c :: rest) = 0 := by simp [wordLength, hc]
  rw [words, hlength]

theorem not_isWordLetter_iff {c : Char} :
    ¬IsWordLetter c ↔ c.isUpper = false ∧ c.isLower = false ∧ Text.isDecimal c = false := by
  simp [IsWordLetter, Char.isAlpha, and_assoc]

/-- **Lengths.** A word that does not end with its first letter is one letter longer than the word
that begins with its second one. -/
theorem wordLength_cons {c : Char} (hc : IsWordLetter c) (rest : List Char) :
    wordLength (c :: rest) = if EndsWord c rest then 1 else wordLength rest + 1 := by
  cases rest with
  | nil =>
    rcases hc.cases with ⟨hupper, -, -⟩ | ⟨-, hlower, -⟩ | ⟨-, -, hdecimal⟩
    · simp [EndsWord, wordLength_of_isUpper hupper]
    · simp [EndsWord, wordLength_of_isLower hlower]
    · simp [EndsWord, wordLength_of_isDecimal hdecimal]
  | cons d after =>
    by_cases hd : IsWordLetter d
    · -- the kinds of the two letters decide whether the word goes on, except for two capitals
      rcases hc.cases with hc | hc | hc <;> rcases hd.cases with hd' | hd' | hd' <;>
        simp [EndsWord, BeginsWord, hd, Char.isAlpha, hc, hd', wordLength_of_isUpper,
          wordLength_of_isUpper_of_isUpper, wordLength_of_isLower, wordLength_of_isDecimal]
    · obtain ⟨hupper, hlower, hdecimal⟩ := not_isWordLetter_iff.mp hd
      have hends : EndsWord c (d :: after) := fun hletter => absurd hletter hd
      rw [if_pos hends]
      rcases hc.cases with ⟨hc, -, -⟩ | ⟨-, hc, -⟩ | ⟨-, -, hc⟩
      · simp [wordLength_of_isUpper hc (stops_cons.mpr hupper), hlower]
      · simp [wordLength_of_isLower hc, hlower]
      · simp [wordLength_of_isDecimal hc, hdecimal]

theorem exists_wordLength_eq_add_one {c : Char} (hc : IsWordLetter c) (rest : List Char) :
    ∃ more, wordLength (c :: rest) = more + 1 := by
  rw [wordLength_cons hc]
  split
  · exact ⟨0, rfl⟩
  · exact ⟨_, rfl⟩

/-- **Words.** The words of a text are those of the text without its first character, which is left
out, is a word of its own or is added to the first word. -/
theorem words_cons_cases (c : Char) (rest : List Char) :
    (¬IsWordLetter c ∧ words (c :: rest) = words rest) ∨
    (IsWordLetter c ∧ EndsWord c rest ∧ words (c :: rest) = [c] :: words rest) ∨
    (IsWordLetter c ∧ ∃ d after word later, rest = d :: after ∧ IsWordLetter d ∧
      ¬BeginsWord c d after ∧ words rest = (d :: word) :: later ∧
        words (c :: rest) = (c :: d :: word) :: later) := by
  by_cases hc : IsWordLetter c
  · by_cases hends : EndsWord c rest
    · refine .inr (.inl ⟨hc, hends, ?_⟩)
      rw [words, wordLength_cons hc, if_pos hends]
      rfl
    · refine .inr (.inr ⟨hc, ?_⟩)
      cases rest with
      | nil => exact absurd trivial hends
      | cons d after =>
        obtain ⟨hd, hbegins⟩ := Classical.not_imp.mp hends
        obtain ⟨more, hmore⟩ := exists_wordLength_eq_add_one hd after
        refine ⟨d, after, after.take more, words (after.drop more), rfl, hd, hbegins, ?_, ?_⟩
        · rw [words, hmore]
        · rw [words, wordLength_cons hc, if_neg hends, hmore]
          rfl
  · exact .inl ⟨hc, words_cons_of_not hc rest⟩

@[simp] theorem words_nil : words [] = [] := by
  rw [words]

/-- What the words hold are the letters and digits of the text. -/
theorem flatten_words (s : List Char) : (words s).flatten = lettersOf s := by
  induction s with
  | nil => simp [lettersOf]
  | cons c rest ih =>
    rcases words_cons_cases c rest with ⟨hc, hwords⟩ | ⟨hc, -, hwords⟩ |
      ⟨hc, d, after, word, later, -, -, -, hrest, hwords⟩
    · rw [hwords, ih, lettersOf_cons_of_not hc]
    · rw [hwords, List.flatten_cons, ih, lettersOf_cons hc]
      rfl
    · rw [hwords, lettersOf_cons hc, ← ih, hrest]
      rfl

/-- A word is not empty, and holds letters only or digits only. -/
theorem mem_words {s word : List Char} (h : word ∈ words s) :
    word ≠ [] ∧ ((∀ c ∈ word, c.isAlpha = true) ∨ ∀ c ∈ word, Text.isDecimal c = true) := by
  induction s generalizing word with
  | nil => simp at h
  | cons c rest ih =>
    rcases words_cons_cases c rest with ⟨-, hwords⟩ | ⟨hc, -, hwords⟩ |
      ⟨hc, d, after, first, later, -, hd, hbegins, hrest, hwords⟩
    · exact ih (hwords ▸ h)
    · rcases List.mem_cons.mp (hwords ▸ h) with rfl | hlater
      · exact ⟨List.cons_ne_nil _ _, by simpa [IsWordLetter] using hc⟩
      · exact ih hlater
    · rcases List.mem_cons.mp (hwords ▸ h) with rfl | hlater
      · obtain ⟨-, hkind⟩ := ih (hrest ▸ List.mem_cons_self)
        refine ⟨List.cons_ne_nil _ _, ?_⟩
        -- the letter is of the kind of the one after it
        rw [BeginsWord, not_or, not_or, not_and, not_and] at hbegins
        obtain ⟨hdigit, halpha, -⟩ := hbegins
        refine hkind.imp (fun hall => ?_) fun hall => ?_
        · have hletter : d.isAlpha = true := hall d List.mem_cons_self
          exact List.forall_mem_cons.mpr ⟨hc.resolve_right fun h => hdigit h hletter, hall⟩
        · have hdecimal : Text.isDecimal d = true := hall d List.mem_cons_self
          exact List.forall_mem_cons.mpr ⟨hc.resolve_left fun h => halpha h hdecimal, hall⟩
      · exact ih (hrest ▸ List.mem_cons_of_mem _ hlater)

/-! ## Cuts -/

/-- The number of the word that a letter is in. Words and letters are counted from zero, letters
through all words. -/
def wordIndex : List (List Char) → Nat → Nat
  | [], _ => 0
  | word :: later, n => if n < word.length then 0 else wordIndex later (n - word.length) + 1

/-- The next letter is in the same word just if no word ends with the letter. -/
theorem wordIndex_eq_iff (before : List Char) {c : Char} (hc : IsWordLetter c)
    (rest : List Char) :
    wordIndex (words (before ++ c :: rest)) (lettersOf before).length =
        wordIndex (words (before ++ c :: rest)) ((lettersOf before).length + 1) ↔
      ¬EndsWord c rest := by
  induction before with
  | nil =>
    rcases words_cons_cases c rest with ⟨hnot, -⟩ | ⟨-, hends, hwords⟩ |
      ⟨-, d, after, word, later, rfl, hd, hbegins, -, hwords⟩
    · exact absurd hc hnot
    · simp [hwords, wordIndex, lettersOf, hends]
    · simp [hwords, wordIndex, lettersOf, EndsWord, hd, hbegins]
  | cons x before ih =>
    rcases words_cons_cases x (before ++ c :: rest) with ⟨hx, hwords⟩ | ⟨hx, -, hwords⟩ |
      ⟨hx, d, after, word, later, -, -, -, hrest, hwords⟩
    · rw [List.cons_append, hwords, lettersOf_cons_of_not hx, ih]
    · rw [List.cons_append, hwords, lettersOf_cons hx, ← ih]
      simp [wordIndex]
    · rw [List.cons_append, hwords, lettersOf_cons hx, ← ih, hrest]
      simp [wordIndex]

/-- How the words of a text are cut out of it. -/
structure CutsExactly (s : List Char) : Prop where
  /-- All letters and digits are in the words, in order, and nothing else is. -/
  kept : (words s).flatten = lettersOf s
  /-- Neighbours are in different words just if a word of its own begins with the second. -/
  neighbours : ∀ before c d after, s = before ++ c :: d :: after → IsWordLetter c →
    IsWordLetter d →
      (wordIndex (words s) (lettersOf before).length ≠
        wordIndex (words s) ((lettersOf before).length + 1) ↔ BeginsWord c d after)
  /-- A letter with something else after it is never in the word of the next letter. -/
  separated : ∀ before c e rest, s = before ++ c :: e :: rest → IsWordLetter c → ¬IsWordLetter e →
    wordIndex (words s) (lettersOf before).length ≠
      wordIndex (words s) ((lettersOf before).length + 1)

/-- **Cuts.** The words of a text lose nothing but what is neither letter nor digit. They are cut
there, and between neighbours exactly where a word of its own begins with the second. -/
theorem words_cut_exactly (s : List Char) : CutsExactly s where
  kept := flatten_words s
  neighbours before c d after hs hc hd := by
    rw [hs, ne_eq, wordIndex_eq_iff before hc, not_not, EndsWord]
    exact forall_prop_of_true hd
  separated before c e rest hs hc he := by
    rw [hs, ne_eq, wordIndex_eq_iff before hc, not_not]
    exact fun hletter => absurd hletter he

/-- A run of capitals leaves its last one to the small letters after it, and what is neither letter
nor digit separates words. -/
example : words "HTTPServer_2Item".toList =
    ["HTTP".toList, "Server".toList, "2".toList, "Item".toList] := by
  decide +kernel

/-! ## Separated words -/

/-- A run that is one word by itself, whatever its first letter follows: small letters or digits. -/
def IsRun (word : List Char) : Prop :=
  word ≠ [] ∧ ((∀ c ∈ word, c.isLower = true) ∨ ∀ c ∈ word, Text.isDecimal c = true)

/-- A run goes as far as what comes after it is neither letter nor digit. -/
theorem IsRun.wordLength_append {word rest : List Char} (h : IsRun word)
    (hrest : ∀ c ∈ rest.head?, ¬IsWordLetter c) : wordLength (word ++ rest) = word.length := by
  obtain ⟨hne, hkind⟩ := h
  have hstops : Stops Char.isLower rest ∧ Stops Text.isDecimal rest := by
    constructor <;> intro c hc <;> simp [not_isWordLetter_iff.mp (hrest c hc)]
  cases word with
  | nil => exact absurd rfl hne
  | cons c word =>
    rcases hkind with hall | hall
    · rw [List.forall_mem_cons] at hall
      rw [List.cons_append, wordLength_of_isLower hall.1, takeWhile_append_stops hall.2 hstops.1]
      rfl
    · rw [List.forall_mem_cons] at hall
      rw [List.cons_append, wordLength_of_isDecimal hall.1, takeWhile_append_stops hall.2 hstops.2]
      rfl

theorem IsRun.words_append {word rest : List Char} (h : IsRun word)
    (hrest : ∀ c ∈ rest.head?, ¬IsWordLetter c) : words (word ++ rest) = word :: words rest := by
  have hlength := h.wordLength_append hrest
  cases word with
  | nil => exact absurd rfl h.1
  | cons c word =>
    rw [List.cons_append] at hlength ⊢
    rw [words, hlength]
    simp

/-- **Separators.** Runs with a separator between them are the words of what they make. -/
theorem words_intercalate {separator : Char} (hseparator : ¬IsWordLetter separator)
    {runs : List (List Char)} (h : ∀ run ∈ runs, IsRun run) :
    words ([separator].intercalate runs) = runs := by
  induction runs with
  | nil => simp
  | cons first later ih =>
    rw [List.forall_mem_cons] at h
    cases later with
    | nil =>
      have hend : ∀ c ∈ ([] : List Char).head?, ¬IsWordLetter c := by simp
      simpa using h.1.words_append hend
    | cons second later =>
      rw [List.intercalate_cons_cons, List.append_assoc, List.singleton_append,
        h.1.words_append (by simpa using hseparator), words_cons_of_not hseparator, ih h.2]

end EntityScaffold.Naming
