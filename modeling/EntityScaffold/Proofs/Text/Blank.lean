import EntityScaffold.Text.Blank
import EntityScaffold.Text.Word
import Mathlib.Data.List.TakeWhile

/-!
# Runs, blanks and fields

What the readers of a document need to know about texts: how a maximal run is cut off the front of
a text, what trimming and splitting do to texts that are put together from parts, and that no blank
is a word character.

A run is maximal if the text after it *stops* the class of the run (`Stops`). Two ways to write one
text as a run and a text that stops it are the same way (`run_unique`); every argument that finds a
keyword, a name or a brace in a text twice goes through this fact.
-/

namespace EntityScaffold.Text

/-- What holds of all characters of a text is decided by going through the text. Libraries also
decide it by going through all characters there are, so this instance has to come first. -/
instance decidableForallChar (P : Char → Prop) [DecidablePred P] (s : List Char) :
    Decidable (∀ c ∈ s, P c) :=
  List.decidableBAll P s

/-! ## Maximal runs -/

/-- A text stops a class of characters if it is empty or begins with a character outside it. -/
def Stops (p : Char → Bool) (s : List Char) : Prop := ∀ c ∈ s.head?, p c = false

@[simp] theorem stops_nil (p : Char → Bool) : Stops p [] := by simp [Stops]

@[simp] theorem stops_cons {p : Char → Bool} {c : Char} {s : List Char} :
    Stops p (c :: s) ↔ p c = false := by
  simp [Stops]

/-- What is left when a class has been dropped off the front stops the class. -/
theorem stops_dropWhile (p : Char → Bool) (s : List Char) : Stops p (s.dropWhile p) := by
  intro c hc
  have h := List.head?_dropWhile_not p s
  rw [Option.mem_def.mp hc] at h
  simpa using h

/-- A text that begins with something keeps what it stops, whatever comes after. -/
theorem Stops.append {p : Char → Bool} {s : List Char} (h : Stops p s) (hne : s ≠ [])
    (t : List Char) : Stops p (s ++ t) := by
  cases s with
  | nil => exact absurd rfl hne
  | cons c s => simpa using h

/-- Read backwards, a text stops what the last part of it has no character of. -/
theorem stops_reverse_append {p : Char → Bool} {s : List Char} (hne : s ≠ [])
    (h : ∀ c ∈ s, p c = false) (before : List Char) : Stops p (before ++ s).reverse := by
  rw [List.reverse_append]
  cases hs : s.reverse with
  | nil => exact absurd (List.reverse_eq_nil_iff.mp hs) hne
  | cons c rest => exact stops_cons.mpr (h c (List.mem_reverse.mp (hs ▸ List.mem_cons_self)))

theorem takeWhile_append_stops {p : Char → Bool} {run rest : List Char}
    (hrun : ∀ c ∈ run, p c = true) (hrest : Stops p rest) : (run ++ rest).takeWhile p = run := by
  rw [List.takeWhile_append_of_pos hrun]
  cases rest with
  | nil => simp
  | cons c rest => rw [List.takeWhile_cons_of_neg (by simpa using hrest), List.append_nil]

theorem dropWhile_append_stops {p : Char → Bool} {run rest : List Char}
    (hrun : ∀ c ∈ run, p c = true) (hrest : Stops p rest) : (run ++ rest).dropWhile p = rest := by
  rw [List.dropWhile_append_of_pos hrun]
  cases rest with
  | nil => simp
  | cons c rest => exact List.dropWhile_cons_of_neg (by simpa using hrest)

/-- A maximal run at the front of a text is cut off in one way only. -/
theorem run_unique {p : Char → Bool} {a b x y : List Char} (ha : ∀ c ∈ a, p c = true)
    (hb : ∀ c ∈ b, p c = true) (hx : Stops p x) (hy : Stops p y) (h : a ++ x = b ++ y) :
    a = b ∧ x = y := by
  have hab : a = b := by
    rw [← takeWhile_append_stops ha hx, h, takeWhile_append_stops hb hy]
  exact ⟨hab, by subst hab; exact List.append_cancel_left h⟩

/-- The same at the end of a text, where a run is maximal if the text before it, read backwards,
stops the class. -/
theorem run_unique_end {p : Char → Bool} {a b x y : List Char} (ha : ∀ c ∈ a, p c = true)
    (hb : ∀ c ∈ b, p c = true) (hx : Stops p x.reverse) (hy : Stops p y.reverse)
    (h : x ++ a = y ++ b) : x = y ∧ a = b := by
  have hrev : a.reverse ++ x.reverse = b.reverse ++ y.reverse := by
    simpa using congrArg List.reverse h
  obtain ⟨h1, h2⟩ := run_unique (by simpa using ha) (by simpa using hb) hx hy hrev
  exact ⟨List.reverse_inj.mp h2, List.reverse_inj.mp h1⟩

/-! ## Blanks and word characters -/

/-- No interval of the word characters beyond ASCII meets one of the blanks. -/
theorem letterOrNumeralRanges_disjoint_blankRanges :
    (letterOrNumeralRanges.all fun i =>
      blankRanges.all fun j => i.2 < j.1 || j.2 < i.1) = true := by
  decide +kernel

/-- Where the letters and digits of ASCII are. -/
theorem toNat_of_isAlphanum {c : Char} (h : c.isAlphanum = true) :
    ((65 ≤ c.toNat ∧ c.toNat ≤ 90) ∨ (97 ≤ c.toNat ∧ c.toNat ≤ 122)) ∨
      (48 ≤ c.toNat ∧ c.toNat ≤ 57) := by
  have hclass : c.isAlphanum =
      ((decide (65 ≤ c.val ∧ c.val ≤ 90) ||
        (decide (97 ≤ c.val) && decide (c.val ≤ 122))) ||
          (decide (48 ≤ c.val) && decide (c.val ≤ 57))) := rfl
  simp only [hclass, Bool.or_eq_true, Bool.and_eq_true, decide_eq_true_eq,
    UInt32.le_iff_toNat_le] at h
  exact h

/-- A word character is no blank. -/
theorem isBlank_of_isWord {c : Char} (h : isWord c = true) : isBlank c = false := by
  rw [Bool.eq_false_iff]
  intro blank
  unfold isWord at h
  split at h
  · simp only [Bool.or_eq_true, beq_iff_eq] at h
    rcases h with h | rfl
    · have hascii := toNat_of_isAlphanum h
      simp only [isBlank, CodePoints.has, blankRanges, List.any_cons, List.any_nil, Bool.or_eq_true,
        Bool.and_eq_true, decide_eq_true_eq, Bool.or_false] at blank
      omega
    · revert blank
      decide
  · -- beyond ASCII the interval of the one class would meet one of the other
    obtain ⟨i, hi, hin⟩ := List.any_eq_true.mp h
    obtain ⟨j, hj, hjn⟩ := List.any_eq_true.mp blank
    have hdisj := List.all_eq_true.mp
      (List.all_eq_true.mp letterOrNumeralRanges_disjoint_blankRanges i hi) j hj
    simp only [Bool.and_eq_true, Bool.or_eq_true, decide_eq_true_eq] at hin hjn hdisj
    omega

/-! ## Trimming -/

/-- Blanks before a text do not matter to what is left of it. -/
theorem trimStart_append_of_blank {gap : List Char} (h : ∀ c ∈ gap, isBlank c = true)
    (s : List Char) : trimStart (gap ++ s) = trimStart s :=
  List.dropWhile_append_of_pos h

theorem trimStart_eq_self {s : List Char} (h : Stops isBlank s) : trimStart s = s := by
  simpa [trimStart] using @dropWhile_append_stops isBlank [] s (by simp) h

/-- Trimming the start goes no further than a character that is no blank. -/
theorem trimStart_append_cons {c : Char} (hc : isBlank c = false) (a b : List Char) :
    trimStart (a ++ c :: b) = trimStart a ++ c :: b := by
  simp only [trimStart, List.dropWhile_append]
  split
  · rename_i hblank
    rw [List.isEmpty_iff.mp hblank, List.dropWhile_cons_of_neg (by simpa using hc)]
    rfl
  · rfl

theorem trimEnd_append_of_blank {gap : List Char} (h : ∀ c ∈ gap, isBlank c = true)
    (s : List Char) : trimEnd (s ++ gap) = trimEnd s := by
  simp only [trimEnd, List.reverse_append]
  rw [List.dropWhile_append_of_pos (by simpa using h)]

theorem trimEnd_eq_self {s : List Char} (h : Stops isBlank s.reverse) : trimEnd s = s := by
  have hs : s.reverse.dropWhile isBlank = s.reverse := trimStart_eq_self h
  rw [trimEnd, hs, List.reverse_reverse]

/-- Trimming the end leaves alone what stands up to a character that is no blank. -/
theorem trimEnd_append {s : List Char} (h : Stops isBlank s.reverse) (t : List Char) :
    trimEnd (s ++ t) = s ++ trimEnd t := by
  simp only [trimEnd, List.reverse_append, List.dropWhile_append]
  have hs : s.reverse.dropWhile isBlank = s.reverse := trimStart_eq_self h
  -- are there only blanks after the character, or something that stops trimming earlier?
  split
  · rename_i hall
    rw [hs, List.isEmpty_iff.mp hall, List.reverse_reverse, List.reverse_nil, List.append_nil]
  · rw [List.reverse_append, List.reverse_reverse]

/-- A text is what trimming its start removes and what it leaves. -/
theorem exists_trimStart (s : List Char) :
    ∃ gap, (∀ c ∈ gap, isBlank c = true) ∧ s = gap ++ trimStart s :=
  ⟨s.takeWhile isBlank, fun _ h => List.mem_takeWhile_imp h,
    (List.takeWhile_append_dropWhile (p := isBlank)).symm⟩

theorem exists_trimEnd (s : List Char) :
    ∃ gap, (∀ c ∈ gap, isBlank c = true) ∧ s = trimEnd s ++ gap := by
  obtain ⟨gap, hgap, h⟩ := exists_trimStart s.reverse
  refine ⟨gap.reverse, by simpa using hgap, ?_⟩
  have h' := congrArg List.reverse h
  rw [List.reverse_reverse, List.reverse_append] at h'
  exact h'

/-- Blanks around a text do not matter to what trimming leaves of it. -/
theorem trim_append_of_blank {gap gap' : List Char} (h : ∀ c ∈ gap, isBlank c = true)
    (h' : ∀ c ∈ gap', isBlank c = true) (s : List Char) : trim (gap ++ s ++ gap') = trim s := by
  unfold trim
  rw [List.append_assoc, trimStart_append_of_blank h]
  simp only [trimStart, List.dropWhile_append]
  split
  · rename_i hall
    rw [List.isEmpty_iff.mp hall, List.dropWhile_eq_nil_iff.mpr h']
  · exact trimEnd_append_of_blank h' _

theorem trim_append_of_blank_left {gap : List Char} (h : ∀ c ∈ gap, isBlank c = true)
    (s : List Char) : trim (gap ++ s) = trim s := by
  rw [trim, trimStart_append_of_blank h, trim]

theorem trim_append_of_blank_right {gap : List Char} (h : ∀ c ∈ gap, isBlank c = true)
    (s : List Char) : trim (s ++ gap) = trim s := by
  have hnil : ∀ c ∈ ([] : List Char), isBlank c = true := by simp
  exact trim_append_of_blank hnil h s

/-- A text is what trimming leaves of it, with blanks around that. -/
theorem exists_trim (s : List Char) :
    ∃ gap gap', (∀ c ∈ gap, isBlank c = true) ∧ (∀ c ∈ gap', isBlank c = true) ∧
      s = gap ++ trim s ++ gap' := by
  obtain ⟨gap, hgap, hs⟩ := exists_trimStart s
  obtain ⟨gap', hgap', hs'⟩ := exists_trimEnd (trimStart s)
  refine ⟨gap, gap', hgap, hgap', ?_⟩
  rw [List.append_assoc, trim, ← hs', ← hs]

theorem trim_eq_self {s : List Char} (h : Stops isBlank s) (h' : Stops isBlank s.reverse) :
    trim s = s := by
  rw [trim, trimStart_eq_self h, trimEnd_eq_self h']

/-- What trimming leaves neither begins nor ends with a blank. -/
theorem stops_trim (s : List Char) : Stops isBlank (trim s) ∧ Stops isBlank (trim s).reverse := by
  have hend : Stops isBlank (trim s).reverse := by
    rw [trim, trimEnd, List.reverse_reverse]
    exact stops_dropWhile _ _
  refine ⟨?_, hend⟩
  obtain ⟨gap, -, hgap⟩ := exists_trimEnd (trimStart s)
  have hstart : Stops isBlank (trimStart s) := stops_dropWhile _ _
  intro c hc
  apply hstart c
  rw [hgap]
  cases htrim : trimEnd (trimStart s) with
  | nil => simp [trim, htrim] at hc
  | cons d t => simpa [trim, htrim] using hc

theorem trim_subset (s : List Char) : trim s ⊆ s := by
  obtain ⟨gap, gap', -, -, hs⟩ := exists_trim s
  intro c hc
  rw [hs]
  simp [hc]

@[simp] theorem trim_trim (s : List Char) : trim (trim s) = trim s :=
  trim_eq_self (stops_trim s).1 (stops_trim s).2

/-- Only blanks are trimmed to nothing. -/
theorem trim_eq_nil_iff {s : List Char} : trim s = [] ↔ ∀ c ∈ s, isBlank c = true := by
  constructor
  · intro h
    obtain ⟨gap, gap', hgap, hgap', hs⟩ := exists_trim s
    rw [h, List.append_nil] at hs
    rw [hs]
    exact List.forall_mem_append.mpr ⟨hgap, hgap'⟩
  · intro h
    have hblank := trim_append_of_blank_left h []
    rw [List.append_nil] at hblank
    exact hblank.trans rfl

/-- Trimming goes no further than a character that is no blank. -/
theorem trim_append_cons {c : Char} (hc : isBlank c = false) (a b : List Char) :
    trim (a ++ c :: b) = trimStart a ++ c :: trimEnd b := by
  have hend : Stops isBlank (trimStart a ++ [c]).reverse := by
    rw [List.reverse_append]
    exact stops_cons.mpr hc
  have hcut := trimEnd_append hend b
  rw [List.append_assoc, List.append_assoc] at hcut
  rw [trim, trimStart_append_cons hc]
  exact hcut

/-! ## Pieces

What is between separators, without the empty pieces: fields are pieces between blanks. -/

/-- The pieces of a text between separators, without the empty ones. -/
def pieces (p : Char → Bool) (s : List Char) : List (List Char) :=
  (s.splitOnP p).filter fun piece => !piece.isEmpty

/-- A separator belongs to no piece. -/
theorem pieces_append_cons {p : Char → Bool} {c : Char} (hc : p c = true) (s t : List Char) :
    pieces p (s ++ c :: t) = pieces p s ++ pieces p t := by
  rw [pieces, List.splitOnP_append_cons s t hc, List.filter_append, pieces, pieces]

theorem pieces_eq_singleton {p : Char → Bool} {word : List Char} (hne : word ≠ [])
    (hword : ∀ d ∈ word, p d = false) : pieces p word = [word] := by
  rw [pieces, List.splitOnP_eq_singleton hword]
  simp [hne]

/-- What a text is split into: the first part stands at its front and the others inside it, and no
part has a separator. -/
theorem exists_splitOnP (p : Char → Bool) (s : List Char) :
    ∃ first later, s.splitOnP p = first :: later ∧ first <+: s ∧ (∀ part ∈ later, part <:+: s) ∧
      ∀ part ∈ first :: later, ∀ c ∈ part, p c = false := by
  induction s with
  | nil => exact ⟨[], [], by simp, List.nil_prefix, by simp, by simp⟩
  | cons c s ih =>
    obtain ⟨first, later, hsplit, hfirst, hlater, hsolid⟩ := ih
    have hinside : ∀ part ∈ later, part <:+: c :: s :=
      fun part hpart => (hlater part hpart).trans (List.suffix_cons c s).isInfix
    rw [List.splitOnP_cons_eq_if_modifyHead, hsplit]
    cases hc : p c with
    | true =>
      refine ⟨[], first :: later, rfl, List.nil_prefix, ?_, ?_⟩
      · exact List.forall_mem_cons.mpr
          ⟨hfirst.isInfix.trans (List.suffix_cons c s).isInfix, hinside⟩
      · exact List.forall_mem_cons.mpr ⟨by simp, hsolid⟩
    | false =>
      rw [List.forall_mem_cons] at hsolid
      refine ⟨c :: first, later, rfl, List.cons_prefix_cons.mpr ⟨rfl, hfirst⟩, hinside, ?_⟩
      exact List.forall_mem_cons.mpr ⟨List.forall_mem_cons.mpr ⟨hc, hsolid.1⟩, hsolid.2⟩

/-- A piece is not empty, has no separator and stands in the text. -/
theorem mem_pieces {p : Char → Bool} {s piece : List Char} (h : piece ∈ pieces p s) :
    piece ≠ [] ∧ (∀ c ∈ piece, p c = false) ∧ piece <:+: s := by
  obtain ⟨first, later, hsplit, hfirst, hlater, hsolid⟩ := exists_splitOnP p s
  rw [pieces, hsplit, List.mem_filter] at h
  obtain ⟨hmem, hne⟩ := h
  refine ⟨by simpa using hne, hsolid piece hmem, ?_⟩
  rcases List.mem_cons.mp hmem with rfl | hmem
  · exact hfirst.isInfix
  · exact hlater piece hmem

/-! ## Fields -/

@[simp] theorem fields_nil : fields [] = [] := rfl

theorem fields_eq_singleton {word : List Char} (hne : word ≠ [])
    (hword : ∀ d ∈ word, isBlank d = false) : fields word = [word] :=
  pieces_eq_singleton hne hword

/-- A word and a blank after it make one field. -/
theorem fields_append_blank {word : List Char} {c : Char} (hne : word ≠ [])
    (hword : ∀ d ∈ word, isBlank d = false) (hc : isBlank c = true) (s : List Char) :
    fields (word ++ c :: s) = word :: fields s :=
  (pieces_append_cons hc word s).trans
    (congrArg (· ++ fields s) (pieces_eq_singleton hne hword))

/-- A blank at the front belongs to no field. -/
theorem fields_cons_blank {c : Char} (hc : isBlank c = true) (s : List Char) :
    fields (c :: s) = fields s :=
  pieces_append_cons hc [] s

/-- Words set apart by single spaces are the fields of what they make, with or without a blank
after the last one. -/
theorem fields_spaced {words : List (List Char)} (hne : ∀ w ∈ words, w ≠ [])
    (hwords : ∀ w ∈ words, ∀ c ∈ w, isBlank c = false) {tail : List Char}
    (htail : ∀ c ∈ tail, isBlank c = true) :
    fields (words.flatMap (fun w => ' ' :: w) ++ tail) = words := by
  induction words with
  | nil =>
    induction tail with
    | nil => rfl
    | cons c tail ih =>
      simp only [List.flatMap_nil, List.nil_append] at ih ⊢
      rw [fields_cons_blank (htail c (by simp))]
      exact ih fun d hd => htail d (by simp [hd])
  | cons w words ih =>
    have ih := ih (fun v hv => hne v (by simp [hv])) (fun v hv => hwords v (by simp [hv]))
    rw [List.flatMap_cons, List.cons_append, List.cons_append,
      fields_cons_blank (by decide), List.append_assoc]
    have hw := hwords w (by simp)
    have hwne := hne w (by simp)
    -- what follows the word is nothing or begins with a blank
    cases hrest : words.flatMap (fun w => ' ' :: w) ++ tail with
    | nil =>
      rw [hrest] at ih
      rw [List.append_nil, fields_eq_singleton hwne hw, ← ih, fields_nil]
    | cons c rest =>
      have hc : isBlank c = true := by
        cases words with
        | nil =>
          simp only [List.flatMap_nil, List.nil_append] at hrest
          exact htail c (by simp [hrest])
        | cons v words =>
          simp only [List.flatMap_cons, List.cons_append, List.cons.injEq] at hrest
          rw [← hrest.1]
          decide
      rw [fields_append_blank hwne hw hc, ← fields_cons_blank hc rest, ← hrest, ih]

end EntityScaffold.Text
