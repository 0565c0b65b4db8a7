import Mathlib.Data.List.Infix

/-!
# Texts that avoid a character or a pattern

Two parts of a text with a character between them that does not occur in a pattern hold the pattern
nowhere if neither part does, so a text that is put together from words and blanks is checked word
by word. A character occurs in pieces with a separator between them if it does in one of these.
-/

namespace EntityScaffold.Text

/-- A run up to a character goes on as long as the character does not occur. -/
theorem bne_of_not_mem {s : List Char} {c : Char} (h : c ∉ s) : ∀ d ∈ s, (d != c) = true := by
  intro d hd
  rw [bne_iff_ne]
  intro hsame
  rw [hsame] at hd
  exact h hd

/-- The last character of a text is the last one of a part that the text ends with. -/
theorem exists_of_append_eq_concat {before part whole : List Char} {c : Char} (hne : part ≠ [])
    (h : before ++ part = whole ++ [c]) :
    ∃ inner, part = inner ++ [c] ∧ whole = before ++ inner := by
  rcases List.eq_nil_or_concat part with rfl | ⟨inner, d, rfl⟩
  · exact absurd rfl hne
  · rw [List.concat_eq_append, ← List.append_assoc] at h
    obtain ⟨hwhole, hlast⟩ := List.append_inj' h rfl
    exact ⟨inner, by rw [List.concat_eq_append, hlast], hwhole.symm⟩

/-- Pieces with a separator between them hold what the separator and the pieces hold. -/
theorem mem_intercalate {separator : List Char} {pieces : List (List Char)} {c : Char}
    (h : c ∈ separator.intercalate pieces) : c ∈ separator ∨ ∃ piece ∈ pieces, c ∈ piece := by
  induction pieces with
  | nil => simp at h
  | cons first later ih =>
    cases later with
    | nil => exact .inr ⟨first, List.mem_cons_self, by simpa using h⟩
    | cons second later =>
      rw [List.intercalate_cons_cons, List.mem_append, List.mem_append] at h
      rcases h with (hfirst | hseparator) | hlater
      · exact .inr ⟨first, List.mem_cons_self, hfirst⟩
      · exact .inl hseparator
      · refine (ih hlater).imp_right fun ⟨piece, hpiece, hc⟩ => ?_
        exact ⟨piece, List.mem_cons_of_mem _ hpiece, hc⟩

theorem mem_intercalate_of_mem (separator : List Char) {pieces : List (List Char)}
    {piece : List Char} (h : piece ∈ pieces) {c : Char} (hc : c ∈ piece) :
    c ∈ separator.intercalate pieces := by
  induction pieces with
  | nil => exact absurd h List.not_mem_nil
  | cons first later ih =>
    cases later with
    | nil =>
      obtain rfl := List.mem_singleton.mp h
      simpa using hc
    | cons second later =>
      rw [List.intercalate_cons_cons, List.mem_append, List.mem_append]
      rcases List.mem_cons.mp h with rfl | hlater
      · exact .inl (.inl hc)
      · exact .inr (ih hlater)

/-- The pieces of a text hold what it holds. -/
theorem mem_of_mem_splitOn {separator : Char} {s piece : List Char}
    (h : piece ∈ s.splitOn separator) {c : Char} (hc : c ∈ piece) : c ∈ s := by
  have hs : [separator].intercalate (s.splitOn separator) = s := List.intercalate_splitOn separator
  rw [← hs]
  exact mem_intercalate_of_mem _ h hc

/-- But for the separators, what a text holds is in one of its pieces. -/
theorem exists_piece_of_mem {separator c : Char} {s : List Char} (h : c ∈ s)
    (hne : c ≠ separator) : ∃ piece ∈ s.splitOn separator, c ∈ piece := by
  have hs : [separator].intercalate (s.splitOn separator) = s := List.intercalate_splitOn separator
  rw [← hs] at h
  exact (mem_intercalate h).resolve_left fun hc => hne (List.mem_singleton.mp hc)

/-- No piece holds the separator. -/
theorem not_mem_of_mem_splitOn {separator : Char} {s piece : List Char}
    (h : piece ∈ s.splitOn separator) : separator ∉ piece := by
  induction s generalizing piece with
  | nil =>
    obtain rfl : piece = [] := by simpa using h
    exact List.not_mem_nil
  | cons c s ih =>
    rw [List.splitOn_cons_eq_if_modifyHead] at h
    split at h
    · rcases List.mem_cons.mp h with rfl | hlater
      · exact List.not_mem_nil
      · exact ih hlater
    · rename_i hne
      obtain ⟨first, later, hpieces⟩ := List.exists_cons_of_ne_nil (List.splitOn_ne_nil separator s)
      rw [hpieces] at h ih
      rcases List.mem_cons.mp h with rfl | hlater
      · rw [List.mem_cons, not_or]
        exact ⟨fun hsame => hne (by simp [hsame]), ih List.mem_cons_self⟩
      · exact ih (List.mem_cons_of_mem _ hlater)

/-- A pattern occurs nowhere in a text. -/
def Avoids (pattern s : List Char) : Prop := ¬pattern <:+: s

instance (pattern s : List Char) : Decidable (Avoids pattern s) :=
  inferInstanceAs (Decidable (¬_))

variable {pattern a b : List Char}

/-- A text without one of the characters of a pattern avoids the pattern. -/
theorem avoids_of_not_mem {c : Char} (hc : c ∈ pattern) (h : c ∉ a) : Avoids pattern a :=
  fun hfound => h (hfound.subset hc)

theorem Avoids.of_infix (h : Avoids pattern a) (hb : b <:+: a) : Avoids pattern b :=
  fun hfound => h (hfound.trans hb)

/-- A character that is not in the pattern keeps what is before it and what is after it apart. -/
theorem avoids_append_cons {c : Char} (hc : c ∉ pattern) :
    Avoids pattern (a ++ c :: b) ↔ Avoids pattern a ∧ Avoids pattern b := by
  constructor
  · intro h
    exact ⟨h.of_infix (List.prefix_append _ _).isInfix,
      h.of_infix ((List.suffix_cons c b).trans (List.suffix_append a _)).isInfix⟩
  · intro hboth hfound
    obtain ⟨ha, hb⟩ := hboth
    obtain ⟨before, after, h⟩ := hfound
    rcases List.append_eq_append_iff.mp h with ⟨rest, hleft, -⟩ | ⟨rest, hleft, hright⟩
    · exact ha ⟨before, rest, hleft.symm⟩
    · cases rest with
      | nil => exact ha ⟨before, [], by simpa using hleft⟩
      | cons d rest =>
        obtain ⟨rfl, rfl⟩ := List.cons.inj hright
        -- the character is in what comes before the end of the pattern, so before its start
        rcases List.append_eq_append_iff.mp hleft with ⟨rest', -, hpattern⟩ | ⟨rest', -, hpattern⟩
        · exact hc (by simp [hpattern])
        · cases rest' with
          | nil => exact hc (by simp [← show c :: rest = pattern from hpattern])
          | cons e rest' =>
            obtain ⟨rfl, rfl⟩ := List.cons.inj hpattern
            exact hb ⟨rest', after, by simp⟩

theorem avoids_cons {c : Char} (hne : pattern ≠ []) (hc : c ∉ pattern) :
    Avoids pattern (c :: b) ↔ Avoids pattern b := by
  have hnil : Avoids pattern [] := fun h => hne (List.infix_nil.mp h)
  have h := avoids_append_cons (a := []) (b := b) hc
  rw [List.nil_append] at h
  exact h.trans (and_iff_right hnil)

/-- Parts that each end with a character that is not in the pattern. -/
theorem avoids_flatMap_concat {α : Type} {c : Char} (hne : pattern ≠ []) (hc : c ∉ pattern)
    {parts : List α} {f : α → List Char} (h : ∀ part ∈ parts, Avoids pattern (f part)) :
    Avoids pattern (parts.flatMap fun part => f part ++ [c]) := by
  induction parts with
  | nil => exact fun hfound => hne (List.infix_nil.mp hfound)
  | cons part parts ih =>
    rw [List.flatMap_cons, List.append_assoc, List.singleton_append, avoids_append_cons hc]
    have hlater := ih fun other hother => h other (List.mem_cons_of_mem _ hother)
    exact ⟨h part List.mem_cons_self, hlater⟩

/-- Words set apart by single spaces, after a text. -/
theorem avoids_append_spaced (hspace : ' ' ∉ pattern) (ha : Avoids pattern a)
    {words : List (List Char)} (hwords : ∀ w ∈ words, Avoids pattern w) :
    Avoids pattern (a ++ words.flatMap fun w => ' ' :: w) := by
  induction words generalizing a with
  | nil => simpa using ha
  | cons w words ih =>
    rw [List.flatMap_cons, List.cons_append, avoids_append_cons hspace]
    exact ⟨ha, ih (hwords w List.mem_cons_self) fun v hv => hwords v (List.mem_cons_of_mem _ hv)⟩

end EntityScaffold.Text
