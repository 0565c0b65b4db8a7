import EntityScaffold.Proofs.Console.Markup

/-!
# Escaped texts

An escaped text has no live tags of its own, whatever comes after it, unless this closes a bracket
that the text left open. Only the backslashes that the text ends with reach into what comes after it
(`liveTags_escape_append`).

The reason is that escaping adds nothing but backslashes before brackets: the first bracket of a
text and its first other character stay what they are, and these decide whether a tag begins
(`Tag.read_replicate_eq_none_iff`).
-/

namespace EntityScaffold.Console

open Text

/-! ## Where a tag begins -/

/-- The first bracket of a text. -/
def firstBracket? (s : List Char) : Option Char := s.find? fun c => !Tag.noBracket c

theorem firstBracket?_append (s t : List Char) :
    firstBracket? (s ++ t) = (firstBracket? s).or (firstBracket? t) :=
  List.find?_append

/-- What may follow an opening bracket that begins a tag: a character that may stand there, and
later a closing bracket. -/
structure OpensTag (s : List Char) : Prop where
  head : ∃ c, s.head? = some c ∧ startsTag c = true
  closes : firstBracket? s = some ']'

theorem opensTag_iff {s : List Char} :
    OpensTag s ↔ ∃ inside after, IsInside inside ∧ s = inside ++ ']' :: after := by
  constructor
  · rintro ⟨⟨c, hhead, hstart⟩, hcloses⟩
    obtain ⟨-, inside, after, rfl, hinside⟩ := List.find?_eq_some_iff_append.mp hcloses
    cases inside with
    | nil =>
      obtain rfl : ']' = c := by simpa using hhead
      exact absurd hstart (by decide)
    | cons d inner =>
      obtain rfl : d = c := by simpa using hhead
      obtain ⟨-, hinner⟩ := List.forall_mem_cons.mp hinside
      exact ⟨_, after, ⟨d, inner, rfl, hstart, fun e he => by simpa using hinner e he⟩, rfl⟩
  · rintro ⟨inside, after, hinside, rfl⟩
    have hnone : firstBracket? inside = none :=
      List.find?_eq_none.mpr fun c hc => by simpa using hinside.noBracket c hc
    refine ⟨?_, by rw [firstBracket?_append, hnone]; rfl⟩
    obtain ⟨c, inner, rfl, hstart, -⟩ := hinside
    exact ⟨c, rfl, hstart⟩

/-- After backslashes a tag begins just at an opening bracket with what may follow it. -/
theorem Tag.read_replicate_eq_none_iff {c : Char} (hback : c ≠ '\\') (count : Nat)
    (s : List Char) :
    Tag.read (List.replicate count '\\' ++ c :: s) = none ↔ ¬(c = '[' ∧ OpensTag s) := by
  rw [opensTag_iff]
  constructor
  · rintro hnone ⟨rfl, inside, after, hinside, rfl⟩
    have hread : Tag.read (List.replicate count '\\' ++ '[' :: (inside ++ ']' :: after)) =
        some (⟨count, inside⟩, after) :=
      Tag.read_eq_some_iff.mpr ⟨hinside, by simp [Tag.written, Tag.bracketed]⟩
    rw [hread] at hnone
    exact absurd hnone (by simp)
  · intro hopens
    rw [Option.eq_none_iff_forall_ne_some]
    rintro ⟨given, after⟩ hread
    obtain ⟨hinside, hs⟩ := Tag.read_eq_some_iff.mp hread
    rw [Tag.written, Tag.bracketed, List.append_assoc] at hs
    have hrun : ∀ n, ∀ d ∈ List.replicate n '\\', (d == '\\') = true := by simp
    obtain ⟨-, hrest⟩ := run_unique (hrun count) (hrun given.backslashes)
      (by simpa using hback) (by simp) hs
    obtain ⟨hopen, htail⟩ := List.cons.inj hrest
    exact hopens ⟨hopen, given.inside, after, hinside, by rw [htail]; simp⟩

/-- Backslashes alone begin no tag. -/
theorem Tag.read_replicate (count : Nat) : Tag.read (List.replicate count '\\') = none := by
  rw [Option.eq_none_iff_forall_ne_some]
  rintro ⟨given, after⟩ hread
  obtain ⟨-, hs⟩ := Tag.read_eq_some_iff.mp hread
  have hopen : '[' ∈ List.replicate count '\\' := by
    rw [hs]
    simp [Tag.written, Tag.bracketed]
  exact absurd (List.eq_of_mem_replicate hopen) (by decide)

/-! ## Escaped segments -/

/-- A text with its tags escaped. -/
def escapedTags (s : List Char) : List Char := (segments s).flatMap Segment.escaped

theorem escapedTags_nil : escapedTags [] = [] := by simp [escapedTags, segments]

theorem escapedTags_of_read {s after : List Char} {tag : Tag}
    (h : Tag.read s = some (tag, after)) : escapedTags s =
      Tag.written ⟨2 * tag.backslashes + 1, tag.inside⟩ ++ escapedTags after := by
  rw [escapedTags, segments_of_read h, List.flatMap_cons]
  rfl

theorem escapedTags_of_none {c : Char} {s : List Char} (h : Tag.read (c :: s) = none) :
    escapedTags (c :: s) = c :: escapedTags s := by
  rw [escapedTags, segments_of_none h, escapedTags]
  cases segments s with
  | nil => rfl
  | cons part later =>
    cases part with
    | text run => rfl
    | tag given => rfl

theorem firstBracket?_written_append (tag : Tag) (rest : List Char) :
    firstBracket? (tag.written ++ rest) = some '[' := by
  have hnone : firstBracket? (List.replicate tag.backslashes '\\') = none :=
    List.find?_eq_none.mpr fun c hc => by
      rw [List.eq_of_mem_replicate hc]
      decide
  rw [Tag.written, List.append_assoc, firstBracket?_append, hnone]
  rfl

/-- Escaping leaves the first bracket of a text. -/
theorem firstBracket?_escapedTags (s : List Char) :
    firstBracket? (escapedTags s) = firstBracket? s := by
  induction s using segments_induction with
  | nil => rw [escapedTags_nil]
  | tag s after given hread _ =>
    obtain ⟨-, hs⟩ := Tag.read_eq_some_iff.mp hread
    rw [escapedTags_of_read hread, hs, firstBracket?_written_append,
      firstBracket?_written_append]
  | text c s hread ih =>
    rw [escapedTags_of_none hread, firstBracket?, firstBracket?, List.find?_cons, List.find?_cons]
    split
    · rfl
    · exact ih

/-- Escaping puts nothing but backslashes in front of a text. -/
theorem head?_escapedTags {s : List Char} {c : Char} (hback : c ≠ '\\')
    (h : (escapedTags s).head? = some c) : s.head? = some c := by
  cases hread : Tag.read s with
  | none =>
    cases s with
    | nil => rwa [escapedTags_nil] at h
    | cons d s => rwa [escapedTags_of_none hread] at h
  | some result =>
    obtain ⟨given, after⟩ := result
    rw [escapedTags_of_read hread, Tag.written, List.replicate_succ] at h
    exact absurd (Option.some.inj h).symm hback

/-- Where no tag begins, the backslashes and the character after them stay. -/
theorem escapedTags_replicate_append {c : Char} (hback : c ≠ '\\') {s : List Char}
    (h : ¬(c = '[' ∧ OpensTag s)) (count : Nat) :
    escapedTags (List.replicate count '\\' ++ c :: s) =
      List.replicate count '\\' ++ c :: escapedTags s := by
  induction count with
  | zero =>
    exact escapedTags_of_none ((Tag.read_replicate_eq_none_iff hback 0 s).mpr h)
  | succ count ih =>
    have hread := (Tag.read_replicate_eq_none_iff hback (count + 1) s).mpr h
    rw [List.replicate_succ, List.cons_append] at hread ⊢
    rw [escapedTags_of_none hread, ih, List.cons_append]

theorem escapedTags_replicate (count : Nat) :
    escapedTags (List.replicate count '\\') = List.replicate count '\\' := by
  induction count with
  | zero => exact escapedTags_nil
  | succ count ih =>
    have hread := Tag.read_replicate (count + 1)
    rw [List.replicate_succ] at hread ⊢
    rw [escapedTags_of_none hread, ih]

/-! ## Live tags -/

section Live

variable {s after : List Char}

/-- What comes after a text closes no bracket of it. -/
def ClosesNothing (after : List Char) : Prop := firstBracket? after ≠ some ']'

/-- What may follow the opening bracket of a tag is not brought about by escaping. -/
theorem OpensTag.of_escapedTags (hafter : ClosesNothing after)
    (h : OpensTag (escapedTags s ++ after)) : OpensTag s := by
  obtain ⟨⟨c, hhead, hstart⟩, hcloses⟩ := h
  rw [firstBracket?_append, firstBracket?_escapedTags, Option.or_eq_some_iff] at hcloses
  rcases hcloses with hcloses | ⟨-, hcloses⟩
  · -- the bracket is the text's own, so the text is not empty and has the head
    refine ⟨⟨c, ?_, hstart⟩, hcloses⟩
    have hback : c ≠ '\\' := by
      rintro rfl
      exact absurd hstart (by decide)
    have hne : escapedTags s ≠ [] := by
      intro hnil
      rw [← firstBracket?_escapedTags, hnil] at hcloses
      exact absurd hcloses (by simp [firstBracket?])
    obtain ⟨d, rest, hcons⟩ := List.exists_cons_of_ne_nil hne
    rw [hcons] at hhead
    exact head?_escapedTags hback (by rw [hcons]; exact hhead)
  · exact absurd hcloses hafter

/-- A text is backslashes alone, or they end at another character. -/
theorem backslashes_cases (s : List Char) :
    ∃ count, s = List.replicate count '\\' ∨
      ∃ c later, c ≠ '\\' ∧ s = List.replicate count '\\' ++ c :: later := by
  induction s with
  | nil => exact ⟨0, .inl rfl⟩
  | cons c s ih =>
    by_cases hc : c = '\\'
    · subst hc
      obtain ⟨count, rfl | ⟨d, later, hd, rfl⟩⟩ := ih
      · exact ⟨count + 1, .inl rfl⟩
      · exact ⟨count + 1, .inr ⟨d, later, hd, rfl⟩⟩
    · exact ⟨0, .inr ⟨c, s, hc, rfl⟩⟩

/-- Of a text whose tags are escaped only the backslashes at its end play a part in the tags that
come after it. -/
theorem liveTags_escapedTags_append (hafter : ClosesNothing after) (s : List Char) :
    ∃ count, liveTags (escapedTags s ++ after) =
      liveTags (List.replicate count '\\' ++ after) := by
  induction s using segments_induction with
  | nil => exact ⟨0, by rw [escapedTags_nil]; rfl⟩
  | tag s rest given hread ih =>
    obtain ⟨hinside, -⟩ := Tag.read_eq_some_iff.mp hread
    -- twice as many backslashes and one more are an odd number, so the tag is not live
    have hescaped : Tag.read (escapedTags s ++ after) =
        some (⟨2 * given.backslashes + 1, given.inside⟩, escapedTags rest ++ after) := by
      rw [escapedTags_of_read hread, List.append_assoc]
      exact Tag.read_eq_some_iff.mpr ⟨hinside, rfl⟩
    have hodd : Tag.isEscaped ⟨2 * given.backslashes + 1, given.inside⟩ = true := by
      simp [Tag.isEscaped]
    rw [liveTags_of_read hescaped, if_pos hodd]
    exact ih
  | text c s hread ih =>
    obtain ⟨count, hs | ⟨d, later, hd, hs⟩⟩ := backslashes_cases (c :: s)
    · exact ⟨count, by rw [hs, escapedTags_replicate]⟩
    · -- no tag begins here, escaped or not
      have hopens : ¬(d = '[' ∧ OpensTag later) := by
        rw [← Tag.read_replicate_eq_none_iff hd count, ← hs]
        exact hread
      have hopens' : ¬(d = '[' ∧ OpensTag (escapedTags later ++ after)) :=
        fun h => hopens ⟨h.1, h.2.of_escapedTags hafter⟩
      have hread' : Tag.read (escapedTags (c :: s) ++ after) = none := by
        rw [hs, escapedTags_replicate_append hd hopens, List.append_assoc, List.cons_append,
          Tag.read_replicate_eq_none_iff hd]
        exact hopens'
      rw [escapedTags_of_none hread] at hread' ⊢
      rw [List.cons_append] at hread' ⊢
      rw [liveTags_of_none hread']
      exact ih

/-- Escaping a text escapes its tags, and may double a backslash at its end. -/
theorem escape_cases (s : List Char) :
    escape s = escapedTags s ∨ escape s = escapedTags s ++ ['\\'] := by
  unfold escape
  dsimp only
  split
  · exact .inl rfl
  · exact .inr rfl
  · exact .inl rfl

/-- **Escaping.** An escaped text has no live tags; at most it ends in backslashes that stand before
what comes after it. -/
theorem liveTags_escape_append (hafter : ClosesNothing after) (s : List Char) :
    ∃ count, liveTags (escape s ++ after) = liveTags (List.replicate count '\\' ++ after) := by
  rcases escape_cases s with h | h
  · rw [h]
    exact liveTags_escapedTags_append hafter s
  · have hafter' : ClosesNothing ('\\' :: after) := hafter
    obtain ⟨count, hcount⟩ := liveTags_escapedTags_append hafter' s
    refine ⟨count + 1, ?_⟩
    rw [h, List.append_assoc, List.singleton_append, hcount, List.replicate_succ']
    simp

/-- A text that is set apart from backslashes before it. -/
def SetApart (after : List Char) : Prop := ∀ c ∈ after.head?, c ≠ '[' ∧ c ≠ '\\'

/-- Backslashes before anything but a bracket escape nothing. -/
theorem liveTags_replicate_append (hafter : SetApart after) (count : Nat) :
    liveTags (List.replicate count '\\' ++ after) = liveTags after := by
  have hread : ∀ count, Tag.read (List.replicate (count + 1) '\\' ++ after) = none := by
    intro count
    cases after with
    | nil => simpa using Tag.read_replicate (count + 1)
    | cons c later =>
      obtain ⟨hopen, hback⟩ := hafter c rfl
      exact (Tag.read_replicate_eq_none_iff hback _ _).mpr fun h => hopen h.1
  induction count with
  | zero => rfl
  | succ count ih =>
    have hfirst := hread count
    rw [List.replicate_succ, List.cons_append] at hfirst ⊢
    rw [liveTags_of_none hfirst, ih]

/-- An escaped text adds no live tags to what is set apart from it. -/
theorem liveTags_escape_append_of_setApart (hafter : ClosesNothing after)
    (hapart : SetApart after) (s : List Char) : liveTags (escape s ++ after) = liveTags after := by
  obtain ⟨count, hcount⟩ := liveTags_escape_append hafter s
  rw [hcount, liveTags_replicate_append hapart]

/-- An escaped text has no live tags. -/
theorem liveTags_escape (s : List Char) : liveTags (escape s) = [] := by
  have hcloses : ClosesNothing [] := by simp [ClosesNothing, firstBracket?]
  have hapart : SetApart [] := by simp [SetApart]
  have h := liveTags_escape_append_of_setApart hcloses hapart s
  rwa [List.append_nil, liveTags_nil] at h

/-- At most an escaped text escapes the tag that comes after it. -/
theorem liveTags_escape_append_bracketed {inside : List Char} (hinside : IsInside inside)
    (s : List Char) : liveTags (escape s ++ ('[' :: inside ++ [']'])) = [] ∨
      ∃ backslashes, liveTags (escape s ++ ('[' :: inside ++ [']'])) = [⟨backslashes, inside⟩] := by
  have hafter : ClosesNothing ('[' :: inside ++ [']']) := by
    simp [ClosesNothing, firstBracket?, Tag.noBracket]
  obtain ⟨count, hcount⟩ := liveTags_escape_append hafter s
  have hread : Tag.read (List.replicate count '\\' ++ ('[' :: inside ++ [']'])) =
      some (⟨count, inside⟩, []) :=
    Tag.read_eq_some_iff.mpr ⟨hinside, by simp [Tag.written, Tag.bracketed]⟩
  rw [hcount, liveTags_of_read hread, liveTags_nil, List.append_nil]
  split
  · exact .inl rfl
  · exact .inr ⟨count, rfl⟩

end Live

end EntityScaffold.Console
