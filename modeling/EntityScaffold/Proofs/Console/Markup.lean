import EntityScaffold.Console.Markup
import EntityScaffold.Proofs.Text.Blank

/-!
# Which markup can be shown

A text is cut into tags and what is between them from left to right. Where a tag begins depends only
on the brackets and backslashes there (`Tag.read_eq_some_iff`), so a text without an opening bracket
has no tags, and what is put before or after a text does not change its tags if it holds neither
brackets nor backslashes.

Only tags that are not escaped do anything (`liveTags`). Whether a text can be shown is a question
about these alone: can the styles be set and ended in their order, and can each be looked up
(`exists_render_iff`)?
-/

namespace EntityScaffold.Console

open Text

/-! ## Reading a tag -/

/-- The inside of a tag: it begins as a tag may and holds no bracket. -/
def IsInside (inside : List Char) : Prop :=
  ∃ c inner, inside = c :: inner ∧ startsTag c = true ∧ ∀ d ∈ inner, Tag.noBracket d = true

theorem noBracket_of_startsTag {c : Char} (h : startsTag c = true) : Tag.noBracket c = true := by
  rw [Tag.noBracket, Bool.and_eq_true, bne_iff_ne, bne_iff_ne]
  constructor
  · rintro rfl
    exact absurd h (by decide)
  · rintro rfl
    exact absurd h (by decide)

theorem IsInside.noBracket {inside : List Char} (h : IsInside inside) :
    ∀ c ∈ inside, Tag.noBracket c = true := by
  obtain ⟨c, inner, rfl, hstart, hinner⟩ := h
  exact List.forall_mem_cons.mpr ⟨noBracket_of_startsTag hstart, hinner⟩

/-- A tag as it is written. -/
def Tag.written (tag : Tag) : List Char := List.replicate tag.backslashes '\\' ++ tag.bracketed

/-- **Reading a tag.** A tag is read off the texts that begin with it, as it is written. -/
theorem Tag.read_eq_some_iff {s after : List Char} {tag : Tag} :
    Tag.read s = some (tag, after) ↔ IsInside tag.inside ∧ s = tag.written ++ after := by
  constructor
  · intro h
    have hfront : s.take (s.takeWhile (· == '\\')).length =
        List.replicate (s.takeWhile (· == '\\')).length '\\' := by
      rw [← List.prefix_iff_eq_take.mp (List.takeWhile_prefix _)]
      exact List.eq_replicate_of_mem fun c hc => by simpa using List.mem_takeWhile_imp hc
    have hsplit := List.take_append_drop (s.takeWhile (· == '\\')).length s
    rw [hfront] at hsplit
    unfold Tag.read at h
    simp only at h
    split at h
    · rename_i c rest hopen
      split at h
      · rename_i after' hclose
        split at h
        · rename_i hstart
          obtain ⟨rfl, rfl⟩ := Prod.mk.inj (Option.some.inj h)
          refine ⟨⟨c, _, rfl, hstart, fun d hd => List.mem_takeWhile_imp hd⟩, ?_⟩
          have hrest := List.takeWhile_append_dropWhile (p := noBracket) (l := rest)
          rw [hclose] at hrest
          rw [hopen, ← hrest] at hsplit
          refine hsplit.symm.trans ?_
          simp only [Tag.written, Tag.bracketed, List.append_assoc, List.cons_append,
            List.nil_append]
        · exact absurd h (by simp)
      · exact absurd h (by simp)
    · exact absurd h (by simp)
  · intro h
    obtain ⟨⟨c, inner, hinside, hstart, hinner⟩, rfl⟩ := h
    obtain ⟨backslashes, inside⟩ := tag
    obtain rfl : inside = c :: inner := hinside
    have htext : Tag.written ⟨backslashes, c :: inner⟩ ++ after =
        List.replicate backslashes '\\' ++ '[' :: c :: (inner ++ ']' :: after) := by
      simp [Tag.written, Tag.bracketed]
    have htake : (List.replicate backslashes '\\' ++ '[' :: c :: (inner ++ ']' :: after)).takeWhile
        (· == '\\') = List.replicate backslashes '\\' :=
      takeWhile_append_stops (by simp) (by simp)
    have hdrop : (inner ++ ']' :: after).dropWhile noBracket = ']' :: after :=
      dropWhile_append_stops hinner (by simp [noBracket])
    have hrun : (inner ++ ']' :: after).takeWhile noBracket = inner :=
      takeWhile_append_stops hinner (by simp [noBracket])
    have hopen : (List.replicate backslashes '\\' ++ '[' :: c :: (inner ++ ']' :: after)).drop
        backslashes = '[' :: c :: (inner ++ ']' :: after) :=
      List.drop_left' List.length_replicate
    rw [htext, Tag.read]
    simp only [htake, List.length_replicate, hopen, hdrop, hrun, hstart, if_true]

/-- What comes after a tag does not matter to it. -/
theorem Tag.read_append {s after : List Char} {tag : Tag} (h : Tag.read s = some (tag, after))
    (rest : List Char) : Tag.read (s ++ rest) = some (tag, after ++ rest) := by
  obtain ⟨hinside, rfl⟩ := Tag.read_eq_some_iff.mp h
  exact Tag.read_eq_some_iff.mpr ⟨hinside, List.append_assoc _ _ _⟩

theorem Tag.written_ne_nil (tag : Tag) : tag.written ≠ [] := by
  simp [Tag.written, Tag.bracketed]

/-- A tag begins with an opening bracket or a backslash. -/
theorem Tag.head?_written (tag : Tag) :
    tag.written.head? = some '[' ∨ tag.written.head? = some '\\' := by
  rw [Tag.written]
  cases tag.backslashes with
  | zero => exact .inl rfl
  | succ backslashes => exact .inr rfl

/-- No tag begins with another character. -/
theorem Tag.read_cons_of_ne {c : Char} (hopen : c ≠ '[') (hback : c ≠ '\\') (s : List Char) :
    Tag.read (c :: s) = none := by
  rw [Option.eq_none_iff_forall_ne_some]
  rintro ⟨tag, after⟩ h
  obtain ⟨-, hs⟩ := Tag.read_eq_some_iff.mp h
  have hhead : tag.written.head? = some c := by
    obtain ⟨d, later, hwritten⟩ := List.exists_cons_of_ne_nil tag.written_ne_nil
    rw [hwritten] at hs ⊢
    obtain ⟨rfl, -⟩ := List.cons.inj hs
    rfl
  rcases tag.head?_written with hbracket | hbackslash
  · exact hopen (Option.some.inj (hhead.symm.trans hbracket))
  · exact hback (Option.some.inj (hhead.symm.trans hbackslash))

/-- An opening bracket begins no tag if the character after it may not. -/
theorem Tag.read_open_of_ne {c : Char} (hc : startsTag c = false) (s : List Char) :
    Tag.read ('[' :: c :: s) = none := by
  rw [Option.eq_none_iff_forall_ne_some]
  rintro ⟨tag, after⟩ h
  obtain ⟨⟨d, inner, hinside, hstart, -⟩, hs⟩ := Tag.read_eq_some_iff.mp h
  rw [Tag.written, Tag.bracketed, hinside] at hs
  cases hback : tag.backslashes with
  | zero =>
    rw [hback] at hs
    simp only [List.replicate_zero, List.nil_append, List.cons_append, List.cons.injEq, true_and]
      at hs
    obtain ⟨rfl, -⟩ := hs
    rw [hc] at hstart
    exact absurd hstart (by simp)
  | succ backslashes =>
    rw [hback] at hs
    simp [List.replicate_succ] at hs

/-! ## Segments -/

theorem segments_of_read {s after : List Char} {tag : Tag} (h : Tag.read s = some (tag, after)) :
    segments s = .tag tag :: segments after := by
  cases s with
  | nil => exact absurd h (by simp [Tag.read])
  | cons c s =>
    rw [segments]
    split
    · rename_i found
      rw [h] at found
      obtain ⟨rfl, rfl⟩ := Prod.mk.inj (Option.some.inj found)
      rfl
    · rename_i found
      rw [h] at found
      exact absurd found (by simp)

theorem segments_of_none {c : Char} {s : List Char} (h : Tag.read (c :: s) = none) :
    segments (c :: s) = Segment.cons c (segments s) := by
  rw [segments]
  split
  · rename_i found
    rw [h] at found
    exact absurd found (by simp)
  · rfl

/-- Texts are gone through as they are cut into segments. -/
theorem segments_induction {motive : List Char → Prop} (nil : motive [])
    (tag : ∀ s after tag, Tag.read s = some (tag, after) → motive after → motive s)
    (text : ∀ c s, Tag.read (c :: s) = none → motive s → motive (c :: s)) (s : List Char) :
    motive s := by
  fun_induction segments s with
  | case1 => exact nil
  | case2 c rest given after hread ih => exact tag _ _ _ hread ih
  | case3 c rest hread ih => exact text _ _ hread ih

/-! ## Live tags -/

/-- The tag that a segment is, unless it is escaped. -/
def Segment.live? : Segment → Option Tag
  | .text _ => none
  | .tag given => if given.isEscaped then none else some given

/-- The tags of a text that are not escaped, in order. -/
def liveTags (s : List Char) : List Tag := (segments s).filterMap Segment.live?

@[simp] theorem liveTags_nil : liveTags [] = [] := by simp [liveTags, segments]

theorem Segment.live?_of_escaped {tag : Tag} (h : tag.isEscaped = true) :
    Segment.live? (.tag tag) = none :=
  if_pos h

theorem Segment.live?_of_live {tag : Tag} (h : ¬tag.isEscaped = true) :
    Segment.live? (.tag tag) = some tag :=
  if_neg h

theorem liveTags_of_read {s after : List Char} {tag : Tag} (h : Tag.read s = some (tag, after)) :
    liveTags s = (if tag.isEscaped then none else some tag).toList ++ liveTags after := by
  rw [liveTags, segments_of_read h, List.filterMap_cons, liveTags, Segment.live?]
  cases tag.isEscaped with
  | true => rfl
  | false => rfl

theorem filterMap_live_cons (c : Char) (parts : List Segment) :
    (Segment.cons c parts).filterMap Segment.live? = parts.filterMap Segment.live? := by
  cases parts with
  | nil => simp [Segment.cons, Segment.live?]
  | cons part later =>
    cases part with
    | text run => simp [Segment.cons, List.filterMap_cons, Segment.live?]
    | tag given => simp [Segment.cons, List.filterMap_cons, Segment.live?]

theorem liveTags_of_none {c : Char} {s : List Char} (h : Tag.read (c :: s) = none) :
    liveTags (c :: s) = liveTags s := by
  rw [liveTags, segments_of_none h, filterMap_live_cons, liveTags]

theorem liveTags_cons_of_ne {c : Char} (hopen : c ≠ '[') (hback : c ≠ '\\') (s : List Char) :
    liveTags (c :: s) = liveTags s :=
  liveTags_of_none (Tag.read_cons_of_ne hopen hback s)

/-- Characters that neither begin a tag nor escape one. -/
theorem liveTags_append_of_inert {front : List Char} (h : ∀ c ∈ front, c ≠ '[' ∧ c ≠ '\\')
    (s : List Char) : liveTags (front ++ s) = liveTags s := by
  induction front with
  | nil => rfl
  | cons c front ih =>
    obtain ⟨hc, hfront⟩ := List.forall_mem_cons.mp h
    rw [List.cons_append, liveTags_cons_of_ne hc.1 hc.2, ih hfront]

/-- Where no bracket opens there is no tag. -/
theorem liveTags_eq_nil {s : List Char} (h : '[' ∉ s) : liveTags s = [] := by
  induction s using segments_induction with
  | nil => exact liveTags_nil
  | tag s after given hread _ =>
    obtain ⟨-, rfl⟩ := Tag.read_eq_some_iff.mp hread
    exact absurd (by simp [Tag.written, Tag.bracketed]) h
  | text c s hread ih =>
    rw [liveTags_of_none hread, ih fun hmem => h (List.mem_cons_of_mem _ hmem)]

/-- A bracket in front of a character that begins no tag. -/
theorem liveTags_open_of_ne {c : Char} (hc : startsTag c = false) (s : List Char) :
    liveTags ('[' :: c :: s) = liveTags (c :: s) :=
  liveTags_of_none (Tag.read_open_of_ne hc s)

/-- A tag that is put before a text and not escaped is live. -/
theorem liveTags_bracketed_append {inside : List Char} (h : IsInside inside) (s : List Char) :
    liveTags ('[' :: inside ++ ']' :: s) = ⟨0, inside⟩ :: liveTags s := by
  have hread : Tag.read ('[' :: inside ++ ']' :: s) = some (⟨0, inside⟩, s) :=
    Tag.read_eq_some_iff.mpr ⟨h, by simp [Tag.written, Tag.bracketed]⟩
  exact liveTags_of_read hread

/-! ## Faults -/

section Faults

variable {α β : Type}

/-- Steps that succeed one after the other succeed each. -/
theorem bind_eq_ok_iff {first : Except MarkupFault α} {next : α → Except MarkupFault β}
    {result : β} : (first >>= next) = .ok result ↔ ∃ value, first = .ok value ∧
      next value = .ok result := by
  cases first with
  | error fault => simp [bind, Except.bind]
  | ok value => simp [bind, Except.bind]

/-- A step whose value is only changed succeeds as the step does. -/
theorem exists_bind_pure_iff {first : Except MarkupFault α} {f : α → β} :
    (∃ result, (first >>= fun value => return f value) = .ok result) ↔
      ∃ value, first = .ok value := by
  cases first with
  | error fault => simp [bind, Except.bind]
  | ok value => simp [bind, Except.bind, pure, Except.pure]

end Faults

/-- Segments can be rendered just if the styles of their live tags can be set and ended. -/
theorem exists_renderFrom_iff (styles : List SetStyle) (parts : List Segment) :
    (∃ shown, renderFrom styles parts = .ok shown) ↔
      ∃ later, (parts.filterMap Segment.live?).foldlM afterTag styles = .ok later := by
  induction parts generalizing styles with
  | nil => exact ⟨fun _ => ⟨styles, rfl⟩, fun _ => ⟨[], rfl⟩⟩
  | cons part later ih =>
    cases part with
    | text run => rw [List.filterMap_cons_none rfl, ← ih styles, renderFrom, exists_bind_pure_iff]
    | tag given =>
      rw [renderFrom]
      by_cases hescaped : given.isEscaped = true
      · rw [List.filterMap_cons_none (Segment.live?_of_escaped hescaped), ← ih styles]
        simp only [hescaped, if_true, exists_bind_pure_iff]
      · rw [List.filterMap_cons_some (Segment.live?_of_live hescaped), List.foldlM_cons]
        simp only [if_neg hescaped]
        cases afterTag styles given with
        | error fault => simp [bind, Except.bind]
        | ok styles' => exact exists_bind_pure_iff.trans (ih styles')

/-- Live tags are looked up, one after the other. -/
theorem forM_lookUp_eq_ok_iff {parts : List Segment} :
    parts.forM Segment.lookUp = .ok () ↔
      ∀ tag ∈ parts.filterMap Segment.live?, tag.lookUp = .ok () := by
  induction parts with
  | nil => simp [pure, Except.pure]
  | cons part later ih =>
    show (part.lookUp >>= fun _ => later.forM Segment.lookUp) = .ok () ↔ _
    have hfirst : (part.lookUp >>= fun _ => later.forM Segment.lookUp) = .ok () ↔
        part.lookUp = .ok () ∧ later.forM Segment.lookUp = .ok () := by
      rw [bind_eq_ok_iff]
      exact ⟨fun ⟨(), h⟩ => h, fun h => ⟨(), h⟩⟩
    rw [hfirst, ih]
    cases part with
    | text run => rw [List.filterMap_cons_none rfl, Segment.lookUp, eq_self, true_and]
    | tag given =>
      by_cases hescaped : given.isEscaped = true
      · rw [List.filterMap_cons_none (Segment.live?_of_escaped hescaped), Segment.lookUp,
          if_pos hescaped, eq_self, true_and]
      · rw [List.filterMap_cons_some (Segment.live?_of_live hescaped), List.forall_mem_cons,
          Segment.lookUp, if_neg hescaped]

/-- **Faults.** A text can be shown just if the styles of its live tags can be set and ended in
their order, and each live tag can be looked up. -/
theorem exists_render_iff {markup : String} :
    (∃ shown, render markup = .ok shown) ↔
      (∃ styles, (liveTags markup.toList).foldlM afterTag [] = .ok styles) ∧
        ∀ tag ∈ liveTags markup.toList, tag.lookUp = .ok () := by
  have hrendered := exists_renderFrom_iff [] (segments markup.toList)
  unfold liveTags
  rw [← hrendered, ← forM_lookUp_eq_ok_iff]
  simp only [render, bind_eq_ok_iff]
  constructor
  · rintro ⟨shown, value, hvalue, ⟨⟩, hlook, -⟩
    exact ⟨⟨value, hvalue⟩, hlook⟩
  · rintro ⟨⟨value, hvalue⟩, hlook⟩
    exact ⟨_, value, hvalue, (), hlook, rfl⟩

end EntityScaffold.Console
