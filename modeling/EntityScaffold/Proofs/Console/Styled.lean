import EntityScaffold.Proofs.Console.Shown

/-!
# Styled words

A word between a tag that sets a style and one that ends it is shown as if the tags were not there,
if the word holds nothing but inert characters: after it the styles are those before it.
-/

namespace EntityScaffold.Console

/-! ## Inert fronts -/

theorem renderFrom_cons {c : Char} (hback : c ≠ '\\') (styles : List SetStyle)
    (parts : List Segment) :
    renderFrom styles (Segment.cons c parts) = (c :: ·) <$> renderFrom styles parts := by
  have hdrop : ∀ run, dropBackslashes (c :: run) = c :: dropBackslashes run := by
    intro run
    rw [dropBackslashes]
    exact fun rest hc => absurd hc hback
  have hfront : ∀ later, renderFrom styles (.text [c] :: later) =
      (c :: ·) <$> renderFrom styles later := by
    intro later
    rw [renderFrom, hdrop, dropBackslashes]
    rfl
  cases parts with
  | nil => exact hfront []
  | cons part later =>
    cases part with
    | text run =>
      show renderFrom styles (.text (c :: run) :: later) = _
      rw [renderFrom, renderFrom, hdrop]
      cases renderFrom styles later <;> rfl
    | tag given => exact hfront _

theorem forM_lookUp_cons (c : Char) (parts : List Segment) :
    (Segment.cons c parts).forM Segment.lookUp = parts.forM Segment.lookUp := by
  cases parts with
  | nil => rfl
  | cons part later =>
    cases part with
    | text run => rfl
    | tag given => rfl

section Front

variable {front : List Char}

/-- An inert text is shown in front of what comes after it. -/
theorem renderFrom_append_of_inert (h : Inert front) (styles : List SetStyle) (s : List Char) :
    renderFrom styles (segments (front ++ s)) =
      (front ++ ·) <$> renderFrom styles (segments s) := by
  induction front with
  | nil => simp
  | cons c front ih =>
    obtain ⟨hc, hfront⟩ := List.forall_mem_cons.mp h
    obtain ⟨hopen, -, hback, -⟩ := isInert_iff.mp hc
    rw [List.cons_append, segments_of_none (Tag.read_cons_of_ne hopen hback _),
      renderFrom_cons hback, ih hfront]
    cases renderFrom styles (segments s) <;> rfl

theorem forM_lookUp_append_of_inert (h : Inert front) (s : List Char) :
    (segments (front ++ s)).forM Segment.lookUp = (segments s).forM Segment.lookUp := by
  induction front with
  | nil => rfl
  | cons c front ih =>
    obtain ⟨hc, hfront⟩ := List.forall_mem_cons.mp h
    obtain ⟨hopen, -, hback, -⟩ := isInert_iff.mp hc
    rw [List.cons_append, segments_of_none (Tag.read_cons_of_ne hopen hback _),
      forM_lookUp_cons, ih hfront]

end Front

/-! ## Tags around a word -/

theorem segments_bracketed {inside : List Char} (h : IsInside inside) (s : List Char) :
    segments ('[' :: inside ++ ']' :: s) = .tag ⟨0, inside⟩ :: segments s :=
  segments_of_read (Tag.read_eq_some_iff.mpr ⟨h, by simp [Tag.written, Tag.bracketed]⟩)

/-- A style that one tag sets and another one ends, whatever stands before this one. -/
structure IsStyle (style : List Char) : Prop where
  inside : IsInside style
  insideEnd : IsInside ('/' :: style)
  sets : ∀ styles, ∃ set, afterTag styles ⟨0, style⟩ = .ok (set :: styles) ∧
    ∀ backslashes, afterTag (set :: styles) ⟨backslashes, '/' :: style⟩ = .ok styles
  lookUp : Tag.lookUp ⟨0, style⟩ = .ok ()
  lookUpEnd : ∀ backslashes, Tag.lookUp ⟨backslashes, '/' :: style⟩ = .ok ()

/-- Styles that are in use. -/
theorem isStyle_of_mem : ∀ style ∈ ["bold", "cyan", "dim", "magenta"], IsStyle style.toList := by
  simp only [List.forall_mem_cons]
  refine ⟨?_, ?_, ?_, ?_, by simp⟩ <;>
    exact ⟨⟨_, _, rfl, by decide, by decide⟩, ⟨_, _, rfl, by decide, by decide⟩,
      fun styles => ⟨_, rfl, fun backslashes => rfl⟩, rfl, fun backslashes => rfl⟩

/-- A word with a style around it. -/
def inStyle (style word : List Char) : List Char :=
  '[' :: style ++ ']' :: (word ++ ('[' :: '/' :: style ++ [']']))

section Styled

variable {style word : List Char}

theorem inStyle_append (style word rest : List Char) :
    inStyle style word ++ rest =
      '[' :: style ++ ']' :: (word ++ ('[' :: ('/' :: style) ++ ']' :: rest)) := by
  simp [inStyle]

/-- The live tags of a styled word are the two around it. -/
theorem liveTags_inStyle_append (hstyle : IsStyle style) (hword : Inert word) (rest : List Char) :
    liveTags (inStyle style word ++ rest) =
      [⟨0, style⟩, ⟨0, '/' :: style⟩] ++ liveTags rest := by
  rw [inStyle_append, liveTags_bracketed_append hstyle.inside,
    liveTags_append_of_inert_left hword, liveTags_bracketed_append hstyle.insideEnd]
  rfl

/-- A styled word is shown like one without a style. -/
theorem renderFrom_inStyle_append (hstyle : IsStyle style) (hword : Inert word)
    (styles : List SetStyle) (rest : List Char) :
    renderFrom styles (segments (inStyle style word ++ rest)) =
      renderFrom styles (segments (word ++ rest)) := by
  obtain ⟨set, hsets, hends⟩ := hstyle.sets styles
  have hset : ∀ (styles styles' : List SetStyle) (inside : List Char) (later : List Segment),
      afterTag styles ⟨0, inside⟩ = .ok styles' →
        renderFrom styles (.tag ⟨0, inside⟩ :: later) = renderFrom styles' later := by
    intro styles styles' inside later h
    rw [renderFrom]
    simp only [Tag.isEscaped, h]
    cases hlater : renderFrom styles' later <;> simp [bind, Except.bind, pure, Except.pure, hlater]
  rw [inStyle_append, segments_bracketed hstyle.inside, hset _ _ _ _ hsets,
    renderFrom_append_of_inert hword, segments_bracketed hstyle.insideEnd, hset _ _ _ _ (hends 0),
    renderFrom_append_of_inert hword]

theorem forM_lookUp_inStyle_append (hstyle : IsStyle style) (hword : Inert word)
    (rest : List Char) :
    (segments (inStyle style word ++ rest)).forM Segment.lookUp =
      (segments (word ++ rest)).forM Segment.lookUp := by
  have hlook : ∀ (inside : List Char) (later : List Segment), Tag.lookUp ⟨0, inside⟩ = .ok () →
      (Segment.tag ⟨0, inside⟩ :: later).forM Segment.lookUp = later.forM Segment.lookUp := by
    intro inside later h
    show (Segment.lookUp (.tag ⟨0, inside⟩) >>= fun _ => later.forM Segment.lookUp) = _
    simp only [Segment.lookUp, Tag.isEscaped, h]
    rfl
  rw [inStyle_append, segments_bracketed hstyle.inside, hlook _ _ hstyle.lookUp,
    forM_lookUp_append_of_inert hword, segments_bracketed hstyle.insideEnd,
    hlook _ _ (hstyle.lookUpEnd 0), forM_lookUp_append_of_inert hword]

/-- **Styled words.** A text that begins with a styled word is shown as if the word were not
styled. -/
theorem render_inStyle_append (hstyle : IsStyle style) (hword : Inert word) {markup plain : String}
    {rest : List Char} (hmarkup : markup.toList = inStyle style word ++ rest)
    (hplain : plain.toList = word ++ rest) : render markup = render plain := by
  rw [render, render, hmarkup, hplain, renderFrom_inStyle_append hstyle hword,
    forM_lookUp_inStyle_append hstyle hword]

end Styled

/-! ## Tags that cause no fault -/

/-- Tags that can be passed whatever styles are set. -/
structure Unfailing (tags : List Tag) : Prop where
  runs : ∀ styles, ∃ later, tags.foldlM afterTag styles = .ok later
  lookUp : ∀ tag ∈ tags, tag.lookUp = .ok ()

theorem unfailing_nil : Unfailing [] := ⟨fun styles => ⟨styles, rfl⟩, by simp⟩

theorem Unfailing.append {tags more : List Tag} (h : Unfailing tags) (hmore : Unfailing more) :
    Unfailing (tags ++ more) := by
  refine ⟨fun styles => ?_, List.forall_mem_append.mpr ⟨h.lookUp, hmore.lookUp⟩⟩
  obtain ⟨middle, hmiddle⟩ := h.runs styles
  obtain ⟨later, hlater⟩ := hmore.runs middle
  refine ⟨later, ?_⟩
  rw [List.foldlM_append]
  exact bind_eq_ok_iff.mpr ⟨middle, hmiddle, hlater⟩

/-- A style may be set and not be ended. -/
theorem IsStyle.unfailing_open {style : List Char} (h : IsStyle style) :
    Unfailing [⟨0, style⟩] := by
  refine ⟨fun styles => ?_, by simpa using h.lookUp⟩
  obtain ⟨set, hsets, -⟩ := h.sets styles
  exact ⟨_, bind_eq_ok_iff.mpr ⟨_, hsets, rfl⟩⟩

theorem IsStyle.unfailing {style : List Char} (h : IsStyle style) (backslashes : Nat) :
    Unfailing [⟨0, style⟩, ⟨backslashes, '/' :: style⟩] := by
  refine ⟨fun styles => ?_, by simpa using ⟨h.lookUp, h.lookUpEnd backslashes⟩⟩
  obtain ⟨set, hsets, hends⟩ := h.sets styles
  refine ⟨styles, bind_eq_ok_iff.mpr ⟨_, hsets, ?_⟩⟩
  exact bind_eq_ok_iff.mpr ⟨_, hends backslashes, rfl⟩

theorem Unfailing.canShow {markup : String} (h : Unfailing (liveTags markup.toList)) :
    CanShow markup :=
  exists_render_iff.mpr ⟨h.runs [], h.lookUp⟩

end EntityScaffold.Console
