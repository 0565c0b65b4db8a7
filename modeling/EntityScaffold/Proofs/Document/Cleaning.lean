import EntityScaffold.Document.Cleaning
import EntityScaffold.Proofs.Document.Scan
import EntityScaffold.Proofs.Document.Stripping

/-!
# Exactly the comments are taken out

A text can be taken apart in one way only so that each comment ends with its first closing, no
comment is opened in what is kept before one, and none that is opened in the rest is closed
(`Layout.IsExact`). The first opening of a text decides where its first comment begins
(`opening_unique`) and the first closing after it where it ends (`EndsClosing.unique`); an induction
on the stretches does the rest (`Layout.IsExact.unique`).

`Layout.ofText` takes a text apart in this way (`Layout.isExact_ofText`). To pass over comments
where they can be read keeps what this layout keeps (`withoutComments_eq`), and so does the loop
that collects slices: its invariant is that it stands at the end of a comment and has collected what
is kept before it (`Cleaning.finish_foldl`).
-/

namespace EntityScaffold.Document

open Text

/-! ## Comments -/

/-- A text ends with a closing and holds no other. -/
structure EndsClosing (s : List Char) : Prop where
  ends : closing <:+ s
  first : ∀ before after, s = before ++ (closing ++ after) → after = []

/-- A block comment: an opening and what follows it up to the end of the first closing. -/
def IsComment (comment : List Char) : Prop :=
  ∃ inside, comment = opening ++ inside ∧ EndsClosing inside

/-- A text goes up to the end of its first closing in one way only. -/
theorem EndsClosing.unique {a b x y : List Char} (ha : EndsClosing a) (hb : EndsClosing b)
    (h : a ++ x = b ++ y) : a = b ∧ x = y := by
  have hshort : ∀ {a b more : List Char}, EndsClosing a → EndsClosing b → b = a ++ more →
      more = [] := by
    intro a b more ha hb hsplit
    obtain ⟨before, rfl⟩ := ha.ends
    exact hb.first before more (by rw [hsplit, List.append_assoc])
  rcases List.append_eq_append_iff.mp h with ⟨more, hsplit, hrest⟩ | ⟨more, hsplit, hrest⟩
  · obtain rfl := hshort ha hb hsplit
    exact ⟨by rw [hsplit, List.append_nil], hrest⟩
  · obtain rfl := hshort hb ha hsplit
    exact ⟨by rw [hsplit, List.append_nil], hrest.symm⟩

/-- A text has its first opening in one place only. -/
theorem opening_unique {a b x y : List Char} (ha : Avoids opening a) (hb : Avoids opening b)
    (h : a ++ (opening ++ x) = b ++ (opening ++ y)) : a = b ∧ x = y := by
  have hshort : ∀ {a b x y more : List Char}, Avoids opening b → b = a ++ more →
      opening ++ x = more ++ (opening ++ y) → more = [] := by
    intro a b x y more hb hsplit hmore
    match more with
    | [] => rfl
    | [c] =>
      -- the star of the one opening would be the slash of the other
      obtain ⟨-, hstar⟩ := List.cons.inj hmore
      exact absurd (List.cons.inj hstar).1 (by decide)
    | c :: d :: more =>
      obtain ⟨rfl, hrest⟩ := List.cons.inj hmore
      obtain ⟨rfl, -⟩ := List.cons.inj hrest
      exact absurd ⟨a, more, by rw [hsplit]; simp [opening]⟩ hb
  rcases List.append_eq_append_iff.mp h with ⟨more, hsplit, hrest⟩ | ⟨more, hsplit, hrest⟩
  · obtain rfl := hshort hb hsplit hrest
    exact ⟨by rw [hsplit, List.append_nil], List.append_cancel_left hrest⟩
  · obtain rfl := hshort ha hsplit hrest
    exact ⟨by rw [hsplit, List.append_nil], (List.append_cancel_left hrest).symm⟩

/-- What is cut off goes up to the end of the first closing. -/
theorem endsClosing_of_cutAfterClosing {s inside rest : List Char}
    (h : cutAfterClosing s = some (inside, rest)) : EndsClosing inside := by
  fun_induction cutAfterClosing s generalizing inside with
  | case1 r =>
    obtain ⟨rfl, rfl⟩ : closing = inside ∧ r = rest := by simpa using h
    refine ⟨List.suffix_rfl, fun before after hsplit => ?_⟩
    have hlength := congrArg List.length hsplit
    simp only [List.length_append] at hlength
    exact List.length_eq_zero_iff.mp (by omega)
  | case2 c r hno ih =>
    obtain ⟨⟨inside', rest'⟩, hfound, hsame⟩ := Option.map_eq_some_iff.mp h
    obtain ⟨rfl, rfl⟩ : c :: inside' = inside ∧ rest' = rest := by simpa using hsame
    have hlater := ih hfound
    refine ⟨hlater.ends.trans (List.suffix_cons c inside'), fun before after hsplit => ?_⟩
    cases before with
    | nil =>
      -- it would have been cut off here
      obtain ⟨rfl, hrest⟩ := List.cons.inj hsplit
      have hr := cutAfterClosing_append hfound
      rw [hrest] at hr
      exact absurd hr.symm (hno _ rfl)
    | cons d before => exact hlater.first before after (List.cons.inj hsplit).2
  | case3 => simp at h

/-- A text is cut just after its first closing. -/
theorem cutAfterClosing_eq_some_iff {s inside rest : List Char} :
    cutAfterClosing s = some (inside, rest) ↔ EndsClosing inside ∧ s = inside ++ rest := by
  constructor
  · intro h
    exact ⟨endsClosing_of_cutAfterClosing h, (cutAfterClosing_append h).symm⟩
  · intro h
    obtain ⟨hinside, rfl⟩ := h
    cases hcut : cutAfterClosing (inside ++ rest) with
    | none =>
      have hfound : closing <:+: inside ++ rest :=
        hinside.ends.isInfix.trans (List.prefix_append _ _).isInfix
      exact absurd hfound (cutAfterClosing_eq_none_iff.mp hcut)
    | some found =>
      obtain ⟨inside', rest'⟩ := found
      obtain ⟨rfl, rfl⟩ :=
        (endsClosing_of_cutAfterClosing hcut).unique hinside (cutAfterClosing_append hcut)
      rfl

/-- A comment is taken off exactly the texts that begin with one. -/
theorem readComment_eq_some_iff {s comment rest : List Char} :
    readComment s = some (comment, rest) ↔ IsComment comment ∧ s = comment ++ rest := by
  simp only [readComment, Option.bind_eq_bind, Option.bind_eq_some_iff, Prod.exists,
    Option.pure_def, Option.some.injEq, Prod.mk.injEq, readLiteral_eq_some_iff,
    cutAfterClosing_eq_some_iff]
  constructor
  · intro h
    obtain ⟨s', rfl, inside, rest', ⟨hinside, rfl⟩, rfl, rfl⟩ := h
    exact ⟨⟨inside, rfl, hinside⟩, by rw [List.append_assoc]⟩
  · intro h
    obtain ⟨⟨inside, rfl, hinside⟩, rfl⟩ := h
    exact ⟨inside ++ rest, by rw [List.append_assoc], inside, rest, ⟨hinside, rfl⟩, rfl, rfl⟩

/-! ## The one way to take a text apart -/

/-- After no opening in a text comes a closing. -/
def ClosesNoComment (s : List Char) : Prop :=
  ∀ before after, s = before ++ (opening ++ after) → Avoids closing after

/-- A text is taken apart at its comments: each goes up to the end of its first closing, and no
other opening comes before a closing. -/
structure Layout.IsExact (layout : Layout) : Prop where
  comments : ∀ stretch ∈ layout.stretches, IsComment stretch.comment
  kept : ∀ stretch ∈ layout.stretches, Avoids opening stretch.kept
  rest : ClosesNoComment layout.rest

theorem not_closesNoComment {kept comment : List Char} (hcomment : IsComment comment)
    (rest : List Char) : ¬ClosesNoComment (kept ++ (comment ++ rest)) := by
  intro h
  obtain ⟨inside, rfl, hinside⟩ := hcomment
  have hfound : closing <:+: inside ++ rest :=
    hinside.ends.isInfix.trans (List.prefix_append _ _).isInfix
  exact h kept (inside ++ rest) (by rw [List.append_assoc]) hfound

/-- The first comment of a text, and what is kept before it. -/
theorem isComment_of_cutComment {s kept comment rest : List Char}
    (h : cutComment s = some (kept, comment, rest)) : Avoids opening kept ∧ IsComment comment := by
  fun_induction cutComment s generalizing kept with
  | case1 r =>
    obtain ⟨⟨inside, rest'⟩, hfound, hsame⟩ := Option.map_eq_some_iff.mp h
    obtain ⟨rfl, rfl, rfl⟩ : [] = kept ∧ opening ++ inside = comment ∧ rest' = rest := by
      simpa using hsame
    have hnil : Avoids opening [] := by decide
    exact ⟨hnil, inside, rfl, endsClosing_of_cutAfterClosing hfound⟩
  | case2 c r hno ih =>
    obtain ⟨⟨kept', comment', rest'⟩, hfound, hsame⟩ := Option.map_eq_some_iff.mp h
    obtain ⟨rfl, rfl, rfl⟩ : c :: kept' = kept ∧ comment' = comment ∧ rest' = rest := by
      simpa using hsame
    obtain ⟨hkept, hcomment⟩ := ih hfound
    refine ⟨fun hopening => ?_, hcomment⟩
    rcases List.infix_cons_iff.mp hopening with ⟨after, hfront⟩ | hlater
    · -- the comment would begin here
      obtain ⟨rfl, hrest⟩ := List.cons.inj hfront
      have hr := cutComment_append hfound
      rw [← hrest] at hr
      exact hno _ rfl hr.symm
    · exact hkept hlater
  | case3 => simp at h

/-- A text has no comment just if no opening in it is closed. -/
theorem cutComment_eq_none_iff {s : List Char} : cutComment s = none ↔ ClosesNoComment s := by
  constructor
  · intro h
    fun_induction cutComment s with
    | case1 r =>
      have hopen : Avoids closing r := cutAfterClosing_eq_none_iff.mp (by simpa using h)
      intro before after hsplit
      -- all that is after an opening of the text is after this one
      have hafter : after <:+ r := by
        rcases before with _ | ⟨c, _ | ⟨d, before⟩⟩
        · exact ⟨[], (List.cons.inj (List.cons.inj hsplit).2).2.symm⟩
        · exact absurd (List.cons.inj (List.cons.inj hsplit).2).1 (by decide)
        · rw [List.cons_append, List.cons_append] at hsplit
          have hr := (List.cons.inj (List.cons.inj hsplit).2).2
          exact ⟨before ++ opening, by rw [hr, List.append_assoc]⟩
      exact hopen.of_infix hafter.isInfix
    | case2 c r hno ih =>
      have hlater : ClosesNoComment r := ih (by simpa using h)
      intro before after hsplit
      cases before with
      | nil =>
        obtain ⟨rfl, hr⟩ := List.cons.inj hsplit
        exact absurd hr (hno _ rfl)
      | cons d before => exact hlater before after (List.cons.inj hsplit).2
    | case3 =>
      intro before after hsplit
      exact absurd hsplit (by simp [opening])
  · intro h
    cases hcut : cutComment s with
    | none => rfl
    | some found =>
      obtain ⟨kept, comment, rest⟩ := found
      have hs := cutComment_append hcut
      rw [← hs, List.append_assoc] at h
      exact absurd h (not_closesNoComment (isComment_of_cutComment hcut).2 rest)

theorem Layout.isExact_ofText (text : List Char) : (Layout.ofText text).IsExact := by
  induction text using Layout.ofText.induct with
  | case1 text hnone =>
    rw [Layout.ofText_of_none hnone]
    exact ⟨by simp, by simp, cutComment_eq_none_iff.mp hnone⟩
  | case2 text kept comment after hsome ih =>
    obtain ⟨hkept, hcomment⟩ := isComment_of_cutComment hsome
    rw [Layout.ofText_of_some hsome]
    exact ⟨List.forall_mem_cons.mpr ⟨hcomment, ih.comments⟩,
      List.forall_mem_cons.mpr ⟨hkept, ih.kept⟩, ih.rest⟩

theorem Layout.text_cons (stretch : Stretch) (later : List Stretch) (rest : List Char) :
    Layout.text ⟨stretch :: later, rest⟩ =
      stretch.kept ++ (stretch.comment ++ Layout.text ⟨later, rest⟩) := by
  simp [Layout.text]

/-- **One way.** A text is taken apart at its comments in one way only. -/
theorem Layout.IsExact.unique {layout other : Layout} (h : layout.IsExact) (h' : other.IsExact)
    (hsame : layout.text = other.text) : layout = other := by
  obtain ⟨stretches, rest⟩ := layout
  obtain ⟨stretches', rest'⟩ := other
  induction stretches generalizing stretches' with
  | nil =>
    cases stretches' with
    | nil =>
      obtain rfl : rest = rest' := hsame
      rfl
    | cons stretch' later' =>
      have hrest : ClosesNoComment (Layout.text ⟨[], rest⟩) := h.rest
      rw [hsame, Layout.text_cons] at hrest
      exact absurd hrest (not_closesNoComment (h'.comments stretch' List.mem_cons_self) _)
  | cons stretch later ih =>
    cases stretches' with
    | nil =>
      have hrest : ClosesNoComment (Layout.text ⟨[], rest'⟩) := h'.rest
      rw [← hsame, Layout.text_cons] at hrest
      exact absurd hrest (not_closesNoComment (h.comments stretch List.mem_cons_self) _)
    | cons stretch' later' =>
      obtain ⟨kept, comment⟩ := stretch
      obtain ⟨kept', comment'⟩ := stretch'
      obtain ⟨hcomment, hcomments⟩ := List.forall_mem_cons.mp h.comments
      obtain ⟨hcomment', hcomments'⟩ := List.forall_mem_cons.mp h'.comments
      obtain ⟨hkept, hkepts⟩ := List.forall_mem_cons.mp h.kept
      obtain ⟨hkept', hkepts'⟩ := List.forall_mem_cons.mp h'.kept
      obtain ⟨inside, rfl, hinside⟩ := hcomment
      obtain ⟨inside', rfl, hinside'⟩ := hcomment'
      simp only [Layout.text_cons, List.append_assoc] at hsame
      obtain ⟨rfl, hafter⟩ := opening_unique hkept hkept' hsame
      obtain ⟨rfl, hlater⟩ := hinside.unique hinside' hafter
      have hlayouts := ih ⟨hcomments, hkepts, h.rest⟩ later' ⟨hcomments', hkepts', h'.rest⟩ hlater
      obtain ⟨rfl, rfl⟩ : later = later' ∧ rest = rest' := by simpa using hlayouts
      rfl

/-! ## Passing over comments -/

/-- Characters that are to be passed over are passed over. -/
theorem keptFrom_append_of_skip (skipped rest : List Char) :
    keptFrom skipped.length (skipped ++ rest) = keptFrom 0 rest := by
  induction skipped with
  | nil => rfl
  | cons c skipped ih =>
    rw [List.cons_append, List.length_cons, keptFrom, ih]

/-- A part at no position of which a comment can be read is kept. -/
theorem keptFrom_append_of_dead {part rest : List Char}
    (h : ∀ t, t ≠ [] → t <:+ part → readComment (t ++ rest) = none) :
    keptFrom 0 (part ++ rest) = part ++ keptFrom 0 rest := by
  induction part with
  | nil => rfl
  | cons c part ih =>
    have hnone : readComment (c :: (part ++ rest)) = none := h (c :: part) (by simp) List.suffix_rfl
    have hlater : ∀ t, t ≠ [] → t <:+ part → readComment (t ++ rest) = none :=
      fun t hne ht => h t hne (ht.trans (List.suffix_cons c part))
    rw [List.cons_append, keptFrom, hnone]
    exact congrArg (c :: ·) (ih hlater)

/-- A comment is not kept. -/
theorem keptFrom_comment_append {comment : List Char} (h : IsComment comment) (rest : List Char) :
    keptFrom 0 (comment ++ rest) = keptFrom 0 rest := by
  have hread := readComment_eq_some_iff.mpr ⟨h, Eq.refl (comment ++ rest)⟩
  obtain ⟨inside, rfl, -⟩ := h
  have hskip : ('*' :: (inside ++ rest)).length - rest.length = ('*' :: inside).length := by
    simp only [List.length_cons, List.length_append]
    omega
  have hfront : opening ++ inside ++ rest = '/' :: '*' :: (inside ++ rest) := rfl
  rw [hfront] at hread ⊢
  rw [keptFrom, hread]
  simp only [hskip]
  exact keptFrom_append_of_skip ('*' :: inside) rest

/-- Nowhere in what is kept before the first comment of a text a comment can be read. -/
theorem readComment_eq_none_of_kept {kept comment : List Char} (hkept : Avoids opening kept)
    (hcomment : IsComment comment) (rest : List Char) :
    ∀ t, t ≠ [] → t <:+ kept → readComment (t ++ (comment ++ rest)) = none := by
  intro t hne ht
  cases hread : readComment (t ++ (comment ++ rest)) with
  | none => rfl
  | some found =>
    exfalso
    obtain ⟨comment', rest'⟩ := found
    obtain ⟨⟨inside', rfl, -⟩, hsplit⟩ := readComment_eq_some_iff.mp hread
    obtain ⟨inside, rfl, -⟩ := hcomment
    have hnil : Avoids opening [] := by decide
    simp only [List.append_assoc] at hsplit
    exact hne (opening_unique (hkept.of_infix ht.isInfix) hnil hsplit).1

/-- Nowhere in a text without a comment one can be read. -/
theorem readComment_eq_none_of_closesNoComment {text : List Char} (h : ClosesNoComment text) :
    ∀ t, t ≠ [] → t <:+ text → readComment (t ++ []) = none := by
  intro t _ ht
  obtain ⟨before, rfl⟩ := ht
  rw [List.append_nil]
  cases hread : readComment t with
  | none => rfl
  | some found =>
    obtain ⟨hcomment, hsplit⟩ := readComment_eq_some_iff.mp hread
    rw [hsplit] at h
    exact absurd h (not_closesNoComment hcomment _)

/-- To pass over comments keeps what is kept when the text is taken apart. -/
theorem withoutComments_eq (text : List Char) :
    withoutComments text = (Layout.ofText text).plain := by
  show keptFrom 0 text = plainOf text
  induction text using Layout.ofText.induct with
  | case1 text hnone =>
    have hdead := readComment_eq_none_of_closesNoComment (cutComment_eq_none_iff.mp hnone)
    have hkept := keptFrom_append_of_dead hdead
    rw [List.append_nil] at hkept
    rw [plainOf_of_none hnone, hkept]
    exact List.append_nil text
  | case2 text kept comment after hsome ih =>
    obtain ⟨hkept, hcomment⟩ := isComment_of_cutComment hsome
    have htext := cutComment_append hsome
    rw [plainOf_of_some hsome, ← htext, List.append_assoc,
      keptFrom_append_of_dead (readComment_eq_none_of_kept hkept hcomment after),
      keptFrom_comment_append hcomment, ih]

/-! ## Collecting what is between comments -/

/-- **The loop.** It stands at the end of what has been gone through, at a comment or at the start,
and what it has collected is what was kept up to there. What it ends with is that, and what is kept
of the rest. -/
theorem Cleaning.finish_foldl {text done rest : List Char} (htext : text = done ++ rest)
    {state : Cleaning} (hlast : state.last = done.length) :
    (((occurrencesFrom readComment 0 done.length rest).foldl (step text) state).finish text) =
      ⟨state.pieces.flatten ++ (Layout.ofText rest).plain,
        state.removals ++ removalsFrom state.length (Layout.ofText rest).stretches⟩ := by
  induction rest using Layout.ofText.induct generalizing done state with
  | case1 rest hnone =>
    have hdead := readComment_eq_none_of_closesNoComment (cutComment_eq_none_iff.mp hnone)
    have hfound := occurrencesFrom_append_of_dead hdead done.length
    rw [List.append_nil] at hfound
    rw [hfound, Layout.ofText_of_none hnone]
    simp [occurrencesFrom, finish, htext, hlast, Layout.plain, removalsFrom]
  | case2 rest kept comment after hsome ih =>
    obtain ⟨hkept, hcomment⟩ := isComment_of_cutComment hsome
    obtain rfl : kept ++ (comment ++ after) = rest := by
      rw [← cutComment_append hsome, List.append_assoc]
    have hread := readComment_eq_some_iff.mpr ⟨hcomment, Eq.refl (comment ++ after)⟩
    have hne : comment ≠ [] := by
      obtain ⟨inside, rfl, -⟩ := hcomment
      simp [opening]
    -- the next step takes what is kept before the comment, and ends after the comment
    have hpiece : (text.take (done.length + kept.length)).drop state.last = kept := by
      rw [htext, hlast, List.take_length_add_append, List.drop_left, List.take_left]
    have hstep : step text state ⟨done.length + kept.length, comment, comment⟩ =
        ⟨state.pieces ++ [kept], state.removals ++ [⟨state.length + kept.length,
          comment.count '\n'⟩], state.length + kept.length,
          done.length + kept.length + comment.length⟩ := by
      simp only [step, hpiece]
      rfl
    have hlength : done.length + kept.length + comment.length =
        (done ++ (kept ++ comment)).length := by
      simp only [List.length_append]
      omega
    have htext' : text = done ++ (kept ++ comment) ++ after := by
      rw [htext]
      simp only [List.append_assoc]
    rw [occurrencesFrom_append_of_dead (readComment_eq_none_of_kept hkept hcomment after),
      occurrencesFrom_append_of_read hne hread, List.foldl_cons, hstep, hlength, ih htext' rfl,
      Layout.ofText_of_some hsome]
    simp [Layout.plain, removalsFrom]

/-- The loop keeps, and takes out, what is taken apart. -/
theorem clean_eq_strip (text : List Char) : Source.clean text = Source.strip text :=
  Cleaning.finish_foldl (show text = [] ++ text from rfl) rfl

/-- **Exactly the comments.** There is exactly one way to take a text apart so that each comment
goes up to the end of its first closing, nothing is opened in what is kept before a comment, and
nothing that is opened in the rest is closed. Both ways to take comments out keep what it keeps. -/
theorem comments_taken_out_exactly (text : List Char) :
    ∃ layout : Layout, (layout.IsExact ∧ layout.text = text) ∧
      (∀ other : Layout, other.IsExact → other.text = text → other = layout) ∧
      withoutComments text = layout.plain ∧ (Source.clean text).plain = layout.plain ∧
      (Source.clean text).removals = removalsFrom 0 layout.stretches := by
  have hexact := Layout.isExact_ofText text
  have htext := Layout.text_ofText text
  refine ⟨Layout.ofText text, ⟨hexact, htext⟩, ?_, withoutComments_eq text, ?_, ?_⟩
  · intro other hother hsame
    exact hother.unique hexact (hsame.trans htext.symm)
  · rw [clean_eq_strip]
    rfl
  · rw [clean_eq_strip]
    rfl

/-- The closing of the first comment does not share its star with the opening, and the two pieces
that then meet open nothing. -/
example : withoutComments "//*/ */* x */".toList = "/* x */".toList := by
  decide +kernel

end EntityScaffold.Document
