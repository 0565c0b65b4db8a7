import EntityScaffold.Proofs.Document.Comment

/-!
# Taking comments out of a text made of parts

Neither the opening nor the closing of a block comment goes on after a line feed, so the comments of
whole lines can be told without what comes after them, up to one question: does the last opening
have its closing later on? The lines are stripped by themselves if each opening in them has its
closing. If not, the rest of the text decides: its first closing ends the comment, and if there is
none the lines are kept as they are (`plainOf_append_cases`).

Whole lines that are put in between therefore vanish in a comment, or stay where they are put in
(`plainOf_insert`).
-/

namespace EntityScaffold.Document

open Text

/-- The kept part of a text. -/
def plainOf (text : List Char) : List Char := (Layout.ofText text).plain

theorem plain_strip (text : List Char) : (Source.strip text).plain = plainOf text := rfl

theorem plainOf_of_none {text : List Char} (h : cutComment text = none) : plainOf text = text := by
  rw [plainOf, Layout.ofText_of_none h]
  simp [Layout.plain]

theorem plainOf_of_some {text kept comment after : List Char}
    (h : cutComment text = some (kept, comment, after)) : plainOf text = kept ++ plainOf after := by
  rw [plainOf, Layout.ofText_of_some h]
  simp [Layout.plain, plainOf]

/-! ## Cutting a text made of parts -/

theorem cutAfterClosing_cons {c : Char} {s : List Char} (h : c = '*' → s.head? ≠ some '/') :
    cutAfterClosing (c :: s) =
      (cutAfterClosing s).map fun (inside, after) => (c :: inside, after) := by
  rw [cutAfterClosing]
  rintro rest rfl rfl
  exact h rfl rfl

theorem cutComment_cons {c : Char} {s : List Char} (h : c = '/' → s.head? ≠ some '*') :
    cutComment (c :: s) = (cutComment s).map fun (kept, comment) => (c :: kept, comment) := by
  rw [cutComment]
  rintro rest rfl rfl
  exact h rfl rfl

/-- A closing that a part has is the first one of the whole text. -/
theorem cutAfterClosing_append_of_some {part inside after : List Char}
    (h : cutAfterClosing part = some (inside, after)) (rest : List Char) :
    cutAfterClosing (part ++ rest) = some (inside, after ++ rest) := by
  fun_induction cutAfterClosing part generalizing inside with
  | case1 r =>
    obtain ⟨rfl, rfl⟩ : closing = inside ∧ r = after := by simpa using h
    rfl
  | case2 c r hno ih =>
    obtain ⟨⟨inside', after'⟩, hfound, hsame⟩ := Option.map_eq_some_iff.mp h
    obtain ⟨rfl, rfl⟩ : c :: inside' = inside ∧ after' = after := by simpa using hsame
    cases r with
    | nil => simp [cutAfterClosing] at hfound
    | cons d r =>
      rw [List.cons_append, cutAfterClosing_cons, ih hfound]
      · rfl
      · rintro rfl hslash
        obtain rfl : d = '/' := by simpa using hslash
        exact hno r rfl rfl
  | case3 => simp at h

/-- A comment that a part has is the first one of the whole text. -/
theorem cutComment_append_of_some {part kept comment after : List Char}
    (h : cutComment part = some (kept, comment, after)) (rest : List Char) :
    cutComment (part ++ rest) = some (kept, comment, after ++ rest) := by
  fun_induction cutComment part generalizing kept with
  | case1 r =>
    obtain ⟨⟨inside, after'⟩, hfound, hsame⟩ := Option.map_eq_some_iff.mp h
    obtain ⟨rfl, rfl, rfl⟩ : [] = kept ∧ opening ++ inside = comment ∧ after' = after := by
      simpa using hsame
    rw [List.cons_append, List.cons_append, cutComment, cutAfterClosing_append_of_some hfound]
    rfl
  | case2 c r hno ih =>
    obtain ⟨⟨kept', comment', after'⟩, hfound, hsame⟩ := Option.map_eq_some_iff.mp h
    obtain ⟨rfl, rfl, rfl⟩ : c :: kept' = kept ∧ comment' = comment ∧ after' = after := by
      simpa using hsame
    cases r with
    | nil => simp [cutComment] at hfound
    | cons d r =>
      rw [List.cons_append, cutComment_cons, ih hfound]
      · rfl
      · rintro rfl hstar
        obtain rfl : d = '*' := by simpa using hstar
        exact hno r rfl rfl
  | case3 => simp at h

/-- Where two texts meet there is neither an opening nor a closing of a block comment. -/
structure MeetApart (part rest : List Char) : Prop where
  opening : part.getLast? = some '/' → rest.head? ≠ some '*'
  closing : part.getLast? = some '*' → rest.head? ≠ some '/'

theorem meetApart_cons_cons {c d : Char} {part rest : List Char} :
    MeetApart (c :: d :: part) rest ↔ MeetApart (d :: part) rest := by
  constructor
  · intro h
    exact ⟨by simpa using h.opening, by simpa using h.closing⟩
  · intro h
    exact ⟨by simpa using h.opening, by simpa using h.closing⟩

/-- A line feed keeps what is before it apart from what is after it. -/
theorem meetApart_lineFeed (part rest : List Char) : MeetApart (part ++ ['\n']) rest :=
  ⟨by simp, by simp⟩

/-- A part without a closing has nothing to do with the first one of the whole text. -/
theorem cutAfterClosing_append_of_none {part : List Char} (h : cutAfterClosing part = none)
    {rest : List Char} (hmeet : MeetApart part rest) :
    cutAfterClosing (part ++ rest) =
      (cutAfterClosing rest).map fun (inside, after) => (part ++ inside, after) := by
  fun_induction cutAfterClosing part with
  | case1 r => simp at h
  | case2 c r hno ih =>
    have hlater : cutAfterClosing r = none := by simpa using h
    cases r with
    | nil =>
      rw [List.singleton_append, cutAfterClosing_cons]
      · rfl
      · rintro rfl
        exact hmeet.closing rfl
    | cons d r =>
      rw [List.cons_append, cutAfterClosing_cons, ih hlater (meetApart_cons_cons.mp hmeet),
        Option.map_map]
      · rfl
      · rintro rfl hslash
        obtain rfl : d = '/' := by simpa using hslash
        exact hno r rfl rfl
  | case3 => simp

/-- A part without a comment either has nothing to do with the comments of the whole text, or opens
one whose closing comes later. -/
theorem cutComment_append_of_none {part : List Char} (h : cutComment part = none) :
    (∀ rest, MeetApart part rest → cutComment (part ++ rest) =
      (cutComment rest).map fun (kept, comment) => (part ++ kept, comment)) ∨
    ∃ kept comment, ∀ rest, MeetApart part rest → cutComment (part ++ rest) =
      (cutAfterClosing rest).map fun (inside, after) => (kept, comment ++ inside, after) := by
  fun_induction cutComment part with
  | case1 r =>
    have hopen : cutAfterClosing r = none := by simpa using h
    refine .inr ⟨[], Document.opening ++ r, fun rest hmeet => ?_⟩
    have hlater : MeetApart r rest := by
      cases r with
      | nil => exact ⟨by simp, by simp⟩
      | cons d r => exact meetApart_cons_cons.mp (meetApart_cons_cons.mp hmeet)
    rw [List.cons_append, List.cons_append, cutComment,
      cutAfterClosing_append_of_none hopen hlater, Option.map_map]
    simp [Function.comp_def]
  | case2 c r hno ih =>
    have hlater : cutComment r = none := by simpa using h
    cases r with
    | nil =>
      refine .inl fun rest hmeet => ?_
      rw [List.singleton_append, cutComment_cons]
      · rfl
      · rintro rfl
        exact hmeet.opening rfl
    | cons d r =>
      have hstep : ∀ rest, cutComment (c :: (d :: r ++ rest)) =
          (cutComment (d :: r ++ rest)).map fun (kept, comment) => (c :: kept, comment) := by
        intro rest
        apply cutComment_cons
        rintro rfl hstar
        obtain rfl : d = '*' := by simpa using hstar
        exact hno r rfl rfl
      rcases ih hlater with hnone | ⟨kept, comment, hsome⟩
      · refine .inl fun rest hmeet => ?_
        rw [List.cons_append, hstep, hnone rest (meetApart_cons_cons.mp hmeet), Option.map_map]
        rfl
      · refine .inr ⟨c :: kept, comment, fun rest hmeet => ?_⟩
        rw [List.cons_append, hstep, hsome rest (meetApart_cons_cons.mp hmeet), Option.map_map]
        rfl
  | case3 => exact .inl fun rest _ => by simp

/-- A part in which no comment is opened has nothing to do with the comments of the whole text. -/
theorem cutComment_append_of_avoids {part : List Char} (h : Avoids opening part)
    {rest : List Char} (hmeet : MeetApart part rest) :
    cutComment (part ++ rest) =
      (cutComment rest).map fun (kept, comment) => (part ++ kept, comment) := by
  induction part with
  | nil => simp
  | cons c part ih =>
    have hlater : Avoids opening part := h.of_infix (List.suffix_cons c part).isInfix
    cases part with
    | nil =>
      rw [List.singleton_append, cutComment_cons]
      · rfl
      · rintro rfl
        exact hmeet.opening rfl
    | cons d part =>
      rw [List.cons_append, cutComment_cons, ih hlater (meetApart_cons_cons.mp hmeet),
        Option.map_map]
      · rfl
      · rintro rfl hstar
        obtain rfl : d = '*' := by simpa using hstar
        exact h (List.prefix_append opening part).isInfix

theorem cutAfterClosing_eq_none_iff {s : List Char} :
    cutAfterClosing s = none ↔ Avoids closing s := by
  fun_induction cutAfterClosing s with
  | case1 rest => simpa using fun h => h (List.prefix_append closing rest).isInfix
  | case2 c rest hno ih =>
    rw [Option.map_eq_none_iff, ih]
    constructor
    · intro h hfound
      rcases List.infix_cons_iff.mp hfound with ⟨after, hfront⟩ | hlater
      · obtain ⟨rfl, rfl⟩ := List.cons.inj hfront
        exact hno after rfl rfl
      · exact h hlater
    · intro h
      exact h.of_infix (List.suffix_cons c rest).isInfix
  | case3 => simp [Avoids, closing]

/-- Where nothing is closed, no comment is found. -/
theorem cutComment_of_avoids_closing {s : List Char} (h : Avoids closing s) :
    cutComment s = none := by
  fun_induction cutComment s with
  | case1 rest =>
    have hrest : Avoids closing rest :=
      h.of_infix ((List.suffix_cons _ _).trans (List.suffix_cons _ _)).isInfix
    rw [cutAfterClosing_eq_none_iff.mpr hrest]
    rfl
  | case2 c rest _ ih =>
    rw [ih (h.of_infix (List.suffix_cons c rest).isInfix)]
    rfl
  | case3 => rfl

/-! ## What is kept of a text made of parts -/

theorem plainOf_append_of_avoids {part : List Char} (h : Avoids opening part) {rest : List Char}
    (hmeet : MeetApart part rest) : plainOf (part ++ rest) = part ++ plainOf rest := by
  have hcut := cutComment_append_of_avoids h hmeet
  cases hrest : cutComment rest with
  | none =>
    rw [hrest] at hcut
    rw [plainOf_of_none hcut, plainOf_of_none hrest]
  | some found =>
    obtain ⟨kept, comment, after⟩ := found
    rw [hrest] at hcut
    rw [plainOf_of_some hcut, plainOf_of_some hrest, List.append_assoc]

/-- A line feed at the end of a text is kept. -/
theorem plainOf_append_lineFeed (text : List Char) :
    plainOf (text ++ ['\n']) = plainOf text ++ ['\n'] := by
  induction text using Layout.ofText.induct with
  | case1 text hnone =>
    have hcut : cutComment (text ++ ['\n']) = none := by
      have hmeet : MeetApart text ['\n'] := ⟨by simp, by simp⟩
      rcases cutComment_append_of_none hnone with hcut | ⟨kept, comment, hcut⟩
      · rw [hcut _ hmeet]
        rfl
      · rw [hcut _ hmeet]
        rfl
    rw [plainOf_of_none hcut, plainOf_of_none hnone]
  | case2 text kept comment after hsome ih =>
    rw [plainOf_of_some (cutComment_append_of_some hsome _), plainOf_of_some hsome, ih,
      List.append_assoc]

/-- A text ends with a closing brace and a line feed. -/
def EndsClosed (s : List Char) : Prop := ∃ before, s = before ++ ['}', '\n']

/-- What comes after the first comment of a text that ends closed ends closed too. -/
theorem EndsClosed.after {text kept comment after : List Char} (h : EndsClosed text)
    (hcut : cutComment text = some (kept, comment, after)) : EndsClosed after := by
  obtain ⟨before, rfl⟩ := h
  obtain ⟨inside, rfl⟩ := exists_of_cutComment hcut
  have htext := cutComment_append hcut
  rcases List.append_eq_append_iff.mp htext with ⟨rest, -, hafter⟩ | ⟨rest, hcomment, hend⟩
  · exact ⟨rest, hafter⟩
  · -- the comment ends with a slash, so it ends before the brace
    have hlast := congrArg List.getLast? hcomment
    cases rest with
    | nil => exact ⟨[], hend.symm⟩
    | cons c rest =>
      exfalso
      obtain ⟨hbrace, hend⟩ := List.cons.inj hend
      cases rest with
      | nil => simp [closing, ← hbrace] at hlast
      | cons d rest =>
        obtain ⟨hfeed, hend⟩ := List.cons.inj hend
        obtain ⟨rfl, -⟩ := List.append_eq_nil_iff.mp hend.symm
        simp [closing, ← hfeed] at hlast

theorem EndsClosed.append_left {s : List Char} (h : EndsClosed s) (before : List Char) :
    EndsClosed (before ++ s) := by
  obtain ⟨more, rfl⟩ := h
  exact ⟨before ++ more, by rw [List.append_assoc]⟩

/-- Lines that end closed are stripped by themselves, or open a comment at their end: then what is
kept depends on whether it is closed later. -/
theorem plainOf_append_cases {part : List Char} (h : EndsClosed part) :
    (∃ kept, EndsClosed kept ∧ ∀ rest, plainOf (part ++ rest) = kept ++ plainOf rest) ∨
    ∃ kept opened, EndsClosed opened ∧ ∀ rest, plainOf (part ++ rest) =
      match cutAfterClosing rest with
      | some (_, after) => kept ++ plainOf after
      | none => opened ++ rest := by
  induction part using Layout.ofText.induct with
  | case1 part hnone =>
    have hmeet : ∀ rest, MeetApart part rest := by
      obtain ⟨before, rfl⟩ := h
      intro rest
      exact ⟨by simp, by simp⟩
    rcases cutComment_append_of_none hnone with hcut | ⟨kept, comment, hcut⟩
    · refine .inl ⟨part, h, fun rest => ?_⟩
      have hcut := hcut rest (hmeet rest)
      cases hrest : cutComment rest with
      | none =>
        rw [hrest] at hcut
        rw [plainOf_of_none hcut, plainOf_of_none hrest]
      | some found =>
        obtain ⟨kept, comment, after⟩ := found
        rw [hrest] at hcut
        rw [plainOf_of_some hcut, plainOf_of_some hrest, List.append_assoc]
    · refine .inr ⟨kept, part, h, fun rest => ?_⟩
      have hcut := hcut rest (hmeet rest)
      cases hrest : cutAfterClosing rest with
      | none =>
        rw [hrest] at hcut
        exact plainOf_of_none hcut
      | some found =>
        obtain ⟨inside, after⟩ := found
        rw [hrest] at hcut
        exact plainOf_of_some hcut
  | case2 part kept comment after hsome ih =>
    have hstep : ∀ rest, plainOf (part ++ rest) = kept ++ plainOf (after ++ rest) :=
      fun rest => plainOf_of_some (cutComment_append_of_some hsome rest)
    rcases ih (h.after hsome) with ⟨later, hlater, heq⟩ | ⟨later, opened, hopened, heq⟩
    · refine .inl ⟨kept ++ later, hlater.append_left kept, fun rest => ?_⟩
      rw [hstep, heq, List.append_assoc]
    · refine .inr ⟨kept ++ later, kept ++ opened, hopened.append_left kept, fun rest => ?_⟩
      rw [hstep, heq]
      cases cutAfterClosing rest with
      | none => exact (List.append_assoc _ _ _).symm
      | some found => exact (List.append_assoc _ _ _).symm

/-- **Whole lines.** A line without the opening and the closing of a comment that is put in before
the text or after a line that ends closed vanishes in a comment around it, or is kept where it is
put in. -/
theorem plainOf_insert {part : List Char} (hpart : part = [] ∨ EndsClosed part) {line : List Char}
    (hopening : Avoids opening line) (hclosing : Avoids closing line) (rest : List Char) :
    plainOf (part ++ (line ++ '\n' :: rest)) = plainOf (part ++ rest) ∨
      ∃ kept, (kept = [] ∨ EndsClosed kept) ∧ plainOf (part ++ rest) = kept ++ plainOf rest ∧
        plainOf (part ++ (line ++ '\n' :: rest)) = kept ++ (line ++ '\n' :: plainOf rest) := by
  have hnil : ∀ {pattern : List Char}, '\n' ∉ pattern → pattern ≠ [] → Avoids pattern line →
      Avoids pattern (line ++ ['\n']) := by
    intro pattern hmem hne hline
    exact (avoids_append_cons hmem).mpr ⟨hline, fun h => hne (List.infix_nil.mp h)⟩
  have hopening' := hnil (by decide) (by decide) hopening
  have hclosing' := hnil (by decide) (by decide) hclosing
  have hline : line ++ '\n' :: rest = line ++ ['\n'] ++ rest := by simp
  have hplain : plainOf (line ++ '\n' :: rest) = line ++ '\n' :: plainOf rest := by
    rw [hline, plainOf_append_of_avoids hopening' (meetApart_lineFeed line rest)]
    simp
  rcases hpart with rfl | hpart
  · exact .inr ⟨[], .inl rfl, rfl, hplain⟩
  · rcases plainOf_append_cases hpart with ⟨kept, hkept, heq⟩ | ⟨kept, opened, hopened, heq⟩
    · exact .inr ⟨kept, .inr hkept, heq rest, by rw [heq, hplain]⟩
    · have hcut : cutAfterClosing (line ++ '\n' :: rest) =
          (cutAfterClosing rest).map fun (inside, after) => (line ++ ['\n'] ++ inside, after) := by
        rw [hline, cutAfterClosing_append_of_none (cutAfterClosing_eq_none_iff.mpr hclosing')
          (meetApart_lineFeed line rest)]
      cases hrest : cutAfterClosing rest with
      | none =>
        have hsame : plainOf rest = rest :=
          plainOf_of_none (cutComment_of_avoids_closing (cutAfterClosing_eq_none_iff.mp hrest))
        refine .inr ⟨opened, .inr hopened, ?_, ?_⟩
        · rw [heq, hrest, hsame]
        · rw [heq, hcut, hrest, hsame]
          rfl
      | some found =>
        left
        rw [heq, heq, hcut, hrest]
        rfl

end EntityScaffold.Document
