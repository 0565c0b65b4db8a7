import EntityScaffold.Console.Tree
import EntityScaffold.Proofs.Console.Markup
import EntityScaffold.Proofs.Text.Pattern

/-!
# Texts that are shown as they are

What is shown of a text is a part of it, but for the spaces that stand for tabulators: tags leave
nothing or lose the backslashes that escape them, a bracket loses the backslash before it, and some
control characters are not printed. So a text is shown as it is just if there is nothing to lose
(`ShowsAsIs`, `shownLines_eq_iff`).
-/

namespace EntityScaffold.Console

open Text

/-! ## Segments as they are written -/

def Segment.written : Segment → List Char
  | .text run => run
  | .tag given => given.written

theorem flatMap_written_cons (c : Char) (parts : List Segment) :
    (Segment.cons c parts).flatMap Segment.written = c :: parts.flatMap Segment.written := by
  cases parts with
  | nil => rfl
  | cons part later =>
    cases part with
    | text run => rfl
    | tag given => rfl

/-- A text is cut into segments without loss. -/
theorem flatMap_written_segments (s : List Char) : (segments s).flatMap Segment.written = s := by
  induction s using segments_induction with
  | nil => simp [segments]
  | tag s after given hread ih =>
    obtain ⟨-, rfl⟩ := Tag.read_eq_some_iff.mp hread
    rw [segments_of_read hread, List.flatMap_cons, ih]
    rfl
  | text c s hread ih => rw [segments_of_none hread, flatMap_written_cons, ih]

/-- No tag begins anywhere in a text. -/
def Untagged (s : List Char) : Prop := ∀ t, t <:+ s → Tag.read t = none

instance (s : List Char) : Decidable (Untagged s) :=
  decidable_of_iff (∀ t ∈ s.tails, Tag.read t = none) (by simp only [List.mem_tails, Untagged])

theorem untagged_cons {c : Char} {s : List Char} :
    Untagged (c :: s) ↔ Tag.read (c :: s) = none ∧ Untagged s := by
  constructor
  · intro h
    exact ⟨h _ List.suffix_rfl, fun t ht => h t (ht.trans (List.suffix_cons c s))⟩
  · rintro ⟨hfirst, hlater⟩ t ht
    rcases List.suffix_cons_iff.mp ht with rfl | ht
    · exact hfirst
    · exact hlater t ht

/-- A text without tags is one segment. -/
theorem segments_of_untagged {c : Char} {s : List Char} (h : Untagged (c :: s)) :
    segments (c :: s) = [.text (c :: s)] := by
  induction s generalizing c with
  | nil =>
    rw [segments_of_none (untagged_cons.mp h).1]
    simp [segments, Segment.cons]
  | cons d s ih =>
    obtain ⟨hfirst, hlater⟩ := untagged_cons.mp h
    rw [segments_of_none hfirst, ih hlater]
    rfl

theorem exists_text_of_cons {c : Char} {parts : List Segment}
    (h : ∀ part ∈ Segment.cons c parts, ∃ run, part = .text run) :
    ∀ part ∈ parts, ∃ run, part = .text run := by
  cases parts with
  | nil => simp
  | cons part later =>
    cases part with
    | text run =>
      exact List.forall_mem_cons.mpr
        ⟨⟨run, rfl⟩, fun other hother => h other (List.mem_cons_of_mem _ hother)⟩
    | tag given => exact fun other hother => h other (List.mem_cons_of_mem _ hother)

/-- A text whose segments are no tags holds none. -/
theorem untagged_of_segments {s : List Char}
    (h : ∀ part ∈ segments s, ∃ run, part = .text run) : Untagged s := by
  induction s using segments_induction with
  | nil =>
    intro t ht
    rw [List.suffix_nil.mp ht]
    simp [Tag.read]
  | tag s after given hread _ =>
    rw [segments_of_read hread] at h
    obtain ⟨run, hrun⟩ := h _ List.mem_cons_self
    exact absurd hrun (by simp)
  | text c s hread ih =>
    rw [segments_of_none hread] at h
    exact untagged_cons.mpr ⟨hread, ih (exists_text_of_cons h)⟩

/-! ## What is lost -/

/-- An opening bracket that has a backslash before it. -/
def escapedBracket : List Char := ['\\', '[']

theorem dropBackslashes_sublist (s : List Char) : (dropBackslashes s).Sublist s := by
  fun_induction dropBackslashes s with
  | case1 rest ih => exact (ih.cons_cons _).cons _
  | case2 c rest _ ih => exact ih.cons_cons _
  | case3 => exact List.Sublist.refl _

theorem dropBackslashes_eq_self_iff {s : List Char} :
    dropBackslashes s = s ↔ Avoids escapedBracket s := by
  fun_induction dropBackslashes s with
  | case1 rest ih =>
    refine iff_of_false (by simp) ?_
    exact fun havoids => havoids ⟨[], rest, rfl⟩
  | case2 c rest hfirst ih =>
    rw [List.cons_inj_right, ih, Avoids, Avoids, not_iff_not, List.infix_cons_iff]
    refine ⟨.inr, ?_⟩
    rintro (⟨later, hprefix⟩ | hinfix)
    · obtain ⟨rfl, rfl⟩ := List.cons.inj hprefix
      exact absurd rfl (hfirst later rfl)
    · exact hinfix
  | case3 => exact iff_of_true rfl (avoids_of_not_mem List.mem_cons_self List.not_mem_nil)

/-- What is shown of a segment is a part of what is written, and all of it only if the segment is a
text without escaped brackets. -/
theorem exists_of_renderFrom_cons {styles : List SetStyle} {part : Segment} {later : List Segment}
    {shown : List Char} (h : renderFrom styles (part :: later) = .ok shown) :
    ∃ styles' front rest, renderFrom styles' later = .ok rest ∧ shown = front ++ rest ∧
      front.Sublist part.written ∧
      (front = part.written → ∃ run, part = .text run ∧ Avoids escapedBracket run) := by
  cases part with
  | text run =>
    obtain ⟨rest, hrest, hshown⟩ := bind_eq_ok_iff.mp h
    refine ⟨styles, dropBackslashes run, rest, hrest, (Except.ok.inj hshown).symm,
      dropBackslashes_sublist run, fun hall => ?_⟩
    exact ⟨run, rfl, dropBackslashes_eq_self_iff.mp hall⟩
  | tag given =>
    have hfewer : (List.replicate (given.backslashes / 2) '\\').Sublist
        (List.replicate given.backslashes '\\') :=
      List.replicate_sublist_iff.mpr (by simpa using Nat.div_le_self _ _)
    have hlength : given.written.length = given.backslashes + given.bracketed.length := by
      simp [Tag.written]
    rw [renderFrom] at h
    by_cases hescaped : given.isEscaped = true
    · simp only [hescaped, if_true] at h
      obtain ⟨rest, hrest, hshown⟩ := bind_eq_ok_iff.mp h
      refine ⟨styles, _, rest, hrest, (Except.ok.inj hshown).symm,
        hfewer.append (List.Sublist.refl _), fun hall => ?_⟩
      -- an escaped tag has a backslash at least, and loses half of them
      have hodd : given.backslashes % 2 = 1 := by simpa [Tag.isEscaped] using hescaped
      have hsame := congrArg List.length hall
      simp only [Segment.written, hlength, List.length_append, List.length_replicate] at hsame
      omega
    · simp only [if_neg hescaped] at h
      obtain ⟨styles', -, hlater⟩ := bind_eq_ok_iff.mp h
      obtain ⟨rest, hrest, hshown⟩ := bind_eq_ok_iff.mp hlater
      refine ⟨styles', _, rest, hrest, (Except.ok.inj hshown).symm,
        hfewer.trans (List.sublist_append_left _ _), fun hall => ?_⟩
      -- a live tag loses its brackets, whatever it does to the styles
      have hsame := congrArg List.length hall
      simp only [Segment.written, hlength, List.length_replicate, Tag.bracketed, List.length_append,
        List.length_cons] at hsame
      omega

/-- What is shown of segments is a part of what is written. -/
theorem renderFrom_sublist {styles : List SetStyle} {parts : List Segment} {shown : List Char}
    (h : renderFrom styles parts = .ok shown) :
    shown.Sublist (parts.flatMap Segment.written) := by
  induction parts generalizing styles shown with
  | nil =>
    obtain rfl := Except.ok.inj h
    exact List.Sublist.refl _
  | cons part later ih =>
    obtain ⟨styles', front, rest, hrest, rfl, hfront, -⟩ := exists_of_renderFrom_cons h
    exact hfront.append (ih hrest)

/-- All of what is written is shown only of texts without escaped brackets. -/
theorem texts_of_renderFrom {styles : List SetStyle} {parts : List Segment}
    (h : renderFrom styles parts = .ok (parts.flatMap Segment.written)) :
    ∀ part ∈ parts, ∃ run, part = .text run ∧ Avoids escapedBracket run := by
  induction parts generalizing styles with
  | nil => simp
  | cons part later ih =>
    obtain ⟨styles', front, rest, hrest, hshown, hfront, hall⟩ := exists_of_renderFrom_cons h
    -- neither the front nor the rest can be shorter than what is written
    have hlengths := congrArg List.length hshown
    rw [List.flatMap_cons, List.length_append, List.length_append] at hlengths
    have hrest' := renderFrom_sublist hrest
    have hfrontLe := hfront.length_le
    have hrestLe := hrest'.length_le
    obtain rfl := hfront.eq_of_length (by omega)
    obtain rfl := hrest'.eq_of_length (by omega)
    exact List.forall_mem_cons.mpr ⟨hall rfl, ih hrest⟩

/-! ## Nothing to lose -/

/-- A text that is shown as it is: no tag begins in it, no bracket is escaped, and every character
is printed as itself. -/
structure ShowsAsIs (s : List Char) : Prop where
  untagged : Untagged s
  unescaped : Avoids escapedBracket s
  printed : ∀ c ∈ s, isUnprinted c = false ∧ c ≠ '\t'

theorem showsAsIs_iff {s : List Char} : ShowsAsIs s ↔
    Untagged s ∧ Avoids escapedBracket s ∧ ∀ c ∈ s, isUnprinted c = false ∧ c ≠ '\t' :=
  ⟨fun h => ⟨h.untagged, h.unescaped, h.printed⟩, fun ⟨hu, he, hp⟩ => ⟨hu, he, hp⟩⟩

instance (s : List Char) : Decidable (ShowsAsIs s) := decidable_of_iff _ showsAsIs_iff.symm

theorem render_eq_ok_iff {markup : String} {shown : List Char} :
    render markup = .ok shown ↔ ∃ whole, renderFrom [] (segments markup.toList) = .ok whole ∧
      (segments markup.toList).forM Segment.lookUp = .ok () ∧
      shown = whole.filter fun c => !isUnprinted c := by
  simp only [render, bind_eq_ok_iff]
  constructor
  · rintro ⟨whole, hwhole, ⟨⟩, hlook, hshown⟩
    exact ⟨whole, hwhole, hlook, (Except.ok.inj hshown).symm⟩
  · rintro ⟨whole, hwhole, hlook, rfl⟩
    exact ⟨whole, hwhole, (), hlook, rfl⟩

/-- What is shown of a text is a part of it. -/
theorem render_sublist {markup : String} {shown : List Char} (h : render markup = .ok shown) :
    shown.Sublist markup.toList := by
  obtain ⟨whole, hwhole, -, rfl⟩ := render_eq_ok_iff.mp h
  have hsublist := renderFrom_sublist hwhole
  rw [flatMap_written_segments] at hsublist
  exact List.filter_sublist.trans hsublist

/-- A text of which nothing is lost has no tags, no escaped brackets and no unprinted characters. -/
theorem render_eq_self_iff {markup : String} :
    render markup = .ok markup.toList ↔ Untagged markup.toList ∧
      Avoids escapedBracket markup.toList ∧ ∀ c ∈ markup.toList, isUnprinted c = false := by
  constructor
  · intro h
    obtain ⟨whole, hwhole, -, hfilter⟩ := render_eq_ok_iff.mp h
    have hsublist := renderFrom_sublist hwhole
    rw [flatMap_written_segments] at hsublist
    -- what is left after both losses is as long as the text, so neither step lost anything
    have hle := congrArg List.length hfilter
    have hfewer := List.length_filter_le (fun c => !isUnprinted c) whole
    obtain rfl := hsublist.eq_of_length_le (by omega)
    have hprinted : ∀ c ∈ markup.toList, isUnprinted c = false := by
      intro c hc
      rw [hfilter] at hc
      simpa using (List.mem_filter.mp hc).2
    have hall : renderFrom [] (segments markup.toList) =
        .ok ((segments markup.toList).flatMap Segment.written) := by
      rw [flatMap_written_segments]
      exact hwhole
    have htexts := texts_of_renderFrom hall
    have huntagged := untagged_of_segments fun part hpart =>
      (htexts part hpart).imp fun run hrun => hrun.1
    refine ⟨huntagged, ?_, hprinted⟩
    cases hlist : markup.toList with
    | nil => exact avoids_of_not_mem List.mem_cons_self List.not_mem_nil
    | cons c s =>
      rw [hlist] at huntagged htexts
      rw [segments_of_untagged huntagged] at htexts
      obtain ⟨run, hrun, havoids⟩ := htexts _ List.mem_cons_self
      obtain rfl := Segment.text.inj hrun
      exact havoids
  · rintro ⟨huntagged, havoids, hprinted⟩
    have hfilter : markup.toList = markup.toList.filter fun c => !isUnprinted c :=
      (List.filter_eq_self.mpr fun c hc => by simpa using hprinted c hc).symm
    refine render_eq_ok_iff.mpr ⟨markup.toList, ?_, ?_, hfilter⟩
    · cases hlist : markup.toList with
      | nil => simp [segments, renderFrom]
      | cons c s =>
        rw [hlist] at huntagged havoids
        rw [segments_of_untagged huntagged, renderFrom, renderFrom,
          dropBackslashes_eq_self_iff.mpr havoids]
        simp [bind, Except.bind, pure, Except.pure]
    · cases hlist : markup.toList with
      | nil => simp [segments, pure, Except.pure]
      | cons c s =>
        rw [hlist] at huntagged
        rw [segments_of_untagged huntagged]
        rfl

/-! ## Lines -/

theorem tab_not_mem_joinTabbed {column : Nat} {pieces : List (List Char)}
    (h : ∀ piece ∈ pieces, '\t' ∉ piece) : '\t' ∉ joinTabbed column pieces := by
  fun_induction joinTabbed column pieces with
  | case1 => exact List.not_mem_nil
  | case2 column piece => exact h piece List.mem_cons_self
  | case3 column piece later _ spaced reached ih =>
    obtain ⟨hpiece, hlater⟩ := List.forall_mem_cons.mp h
    simp [spaced, hpiece, ih hlater, List.mem_replicate]

/-- No tabulator is left in a line. -/
theorem tab_not_mem_expandTabs (line : List Char) : '\t' ∉ expandTabs line :=
  tab_not_mem_joinTabbed fun _ hpiece => not_mem_of_mem_splitOn hpiece

theorem expandTabs_eq_self {line : List Char} (h : '\t' ∉ line) : expandTabs line = line := by
  rw [expandTabs, List.splitOn_eq_singleton h, joinTabbed]

/-- A text has its lines from no other one. -/
theorem lines_inj {s t : List Char} : lines s = lines t ↔ s = t := by
  refine ⟨fun h => ?_, congrArg lines⟩
  have hjoined : ∀ s : List Char, ['\n'].intercalate (lines s) = s := fun _ =>
    List.intercalate_splitOn '\n'
  rw [← hjoined s, ← hjoined t, h]

theorem map_expandTabs_lines {s : List Char} (h : '\t' ∉ s) :
    (lines s).map expandTabs = lines s := by
  have hline : ∀ line ∈ lines s, expandTabs line = id line := fun line hline =>
    expandTabs_eq_self fun htab => h (mem_of_mem_splitOn hline htab)
  rw [List.map_congr_left hline, List.map_id]

/-- The lines that are shown of a text are those of what is shown of it. -/
theorem shownLines_eq_ok_iff {markup : String} {texts : List (List Char)} :
    shownLines markup = .ok (texts.map String.ofList) ↔
      ∃ shown, render markup = .ok shown ∧ (lines shown).map expandTabs = texts := by
  have hmap : ∀ shown : List Char,
      ((lines shown).map fun line => String.ofList (expandTabs line)) =
        ((lines shown).map expandTabs).map String.ofList := fun shown => by simp
  rw [shownLines, bind_eq_ok_iff]
  simp only [hmap, pure, Except.pure, Except.ok.injEq,
    List.map_inj_right fun _ _ h => String.ofList_injective h]

/-- The lines of a text, as they are. -/
def linesAsIs (text : String) : List String := (lines text.toList).map String.ofList

/-- **Shown as it is.** The lines that are shown of a text are its own just if the text loses
nothing. -/
theorem shownLines_eq_iff {markup : String} :
    shownLines markup = .ok (linesAsIs markup) ↔ ShowsAsIs markup.toList := by
  rw [linesAsIs, shownLines_eq_ok_iff]
  constructor
  · rintro ⟨shown, hshown, hlines⟩
    have htab : '\t' ∉ markup.toList := by
      intro htab
      have hne : '\t' ≠ '\n' := by decide
      obtain ⟨line, hline, hmem⟩ := exists_piece_of_mem htab hne
      have hline' : line ∈ (lines shown).map expandTabs := hlines ▸ hline
      obtain ⟨other, -, rfl⟩ := List.mem_map.mp hline'
      exact tab_not_mem_expandTabs other hmem
    rw [map_expandTabs_lines fun hmem => htab ((render_sublist hshown).subset hmem), lines_inj]
      at hlines
    rw [hlines] at hshown
    obtain ⟨huntagged, hunescaped, hprinted⟩ := render_eq_self_iff.mp hshown
    exact ⟨huntagged, hunescaped, fun c hc => ⟨hprinted c hc, fun heq => htab (heq ▸ hc)⟩⟩
  · rintro ⟨huntagged, hunescaped, hprinted⟩
    refine ⟨markup.toList, render_eq_self_iff.mpr ⟨huntagged, hunescaped, fun c hc =>
      (hprinted c hc).1⟩, map_expandTabs_lines fun htab => (hprinted _ htab).2 rfl⟩

/-! ## Texts that can be shown -/

/-- A text can be shown at all. -/
def CanShow (markup : String) : Prop := ∃ shown, render markup = .ok shown

theorem exists_shownLines_iff {markup : String} :
    (∃ lines, shownLines markup = .ok lines) ↔ CanShow markup :=
  exists_bind_pure_iff

/-- Whether a text can be shown depends on its live tags only. -/
theorem canShow_congr {markup other : String}
    (h : liveTags markup.toList = liveTags other.toList) : CanShow markup ↔ CanShow other := by
  rw [CanShow, CanShow, exists_render_iff, exists_render_iff, h]

/-- Only live tags can keep a text from being shown. -/
theorem canShow_of_no_tags {markup : String} (h : liveTags markup.toList = []) :
    CanShow markup := by
  rw [CanShow, exists_render_iff, h]
  exact ⟨⟨[], rfl⟩, fun tag htag => absurd htag List.not_mem_nil⟩

/-- A text that is shown as it is can be shown. -/
theorem ShowsAsIs.canShow {markup : String} (h : ShowsAsIs markup.toList) : CanShow markup :=
  exists_shownLines_iff.mp ⟨_, shownLines_eq_iff.mpr h⟩

/-! ## What may stand around a text -/

/-- A character that has no part in tags and is printed as itself. -/
def isInert (c : Char) : Bool :=
  c != '[' && c != ']' && c != '\\' && c != '\t' && !isUnprinted c

/-- A text of such characters. -/
def Inert (s : List Char) : Prop := ∀ c ∈ s, isInert c = true

instance (s : List Char) : Decidable (Inert s) := inferInstanceAs (Decidable (∀ c ∈ s, _))

theorem isInert_iff {c : Char} : isInert c = true ↔
    c ≠ '[' ∧ c ≠ ']' ∧ c ≠ '\\' ∧ c ≠ '\t' ∧ isUnprinted c = false := by
  simp [isInert, and_assoc]

/-- The characters that are not inert. -/
def notInert : List Char := ['[', ']', '\\', '\t', '\x07', '\x08', '\x0b', '\x0c', '\r']

theorem mem_notInert {c : Char} (h : isInert c = false) : c ∈ notInert := by
  rw [← Bool.not_eq_true, isInert_iff] at h
  simp only [not_and_or, not_not, Bool.not_eq_false] at h
  rcases h with rfl | rfl | rfl | rfl | hcontrol
  · decide
  · decide
  · decide
  · decide
  · have hcode : c.toNat ∈ [0x07, 0x08, 0x0b, 0x0c, 0x0d] := by simpa [isUnprinted] using hcontrol
    have hall : ∀ n ∈ [0x07, 0x08, 0x0b, 0x0c, 0x0d], Char.ofNat n ∈ notInert := by decide
    rw [← Char.ofNat_toNat c]
    exact hall _ hcode

/-- A text of characters of a class that leaves out those that are not inert. -/
theorem inert_of_class {p : Char → Bool} (hp : ∀ c ∈ notInert, p c = false) {s : List Char}
    (h : ∀ c ∈ s, p c = true) : Inert s := by
  intro c hc
  by_contra hinert
  have hclass := hp c (mem_notInert (Bool.eq_false_iff.mpr hinert))
  rw [h c hc] at hclass
  exact absurd hclass (by simp)

/-- A number is written in digits. -/
theorem inert_toString (n : Nat) : Inert (toString n).toList := by
  have hdigits : ∀ c ∈ (toString n).toList, c.isDigit = true := by
    intro c hc
    rw [Nat.toString_eq_repr, Nat.toList_repr] at hc
    exact Nat.isDigit_of_mem_toDigits (by omega) (by omega) hc
  exact inert_of_class (by decide) hdigits

theorem inert_append {s t : List Char} : Inert (s ++ t) ↔ Inert s ∧ Inert t := by
  simp only [Inert, List.forall_mem_append]

theorem Inert.not_mem {s : List Char} (h : Inert s) {c : Char} (hc : isInert c = false) :
    c ∉ s := by
  intro hmem
  rw [h c hmem] at hc
  exact absurd hc (by simp)

section Around

variable {s front back : List Char}

theorem liveTags_append_of_inert_left (h : Inert front) (s : List Char) :
    liveTags (front ++ s) = liveTags s :=
  liveTags_append_of_inert (fun c hc => ⟨(isInert_iff.mp (h c hc)).1,
    (isInert_iff.mp (h c hc)).2.2.1⟩) s

theorem Tag.written_eq_concat (tag : Tag) :
    tag.written = (List.replicate tag.backslashes '\\' ++ '[' :: tag.inside) ++ [']'] := by
  simp [Tag.written, Tag.bracketed]

/-- What ends without a bracket ends no tag. -/
theorem Tag.read_append_inert (h : Inert back) (s : List Char) :
    Tag.read (s ++ back) = none ↔ Tag.read s = none := by
  constructor
  · intro hnone
    rw [Option.eq_none_iff_forall_ne_some]
    rintro ⟨given, after⟩ hread
    rw [Tag.read_append hread] at hnone
    exact absurd hnone (by simp)
  · intro hnone
    rw [Option.eq_none_iff_forall_ne_some]
    rintro ⟨given, after⟩ hread
    obtain ⟨hinside, hsplit⟩ := Tag.read_eq_some_iff.mp hread
    rcases List.append_eq_append_iff.mp hsplit with ⟨rest, hwritten, hback⟩ | ⟨rest, hs, -⟩
    · -- the closing bracket would be in the back, unless the tag ends with the text
      by_cases hrest : rest = []
      · rw [hrest, List.append_nil] at hwritten
        have hread' : Tag.read s = some (given, []) :=
          Tag.read_eq_some_iff.mpr ⟨hinside, by rw [hwritten, List.append_nil]⟩
        rw [hread'] at hnone
        exact absurd hnone (by simp)
      · obtain ⟨inner, rfl, -⟩ :=
          exists_of_append_eq_concat hrest (hwritten.symm.trans given.written_eq_concat)
        have hclose : ']' ∈ back := by simp [hback]
        exact h.not_mem (by decide) hclose
    · have hread' : Tag.read s = some (given, rest) := Tag.read_eq_some_iff.mpr ⟨hinside, hs⟩
      rw [hread'] at hnone
      exact absurd hnone (by simp)

theorem untagged_of_inert (h : Inert s) : Untagged s := by
  induction s with
  | nil =>
    intro t ht
    rw [List.suffix_nil.mp ht]
    simp [Tag.read]
  | cons c s ih =>
    obtain ⟨hc, hs⟩ := List.forall_mem_cons.mp h
    obtain ⟨hopen, -, hback, -⟩ := isInert_iff.mp hc
    exact untagged_cons.mpr ⟨Tag.read_cons_of_ne hopen hback s, ih hs⟩

theorem untagged_append_inert (h : Inert back) : Untagged (s ++ back) ↔ Untagged s := by
  induction s with
  | nil => exact iff_of_true (untagged_of_inert h) (untagged_of_inert (by simp [Inert]))
  | cons c s ih =>
    rw [List.cons_append, untagged_cons, untagged_cons, ih, ← List.cons_append,
      Tag.read_append_inert h]

/-- A text is as live with an inert one after it as without. -/
theorem liveTags_append_inert (h : Inert back) (s : List Char) :
    liveTags (s ++ back) = liveTags s := by
  induction s using segments_induction with
  | nil =>
    have hinert := liveTags_append_of_inert_left h []
    rwa [List.append_nil] at hinert
  | tag s after given hread ih =>
    rw [liveTags_of_read hread, liveTags_of_read (Tag.read_append hread back), ih]
  | text c s hread ih =>
    have hread' := (Tag.read_append_inert h (c :: s)).mpr hread
    rw [liveTags_of_none hread, List.cons_append]
    exact (liveTags_of_none hread').trans ih

theorem showsAsIs_cons {c : Char} (hopen : c ≠ '[') (hback : c ≠ '\\')
    (hprinted : isUnprinted c = false) (htab : c ≠ '\t') :
    ShowsAsIs (c :: s) ↔ ShowsAsIs s := by
  have havoids : Avoids escapedBracket (c :: s) ↔ Avoids escapedBracket s :=
    avoids_cons (by decide) (by simp [escapedBracket, hopen, hback])
  constructor
  · intro h
    exact ⟨(untagged_cons.mp h.untagged).2, havoids.mp h.unescaped,
      fun d hd => h.printed d (List.mem_cons_of_mem _ hd)⟩
  · intro h
    exact ⟨untagged_cons.mpr ⟨Tag.read_cons_of_ne hopen hback s, h.untagged⟩,
      havoids.mpr h.unescaped, List.forall_mem_cons.mpr ⟨⟨hprinted, htab⟩, h.printed⟩⟩

theorem showsAsIs_append_of_inert (h : Inert front) : ShowsAsIs (front ++ s) ↔ ShowsAsIs s := by
  induction front with
  | nil => rfl
  | cons c front ih =>
    obtain ⟨hc, hfront⟩ := List.forall_mem_cons.mp h
    obtain ⟨hopen, -, hback, htab, hprinted⟩ := isInert_iff.mp hc
    rw [List.cons_append, showsAsIs_cons hopen hback hprinted htab, ih hfront]

theorem showsAsIs_of_inert {s : List Char} (h : Inert s) : ShowsAsIs s := by
  have hnil : ShowsAsIs [] :=
    ⟨untagged_of_inert (by simp [Inert]), by decide, by simp⟩
  rw [← List.append_nil s]
  exact (showsAsIs_append_of_inert h).mpr hnil

theorem showsAsIs_append_inert (h : Inert back) : ShowsAsIs (s ++ back) ↔ ShowsAsIs s := by
  cases back with
  | nil => rw [List.append_nil]
  | cons c later =>
    have hprinted : ∀ d ∈ c :: later, isUnprinted d = false ∧ d ≠ '\t' := fun d hd =>
      ⟨(isInert_iff.mp (h d hd)).2.2.2.2, (isInert_iff.mp (h d hd)).2.2.2.1⟩
    have hc : c ∉ escapedBracket := by
      obtain ⟨hopen, -, hback, -⟩ := isInert_iff.mp (h c List.mem_cons_self)
      simp [escapedBracket, hopen, hback]
    have hlater : Avoids escapedBracket later :=
      avoids_of_not_mem List.mem_cons_self fun hmem =>
        h.not_mem (by decide) (List.mem_cons_of_mem c hmem)
    constructor
    · intro hshows
      exact ⟨(untagged_append_inert h).mp hshows.untagged,
        ((avoids_append_cons hc).mp hshows.unescaped).1,
        fun d hd => hshows.printed d (List.mem_append_left _ hd)⟩
    · intro hshows
      exact ⟨(untagged_append_inert h).mpr hshows.untagged,
        (avoids_append_cons hc).mpr ⟨hshows.unescaped, hlater⟩,
        List.forall_mem_append.mpr ⟨hshows.printed, hprinted⟩⟩

/-- A bracket in front of a character that begins no tag is shown. -/
theorem showsAsIs_open_of_ne {c : Char} (hc : startsTag c = false) :
    ShowsAsIs ('[' :: c :: s) ↔ ShowsAsIs (c :: s) := by
  have havoids : Avoids escapedBracket ('[' :: c :: s) ↔ Avoids escapedBracket (c :: s) := by
    rw [Avoids, Avoids, not_iff_not, List.infix_cons_iff]
    refine ⟨fun h => h.resolve_left ?_, .inr⟩
    rintro ⟨later, hprefix⟩
    exact absurd (List.cons.inj hprefix).1 (by decide)
  constructor
  · intro h
    exact ⟨(untagged_cons.mp h.untagged).2, havoids.mp h.unescaped,
      fun d hd => h.printed d (List.mem_cons_of_mem _ hd)⟩
  · intro h
    exact ⟨untagged_cons.mpr ⟨Tag.read_open_of_ne hc s, h.untagged⟩, havoids.mpr h.unescaped,
      List.forall_mem_cons.mpr ⟨by decide, h.printed⟩⟩

end Around

end EntityScaffold.Console
