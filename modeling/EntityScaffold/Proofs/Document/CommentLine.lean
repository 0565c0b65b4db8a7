import EntityScaffold.Proofs.Document.Parts

/-!
# Comment lines

A comment line is one that begins with the comment sign. What begins on such a line is dropped, but
only after the scan has gone over the text as a whole: a declaration that begins in the comment may
go on after its line, and then the declaration that it ends in is dropped with it.

Three things on a comment line are left open at its end: a block comment, a block that has no
closing brace, and the annotation of an entity (`LeavesOpen`). Each of them does harm to some
document. Nothing else does: a declaration that goes on from the line either has its opening brace
there, or takes its head from the next declaration (`IsDeclared.runs_on`), and of the next
declaration only the annotation may stand before (`exists_annotation_of_runs_on`). So a comment line
may be put in anywhere between declarations exactly if it leaves nothing open
(`isHarmless_iff`).
-/

namespace EntityScaffold.Document

open Text

/-! ## Documents and lines -/

/-- The text of a declaration. -/
inductive IsDeclaration : List Char → Prop
  /-- An enumeration. -/
  | enum {block : Block} {text : List Char} (h : BlockText "enum" block text) : IsDeclaration text
  /-- An entity. -/
  | entity {block : Block} {text : List Char} (h : EntityText block text) : IsDeclaration text
  /-- A relationship. -/
  | relationship {relationship : Relationship} {text : List Char}
      (h : RelationshipText relationship text) : IsDeclaration text

/-- A document is made of parts, each of which begins on a line of its own. -/
def textOfParts (parts : List (List Char)) : List Char := ['\n'].intercalate parts

/-- A line that begins with the comment sign. What comes after the sign has neither an opening nor a
closing of a block comment. -/
def IsCommentLine (line : List Char) : Prop :=
  ∃ remark, line = commentSign ++ remark ∧ '\n' ∉ remark ∧ Avoids opening remark ∧
    Avoids closing remark

/-- A line that can be put in before, between or after declarations and changes no model. -/
def IsHarmless (line : List Char) : Prop :=
  ∀ before after, (∀ part ∈ before ++ after, IsDeclaration part) → ∀ strict,
    (parse strict (String.ofList (textOfParts (before ++ line :: after)))).value? =
      (parse strict (String.ofList (textOfParts (before ++ after)))).value?

/-- A line at whose end something is open. -/
inductive LeavesOpen : List Char → Prop
  /-- A block comment: the comment sign ends with the first character of an opening. -/
  | comment {line : List Char} (h : opening <:+: line) : LeavesOpen line
  /-- A block of an enumeration or an entity. -/
  | block {before keyword head body : List Char} (hkeyword : keyword ∈ blockKeywords)
      (hhead : IsHead before keyword head) (hbody : '}' ∉ body) : LeavesOpen (head ++ '{' :: body)
  /-- The annotation of an entity. -/
  | audit (before : List Char) {space : List Char} (hspace : IsSpace space) :
      LeavesOpen (before ++ (auditMark.toList ++ space))

/-- A line that ends with a closing brace, such as a declaration that is commented out, leaves
nothing open if it does not open a block comment. -/
theorem not_leavesOpen_of_closed {line whole : List Char} (hopening : Avoids opening line)
    (hclosed : line = whole ++ ['}']) : ¬LeavesOpen line := by
  intro h
  cases h with
  | comment hfound => exact hopening hfound
  | @block before keyword head body hkeyword hhead hbody =>
    obtain ⟨inner, hinner, -⟩ := exists_of_append_eq_concat (List.cons_ne_nil '{' body) hclosed
    have hmem : '}' ∈ '{' :: body := by simp [hinner]
    exact hbody (by simpa using hmem)
  | @audit before space hspace =>
    obtain ⟨inner, hinner, -⟩ := exists_of_append_eq_concat (by simp [auditMark]) hclosed
    have hmem : '}' ∈ auditMark.toList ++ space := by simp [hinner]
    have hblank : '}' ∈ space := by simpa [auditMark] using hmem
    exact absurd (hspace '}' hblank) (by decide)

theorem IsDeclaration.exists_declared {text : List Char} (h : IsDeclaration text) :
    ∃ keyword before head inside, IsDeclared keyword text before head inside := by
  cases h with
  | enum h =>
    obtain ⟨head, hdeclared⟩ := h.exists_declared isName_enum
    exact ⟨_, _, _, _, hdeclared⟩
  | entity h =>
    obtain ⟨before, head, hdeclared⟩ := h.exists_declared
    exact ⟨_, _, _, _, hdeclared⟩
  | relationship h =>
    obtain ⟨head, inside, hdeclared, -⟩ := h.exists_declared
    exact ⟨_, _, _, _, hdeclared⟩

theorem IsCommentLine.not_mem {line : List Char} (h : IsCommentLine line) : '\n' ∉ line := by
  obtain ⟨remark, rfl, hfeed, -, -⟩ := h
  simp [commentSign, hfeed]

theorem IsCommentLine.avoids_closing {line : List Char} (h : IsCommentLine line) :
    Avoids closing line := by
  obtain ⟨remark, rfl, -, -, hclosing⟩ := h
  intro hfound
  -- the closing begins with a star, so it is not found at one of the slashes
  rcases List.infix_cons_iff.mp hfound with ⟨after, hfront⟩ | hfound
  · simp [closing] at hfront
  · rcases List.infix_cons_iff.mp hfound with ⟨after, hfront⟩ | hfound
    · simp [closing] at hfront
    · exact hclosing hfound

/-- If a block comment is opened on a comment line, then by the comment sign. -/
theorem IsCommentLine.exists_of_opening {line : List Char} (h : IsCommentLine line)
    (hopening : opening <:+: line) : ∃ more, line = '/' :: (opening ++ more) := by
  obtain ⟨remark, rfl, -, hremark, -⟩ := h
  rcases List.infix_cons_iff.mp hopening with ⟨after, hfront⟩ | hfound
  · simp [opening] at hfront
  · rcases List.infix_cons_iff.mp hfound with ⟨after, hfront⟩ | hfound
    · exact ⟨after, by rw [hfront]; rfl⟩
    · exact absurd hfound hremark

/-! ## Declarations that go on -/

/-- A declaration that begins on a line and goes on to the first brace of the next declaration or
beyond has its opening brace on the line, or takes its head from the next declaration. -/
theorem IsDeclared.runs_on {keyword text before head inside : List Char}
    (h : IsDeclared keyword text before head inside) {line more after next later : List Char}
    (hline : text = line ++ '\n' :: more) (hmore : more ≠ [])
    (hnext : more ++ after = next ++ '{' :: later) (hunbraced : Unbraced next) :
    (∃ body inner, line = head ++ '{' :: body ∧ inside = body ++ '\n' :: inner ∧
      more = inner ++ ['}']) ∨ head = line ++ '\n' :: next := by
  rw [h.eq] at hline
  rcases List.append_eq_append_iff.mp hline with ⟨rest, rfl, hrest⟩ | ⟨rest, hhead, hrest⟩
  · left
    cases rest with
    | nil => simp at hrest
    | cons c body =>
      obtain ⟨rfl, hinside⟩ := List.cons.inj hrest
      obtain ⟨inner, hinner, rfl⟩ := exists_of_append_eq_concat (List.cons_ne_nil _ _)
        hinside.symm
      cases inner with
      | nil => exact absurd (List.cons.inj hinner).2 hmore
      | cons d inner =>
        obtain ⟨rfl, rfl⟩ := List.cons.inj hinner
        exact ⟨body, inner, rfl, rfl, rfl⟩
  · right
    cases rest with
    | nil => simp at hrest
    | cons c rest =>
      obtain ⟨rfl, rfl⟩ := List.cons.inj hrest
      have hplain := h.plain_head
      rw [hhead, plain_append] at hplain
      have hrestUnbraced : Unbraced rest := hplain.2.unbraced.of_suffix (List.suffix_cons _ _)
      have hcut : rest ++ '{' :: (inside ++ ['}'] ++ after) = next ++ '{' :: later := by
        simpa using hnext
      obtain ⟨rfl, -, -⟩ := unbraced_cut_unique hrestUnbraced hunbraced (by decide) (by decide)
        hcut
      exact hhead

/-- Of a declaration whose head is that of the next one only the annotation stands before that. -/
theorem exists_annotation_of_runs_on {before before' keyword keyword' line next : List Char}
    (hprelude : IsPrelude before) (hname : IsName keyword)
    (h : IsHead before keyword (line ++ '\n' :: next)) (hprelude' : IsPrelude before')
    (hname' : IsName keyword') (h' : IsHead before' keyword' next) :
    ∃ space, IsSpace space ∧ line = auditMark.toList ++ space := by
  have hlater : IsHead (line ++ '\n' :: before') keyword' (line ++ '\n' :: next) := by
    simpa using h'.append_left (line ++ ['\n'])
  have hsame := h.append_keyword_eq hlater hname hname'
  rcases hprelude with rfl | ⟨gap, hgap, rfl⟩
  · -- the line feed would be in the keyword
    refine absurd ?_ (hname.not_mem (c := '\n') (by decide))
    rw [List.nil_append] at hsame
    simp [hsame]
  · have hstops : Stops isWord (auditMark.toList ++ gap).reverse :=
      stops_reverse_append hgap.1 hgap.not_word _
    have hfeed : Stops isWord (line ++ ['\n']).reverse :=
      stops_reverse_append (by simp) (by decide) line
    have hline := hprelude'.stops_word hfeed
    rw [List.append_assoc, List.singleton_append] at hline
    obtain ⟨hsame, -⟩ := run_unique_end hname.2 hname'.2 hstops hline hsame
    rcases hprelude' with rfl | ⟨gap', -, rfl⟩
    · obtain ⟨space, rfl, hline⟩ := exists_of_append_eq_concat hgap.1 hsame
      exact ⟨space, fun c hc => hgap.2 c (List.mem_append_left _ hc), hline⟩
    · -- the sign of the annotation would occur twice
      exfalso
      have hsign : '@' ∉ "EnableAudit".toList ++ gap := by
        have hblank : '@' ∉ gap := fun hmem => absurd (hgap.2 '@' hmem) (by decide)
        simp [hblank]
      have haudit : auditMark.toList = '@' :: "EnableAudit".toList := by decide
      rw [haudit] at hsame
      cases line with
      | nil => simp at hsame
      | cons c line =>
        have hrest : "EnableAudit".toList ++ gap =
            line ++ '\n' :: ('@' :: "EnableAudit".toList ++ gap') := (List.cons.inj hsame).2
        rw [hrest] at hsign
        simp at hsign

section

variable {α : Type} {read : List Char → Option (α × List Char)}
  {IsText : α → List Char → Prop}

/-- No declaration goes on from a line that leaves nothing open into the next declaration. -/
theorem ReadsDeclarations.endsWithin_line (hreads : ReadsDeclarations read IsText)
    {line : List Char} (hopen : ¬LeavesOpen line) {keyword before next later : List Char}
    (hprelude : IsPrelude before) (hname : IsName keyword) (hhead : IsHead before keyword next) :
    EndsWithin IsText (line ++ ['\n']) (next ++ '{' :: later) := by
  intro t hne ht value more after hmore hrest htext
  obtain ⟨keyword', before', head, inside, hdeclared, hinside⟩ := hreads.declared htext
  have hunbraced : Unbraced next := (hhead.plain hprelude hname).unbraced
  rcases List.suffix_concat_iff.mp ht with rfl | ⟨t, rfl, u, rfl⟩
  · exact hne rfl
  · have htext' : t ++ ['\n'] ++ more = t ++ '\n' :: more := by simp
    rcases hdeclared.runs_on htext' hmore hrest.symm hunbraced with
      ⟨body, inner, rfl, rfl, rfl⟩ | rfl
    · rcases hinside with hkeyword | hinside
      · -- a block is left open
        have hclosed := hdeclared.closed
        rw [List.mem_append, not_or] at hclosed
        refine hopen ?_
        rw [← List.append_assoc]
        exact .block hkeyword (hdeclared.isHead.append_left u) hclosed.1
      · -- the first brace after the line is an opening one
        rw [unbraced_append] at hinside
        have hinner : Unbraced inner := hinside.2.of_suffix (List.suffix_cons _ _)
        rw [List.append_assoc, List.singleton_append] at hrest
        obtain ⟨-, hbrace, -⟩ := unbraced_cut_unique hunbraced hinner (by decide) (by decide) hrest
        exact absurd hbrace (by decide)
    · obtain ⟨space, hspace, rfl⟩ := exists_annotation_of_runs_on hdeclared.prelude
        hdeclared.isName hdeclared.isHead hprelude hname hhead
      exact hopen (.audit u hspace)

/-! ## What begins on a comment line -/

/-- On a comment line everything after the sign is commented. -/
theorem IsCommentLine.isCommented {line : List Char} (h : IsCommentLine line) {offset : Nat}
    (hsign : commentSign.length ≤ offset) (hle : offset ≤ line.length) (rest : List Char) :
    isCommented (line ++ rest) offset = true := by
  rw [isCommented_append_of_le hle]
  have hfeed : '\n' ∉ line.take offset := fun hmem => h.not_mem (List.mem_of_mem_take hmem)
  have hlast := lastLine_append hfeed []
  obtain ⟨remark, rfl, -, -, -⟩ := h
  unfold Document.isCommented lineBefore
  rw [List.nil_append] at hlast
  rw [hlast, List.take_append, List.take_of_length_le hsign]
  exact startsComment_trim _

/-- What a scan finds on a comment line is commented. -/
theorem ReadsDeclarations.isCommented_of_line (hreads : ReadsDeclarations read IsText)
    {line rest : List Char} (hline : IsCommentLine line) {occurrence : Occurrence α}
    (h : occurrence ∈ occurrences read (line ++ rest)) (hle : occurrence.start ≤ line.length) :
    isCommented (line ++ rest) occurrence.start = true := by
  refine hline.isCommented ?_ hle rest
  obtain ⟨before, after, hsplit, hstart, hread⟩ := mem_occurrences hreads.takesFront h
  obtain ⟨text, htext, hsame⟩ := hreads.reads.mp hread
  have hslash : ∀ more, occurrence.text ++ after ≠ '/' :: more := by
    intro more hmore
    obtain ⟨whole, hwhole, -⟩ := hreads.closed htext
    cases text with
    | nil => simp at hwhole
    | cons c text =>
      rw [hsame] at hmore
      exact (hreads.start htext c rfl).2 (List.cons.inj hmore).1
  obtain ⟨remark, rfl, -, -, -⟩ := hline
  -- it begins with none of the two slashes, so both stand before it
  rw [hstart]
  match before with
  | [] => exact absurd hsplit.symm (hslash _)
  | [_] => exact absurd (List.cons.inj hsplit).2.symm (hslash _)
  | _ :: _ :: before => simp [commentSign]

theorem liveAmong_eq_nil {plain : List Char} {found : List (Occurrence α)}
    (h : ∀ occurrence ∈ found, isCommented plain occurrence.start = true) :
    liveAmong plain found = [] := by
  rw [liveAmong, List.map_eq_nil_iff, List.filter_eq_nil_iff]
  intro occurrence hoccurrence
  simp [h occurrence hoccurrence]

/-- A comment line declares nothing. -/
theorem ReadsDeclarations.liveDeclarations_line (hreads : ReadsDeclarations read IsText)
    {line : List Char} (hline : IsCommentLine line) :
    liveDeclarations read (line ++ ['\n']) = [] := by
  apply liveAmong_eq_nil
  intro occurrence hoccurrence
  refine hreads.isCommented_of_line hline hoccurrence ?_
  obtain ⟨before, after, hsplit, hstart, hread⟩ := mem_occurrences hreads.takesFront hoccurrence
  obtain ⟨taken, hne, htaken⟩ := hreads.takesFront hread
  have hlength := congrArg List.length hsplit
  have htaken := congrArg List.length htaken
  have hpos := List.length_pos_iff.mpr hne
  simp only [List.length_append, List.length_singleton] at hlength htaken
  omega

/-- If a declaration begins on a comment line and reaches to the end of the text, nothing in the
text is live. -/
theorem ReadsDeclarations.liveDeclarations_of_reaches (hreads : ReadsDeclarations read IsText)
    {line rest before text : List Char} (hline : IsCommentLine line)
    (hsplit : line ++ rest = before ++ text) (hle : before.length ≤ line.length) {value : α}
    (htext : IsText value text) : liveDeclarations read (line ++ rest) = [] := by
  apply liveAmong_eq_nil
  intro occurrence hoccurrence
  refine hreads.isCommented_of_line hline hoccurrence ?_
  rw [hsplit, occurrences] at hoccurrence
  have hstart := start_le_of_mem_occurrencesFrom hreads htext (Nat.zero_le _) 0 _ hoccurrence
  omega

end

/-! ## Lines that leave nothing open -/

/-- The lines of parts, each with the line feed that ends it. -/
def linesOfParts (parts : List (List Char)) : List Char := parts.flatMap fun part => part ++ ['\n']

theorem linesOfParts_append_cons (before after : List (List Char)) (line : List Char) :
    linesOfParts (before ++ line :: after) =
      linesOfParts before ++ (line ++ '\n' :: linesOfParts after) := by
  simp [linesOfParts]

theorem textOfParts_append_lineFeed {parts : List (List Char)} (hne : parts ≠ []) :
    textOfParts parts ++ ['\n'] = linesOfParts parts := by
  induction parts with
  | nil => exact absurd rfl hne
  | cons part parts ih =>
    cases parts with
    | nil => simp [textOfParts, linesOfParts]
    | cons next parts =>
      have ih := ih (List.cons_ne_nil _ _)
      unfold textOfParts linesOfParts at ih ⊢
      rw [List.intercalate_cons_cons, List.append_assoc, ih, List.flatMap_cons (x := part)]

/-- Lines of declarations end closed. -/
theorem endsClosed_linesOfParts {parts : List (List Char)}
    (h : ∀ part ∈ parts, IsDeclaration part) :
    linesOfParts parts = [] ∨ EndsClosed (linesOfParts parts) := by
  rcases List.eq_nil_or_concat parts with rfl | ⟨parts, part, rfl⟩
  · exact .inl rfl
  · right
    obtain ⟨keyword, before, head, inside, hdeclared⟩ := (h part (by simp)).exists_declared
    obtain ⟨whole, rfl, -⟩ := hdeclared.exists_closed
    exact ⟨linesOfParts parts ++ whole, by simp [linesOfParts]⟩

/-- A comment in a declaration cannot reach its head, so the lines of declarations begin with a head
without their comments too. -/
theorem plainOf_linesOfParts_cases {parts : List (List Char)}
    (h : ∀ part ∈ parts, IsDeclaration part) :
    plainOf (linesOfParts parts) = [] ∨ ∃ keyword before next later, IsPrelude before ∧
      IsName keyword ∧ IsHead before keyword next ∧
      plainOf (linesOfParts parts) = next ++ '{' :: later := by
  cases parts with
  | nil => exact .inl (plainOf_of_none rfl)
  | cons part parts =>
    right
    obtain ⟨keyword, before, head, inside, hdeclared⟩ :=
      (h part List.mem_cons_self).exists_declared
    have hlines : linesOfParts (part :: parts) =
        (head ++ ['{']) ++ (inside ++ '}' :: '\n' :: linesOfParts parts) := by
      rw [hdeclared.eq]
      simp [linesOfParts]
    have havoids : Avoids opening (head ++ ['{']) := by
      refine (avoids_append_cons (by decide)).mpr ⟨hdeclared.plain_head.avoids_opening, ?_⟩
      decide
    have hmeet : ∀ rest, MeetApart (head ++ ['{']) rest := fun rest => ⟨by simp, by simp⟩
    refine ⟨keyword, before, head, plainOf (inside ++ '}' :: '\n' :: linesOfParts parts),
      hdeclared.prelude, hdeclared.isName, hdeclared.isHead, ?_⟩
    rw [hlines, plainOf_append_of_avoids havoids (hmeet _), List.append_assoc]
    rfl

section

variable {α : Type} {read : List Char → Option (α × List Char)}
  {IsText : α → List Char → Prop}

theorem ReadsDeclarations.liveDeclarations_textOfParts (hreads : ReadsDeclarations read IsText)
    (parts : List (List Char)) :
    liveDeclarations read (plainOf (textOfParts parts)) =
      liveDeclarations read (plainOf (linesOfParts parts)) := by
  cases parts with
  | nil => rfl
  | cons part parts =>
    rw [← textOfParts_append_lineFeed (List.cons_ne_nil part parts), plainOf_append_lineFeed,
      liveDeclarations_append_lineFeed hreads]

/-- A comment line that leaves nothing open does not change what is live. -/
theorem ReadsDeclarations.liveDeclarations_insert (hreads : ReadsDeclarations read IsText)
    {line : List Char} (hline : IsCommentLine line) (hopen : ¬LeavesOpen line)
    {before after : List (List Char)} (h : ∀ part ∈ before ++ after, IsDeclaration part) :
    liveDeclarations read (plainOf (textOfParts (before ++ line :: after))) =
      liveDeclarations read (plainOf (textOfParts (before ++ after))) := by
  have hbefore := endsClosed_linesOfParts fun part hpart => h part (List.mem_append_left _ hpart)
  have hafter := plainOf_linesOfParts_cases fun part hpart =>
    h part (List.mem_append_right _ hpart)
  have hopening : Avoids opening line := fun hfound => hopen (.comment hfound)
  have happend : linesOfParts (before ++ after) = linesOfParts before ++ linesOfParts after :=
    List.flatMap_append
  rw [hreads.liveDeclarations_textOfParts, hreads.liveDeclarations_textOfParts, happend,
    linesOfParts_append_cons]
  rcases plainOf_insert hbefore hopening hline.avoids_closing (linesOfParts after) with
    hsame | ⟨kept, hkept, hwithout, hwith⟩
  · rw [hsame]
  · have hparts : ∀ rest, liveDeclarations read (kept ++ rest) =
        liveDeclarations read kept ++ liveDeclarations read rest := by
      intro rest
      rcases hkept with rfl | hkept
      · rfl
      · refine liveDeclarations_append hreads (hreads.endsWithin_of_endsClosed hkept rest) ?_
        obtain ⟨whole, rfl⟩ := hkept
        have hlast := lastLine_append_lineFeed (whole ++ ['}'])
        simpa using hlast
    have hwithin : EndsWithin IsText (line ++ ['\n']) (plainOf (linesOfParts after)) := by
      rcases hafter with hnil | ⟨keyword, before', next, later, hprelude, hname, hhead, hnext⟩
      · rw [hnil]
        intro t _ _ value more rest hmore hrest
        exact absurd (List.append_eq_nil_iff.mp hrest.symm).1 hmore
      · rw [hnext]
        exact hreads.endsWithin_line hopen hprelude hname hhead
    have hcut : line ++ '\n' :: plainOf (linesOfParts after) =
        (line ++ ['\n']) ++ plainOf (linesOfParts after) := by simp
    rw [hwithout, hwith, hparts, hparts, hcut,
      liveDeclarations_append hreads hwithin (lastLine_append_lineFeed line),
      hreads.liveDeclarations_line hline, List.nil_append]

end

theorem isHarmless_of_not_leavesOpen {line : List Char} (hline : IsCommentLine line)
    (hopen : ¬LeavesOpen line) : IsHarmless line := by
  intro before after h strict
  apply value?_parse_congr
  · simpa only [plain_strip, String.toList_ofList] using
      readsDeclarations_readEnum.liveDeclarations_insert hline hopen h
  · simpa only [plain_strip, String.toList_ofList] using
      readsDeclarations_readEntity.liveDeclarations_insert hline hopen h
  · simpa only [plain_strip, String.toList_ofList] using
      readsDeclarations_readRelationship.liveDeclarations_insert hline hopen h

/-! ## Lines that leave something open -/

/-- An enumeration in whose body a block comment is closed. -/
def enumAfter : List Char := "enum A \x7b*/B\x7d".toList

/-- An entity. -/
def entityAfter : List Char := "entity A \x7bx String\x7d".toList

theorem exists_blockText_enumAfter : ∃ block, BlockText "enum" block enumAfter := by
  have hread : readBlock "enum" enumAfter = some (⟨['A'], "*/B".toList⟩, []) := by decide +kernel
  obtain ⟨text, htext, hsame⟩ := readBlock_eq_some_iff.mp hread
  rw [hsame, List.append_nil]
  exact ⟨_, htext⟩

theorem exists_blockText_entityAfter : ∃ block, BlockText "entity" block entityAfter := by
  have hread : readBlock "entity" entityAfter = some (⟨['A'], "x String".toList⟩, []) := by
    decide +kernel
  obtain ⟨text, htext, hsame⟩ := readBlock_eq_some_iff.mp hread
  rw [hsame, List.append_nil]
  exact ⟨_, htext⟩

/-- A line after which a declaration is not found any more is not harmless. -/
theorem not_isHarmless_of_names {line part : List Char} (hpart : IsDeclaration part)
    (names : Model → List String)
    (hwithout : (parse false (String.ofList part)).value?.map names = some ["A"])
    (hwith : (parse false (String.ofList (line ++ '\n' :: part))).value?.map names = some []) :
    ¬IsHarmless line := by
  intro hharmless
  have hsame := hharmless [] [part] (by simpa using hpart) false
  have hone : textOfParts [part] = part := List.intercalate_singleton
  have htwo : textOfParts [line, part] = line ++ '\n' :: part := by simp [textOfParts]
  rw [List.nil_append, List.nil_append, hone, htwo] at hsame
  rw [hsame, hwithout] at hwith
  exact absurd hwith (by decide)

/-- A line that hides an enumeration after it is not harmless. -/
theorem not_isHarmless_of_no_enum {line : List Char}
    (h : liveDeclarations readEnum (plainOf (line ++ '\n' :: enumAfter)) = []) :
    ¬IsHarmless line := by
  obtain ⟨block, htext⟩ := exists_blockText_enumAfter
  apply not_isHarmless_of_names (.enum htext) fun model => model.enums.names
  · decide +kernel
  · simp only [value?_parse, plain_strip, String.toList_ofList, h]
    rfl

/-- A line that hides an entity after it is not harmless. -/
theorem not_isHarmless_of_no_entity {line : List Char}
    (h : liveDeclarations readEntity (plainOf (line ++ '\n' :: entityAfter)) = []) :
    ¬IsHarmless line := by
  obtain ⟨block, htext⟩ := exists_blockText_entityAfter
  apply not_isHarmless_of_names (.entity (.plain htext)) fun model => model.entities.names
  · decide +kernel
  · simp only [value?_parse, plain_strip, String.toList_ofList, h]
    rfl

/-- A block comment that is opened on a comment line goes on as far as it is closed. -/
theorem plainOf_opened {more : List Char} (hclosing : Avoids closing more) :
    plainOf ('/' :: (opening ++ more) ++ '\n' :: enumAfter) = "/B\x7d".toList := by
  have hcut : cutAfterClosing ('\n' :: enumAfter) =
      some ("\nenum A \x7b*/".toList, "B\x7d".toList) := by
    decide +kernel
  have hmeet : MeetApart more ('\n' :: enumAfter) := ⟨by simp, by simp⟩
  have hlater := cutAfterClosing_append_of_none (cutAfterClosing_eq_none_iff.mpr hclosing) hmeet
  rw [hcut] at hlater
  have hcomment : cutComment (opening ++ (more ++ '\n' :: enumAfter)) =
      some ([], opening ++ (more ++ "\nenum A \x7b*/".toList), "B\x7d".toList) := by
    rw [opening, List.cons_append, List.singleton_append, cutComment, hlater]
    rfl
  have hrest : plainOf "B\x7d".toList = "B\x7d".toList := plainOf_of_none (by decide +kernel)
  have hslash : Avoids opening ['/'] := by decide
  have hmeet' : MeetApart ['/'] (opening ++ (more ++ '\n' :: enumAfter)) :=
    ⟨by simp [opening], by simp⟩
  calc plainOf ('/' :: (opening ++ more) ++ '\n' :: enumAfter)
    _ = plainOf (['/'] ++ (opening ++ (more ++ '\n' :: enumAfter))) := by simp
    _ = "/B\x7d".toList := by
        rw [plainOf_append_of_avoids hslash hmeet', plainOf_of_some hcomment, hrest]
        rfl

/-- What is left of a block on a comment line ends in the next declaration. -/
theorem exists_blockText_of_open {keyword : String} {before head body : List Char}
    (hhead : IsHead before keyword.toList head) (hbody : '}' ∉ body) (rest : List Char)
    (hrest : '}' ∉ rest) (hne : rest ≠ []) :
    ∃ block text, head ++ '{' :: body ++ (rest ++ ['}']) = before ++ text ∧
      BlockText keyword block text := by
  obtain ⟨gap, word, space, hgap, hword, hspace, rfl⟩ := hhead
  have hclosed : '}' ∉ body ++ rest := by simp [hbody, hrest]
  have hfull : body ++ rest ≠ [] := List.append_ne_nil_of_right_ne_nil body hne
  refine ⟨_, _, ?_, .intro hgap hword hspace hfull hclosed⟩
  simp only [List.append_assoc, List.cons_append]

theorem not_isHarmless_of_leavesOpen {line : List Char} (hline : IsCommentLine line)
    (hopen : LeavesOpen line) : ¬IsHarmless line := by
  by_cases hopening : opening <:+: line
  · apply not_isHarmless_of_no_enum
    have hclosing := hline.avoids_closing
    obtain ⟨more, rfl⟩ := hline.exists_of_opening hopening
    have hmore : Avoids closing more :=
      hclosing.of_infix ((List.suffix_append opening more).trans (List.suffix_cons _ _)).isInfix
    rw [plainOf_opened hmore]
    decide +kernel
  · have hplain : ∀ part, Avoids opening part →
        plainOf (line ++ '\n' :: part) = line ++ '\n' :: part := by
      intro part hpart
      exact plainOf_of_none (cutComment_of_avoids
        ((avoids_append_cons (by decide)).mpr ⟨hopening, hpart⟩))
    cases hopen with
    | comment hfound => exact absurd hfound hopening
    | @block before keyword head body hkeyword hhead hbody =>
      have hle : before.length ≤ (head ++ '{' :: body).length := by
        obtain ⟨gap, word, space, -, -, -, rfl⟩ := hhead
        simp only [List.length_append]
        omega
      simp only [blockKeywords, List.mem_cons, List.not_mem_nil, or_false] at hkeyword
      rcases hkeyword with rfl | rfl
      · apply not_isHarmless_of_no_enum
        obtain ⟨block, text, hsplit, htext⟩ := exists_blockText_of_open hhead hbody
          "\nenum A \x7b*/B".toList (by decide) (by decide)
        rw [hplain _ (by decide)]
        exact readsDeclarations_readEnum.liveDeclarations_of_reaches hline hsplit hle htext
      · apply not_isHarmless_of_no_entity
        obtain ⟨block, text, hsplit, htext⟩ := exists_blockText_of_open hhead hbody
          "\nentity A \x7bx String".toList (by decide) (by decide)
        rw [hplain _ (by decide)]
        exact readsDeclarations_readEntity.liveDeclarations_of_reaches hline hsplit hle
          (.plain htext)
    | @audit before space hspace =>
      apply not_isHarmless_of_no_entity
      obtain ⟨block, htext⟩ := exists_blockText_entityAfter
      have hgap : IsGap (space ++ ['\n']) := by
        refine ⟨by simp, ?_⟩
        intro c hc
        rcases List.mem_append.mp hc with hc | hc
        · exact hspace c hc
        · obtain rfl : c = '\n' := by simpa using hc
          decide
      have hsplit : before ++ (auditMark.toList ++ space) ++ '\n' :: entityAfter =
          before ++ (auditMark.toList ++ (space ++ ['\n']) ++ entityAfter) := by simp
      have hle : before.length ≤ (before ++ (auditMark.toList ++ space)).length := by
        rw [List.length_append]
        omega
      rw [hplain _ (by decide)]
      exact readsDeclarations_readEntity.liveDeclarations_of_reaches hline hsplit hle
        (.annotated hgap htext)

/-- **Comment lines.** A comment line may be put in before, between and after all declarations
exactly if it leaves nothing open. -/
theorem isHarmless_iff {line : List Char} (hline : IsCommentLine line) :
    IsHarmless line ↔ ¬LeavesOpen line := by
  constructor
  · intro hharmless hopen
    exact not_isHarmless_of_leavesOpen hline hopen hharmless
  · exact isHarmless_of_not_leavesOpen hline

/-- An entity that is commented out on one line. -/
theorem isHarmless_of_closed_entity :
    let line := "// @EnableAudit entity Task \x7b x String \x7d".toList
    IsCommentLine line ∧ IsHarmless line := by
  intro line
  have hline : IsCommentLine line :=
    ⟨line.drop 2, by decide, by decide, by decide, by decide⟩
  have hopening : Avoids opening line := by decide
  have hclosed : line = line.dropLast ++ ['}'] := by decide
  exact ⟨hline, (isHarmless_iff hline).mpr (not_leavesOpen_of_closed hopening hclosed)⟩

/-- A line with the first half of an entity takes the entity on the next line away. -/
theorem open_block_hides_entity :
    let line := "// entity X \x7b".toList
    let entity := "entity A \x7b\n  x String\n\x7d".toList
    IsCommentLine line ∧ IsDeclaration entity ∧
      ((parse false (String.ofList (textOfParts [entity]))).value?.map
        fun model => model.entities.names) = some ["A"] ∧
      ((parse false (String.ofList (textOfParts [line, entity]))).value?.map
        fun model => model.entities.names) = some [] := by
  intro line entity
  have hline : IsCommentLine line :=
    ⟨" entity X \x7b".toList, by decide, by decide, by decide, by decide⟩
  have hread : readEntity entity = some (⟨['A'], "\n  x String\n".toList⟩, []) := by decide +kernel
  obtain ⟨text, htext, hsame⟩ := readEntity_eq_some_iff.mp hread
  have hentity : IsDeclaration entity := by
    rw [hsame, List.append_nil]
    exact .entity htext
  exact ⟨hline, hentity, by decide +kernel, by decide +kernel⟩

end EntityScaffold.Document
