import EntityScaffold.Proofs.Document.Parts

/-!
# A scan finds the chain of declarations

A declaration stands in a text where its grammar says so (`Occurrence.StandsIn`), whether a scan
finds it there or not. Since a reader takes exactly the texts of its grammar off the front, at most
one declaration stands at an offset (`ReadsDeclarations.unique_at`), and what a scan finds is the
one chain in which each declaration is the first to begin when the one before has ended
(`isChain_iff`). Which of them count is told by what stands before them on their line
(`isCommented_iff`).

What the grammars leave open about a declaration that stands somewhere is no matter of choice: its
words are the maximal runs of word characters of its text, its body ends at the first closing brace,
and if the annotation stands before an entity the scan has found it with the annotation
(`annotated_of_mem_occurrences`).
-/

namespace EntityScaffold.Document

open Text

variable {α : Type}

/-! ## Chains -/

/-- A declaration stands in a text at its offset. -/
structure Occurrence.StandsIn (IsText : α → List Char → Prop) (plain : List Char)
    (occurrence : Occurrence α) : Prop where
  isText : IsText occurrence.value occurrence.text
  slice : ∃ before after, plain = before ++ (occurrence.text ++ after) ∧
    occurrence.start = before.length

/-- A chain of declarations from an offset on. Each is the first that begins there or later, and the
next one is looked for where it ends; after the last one none begins. -/
inductive IsChain (IsText : α → List Char → Prop) (plain : List Char) :
    Nat → List (Occurrence α) → Prop
  | nil {offset : Nat}
      (last : ∀ other : Occurrence α, other.StandsIn IsText plain → other.start < offset) :
      IsChain IsText plain offset []
  | cons {offset : Nat} {first : Occurrence α} {later : List (Occurrence α)}
      (stands : first.StandsIn IsText plain) (ordered : offset ≤ first.start)
      (leftmost : ∀ other : Occurrence α, other.StandsIn IsText plain → offset ≤ other.start →
        first.start ≤ other.start)
      (chain : IsChain IsText plain first.stop later) : IsChain IsText plain offset (first :: later)

section

variable {read : List Char → Option (α × List Char)} {IsText : α → List Char → Prop}
  {plain : List Char}

/-- A declaration that stands at an offset is read there. -/
theorem ReadsDeclarations.read_of_standsIn (hreads : ReadsDeclarations read IsText)
    {occurrence : Occurrence α} (h : occurrence.StandsIn IsText plain) :
    ∃ after, plain.drop occurrence.start = occurrence.text ++ after ∧
      read (plain.drop occurrence.start) = some (occurrence.value, after) := by
  obtain ⟨before, after, rfl, hstart⟩ := h.slice
  have hdrop : (before ++ (occurrence.text ++ after)).drop occurrence.start =
      occurrence.text ++ after := by
    rw [hstart, List.drop_left]
  exact ⟨after, hdrop, hreads.reads.mpr ⟨occurrence.text, h.isText, hdrop⟩⟩

/-- What a scan finds stands in the text. -/
theorem ReadsDeclarations.standsIn_of_mem (hreads : ReadsDeclarations read IsText)
    {occurrence : Occurrence α} (h : occurrence ∈ occurrences read plain) :
    occurrence.StandsIn IsText plain := by
  obtain ⟨before, after, hplain, hstart, hread⟩ := mem_occurrences hreads.takesFront h
  obtain ⟨text, htext, hsame⟩ := hreads.reads.mp hread
  obtain rfl : occurrence.text = text := List.append_cancel_right hsame
  exact ⟨htext, before, after, hplain, hstart⟩

/-- **One at an offset.** No two declarations of a grammar stand at one offset. -/
theorem ReadsDeclarations.unique_at (hreads : ReadsDeclarations read IsText)
    {first second : Occurrence α} (h : first.StandsIn IsText plain)
    (h' : second.StandsIn IsText plain) (hstart : first.start = second.start) : first = second := by
  obtain ⟨after, hdrop, hread⟩ := hreads.read_of_standsIn h
  obtain ⟨after', hdrop', hread'⟩ := hreads.read_of_standsIn h'
  obtain ⟨start, text, value⟩ := first
  obtain ⟨start', text', value'⟩ := second
  obtain rfl : start = start' := hstart
  obtain ⟨rfl, rfl⟩ : value = value' ∧ after = after' := by simpa using hread.symm.trans hread'
  obtain rfl : text = text' := List.append_cancel_right (hdrop.symm.trans hdrop')
  rfl

/-- A declaration that ends in a part of a text has its closing brace there. -/
theorem ReadsDeclarations.close_mem (hreads : ReadsDeclarations read IsText)
    {occurrence : Occurrence α} (h : occurrence.StandsIn IsText plain) {offset : Nat}
    (hle : occurrence.stop ≤ offset) {before part : List Char}
    (hpart : plain.take offset = before ++ part) (hlt : before.length < occurrence.stop) :
    '}' ∈ part := by
  obtain ⟨front, after, hplain, hstart⟩ := h.slice
  obtain ⟨whole, hwhole, -⟩ := hreads.closed h.isText
  have hend : plain.take occurrence.stop = (front ++ whole) ++ ['}'] := by
    rw [Occurrence.stop, hstart, ← List.length_append, hplain, ← List.append_assoc,
      List.take_left, hwhole, List.append_assoc]
  have hcut : plain.take occurrence.stop =
      before ++ part.take (occurrence.stop - before.length) := by
    have htake : (plain.take offset).take occurrence.stop = plain.take occurrence.stop := by
      rw [List.take_take, Nat.min_eq_left hle]
    rw [← htake, hpart, List.take_append, List.take_of_length_le (Nat.le_of_lt hlt)]
  have hne : part.take (occurrence.stop - before.length) ≠ [] := by
    intro hnil
    have hlength := congrArg List.length hcut
    rw [hnil, List.append_nil, List.length_take, hplain, List.length_append, List.length_append]
      at hlength
    simp only [Occurrence.stop, hstart] at hlength hlt
    omega
  obtain ⟨inner, hinner, -⟩ := exists_of_append_eq_concat hne (hcut.symm.trans hend)
  have hmem : '}' ∈ inner ++ ['}'] := List.mem_append_right _ List.mem_cons_self
  rw [← hinner] at hmem
  exact List.mem_of_mem_take hmem

/-- A chain from the next offset on is one from this offset on if no declaration stands here. -/
theorem IsChain.of_none {offset : Nat} {found : List (Occurrence α)}
    (hnone : ∀ other : Occurrence α, other.StandsIn IsText plain → other.start ≠ offset)
    (h : IsChain IsText plain (offset + 1) found) : IsChain IsText plain offset found := by
  cases h with
  | nil last =>
    refine .nil fun other hother => ?_
    have hlt := last other hother
    have hne := hnone other hother
    omega
  | cons stands ordered leftmost chain =>
    refine .cons stands (Nat.le_of_succ_le ordered) (fun other hother hle => ?_) chain
    have hne := hnone other hother
    exact leftmost other hother (by omega)

/-- What a scan finds from an offset on is a chain. The characters that it is to pass over first are
those up to the end of the declaration before. -/
theorem isChain_occurrencesFrom (hreads : ReadsDeclarations read IsText) {before s : List Char}
    (hplain : plain = before ++ s) {skip : Nat} (hskip : skip ≤ s.length) :
    IsChain IsText plain (before.length + skip) (occurrencesFrom read skip before.length s) := by
  induction s generalizing before skip with
  | nil =>
    rw [occurrencesFrom]
    refine .nil fun other hother => ?_
    obtain ⟨front, after, hsplit, hstart⟩ := hother.slice
    have hpos := List.length_pos_iff.mpr (hreads.ne_nil hother.isText)
    have hlength := congrArg List.length (hplain.symm.trans hsplit)
    simp only [List.length_append, List.length_nil] at hlength
    omega
  | cons c rest ih =>
    have hnext : plain = before ++ [c] ++ rest := by rw [hplain, List.append_assoc]; rfl
    have hdrop : plain.drop before.length = c :: rest := by rw [hplain, List.drop_left]
    have hlength : (before ++ [c]).length = before.length + 1 := List.length_append
    cases skip with
    | succ skip =>
      have hlater := ih hnext (Nat.le_of_succ_le_succ hskip)
      rw [hlength, Nat.add_assoc, Nat.add_comm 1 skip] at hlater
      rw [occurrencesFrom]
      exact hlater
    | zero =>
      cases hread : read (c :: rest) with
      | none =>
        have hlater := ih hnext (Nat.zero_le _)
        rw [hlength] at hlater
        rw [occurrencesFrom_of_none hread]
        refine hlater.of_none fun other hother hstart => ?_
        obtain ⟨after, -, hsome⟩ := hreads.read_of_standsIn hother
        rw [hstart, Nat.add_zero, hdrop, hread] at hsome
        exact absurd hsome (by simp)
      | some found =>
        obtain ⟨value, after⟩ := found
        obtain ⟨text, htext, hsplit⟩ := hreads.reads.mp hread
        have hpos := List.length_pos_iff.mpr (hreads.ne_nil htext)
        have hle : text.length ≤ rest.length + 1 := by
          have hsum := congrArg List.length hsplit
          simp only [List.length_cons, List.length_append] at hsum
          omega
        have hlater := ih hnext (show text.length - 1 ≤ rest.length by omega)
        have hstop : (before ++ [c]).length + (text.length - 1) =
            Occurrence.stop ⟨before.length, text, value⟩ := by
          show _ = before.length + text.length
          omega
        rw [hstop, hlength] at hlater
        rw [occurrencesFrom_of_read hread hsplit]
        exact .cons ⟨htext, before, after, by rw [hplain, hsplit], rfl⟩ (Nat.le_refl _)
          (fun _ _ hle => hle) hlater

/-- There is one chain from an offset on. -/
theorem IsChain.unique (hreads : ReadsDeclarations read IsText) {offset : Nat}
    {found found' : List (Occurrence α)} (h : IsChain IsText plain offset found)
    (h' : IsChain IsText plain offset found') : found = found' := by
  induction h generalizing found' with
  | nil last =>
    cases h' with
    | nil => rfl
    | cons stands ordered => exact absurd (last _ stands) (Nat.not_lt.mpr ordered)
  | cons stands ordered leftmost _ ih =>
    cases h' with
    | nil last => exact absurd (last _ stands) (Nat.not_lt.mpr ordered)
    | cons stands' ordered' leftmost' chain' =>
      have hstart := Nat.le_antisymm (leftmost _ stands' ordered') (leftmost' _ stands ordered)
      obtain rfl := hreads.unique_at stands stands' hstart
      rw [ih chain']

/-- **Chains.** What a scan finds in a text is its chain of declarations, and there is no other. -/
theorem isChain_iff (hreads : ReadsDeclarations read IsText) {found : List (Occurrence α)} :
    IsChain IsText plain 0 found ↔ found = occurrences read plain := by
  have hchain : IsChain IsText plain 0 (occurrences read plain) :=
    isChain_occurrencesFrom hreads (List.nil_append plain).symm (Nat.zero_le _)
  constructor
  · intro h
    exact h.unique hreads hchain
  · rintro rfl
    exact hchain

/-- Before a link of a chain nothing begins after the end of the link before it. -/
theorem IsChain.exists_before {offset : Nat} {found : List (Occurrence α)}
    (h : IsChain IsText plain offset found) {link : Occurrence α} (hlink : link ∈ found) :
    ∃ low ≤ link.start,
      (low = offset ∨
        ∃ earlier : Occurrence α, earlier.StandsIn IsText plain ∧ earlier.stop = low) ∧
      ∀ other : Occurrence α, other.StandsIn IsText plain → low ≤ other.start →
        link.start ≤ other.start := by
  induction h with
  | nil => exact absurd hlink List.not_mem_nil
  | @cons offset first later stands ordered leftmost _ ih =>
    rcases List.mem_cons.mp hlink with rfl | hlater
    · exact ⟨offset, ordered, .inl rfl, leftmost⟩
    · obtain ⟨low, hle, hlow, hnone⟩ := ih hlater
      refine ⟨low, hle, .inr ?_, hnone⟩
      rcases hlow with rfl | hearlier
      · exact ⟨first, stands, rfl⟩
      · exact hearlier

end

/-! ## What counts -/

/-- The line of an offset begins with a comment sign, blanks aside, before the offset. -/
def OnCommentLine (plain : List Char) (offset : Nat) : Prop :=
  ∃ before gap remark, plain.take offset = before ++ (gap ++ (commentSign ++ remark)) ∧
    (∀ c ∈ before.getLast?, c = '\n') ∧ IsSpace gap ∧ '\n' ∉ gap ++ (commentSign ++ remark)

/-- Whole lines end with a line feed, if there are any. -/
theorem lastLine_eq_nil_iff {s : List Char} : lastLine s = [] ↔ ∀ c ∈ s.getLast?, c = '\n' := by
  rw [lastLine, List.reverse_eq_nil_iff, ← List.head?_reverse]
  cases s.reverse with
  | nil => simp
  | cons c rest => simp [List.takeWhile_cons]

/-- What stands before the last line is whole lines. -/
theorem exists_lastLine (s : List Char) :
    ∃ before, s = before ++ lastLine s ∧ ∀ c ∈ before.getLast?, c = '\n' := by
  refine ⟨(s.reverse.dropWhile (· != '\n')).reverse, ?_, ?_⟩
  · rw [lastLine, ← List.reverse_append, List.takeWhile_append_dropWhile, List.reverse_reverse]
  · intro c hc
    rw [List.getLast?_reverse] at hc
    have hstop := stops_dropWhile (· != '\n') s.reverse c hc
    simpa using hstop

/-- Commented is what stands on a comment line. -/
theorem isCommented_iff {plain : List Char} {offset : Nat} :
    isCommented plain offset = true ↔ OnCommentLine plain offset := by
  unfold isCommented lineBefore
  constructor
  · intro h
    obtain ⟨before, hsplit, hbefore⟩ := exists_lastLine (plain.take offset)
    obtain ⟨gap, gap', hgap, -, hline⟩ := exists_trim (lastLine (plain.take offset))
    obtain ⟨remark, hremark⟩ := List.isPrefixOf_iff_prefix.mp h
    have hfeed := not_mem_lastLine (plain.take offset)
    rw [← hremark, List.append_assoc, List.append_assoc] at hline
    rw [hline] at hfeed
    exact ⟨before, gap, remark ++ gap', by rw [← hline]; exact hsplit, hbefore, hgap, hfeed⟩
  · intro h
    obtain ⟨before, gap, remark, hsplit, hbefore, hgap, hfeed⟩ := h
    rw [hsplit, lastLine_append hfeed, lastLine_eq_nil_iff.mpr hbefore, List.nil_append,
      trim_append_of_blank_left hgap]
    exact startsComment_trim remark

instance (plain : List Char) (offset : Nat) : Decidable (OnCommentLine plain offset) :=
  decidable_of_iff (isCommented plain offset = true) isCommented_iff

/-- Going through occurrences adds those that count to what was found before, and notes the
others. -/
theorem foldLive_concat {ε : Type} (source : Source) (earlier found : List (Occurrence α)) :
    foldLive source (fun found occurrence => return found ++ [occurrence]) earlier found =
      (⟨(found.filter fun occurrence => OnCommentLine source.plain occurrence.start).map
          fun occurrence => .skippedDeclaration (source.lineNumber occurrence.start),
        .ok (earlier ++ found.filter fun occurrence =>
          ¬OnCommentLine source.plain occurrence.start)⟩ : Report ε (List (Occurrence α))) := by
  induction found generalizing earlier with
  | nil => simp [foldLive, Report.ok]
  | cons first later ih =>
    have hiff : isCommented source.plain first.start = true ↔
        OnCommentLine source.plain first.start := isCommented_iff
    simp only [Report.pure_eq_ok] at ih
    by_cases hcommented : isCommented source.plain first.start = true
    · simp [foldLive, hcommented, hiff.mp hcommented, ih]
    · simp [foldLive, hcommented, mt hiff.mpr hcommented, ih]

/-! ## Words -/

/-- The maximal runs of word characters in a text, in order. -/
def wordRuns (s : List Char) : List (List Char) := pieces (fun c => !isWord c) s

theorem wordRuns_append_cons {c : Char} (hc : isWord c = false) (s t : List Char) :
    wordRuns (s ++ c :: t) = wordRuns s ++ wordRuns t :=
  pieces_append_cons (by rw [hc]; rfl) s t

/-- A name is a run if what follows does not go on with it. -/
theorem IsName.wordRuns_append {name rest : List Char} (h : IsName name)
    (hrest : Stops isWord rest) : wordRuns (name ++ rest) = name :: wordRuns rest := by
  have hname : wordRuns name = [name] :=
    pieces_eq_singleton h.1 fun c hc => by rw [h.2 c hc]; rfl
  cases rest with
  | nil => rw [List.append_nil, hname]; rfl
  | cons c rest =>
    have hc : isWord c = false := stops_cons.mp hrest
    have hcons := wordRuns_append_cons hc [] rest
    rw [List.nil_append] at hcons
    rw [wordRuns_append_cons hc, hname, hcons]
    rfl

/-- Blanks belong to no run. -/
theorem IsSpace.wordRuns_append {space : List Char} (h : IsSpace space) (rest : List Char) :
    wordRuns (space ++ rest) = wordRuns rest := by
  induction space with
  | nil => rfl
  | cons c space ih =>
    obtain ⟨hc, hspace⟩ := List.forall_mem_cons.mp h.not_word
    have hcons := wordRuns_append_cons hc [] (space ++ rest)
    rw [List.cons_append]
    exact hcons.trans (ih fun d hd => h d (List.mem_cons_of_mem c hd))

theorem wordRuns_brace (rest : List Char) : wordRuns ('{' :: rest) = wordRuns rest :=
  wordRuns_append_cons (by decide) [] rest

theorem wordRuns_close : wordRuns ['}'] = [] := rfl

/-- The runs of a block are its keyword, its name and the runs of its body. -/
theorem BlockText.wordRuns_eq {keyword : String} (hkeyword : IsName keyword.toList) {block : Block}
    {text : List Char} (h : BlockText keyword block text) :
    wordRuns text = keyword.toList :: block.name :: wordRuns block.body := by
  obtain ⟨hgap, hname, hspace, -, -⟩ := h
  rename_i gap name space body
  have hbrace : isWord '{' = false := by decide
  have hclose : isWord '}' = false := by decide
  simp only [List.append_assoc, List.cons_append]
  rw [hkeyword.wordRuns_append (hgap.stops_word _), hgap.2.wordRuns_append,
    hname.wordRuns_append (hspace.stops_word hbrace _), hspace.wordRuns_append, wordRuns_brace,
    wordRuns_append_cons hclose]
  simp [wordRuns, pieces]

/-- The names at one end of a relationship. -/
def Endpoint.words (endpoint : Endpoint) : List (List Char) :=
  endpoint.entity.toList :: (endpoint.role.map String.toList).toList

theorem EndpointText.wordRuns_append {endpoint : Endpoint} {text rest : List Char}
    (h : EndpointText endpoint text) (hrest : Stops isWord rest) :
    wordRuns (text ++ rest) = Endpoint.words endpoint ++ wordRuns rest := by
  cases h with
  | bare hname =>
    rw [hname.wordRuns_append hrest]
    simp [Endpoint.words]
  | @withRole name role hname hrole =>
    have hopen : Stops isWord ('(' :: (role ++ ')' :: rest)) := stops_cons.mpr (by decide)
    have hclose : Stops isWord (')' :: rest) := stops_cons.mpr (by decide)
    have hcut := wordRuns_append_cons (show isWord '(' = false by decide) [] (role ++ ')' :: rest)
    have hcut' := wordRuns_append_cons (show isWord ')' = false by decide) [] rest
    rw [List.nil_append] at hcut hcut'
    simp only [List.append_assoc, List.cons_append, List.nil_append]
    rw [hname.wordRuns_append hopen, hcut, hrole.wordRuns_append hclose, hcut']
    simp [Endpoint.words, wordRuns, pieces]

/-- The words of a relationship: the keyword, its cardinality and the names at its two ends. -/
def relationshipWords (relationship : Relationship) : List (List Char) :=
  "relationship".toList :: relationship.cardinality.keyword.toList ::
    (Endpoint.words relationship.source ++ "to".toList :: Endpoint.words relationship.target)

/-- The runs of a relationship are its words. -/
theorem RelationshipText.wordRuns_eq {relationship : Relationship} {text : List Char}
    (h : RelationshipText relationship text) : wordRuns text = relationshipWords relationship := by
  obtain ⟨hgap, hspace, hbefore, hsource, hgapTo, hgapFrom, htarget, hafter⟩ := h
  rename_i cardinality source target gap space before sourceText gapTo gapFrom targetText after
  have hto : IsName "to".toList := by decide
  have hbrace : isWord '{' = false := by decide
  have hclose : isWord '}' = false := by decide
  simp only [List.append_assoc, List.cons_append]
  rw [isName_relationship.wordRuns_append (hgap.stops_word _), hgap.2.wordRuns_append,
    (isName_cardinality cardinality).wordRuns_append (hspace.stops_word hbrace _),
    hspace.wordRuns_append, wordRuns_brace, hbefore.wordRuns_append,
    hsource.wordRuns_append (hgapTo.stops_word _), hgapTo.2.wordRuns_append,
    hto.wordRuns_append (hgapFrom.stops_word _), hgapFrom.2.wordRuns_append,
    htarget.wordRuns_append (hafter.stops_word hclose _), hafter.wordRuns_append, wordRuns_close,
    List.append_nil]
  rfl

/-! ## Shapes -/

/-- A block of which nothing could be read otherwise: the words of its head are the runs of word
characters there, and its body, which is not empty, is all that stands between the first opening
brace and the first closing one. -/
structure HasBlockShape (keywords : List (List Char)) (block : Block) (text : List Char) :
    Prop where
  words : wordRuns text = keywords ++ block.name :: wordRuns block.body
  body_ne_nil : block.body ≠ []
  braces : ∃ head, text = head ++ '{' :: (block.body ++ ['}']) ∧ '{' ∉ head ∧
    '}' ∉ head ++ block.body

theorem BlockText.body_ne_nil {keyword : String} {block : Block} {text : List Char}
    (h : BlockText keyword block text) : block.body ≠ [] := by
  cases h with
  | intro _ _ _ hbody _ => exact hbody

theorem IsDeclared.braces {keyword text before head inside : List Char}
    (h : IsDeclared keyword text before head inside) :
    text = head ++ '{' :: (inside ++ ['}']) ∧ '{' ∉ head ∧ '}' ∉ head ++ inside := by
  have hhead := h.plain_head.unbraced
  have hclose : '}' ∉ head := hhead.not_mem (by decide)
  exact ⟨h.eq, hhead.not_mem (by decide), by simp [hclose, h.closed]⟩

theorem BlockText.hasBlockShape {keyword : String} (hkeyword : IsName keyword.toList)
    {block : Block} {text : List Char} (h : BlockText keyword block text) :
    HasBlockShape [keyword.toList] block text := by
  obtain ⟨head, hdeclared⟩ := h.exists_declared hkeyword
  exact ⟨h.wordRuns_eq hkeyword, h.body_ne_nil, head, hdeclared.braces⟩

/-- The words before the name of an entity. -/
def entityKeywords (text : List Char) : List (List Char) :=
  if auditMark.toList <+: text then ["EnableAudit".toList, "entity".toList]
  else ["entity".toList]

/-- The runs of an annotated text are the word of the annotation and the runs of the text. -/
theorem wordRuns_annotated {gap : List Char} (hgap : IsGap gap) (text : List Char) :
    wordRuns (auditMark.toList ++ gap ++ text) = "EnableAudit".toList :: wordRuns text := by
  have hsign : auditMark.toList = [] ++ '@' :: "EnableAudit".toList := rfl
  have hword : IsName "EnableAudit".toList := by decide
  rw [hsign]
  simp only [List.append_assoc, List.cons_append]
  rw [wordRuns_append_cons (by decide), hword.wordRuns_append (hgap.stops_word _),
    hgap.2.wordRuns_append]
  rfl

/-- A block does not begin with the annotation. -/
theorem BlockText.not_annotated {block : Block} {text : List Char}
    (h : BlockText "entity" block text) : ¬auditMark.toList <+: text := by
  rintro ⟨rest, hrest⟩
  cases h
  simp [auditMark] at hrest

theorem EntityText.hasBlockShape {block : Block} {text : List Char} (h : EntityText block text) :
    HasBlockShape (entityKeywords text) block text := by
  obtain ⟨before, head, hdeclared⟩ := h.exists_declared
  cases h with
  | plain hblock =>
    rw [entityKeywords, if_neg hblock.not_annotated]
    exact hblock.hasBlockShape isName_entity
  | @annotated gap text hgap hblock =>
    have hprefix : auditMark.toList <+: auditMark.toList ++ gap ++ text :=
      ⟨gap ++ text, by rw [List.append_assoc]⟩
    rw [entityKeywords, if_pos hprefix]
    refine ⟨?_, hblock.body_ne_nil, head, hdeclared.braces⟩
    rw [wordRuns_annotated hgap, hblock.wordRuns_eq isName_entity]
    rfl

/-- An entity without the annotation is a block. -/
theorem EntityText.block_or_annotated {block : Block} {text : List Char}
    (h : EntityText block text) :
    BlockText "entity" block text ∨ auditMark.toList <+: text := by
  cases h with
  | plain hblock => exact .inl hblock
  | @annotated gap text _ _ => exact .inr ⟨gap ++ text, by rw [List.append_assoc]⟩

/-- **Annotations.** What a scan finds after the annotation and blanks has the annotation itself:
it has not been passed over. -/
theorem annotated_of_mem_occurrences {plain : List Char} {occurrence : Occurrence Block}
    (h : occurrence ∈ occurrences readEntity plain) {before gap : List Char} (hgap : IsGap gap)
    (hbefore : plain.take occurrence.start = before ++ (auditMark.toList ++ gap)) :
    auditMark.toList <+: occurrence.text := by
  have hreads := readsDeclarations_readEntity
  obtain ⟨htext, front, after, hplain, hstart⟩ := hreads.standsIn_of_mem h
  have hfront : front = before ++ (auditMark.toList ++ gap) := by
    rw [← hbefore, hstart, hplain, List.take_left]
  rcases htext.block_or_annotated with hblock | hannotated
  · -- the scan would have found it with the annotation, had nothing before reached into that
    exfalso
    have hother : Occurrence.StandsIn EntityText plain
        ⟨before.length, auditMark.toList ++ gap ++ occurrence.text, occurrence.value⟩ :=
      ⟨.annotated hgap hblock, before, after, by rw [hplain, hfront]; simp, rfl⟩
    obtain ⟨low, hle, hlow, hnone⟩ := ((isChain_iff hreads).mpr rfl).exists_before h
    have hlt : before.length < low := by
      by_contra hnot
      have hfirst : occurrence.start ≤ before.length := hnone _ hother (Nat.not_lt.mp hnot)
      have hpos : 0 < auditMark.toList.length := by decide
      rw [hstart, hfront, List.length_append, List.length_append] at hfirst
      omega
    rcases hlow with rfl | ⟨earlier, hearlier, rfl⟩
    · exact absurd hlt (Nat.not_lt_zero _)
    · have hbrace : '}' ∈ auditMark.toList ++ gap :=
        hreads.close_mem hearlier hle hbefore hlt
      have hunbraced : Unbraced (auditMark.toList ++ gap) :=
        unbraced_append.mpr ⟨by decide, hgap.2.unbraced⟩
      exact hunbraced.not_mem (by decide) hbrace
  · exact hannotated

/-! ## Scans -/

/-- What a scan for one kind of declaration does with every text. -/
structure ScansExactly (read : List Char → Option (α × List Char))
    (IsText Shape : α → List Char → Prop) : Prop where
  /-- No two declarations stand at one offset. -/
  unique : ∀ (plain : List Char) (first second : Occurrence α), first.StandsIn IsText plain →
    second.StandsIn IsText plain → first.start = second.start → first = second
  /-- Every declaration has the shape. -/
  shape : ∀ (value : α) (text : List Char), IsText value text → Shape value text
  /-- What is found is the chain of declarations. -/
  chain : ∀ (plain : List Char) (found : List (Occurrence α)),
    IsChain IsText plain 0 found ↔ found = occurrences read plain
  /-- Those that do not stand on a comment line count, and each of the others is noted. -/
  live : ∀ (ε : Type) (source : Source), (liveOccurrences read source : Report ε _) =
    ⟨((occurrences read source.plain).filter fun occurrence =>
        OnCommentLine source.plain occurrence.start).map
          fun occurrence => .skippedDeclaration (source.lineNumber occurrence.start),
      .ok ((occurrences read source.plain).filter fun occurrence =>
        ¬OnCommentLine source.plain occurrence.start)⟩

theorem ReadsDeclarations.scansExactly {read : List Char → Option (α × List Char)}
    {IsText Shape : α → List Char → Prop} (hreads : ReadsDeclarations read IsText)
    (hshape : ∀ value text, IsText value text → Shape value text) :
    ScansExactly read IsText Shape where
  unique _ _ _ hfirst hsecond hstart := hreads.unique_at hfirst hsecond hstart
  shape := hshape
  chain _ _ := isChain_iff hreads
  live _ source := foldLive_concat source [] _

/-- **Scans.** For each kind of declaration a scan finds exactly the chain of the declarations of
its grammar, and what counts of them is what does not stand on a comment line. -/
theorem scans_exactly :
    ScansExactly readEnum (BlockText "enum") (HasBlockShape ["enum".toList]) ∧
    ScansExactly readEntity EntityText
      (fun block text => HasBlockShape (entityKeywords text) block text) ∧
    ScansExactly readRelationship RelationshipText
      (fun relationship text => wordRuns text = relationshipWords relationship) ∧
    ∀ (plain : List Char), ∀ occurrence ∈ occurrences readEntity plain,
      ∀ before gap, IsGap gap →
        plain.take occurrence.start = before ++ (auditMark.toList ++ gap) →
        auditMark.toList <+: occurrence.text := by
  refine ⟨?_, ?_, ?_, ?_⟩
  · exact readsDeclarations_readEnum.scansExactly fun _ _ h => h.hasBlockShape isName_enum
  · exact readsDeclarations_readEntity.scansExactly fun _ _ h => h.hasBlockShape
  · exact readsDeclarations_readRelationship.scansExactly fun _ _ h => h.wordRuns_eq
  · intro plain occurrence h before gap hgap hbefore
    exact annotated_of_mem_occurrences h hgap hbefore

end EntityScaffold.Document
