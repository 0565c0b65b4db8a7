import EntityScaffold.Proofs.Document.Shape

/-!
# Keywords and braces

Three scans run over one text, and none may take anything from inside a declaration that is another
scan's. Every declaration announces its block: before the opening brace stand a keyword, a gap, a
word and perhaps blanks. So wherever a reader reads, its keyword is announced before the first brace
from there (`ReadsAnnounced`).

Now take a part of a declaration, from anywhere in it to its end. If the part begins after the
opening brace, the first brace in it is the closing one and nothing announces a block before that.
If it begins before the opening brace, what is announced there is read off backwards: the blanks,
the word, the gap (`IsHead.append_keyword_eq`), and then the keyword, which is the last word of what
is left (`Announces.suffix_keyword`). A part can begin in the middle of a word, so all that is known
of a keyword found there is that the keyword of the declaration ends with it. None of the three
keywords ends with another one, and that is all that keeps the scans apart
(`read_eq_none_of_suffix`).
-/

namespace EntityScaffold.Document

open Text

/-! ## Announcements -/

/-- A text ends with a keyword, a gap, a word and perhaps blanks. -/
def Announces (keyword s : List Char) : Prop :=
  ∃ before gap word space, IsGap gap ∧ IsName word ∧ IsSpace space ∧
    s = before ++ (keyword ++ (gap ++ (word ++ space)))

/-- The same, and the keyword begins a word. -/
def AnnouncesAlone (keyword s : List Char) : Prop :=
  ∃ before gap word space, Stops isWord before.reverse ∧ IsGap gap ∧ IsName word ∧ IsSpace space ∧
    s = before ++ (keyword ++ (gap ++ (word ++ space)))

theorem Announces.of_suffix {keyword s t : List Char} (h : Announces keyword t) (ht : t <:+ s) :
    Announces keyword s := by
  obtain ⟨before, gap, word, space, hgap, hword, hspace, rfl⟩ := h
  obtain ⟨more, rfl⟩ := ht
  exact ⟨more ++ before, gap, word, space, hgap, hword, hspace, by rw [List.append_assoc]⟩

/-- **Keywords.** What is announced at the end of a text is announced in one way only, as far as the
end of the keyword: of two keywords the one that begins a word ends with the other. -/
theorem Announces.suffix_keyword {keyword keyword' s : List Char} (h : Announces keyword s)
    (h' : AnnouncesAlone keyword' s) (hname : IsName keyword) (hname' : IsName keyword') :
    keyword <:+ keyword' := by
  obtain ⟨before, gap, word, space, hgap, hword, hspace, hs⟩ := h
  obtain ⟨before', gap', word', space', hstops, hgap', hword', hspace', hs'⟩ := h'
  have hhead : IsHead before keyword s := ⟨gap, word, space, hgap, hword, hspace, hs⟩
  have hhead' : IsHead before' keyword' s := ⟨gap', word', space', hgap', hword', hspace', hs'⟩
  have hsame := hhead.append_keyword_eq hhead' hname hname'
  -- the shorter of the two keywords is the end of the other, and only the second is a whole word
  rcases List.append_eq_append_iff.mp hsame with ⟨rest, hbefore, hkeyword⟩ | ⟨rest, -, hkeyword⟩
  · rcases List.eq_nil_or_concat rest with rfl | ⟨rest, c, rfl⟩
    · rw [hkeyword]
      exact List.suffix_rfl
    · -- a word character would stand right before the second keyword
      rw [hbefore, List.reverse_append, List.concat_eq_append, List.reverse_append] at hstops
      have hc : isWord c = true := hname.2 c (by rw [hkeyword]; simp)
      rw [show isWord c = false by simpa using hstops] at hc
      exact absurd hc (by simp)
  · exact ⟨rest, hkeyword.symm⟩

/-! ## Readers -/

/-- Where a reader reads, its keyword is announced before the first brace. -/
def ReadsAnnounced {α : Type} (read : List Char → Option (α × List Char))
    (keyword : List Char) : Prop :=
  ∀ {s : List Char} {value : α} {rest : List Char}, read s = some (value, rest) →
    ∃ head later, s = head ++ '{' :: later ∧ Unbraced head ∧ Announces keyword head

/-- A declaration announces its block. -/
theorem IsDeclared.announces {keyword text before head inside : List Char}
    (h : IsDeclared keyword text before head inside) (rest : List Char) :
    ∃ head later, text ++ rest = head ++ '{' :: later ∧ Unbraced head ∧ Announces keyword head := by
  refine ⟨head, inside ++ ['}'] ++ rest, ?_, h.plain_head.unbraced, before, h.isHead⟩
  rw [h.eq, List.append_assoc, List.cons_append]

theorem readsAnnounced_readEnum : ReadsAnnounced readEnum "enum".toList := by
  intro s block rest h
  obtain ⟨text, htext, rfl⟩ := exists_blockText h
  obtain ⟨head, hdeclared⟩ := htext.exists_declared isName_enum
  exact hdeclared.announces rest

theorem readsAnnounced_readEntity : ReadsAnnounced readEntity "entity".toList := by
  intro s block rest h
  obtain ⟨text, htext, rfl⟩ := exists_entityText h
  obtain ⟨before, head, hdeclared⟩ := htext.exists_declared
  exact hdeclared.announces rest

theorem readsAnnounced_readRelationship :
    ReadsAnnounced readRelationship "relationship".toList := by
  intro s relationship rest h
  obtain ⟨text, htext, rfl⟩ := exists_relationshipText h
  obtain ⟨head, inside, hdeclared, -⟩ := htext.exists_declared
  exact hdeclared.announces rest

/-- A part of a block, from anywhere in it to its end, begins before the opening brace or after
it. -/
theorem suffix_block {head inside t : List Char} (hne : t ≠ [])
    (h : t <:+ head ++ '{' :: (inside ++ ['}'])) :
    (∃ t', t' <:+ head ∧ t = t' ++ '{' :: (inside ++ ['}'])) ∨
      ∃ t', t' <:+ inside ∧ t = t' ++ ['}'] := by
  obtain ⟨before, h⟩ := h
  rcases List.append_eq_append_iff.mp h with ⟨t', hhead, ht⟩ | ⟨rest, -, hrest⟩
  · exact .inl ⟨t', ⟨before, hhead.symm⟩, ht⟩
  · cases rest with
    | nil => exact .inl ⟨[], List.nil_suffix, hrest.symm⟩
    | cons c rest =>
      have hinside : t <:+ inside ++ ['}'] := ⟨rest, (List.cons.inj hrest).2.symm⟩
      rcases List.suffix_concat_iff.mp hinside with hnil | ⟨t', ht, ht'⟩
      · exact absurd hnil hne
      · exact .inr ⟨t', ht', ht⟩

/-- A reader reads nothing off any part of a declaration whose keyword does not end with its own. -/
theorem read_eq_none_of_suffix {α : Type} {read : List Char → Option (α × List Char)}
    {keyword keyword' : List Char} (hread : ReadsAnnounced read keyword) (hname : IsName keyword)
    (hname' : IsName keyword') (hkeyword : ¬keyword <:+ keyword') {head inside : List Char}
    (hhead : AnnouncesAlone keyword' head) (hunbraced : Unbraced head) (hinside : Unbraced inside)
    {t : List Char} (hne : t ≠ []) (ht : t <:+ head ++ '{' :: (inside ++ ['}']))
    (rest : List Char) : read (t ++ rest) = none := by
  have hopen : isBrace '{' = true := by decide
  have hclose : isBrace '}' = true := by decide
  cases hresult : read (t ++ rest) with
  | none => rfl
  | some found =>
    exfalso
    obtain ⟨head', later, hsplit, hunbraced', hannounces⟩ := hread hresult
    rcases suffix_block hne ht with ⟨t', ht', rfl⟩ | ⟨t', ht', rfl⟩
    · -- from before the opening brace: the keyword is announced in what stands before it
      rw [List.append_assoc] at hsplit
      obtain ⟨rfl, -, -⟩ := unbraced_cut_unique (hunbraced.of_suffix ht') hunbraced' hopen hopen
        hsplit
      exact hkeyword ((hannounces.of_suffix ht').suffix_keyword hhead hname hname')
    · -- from after it: the first brace is the closing one
      rw [List.append_assoc] at hsplit
      obtain ⟨-, hbrace, -⟩ := unbraced_cut_unique (hinside.of_suffix ht') hunbraced' hclose hopen
        hsplit
      exact absurd hbrace (by decide)

end EntityScaffold.Document
