import EntityScaffold.Document.Comment
import EntityScaffold.Proofs.Document.Grammar
import EntityScaffold.Proofs.Text.Pattern

/-!
# The shape of declarations

All declarations have one shape (`IsDeclared`): a head, in which a keyword, a gap, a word and
perhaps blanks come last, and a block. No brace and no slash occurs in a head, and a block has no
other closing brace than its last character.

A text can be the head of a declaration in one way only, as far as the end of the keyword
(`IsHead.append_keyword_eq`): the blanks, the word and the gap are read off backwards.
-/

namespace EntityScaffold.Document

open Text

/-! ## Braces -/

/-- Braces stand around blocks. -/
def isBrace (c : Char) : Bool := c == '{' || c == '}'

/-- No brace occurs in a text. -/
def Unbraced (s : List Char) : Prop := ∀ c ∈ s, isBrace c = false

instance (s : List Char) : Decidable (Unbraced s) := inferInstanceAs (Decidable (∀ c ∈ s, _))

theorem unbraced_append {a b : List Char} : Unbraced (a ++ b) ↔ Unbraced a ∧ Unbraced b :=
  List.forall_mem_append

theorem Unbraced.of_suffix {a b : List Char} (h : Unbraced a) (hb : b <:+ a) : Unbraced b :=
  fun c hc => h c (hb.subset hc)

theorem Unbraced.not_mem {s : List Char} (h : Unbraced s) {c : Char} (hc : isBrace c = true) :
    c ∉ s := by
  intro hmem
  rw [h c hmem] at hc
  exact absurd hc (by simp)

/-- A class of characters without braces. -/
theorem unbraced_of_class {p : Char → Bool} (hopen : p '{' = false) (hclose : p '}' = false)
    {s : List Char} (h : ∀ c ∈ s, p c = true) : Unbraced s := by
  intro c hc
  rw [Bool.eq_false_iff]
  intro hbrace
  simp only [isBrace, Bool.or_eq_true, beq_iff_eq] at hbrace
  have hp := h c hc
  rcases hbrace with rfl | rfl
  · rw [hopen] at hp
    exact absurd hp (by simp)
  · rw [hclose] at hp
    exact absurd hp (by simp)

theorem IsName.unbraced {name : List Char} (h : IsName name) : Unbraced name :=
  unbraced_of_class (by decide) (by decide) h.2

theorem IsSpace.unbraced {space : List Char} (h : IsSpace space) : Unbraced space :=
  unbraced_of_class (by decide) (by decide) h

/-- Two ways to cut a text at its first brace are the same way. -/
theorem unbraced_cut_unique {a b x y : List Char} {c d : Char} (ha : Unbraced a) (hb : Unbraced b)
    (hc : isBrace c = true) (hd : isBrace d = true) (h : a ++ c :: x = b ++ d :: y) :
    a = b ∧ c = d ∧ x = y := by
  have hrun : ∀ s, Unbraced s → ∀ e ∈ s, (!isBrace e) = true := by
    intro s hs e he
    rw [hs e he]
    rfl
  have hstop : ∀ {e : Char} (s : List Char), isBrace e = true →
      Stops (fun e => !isBrace e) (e :: s) := by
    intro e s he
    rw [stops_cons, he]
    rfl
  obtain ⟨hab, hrest⟩ := run_unique (hrun a ha) (hrun b hb) (hstop x hc) (hstop y hd) h
  exact ⟨hab, List.cons.inj hrest⟩

/-! ## Plain texts -/

/-- Braces and slashes are all that a scan or a comment could take hold of. -/
def isPlain (c : Char) : Bool := !isBrace c && c != '/'

/-- A text without braces and slashes. -/
def Plain (s : List Char) : Prop := ∀ c ∈ s, isPlain c = true

instance (s : List Char) : Decidable (Plain s) := inferInstanceAs (Decidable (∀ c ∈ s, _))

theorem plain_append {a b : List Char} : Plain (a ++ b) ↔ Plain a ∧ Plain b :=
  List.forall_mem_append

theorem Plain.unbraced {s : List Char} (h : Plain s) : Unbraced s :=
  unbraced_of_class (by decide) (by decide) h

theorem Plain.avoids_opening {s : List Char} (h : Plain s) : Avoids opening s := by
  have hslash : '/' ∈ opening := by simp [opening]
  exact avoids_of_not_mem hslash fun hmem => absurd (h '/' hmem) (by decide)

/-- A class of characters without braces and slashes. -/
theorem plain_of_class {p : Char → Bool} (hopen : p '{' = false) (hclose : p '}' = false)
    (hslash : p '/' = false) {s : List Char} (h : ∀ c ∈ s, p c = true) : Plain s := by
  intro c hc
  have hbrace : isBrace c = false := unbraced_of_class hopen hclose h c hc
  have hne : c ≠ '/' := by
    intro hsame
    have hp := h c hc
    rw [hsame, hslash] at hp
    exact absurd hp (by simp)
  simp [isPlain, hbrace, hne]

theorem IsName.plain {name : List Char} (h : IsName name) : Plain name :=
  plain_of_class (by decide) (by decide) (by decide) h.2

theorem IsSpace.plain {space : List Char} (h : IsSpace space) : Plain space :=
  plain_of_class (by decide) (by decide) (by decide) h

/-- Only word characters and parentheses occur in one end of a relationship. -/
theorem plain_endpointText {declared : Endpoint} {text : List Char}
    (h : EndpointText declared text) : Plain text := by
  cases h with
  | bare hname => exact hname.plain
  | @withRole name role hname hrole =>
    have hopen : Plain ['('] := by decide
    have hclose : Plain [')'] := by decide
    exact plain_append.mpr ⟨plain_append.mpr ⟨hname.plain, plain_append.mpr ⟨hopen, hrole.plain⟩⟩,
      hclose⟩

/-! ## Heads -/

/-- The head of a declaration, which stands before its opening brace: something, a keyword, a gap, a
word and perhaps blanks. -/
def IsHead (before keyword head : List Char) : Prop :=
  ∃ gap word space, IsGap gap ∧ IsName word ∧ IsSpace space ∧
    head = before ++ (keyword ++ (gap ++ (word ++ space)))

/-- What comes before a head comes before its keyword. -/
theorem IsHead.append_left {before keyword head : List Char} (h : IsHead before keyword head)
    (more : List Char) : IsHead (more ++ before) keyword (more ++ head) := by
  obtain ⟨gap, word, space, hgap, hword, hspace, rfl⟩ := h
  exact ⟨gap, word, space, hgap, hword, hspace, by rw [List.append_assoc]⟩

theorem IsSpace.not_word {space : List Char} (h : IsSpace space) :
    ∀ c ∈ space, isWord c = false := by
  intro c hc
  rw [Bool.eq_false_iff]
  intro hword
  have hblank : isBlank c = true := h c hc
  rw [isBlank_of_isWord hword] at hblank
  exact absurd hblank (by simp)

theorem IsGap.not_word {gap : List Char} (h : IsGap gap) : ∀ c ∈ gap, isWord c = false :=
  h.2.not_word

/-- A head is read backwards in one way only, as far as the end of the keyword. -/
theorem IsHead.append_keyword_eq {before before' keyword keyword' head : List Char}
    (h : IsHead before keyword head) (h' : IsHead before' keyword' head) (hname : IsName keyword)
    (hname' : IsName keyword') : before ++ keyword = before' ++ keyword' := by
  obtain ⟨gap, word, space, hgap, hword, hspace, hs⟩ := h
  obtain ⟨gap', word', space', hgap', hword', hspace', hs'⟩ := h'
  have hsolid : ∀ {name : List Char}, IsName name → ∀ c ∈ name, isBlank c = false :=
    fun hn c hc => isBlank_of_isWord (hn.2 c hc)
  -- the blanks at the end, then the word, then the gap are the same
  obtain ⟨hs1, -⟩ := run_unique_end hspace hspace'
    (stops_reverse_append hword.1 (hsolid hword) (before ++ (keyword ++ gap)))
    (stops_reverse_append hword'.1 (hsolid hword') (before' ++ (keyword' ++ gap')))
    (by simpa only [List.append_assoc] using hs.symm.trans hs')
  obtain ⟨hs2, -⟩ := run_unique_end hword.2 hword'.2
    (stops_reverse_append hgap.1 hgap.not_word (before ++ keyword))
    (stops_reverse_append hgap'.1 hgap'.not_word (before' ++ keyword'))
    (by simpa only [List.append_assoc] using hs1)
  obtain ⟨hs3, -⟩ := run_unique_end hgap.2 hgap'.2
    (stops_reverse_append hname.1 (hsolid hname) before)
    (stops_reverse_append hname'.1 (hsolid hname') before')
    (by simpa only [List.append_assoc] using hs2)
  exact hs3

/-- What stands before the keyword: nothing, or the annotation and a gap. -/
def IsPrelude (before : List Char) : Prop :=
  before = [] ∨ ∃ gap, IsGap gap ∧ before = auditMark.toList ++ gap

theorem IsPrelude.plain {before : List Char} (h : IsPrelude before) : Plain before := by
  rcases h with rfl | ⟨gap, hgap, rfl⟩
  · exact fun c hc => absurd hc List.not_mem_nil
  · have haudit : Plain auditMark.toList := by decide
    exact plain_append.mpr ⟨haudit, hgap.2.plain⟩

theorem isPrelude_nil : IsPrelude [] := .inl rfl

/-- A prelude keeps the keyword apart from what is before it. -/
theorem IsPrelude.stops_word {before line : List Char} (h : IsPrelude before)
    (hline : Stops isWord line.reverse) : Stops isWord (line ++ before).reverse := by
  rcases h with rfl | ⟨gap, hgap, rfl⟩
  · rw [List.append_nil]
    exact hline
  · rw [← List.append_assoc]
    exact stops_reverse_append hgap.1 hgap.not_word _

theorem IsHead.plain {before keyword head : List Char} (h : IsHead before keyword head)
    (hbefore : IsPrelude before) (hkeyword : IsName keyword) : Plain head := by
  obtain ⟨gap, word, space, hgap, hword, hspace, rfl⟩ := h
  simp only [plain_append]
  exact ⟨hbefore.plain, hkeyword.plain, hgap.2.plain, hword.plain, hspace.plain⟩

/-! ## Keywords -/

theorem isName_enum : IsName "enum".toList := by decide

theorem isName_entity : IsName "entity".toList := by decide

theorem isName_relationship : IsName "relationship".toList := by decide

theorem isName_cardinality (cardinality : Cardinality) : IsName cardinality.keyword.toList := by
  cases cardinality <;> decide

/-! ## Declarations -/

/-- A declaration: a head and a block. -/
structure IsDeclared (keyword text : List Char) (before head inside : List Char) : Prop where
  prelude : IsPrelude before
  isHead : IsHead before keyword head
  isName : IsName keyword
  closed : '}' ∉ inside
  eq : text = head ++ '{' :: (inside ++ ['}'])

theorem IsDeclared.plain_head {keyword text before head inside : List Char}
    (h : IsDeclared keyword text before head inside) : Plain head :=
  h.isHead.plain h.prelude h.isName

/-- The closing brace of a declaration is its last character and its only closing brace. -/
theorem IsDeclared.exists_closed {keyword text before head inside : List Char}
    (h : IsDeclared keyword text before head inside) :
    ∃ whole, text = whole ++ ['}'] ∧ '}' ∉ whole := by
  refine ⟨head ++ '{' :: inside, by rw [h.eq]; simp, ?_⟩
  have hclose : isBrace '}' = true := by decide
  have hhead := h.plain_head.unbraced.not_mem hclose
  simp [hhead, h.closed]

/-- The first character of a declaration is the sign of the annotation or a word character. -/
theorem IsDeclared.start {keyword text before head inside : List Char}
    (h : IsDeclared keyword text before head inside) : ∀ c ∈ text.head?, c ≠ '\n' ∧ c ≠ '/' := by
  obtain ⟨gap, word, space, -, -, -, hhead⟩ := h.isHead
  intro c hc
  rw [h.eq, hhead] at hc
  rcases h.prelude with rfl | ⟨gap', -, rfl⟩
  · obtain ⟨hne, hword⟩ := h.isName
    cases keyword with
    | nil => exact absurd rfl hne
    | cons d keyword =>
      obtain rfl : d = c := by simpa using hc
      have hc : isWord d = true := hword d List.mem_cons_self
      constructor
      · rintro rfl
        exact absurd hc (by decide)
      · rintro rfl
        exact absurd hc (by decide)
  · obtain rfl : '@' = c := by simpa [auditMark] using hc
    decide

theorem BlockText.exists_declared {keyword : String} {block : Block} {text : List Char}
    (h : BlockText keyword block text) (hkeyword : IsName keyword.toList) :
    ∃ head, IsDeclared keyword.toList text [] head block.body := by
  obtain ⟨hgap, hname, hspace, -, hclosed⟩ := h
  rename_i gap name space body
  refine ⟨_, .inl rfl, ⟨gap, name, space, hgap, hname, hspace, rfl⟩, hkeyword, hclosed, ?_⟩
  simp only [List.append_assoc, List.cons_append, List.nil_append]

theorem EntityText.exists_declared {block : Block} {text : List Char} (h : EntityText block text) :
    ∃ before head, IsDeclared "entity".toList text before head block.body := by
  cases h with
  | plain htext => exact ⟨[], htext.exists_declared isName_entity⟩
  | @annotated gap text hgap htext =>
    obtain ⟨head, hdeclared⟩ := htext.exists_declared isName_entity
    have hhead := hdeclared.isHead.append_left (auditMark.toList ++ gap)
    rw [List.append_nil] at hhead
    refine ⟨_, _, .inr ⟨gap, hgap, rfl⟩, hhead, isName_entity, hdeclared.closed, ?_⟩
    rw [hdeclared.eq, List.append_assoc _ head]

theorem RelationshipText.exists_declared {relationship : Relationship} {text : List Char}
    (h : RelationshipText relationship text) :
    ∃ head inside, IsDeclared "relationship".toList text [] head inside ∧ Unbraced inside := by
  obtain ⟨hgap, hspace, hbefore, hsource, hgapTo, hgapFrom, htarget, hafter⟩ := h
  rename_i cardinality source target gap space before sourceText gapTo gapFrom targetText after
  have hinside : Unbraced (before ++ (sourceText ++ (gapTo ++ ("to".toList ++ (gapFrom ++
      (targetText ++ after)))))) := by
    have hto : Unbraced "to".toList := by decide
    simp only [unbraced_append]
    exact ⟨hbefore.unbraced, (plain_endpointText hsource).unbraced, hgapTo.2.unbraced, hto,
      hgapFrom.2.unbraced, (plain_endpointText htarget).unbraced, hafter.unbraced⟩
  refine ⟨_, _, ⟨.inl rfl, ⟨gap, _, space, hgap, isName_cardinality cardinality, hspace, rfl⟩,
    isName_relationship, hinside.not_mem (by decide), ?_⟩, hinside⟩
  simp only [List.append_assoc, List.cons_append, List.nil_append]

end EntityScaffold.Document
