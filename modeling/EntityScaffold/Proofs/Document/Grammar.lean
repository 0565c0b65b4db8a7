import EntityScaffold.Document.Declaration
import EntityScaffold.Proofs.Text.Blank
import EntityScaffold.Proofs.Text.Pattern

/-!
# The grammar that the readers decide

What counts as the text of a declaration, said without saying how to read it: a block is a keyword,
a gap, a name, perhaps blanks, and a body between braces; an entity is such a block, perhaps after
the annotation; a relationship has a cardinality before its opening brace and two ends inside.

Every reader takes exactly the texts of its declaration off the front (`readBlock_eq_some_iff`,
`readEntity_eq_some_iff`, `readRelationship_eq_some_iff`). Read from left to right this says what an
occurrence looks like, read from right to left that a declaration which is there is found. The
readers never give back what they have taken, and the relations do not mention what comes next:
that no other division is possible is what the two directions together say.
-/

namespace EntityScaffold.Document

open Text

/-! ## Names, gaps and spaces -/

/-- A name: one word character or more. -/
def IsName (s : List Char) : Prop := s ≠ [] ∧ ∀ c ∈ s, isWord c = true

/-- Blanks, perhaps none. -/
def IsSpace (s : List Char) : Prop := ∀ c ∈ s, isBlank c = true

/-- One blank or more. -/
def IsGap (s : List Char) : Prop := s ≠ [] ∧ IsSpace s

instance (s : List Char) : Decidable (IsName s) := inferInstanceAs (Decidable (_ ∧ _))
instance (s : List Char) : Decidable (IsSpace s) := inferInstanceAs (Decidable (∀ c ∈ s, _))
instance (s : List Char) : Decidable (IsGap s) := inferInstanceAs (Decidable (_ ∧ _))

theorem IsName.not_mem {name : List Char} (h : IsName name) {c : Char} (hc : isWord c = false) :
    c ∉ name := by
  intro hmem
  rw [h.2 c hmem] at hc
  exact absurd hc (by simp)

theorem IsName.stops_blank {name : List Char} (h : IsName name) (rest : List Char) :
    Stops isBlank (name ++ rest) := by
  obtain ⟨hne, hword⟩ := h
  cases name with
  | nil => exact absurd rfl hne
  | cons c name => simpa using isBlank_of_isWord (hword c (by simp))

/-- No blank is at the ends of a name. -/
theorem IsName.trim_eq {name : List Char} (h : IsName name) : trim name = name := by
  have hsolid : ∀ c ∈ name, isBlank c = false := fun c hc => isBlank_of_isWord (h.2 c hc)
  have hstart := h.stops_blank []
  rw [List.append_nil] at hstart
  have hend := stops_reverse_append h.1 hsolid []
  exact trim_eq_self hstart hend

theorem IsGap.stops_word {gap : List Char} (h : IsGap gap) (rest : List Char) :
    Stops isWord (gap ++ rest) := by
  obtain ⟨hne, hblank⟩ := h
  cases gap with
  | nil => exact absurd rfl hne
  | cons c gap =>
    have hc : isBlank c = true := hblank c (by simp)
    rw [List.cons_append, stops_cons, Bool.eq_false_iff]
    intro hw
    rw [isBlank_of_isWord hw] at hc
    exact absurd hc (by simp)

/-- Blanks before a character that is no word character stop a name. -/
theorem IsSpace.stops_word {space : List Char} (h : IsSpace space) {c : Char}
    (hc : isWord c = false) (rest : List Char) : Stops isWord (space ++ c :: rest) := by
  cases space with
  | nil => simpa using hc
  | cons d space =>
    have hgap : IsGap (d :: space) := ⟨by simp, h⟩
    exact hgap.stops_word (c :: rest)

theorem IsSpace.trimStart_append {space : List Char} (h : IsSpace space) {c : Char}
    (hc : isBlank c = false) (rest : List Char) :
    trimStart (space ++ c :: rest) = c :: rest := by
  rw [trimStart_append_of_blank h, trimStart_eq_self (by simpa using hc)]

/-! ## The texts of declarations -/

/-- The text of a block after a keyword. -/
inductive BlockText (keyword : String) : Block → List Char → Prop
  | intro {gap name space body : List Char} : IsGap gap → IsName name → IsSpace space →
      body ≠ [] → '}' ∉ body →
      BlockText keyword ⟨name, body⟩
        (keyword.toList ++ gap ++ name ++ space ++ '{' :: body ++ ['}'])

/-- The text of an entity. -/
inductive EntityText : Block → List Char → Prop
  | plain {block : Block} {text : List Char} : BlockText "entity" block text →
      EntityText block text
  | annotated {block : Block} {gap text : List Char} : IsGap gap →
      BlockText "entity" block text → EntityText block (auditMark.toList ++ gap ++ text)

/-- The text of one end of a relationship. -/
inductive EndpointText : Endpoint → List Char → Prop
  | bare {name : List Char} : IsName name → EndpointText ⟨String.ofList name, none⟩ name
  | withRole {name role : List Char} : IsName name → IsName role →
      EndpointText ⟨String.ofList name, some (String.ofList role)⟩ (name ++ '(' :: role ++ [')'])

/-- The text of a relationship. -/
inductive RelationshipText : Relationship → List Char → Prop
  | intro {cardinality : Cardinality} {source target : Endpoint}
      {gap space before sourceText gapTo gapFrom targetText after : List Char} :
      IsGap gap → IsSpace space → IsSpace before → EndpointText source sourceText →
      IsGap gapTo → IsGap gapFrom → EndpointText target targetText → IsSpace after →
      RelationshipText ⟨cardinality, source, target⟩
        ("relationship".toList ++ gap ++ cardinality.keyword.toList ++ space ++ '{' :: before ++
          sourceText ++ gapTo ++ "to".toList ++ gapFrom ++ targetText ++ after ++ ['}'])

theorem BlockText.isName {keyword : String} {block : Block} {text : List Char}
    (h : BlockText keyword block text) : IsName block.name := by
  cases h with
  | intro _ hname _ _ _ => exact hname

theorem EntityText.isName {block : Block} {text : List Char} (h : EntityText block text) :
    IsName block.name := by
  cases h with
  | plain hblock => exact hblock.isName
  | annotated _ hblock => exact hblock.isName

/-! ## The steps of a reader -/

/-- A literal is taken off exactly the texts that begin with it. -/
theorem readLiteral_eq_some_iff {literal s rest : List Char} :
    readLiteral literal s = some rest ↔ s = literal ++ rest := by
  fun_induction readLiteral literal s with
  | case1 s => simp [eq_comm]
  | case2 w ws s ih => simp [ih]
  | case3 w ws c s hwc => simp [Ne.symm hwc]
  | case4 w ws => simp

@[simp] theorem readLiteral_append (literal rest : List Char) :
    readLiteral literal (literal ++ rest) = some rest :=
  readLiteral_eq_some_iff.mpr rfl

/-- A run is taken off where the class begins, and ends where the class does. -/
theorem readRun_eq_some_iff {p : Char → Bool} {s run rest : List Char} :
    readRun p s = some (run, rest) ↔
      run ≠ [] ∧ (∀ c ∈ run, p c = true) ∧ Stops p rest ∧ s = run ++ rest := by
  constructor
  · intro h
    unfold readRun at h
    split at h
    · exact absurd h (by simp)
    · rename_i hne
      obtain ⟨rfl, rfl⟩ : s.takeWhile p = run ∧ s.dropWhile p = rest := by simpa using h
      exact ⟨hne, fun c hc => List.mem_takeWhile_imp hc, stops_dropWhile p s,
        (List.takeWhile_append_dropWhile).symm⟩
  · intro h
    obtain ⟨hne, hrun, hrest, rfl⟩ := h
    unfold readRun
    rw [takeWhile_append_stops hrun hrest, dropWhile_append_stops hrun hrest]
    cases run with
    | nil => exact absurd rfl hne
    | cons c run => rfl

theorem readBlanks_eq_some_iff {s rest : List Char} :
    readBlanks s = some rest ↔ Stops isBlank rest ∧ ∃ gap, IsGap gap ∧ s = gap ++ rest := by
  simp only [readBlanks, Option.map_eq_some_iff, Prod.exists, readRun_eq_some_iff, IsGap, IsSpace]
  constructor
  · intro h
    obtain ⟨gap, rest', ⟨hne, hgap, hrest, rfl⟩, rfl⟩ := h
    exact ⟨hrest, gap, ⟨hne, hgap⟩, rfl⟩
  · intro h
    obtain ⟨hrest, gap, ⟨hne, hgap⟩, rfl⟩ := h
    exact ⟨gap, rest, ⟨hne, hgap, hrest, rfl⟩, rfl⟩

theorem IsGap.readBlanks {gap rest : List Char} (h : IsGap gap) (hrest : Stops isBlank rest) :
    readBlanks (gap ++ rest) = some rest :=
  readBlanks_eq_some_iff.mpr ⟨hrest, gap, h, rfl⟩

theorem IsName.readName {name rest : List Char} (h : IsName name) (hrest : Stops isWord rest) :
    readName (name ++ rest) = some (name, rest) :=
  readRun_eq_some_iff.mpr ⟨h.1, h.2, hrest, rfl⟩

/-! ## Blocks and entities -/

/-- A block that is there is read, whatever comes after it. -/
theorem readBlock_append {keyword : String} {block : Block} {text : List Char}
    (h : BlockText keyword block text) (rest : List Char) :
    readBlock keyword (text ++ rest) = some (block, rest) := by
  obtain ⟨hgap, hname, hspace, hbody, hclosed⟩ := h
  rename_i gap name space body
  have hbrace : isWord '{' = false := by decide
  have hsolid : isBlank '{' = false := by decide
  -- the body goes on to the first closing brace, which is the one after it
  have hrun : readRun (· != '}') (body ++ '}' :: rest) = some (body, '}' :: rest) :=
    readRun_eq_some_iff.mpr ⟨hbody, bne_of_not_mem hclosed, by simp, rfl⟩
  simp only [readBlock, List.append_assoc, List.cons_append, readLiteral_append,
    Option.bind_eq_bind, Option.bind_some, hgap.readBlanks (hname.stops_blank _),
    hname.readName (hspace.stops_word hbrace _), hspace.trimStart_append hsolid,
    List.nil_append, readLiteral, if_true, hrun]
  rfl

/-- What is read as a block is the text of that block. -/
theorem exists_blockText {keyword : String} {s rest : List Char} {block : Block}
    (h : readBlock keyword s = some (block, rest)) :
    ∃ text, BlockText keyword block text ∧ s = text ++ rest := by
  simp only [readBlock, Option.bind_eq_bind, Option.bind_eq_some_iff, Prod.exists,
    Option.pure_def, Option.some.injEq, Prod.mk.injEq, readName] at h
  obtain ⟨s1, h1, s2, h2, name, s3, h3, s4, h4, body, s5, h5, s6, h6, rfl, rfl⟩ := h
  obtain ⟨-, gap, hgap, rfl⟩ := readBlanks_eq_some_iff.mp h2
  obtain ⟨hname, hword, -, rfl⟩ := readRun_eq_some_iff.mp h3
  obtain ⟨space, hspace, hs3⟩ := exists_trimStart s3
  obtain ⟨hbody, hopen, -, rfl⟩ := readRun_eq_some_iff.mp h5
  rw [readLiteral_eq_some_iff] at h1 h4 h6
  refine ⟨_, .intro hgap ⟨hname, hword⟩ hspace hbody ?_, ?_⟩
  · intro hmem
    simpa using hopen _ hmem
  · rw [h1, hs3, h4, h6]
    simp only [List.append_assoc, List.cons_append, List.nil_append]

/-- A block is read off exactly the texts that begin with the text of a block. -/
theorem readBlock_eq_some_iff {keyword : String} {s rest : List Char} {block : Block} :
    readBlock keyword s = some (block, rest) ↔
      ∃ text, BlockText keyword block text ∧ s = text ++ rest :=
  ⟨exists_blockText, fun ⟨_, htext, hs⟩ => hs ▸ readBlock_append htext rest⟩

/-- The text of a block begins with its keyword. -/
theorem BlockText.exists_append {keyword : String} {block : Block} {text : List Char}
    (h : BlockText keyword block text) : ∃ more, text = keyword.toList ++ more := by
  obtain ⟨⟩ := h
  exact ⟨_, by simp only [List.append_assoc]; rfl⟩

theorem readEntity_append {block : Block} {text : List Char} (h : EntityText block text)
    (rest : List Char) : readEntity (text ++ rest) = some (block, rest) := by
  unfold readEntity
  cases h with
  | plain htext =>
    have hread := readBlock_append htext rest
    obtain ⟨more, rfl⟩ := htext.exists_append
    exact hread
  | @annotated gap text hgap htext =>
    have hread := readBlock_append htext rest
    have hstop : Stops isBlank (text ++ rest) := by
      obtain ⟨more, rfl⟩ := htext.exists_append
      exact stops_cons.mpr (by decide)
    simp only [List.append_assoc, readLiteral_append, hgap.readBlanks hstop, Option.bind_some]
    exact hread

theorem exists_entityText {s rest : List Char} {block : Block}
    (h : readEntity s = some (block, rest)) :
    ∃ text, EntityText block text ∧ s = text ++ rest := by
  unfold readEntity at h
  split at h
  · rename_i s1 h1
    obtain ⟨s2, h2, h3⟩ := Option.bind_eq_some_iff.mp h
    obtain ⟨-, gap, hgap, rfl⟩ := readBlanks_eq_some_iff.mp h2
    obtain ⟨text, htext, rfl⟩ := exists_blockText h3
    rw [readLiteral_eq_some_iff] at h1
    exact ⟨_, .annotated hgap htext, by rw [h1]; simp only [List.append_assoc]⟩
  · obtain ⟨text, htext, rfl⟩ := exists_blockText h
    exact ⟨text, .plain htext, rfl⟩

/-- An entity is read off exactly the texts that begin with the text of an entity. -/
theorem readEntity_eq_some_iff {s rest : List Char} {block : Block} :
    readEntity s = some (block, rest) ↔ ∃ text, EntityText block text ∧ s = text ++ rest :=
  ⟨exists_entityText, fun ⟨_, htext, hs⟩ => hs ▸ readEntity_append htext rest⟩

/-! ## Relationships -/

/-- What comes after one end of a relationship: no character of a name and no role. -/
def EndsEndpoint (s : List Char) : Prop := ∀ c ∈ s.head?, isWord c = false ∧ c ≠ '('

theorem IsGap.endsEndpoint {gap : List Char} (h : IsGap gap) (rest : List Char) :
    EndsEndpoint (gap ++ rest) := by
  have hword := h.stops_word rest
  obtain ⟨hne, hblank⟩ := h
  cases gap with
  | nil => exact absurd rfl hne
  | cons c gap =>
    have hc := hblank c (by simp)
    intro d hd
    obtain rfl : c = d := by simpa using hd
    refine ⟨by simpa using hword, ?_⟩
    intro hopen
    rw [hopen] at hc
    exact absurd hc (by decide)

theorem IsSpace.endsEndpoint {space : List Char} (h : IsSpace space) (rest : List Char) :
    EndsEndpoint (space ++ '}' :: rest) := by
  cases space with
  | nil =>
    intro d hd
    obtain rfl : '}' = d := by simpa using hd
    show isWord '}' = false ∧ '}' ≠ '('
    decide
  | cons c space =>
    have hgap : IsGap (c :: space) := ⟨by simp, h⟩
    exact hgap.endsEndpoint _

theorem readRole_of_endsEndpoint {s : List Char} (h : EndsEndpoint s) : readRole s = (none, s) := by
  cases s with
  | nil => rfl
  | cons c s =>
    have hc : '(' ≠ c := fun e => (h c (by simp)).2 e.symm
    simp [readRole, readLiteral, hc]

/-- The end of a relationship is read off the texts that begin with the text of one, as far as it
goes. -/
theorem readEndpoint_append {endpoint : Endpoint} {text rest : List Char}
    (htext : EndpointText endpoint text) (hrest : EndsEndpoint rest) :
    readEndpoint (text ++ rest) = some (endpoint, rest) := by
  have hstop : Stops isWord rest := fun c hc => (hrest c hc).1
  cases htext with
  | bare hname =>
    simp only [readEndpoint, Option.bind_eq_bind, hname.readName hstop, Option.bind_some,
      readRole_of_endsEndpoint hrest]
    rfl
  | @withRole name role hname hrole =>
    have hopen : Stops isWord ('(' :: (role ++ ')' :: rest)) := stops_cons.mpr (by decide)
    have hclose : Stops isWord (')' :: rest) := stops_cons.mpr (by decide)
    have hread : readRole ('(' :: (role ++ ')' :: rest)) = (some role, rest) := by
      simp only [readRole, readLiteral, if_true, Option.bind_eq_bind, Option.bind_some,
        hrole.readName hclose]
      rfl
    simp only [readEndpoint, List.append_assoc, List.cons_append, List.nil_append,
      Option.bind_eq_bind, hname.readName hopen, Option.bind_some, hread]
    rfl

/-- A role is taken off as a name in parentheses, or nothing is. -/
theorem readRole_cases (s : List Char) :
    readRole s = (none, s) ∨ ∃ role rest, IsName role ∧ s = '(' :: (role ++ ')' :: rest) ∧
      readRole s = (some role, rest) := by
  unfold readRole
  simp only
  split
  · rename_i role rest hread
    simp only [Option.bind_eq_bind, Option.bind_eq_some_iff, Prod.exists, Option.pure_def,
      Option.some.injEq, Prod.mk.injEq, readName] at hread
    obtain ⟨s1, hopen, role, s2, hrole, s3, hclose, rfl, rfl⟩ := hread
    obtain ⟨hne, hword, -, rfl⟩ := readRun_eq_some_iff.mp hrole
    rw [readLiteral_eq_some_iff] at hopen hclose
    refine .inr ⟨role, s3, ⟨hne, hword⟩, ?_, rfl⟩
    rw [hopen, hclose]
    rfl
  · exact .inl rfl

theorem exists_endpointText {s rest : List Char} {endpoint : Endpoint}
    (h : readEndpoint s = some (endpoint, rest)) :
    ∃ text, EndpointText endpoint text ∧ s = text ++ rest := by
  simp only [readEndpoint, Option.bind_eq_bind, Option.bind_eq_some_iff, Prod.exists,
    Option.pure_def, Option.some.injEq, Prod.mk.injEq, readName] at h
  obtain ⟨name, s1, h1, rfl, rfl⟩ := h
  obtain ⟨hname, hword, -, rfl⟩ := readRun_eq_some_iff.mp h1
  rcases readRole_cases s1 with hrole | ⟨role, rest, hroleName, hs1, hrole⟩
  · rw [hrole]
    exact ⟨name, .bare ⟨hname, hword⟩, rfl⟩
  · rw [hrole, hs1]
    refine ⟨_, .withRole ⟨hname, hword⟩ hroleName, ?_⟩
    simp only [List.append_assoc, List.cons_append, List.nil_append]

theorem readCardinality_append (cardinality : Cardinality) (rest : List Char) :
    readCardinality (cardinality.keyword.toList ++ rest) = some (cardinality, rest) := by
  cases cardinality <;> rfl

theorem eq_keyword_of_readCardinality {s rest : List Char} {cardinality : Cardinality}
    (h : readCardinality s = some (cardinality, rest)) :
    s = cardinality.keyword.toList ++ rest := by
  obtain ⟨c, -, hc⟩ := List.exists_of_findSome?_eq_some h
  obtain ⟨rest', hread, hsame⟩ := Option.map_eq_some_iff.mp hc
  obtain ⟨rfl, rfl⟩ : c = cardinality ∧ rest' = rest := by simpa using hsame
  exact readLiteral_eq_some_iff.mp hread

/-- One end of a relationship does not begin with a blank. -/
theorem EndpointText.stops_blank {endpoint : Endpoint} {text : List Char}
    (h : EndpointText endpoint text) (rest : List Char) : Stops isBlank (text ++ rest) := by
  cases h with
  | bare hname => exact hname.stops_blank rest
  | withRole hname => simpa only [List.append_assoc] using hname.stops_blank _

theorem readRelationship_append {relationship : Relationship} {text : List Char}
    (h : RelationshipText relationship text) (rest : List Char) :
    readRelationship (text ++ rest) = some (relationship, rest) := by
  obtain ⟨hgap, hspace, hbefore, hsource, hgapTo, hgapFrom, htarget, hafter⟩ := h
  rename_i cardinality source target gap space before sourceText gapTo gapFrom targetText after
  have hkeyword : ∀ rest, Stops isBlank (cardinality.keyword.toList ++ rest) := by
    intro rest
    cases cardinality <;> exact stops_cons.mpr (by decide)
  have hto : ∀ rest, Stops isBlank ("to".toList ++ rest) := fun rest => stops_cons.mpr (by decide)
  have hopen : isBlank '{' = false := by decide
  have hclose : isBlank '}' = false := by decide
  simp only [readRelationship, List.append_assoc, List.cons_append, List.nil_append,
    readLiteral_append, Option.bind_eq_bind, Option.bind_some, hgap.readBlanks (hkeyword _),
    readCardinality_append, hspace.trimStart_append hopen, readLiteral, if_true,
    trimStart_append_of_blank hbefore, trimStart_eq_self (hsource.stops_blank _),
    readEndpoint_append hsource (hgapTo.endsEndpoint _), hgapTo.readBlanks (hto _),
    hgapFrom.readBlanks (htarget.stops_blank _),
    readEndpoint_append htarget (hafter.endsEndpoint _), hafter.trimStart_append hclose]
  rfl

theorem exists_relationshipText {s rest : List Char} {relationship : Relationship}
    (h : readRelationship s = some (relationship, rest)) :
    ∃ text, RelationshipText relationship text ∧ s = text ++ rest := by
  simp only [readRelationship, Option.bind_eq_bind, Option.bind_eq_some_iff, Prod.exists,
    Option.pure_def, Option.some.injEq, Prod.mk.injEq] at h
  obtain ⟨s1, h1, s2, h2, cardinality, s3, h3, s4, h4, source, s5, h5, s6, h6, s7, h7, s8, h8,
    target, s9, h9, s10, h10, rfl, rfl⟩ := h
  obtain ⟨-, gap, hgap, rfl⟩ := readBlanks_eq_some_iff.mp h2
  obtain ⟨space, hspace, hs3⟩ := exists_trimStart s3
  obtain ⟨before, hbefore, hs4⟩ := exists_trimStart s4
  obtain ⟨sourceText, hsource, hs5⟩ := exists_endpointText h5
  obtain ⟨-, gapTo, hgapTo, rfl⟩ := readBlanks_eq_some_iff.mp h6
  obtain ⟨-, gapFrom, hgapFrom, rfl⟩ := readBlanks_eq_some_iff.mp h8
  obtain ⟨targetText, htarget, rfl⟩ := exists_endpointText h9
  obtain ⟨after, hafter, hs9⟩ := exists_trimStart s9
  rw [readLiteral_eq_some_iff] at h1 h4 h7 h10
  refine ⟨_, .intro hgap hspace hbefore hsource hgapTo hgapFrom htarget hafter, ?_⟩
  rw [h1, eq_keyword_of_readCardinality h3, hs3, h4, hs4, hs5, h7, hs9, h10]
  simp only [List.append_assoc, List.cons_append, List.nil_append]

/-- A relationship is read off exactly the texts that begin with the text of a relationship. -/
theorem readRelationship_eq_some_iff {s rest : List Char} {relationship : Relationship} :
    readRelationship s = some (relationship, rest) ↔
      ∃ text, RelationshipText relationship text ∧ s = text ++ rest :=
  ⟨exists_relationshipText, fun ⟨_, htext, hs⟩ => hs ▸ readRelationship_append htext rest⟩

end EntityScaffold.Document
