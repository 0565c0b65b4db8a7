import EntityScaffold.Document.Parse
import EntityScaffold.Proofs.Document.Announcement
import EntityScaffold.Proofs.Document.Body

/-!
# Documents in writing

Declarations as data: how they are written down, and what they declare. A well-formed declaration
only has names, types, rules and comments that can be told apart again once they are written.

The text of a declaration belongs to the grammar of its kind (`blockText_enumeration`,
`entityText_entity`, `relationshipText_relationship`), its keyword is announced before its opening
brace, and up to its closing brace no other brace occurs in it (`Declaration.exists_shape`). The
bodies are read back: the values of an enumeration (`valuesOf_enumBody`) and the fields of an entity
(`outcome_read_entityBody`).
-/

namespace EntityScaffold.Document

open Text

/-! ## Declarations -/

/-- A field of a declaration. -/
structure FieldDeclaration where
  name : String
  type : String
  rules : List String
  comment : Option String
deriving DecidableEq, Repr

/-- The declaration of an entity. -/
structure EntityDeclaration where
  name : String
  fields : List FieldDeclaration
  audited : Bool
deriving DecidableEq, Repr

/-- A declaration. -/
inductive Declaration
  | enumeration (enumeration : Enumeration)
  | entity (entity : EntityDeclaration)
  | relationship (relationship : Relationship)
deriving DecidableEq, Repr

namespace Declaration

/-- The enumeration that is declared. -/
def enumeration? : Declaration → Option Enumeration
  | enumeration declared => some declared
  | _ => none

/-- The entity that is declared. -/
def entity? : Declaration → Option EntityDeclaration
  | entity declared => some declared
  | _ => none

/-- The relationship that is declared. -/
def relationship? : Declaration → Option Relationship
  | relationship declared => some declared
  | _ => none

theorem enumeration?_eq_some_iff {declaration : Declaration} {declared : Enumeration} :
    declaration.enumeration? = some declared ↔ declaration = enumeration declared := by
  cases declaration <;> simp [enumeration?]

theorem entity?_eq_some_iff {declaration : Declaration} {declared : EntityDeclaration} :
    declaration.entity? = some declared ↔ declaration = entity declared := by
  cases declaration <;> simp [entity?]

theorem relationship?_eq_some_iff {declaration : Declaration} {declared : Relationship} :
    declaration.relationship? = some declared ↔ declaration = relationship declared := by
  cases declaration <;> simp [relationship?]

end Declaration

/-! ## What they declare -/

/-- The field that is declared among enumerations. -/
def FieldDeclaration.field (enumNames : List String) (declared : FieldDeclaration) : Field where
  name := declared.name
  type := declared.type
  isEnum := enumNames.contains declared.type
  rules := declared.rules
  comment := declared.comment
  tsType := none

/-- The entity that is declared among enumerations, with the audit fields if it is audited. -/
def EntityDeclaration.entity (enumNames : List String) (declared : EntityDeclaration) : Entity where
  name := declared.name
  fields := declared.fields.map (·.field enumNames) ++
    if declared.audited then Entity.auditFields else []
  audit := if declared.audited then .enabled else .none

/-! ## How they are written -/

/-- A field is written in one line: name, type, rules, comment. -/
def FieldDeclaration.text (declared : FieldDeclaration) : List Char :=
  let comment := match declared.comment with
    | some comment => ' ' :: '/' :: '/' :: ' ' :: comment.toList
    | none => []
  declared.name.toList ++ ([' '] ++ (declared.type.toList ++
    ((declared.rules.map String.toList).flatMap (fun rule => ' ' :: rule) ++ comment)))

theorem FieldDeclaration.text_eq (declared : FieldDeclaration) :
    declared.text = declared.name.toList ++ ([' '] ++ (declared.type.toList ++
      restText (declared.rules.map String.toList)
        (declared.comment.map fun comment => ' ' :: comment.toList))) := by
  unfold FieldDeclaration.text
  cases declared.comment with
  | none => rfl
  | some comment => rfl

/-- The body of an enumeration has one value a line, with commas between them. -/
def enumBody (values : List String) : List Char :=
  [','].intercalate ((values.map String.toList).map fun value => "\n  ".toList ++ value) ++ ['\n']

/-- The body of an entity has one field a line. -/
def entityBody (fields : List FieldDeclaration) : List Char :=
  '\n' :: fields.flatMap fun declared => "  ".toList ++ declared.text ++ ['\n']

/-- What is written before the keyword of an entity. -/
def annotationText (audited : Bool) : List Char :=
  if audited then auditMark.toList ++ ['\n'] else []

/-- An enumeration begins with its keyword. -/
def enumerationText (declared : Enumeration) : List Char :=
  "enum".toList ++ ' ' :: declared.name.toList ++ ' ' :: '{' :: (enumBody declared.values ++ ['}'])

/-- An entity begins with its keyword, or on the line before it with the annotation. -/
def entityText (declared : EntityDeclaration) : List Char :=
  annotationText declared.audited ++ "entity".toList ++ ' ' :: declared.name.toList ++
    ' ' :: '{' :: (entityBody declared.fields ++ ['}'])

/-- A relationship begins with its keyword. -/
def relationshipText (declared : Relationship) : List Char :=
  "relationship".toList ++ ' ' :: declared.text.toList

/-- The text of a declaration. -/
def Declaration.text : Declaration → List Char
  | enumeration declared => enumerationText declared
  | entity declared => entityText declared
  | relationship declared => relationshipText declared

/-- Declarations are written one after the other, each from the start of a line. -/
def documentText (document : List Declaration) : List Char :=
  document.flatMap fun declaration => declaration.text ++ ['\n']

/-! ## Which of them are well formed -/

/-- A comment is one line without blanks at its ends and opens no block comment. -/
structure IsRemark (s : List Char) : Prop where
  trimmed : trim s = s
  line : '\n' ∉ s
  avoids_opening : Avoids opening s

/-- A field that can be read back from its line. -/
structure FieldDeclaration.WellFormed (declared : FieldDeclaration) : Prop where
  name : IsName declared.name.toList
  type_ne_nil : declared.type.toList ≠ []
  type : ∀ c ∈ declared.type.toList, isTypeChar c = true
  rules : ∀ rule ∈ declared.rules, IsRule rule.toList
  comment : ∀ comment ∈ declared.comment, IsRemark comment.toList

/-- No brace occurs in the rules and the comment of a field. -/
structure FieldDeclaration.IsUnbraced (declared : FieldDeclaration) : Prop where
  rules : ∀ rule ∈ declared.rules, Unbraced rule.toList
  comment : ∀ comment ∈ declared.comment, Unbraced comment.toList

/-- Both ends of a relationship and their roles are names. -/
def EndpointNames (declared : Endpoint) : Prop :=
  IsName declared.entity.toList ∧ ∀ role ∈ declared.role, IsName role.toList

/-- A declaration that can be read back from its text. -/
def Declaration.WellFormed : Declaration → Prop
  | enumeration declared =>
    IsName declared.name.toList ∧ ∀ value ∈ declared.values, IsName value.toList
  | entity declared =>
    IsName declared.name.toList ∧ ∀ field ∈ declared.fields, field.WellFormed ∧ field.IsUnbraced
  | relationship declared => EndpointNames declared.source ∧ EndpointNames declared.target

instance (s : List Char) : Decidable (IsRemark s) :=
  decidable_of_iff (trim s = s ∧ '\n' ∉ s ∧ Avoids opening s)
    ⟨fun ⟨htrim, hline, hopening⟩ => ⟨htrim, hline, hopening⟩,
      fun ⟨htrim, hline, hopening⟩ => ⟨htrim, hline, hopening⟩⟩

instance (declared : FieldDeclaration) : Decidable declared.WellFormed :=
  decidable_of_iff (IsName declared.name.toList ∧ declared.type.toList ≠ [] ∧
    (∀ c ∈ declared.type.toList, isTypeChar c = true) ∧
    (∀ rule ∈ declared.rules, IsRule rule.toList) ∧
    ∀ comment ∈ declared.comment, IsRemark comment.toList)
    ⟨fun ⟨hname, hne, htype, hrules, hcomment⟩ => ⟨hname, hne, htype, hrules, hcomment⟩,
      fun ⟨hname, hne, htype, hrules, hcomment⟩ => ⟨hname, hne, htype, hrules, hcomment⟩⟩

instance (declared : FieldDeclaration) : Decidable declared.IsUnbraced :=
  decidable_of_iff ((∀ rule ∈ declared.rules, Unbraced rule.toList) ∧
    ∀ comment ∈ declared.comment, Unbraced comment.toList)
    ⟨fun ⟨hrules, hcomment⟩ => ⟨hrules, hcomment⟩, fun ⟨hrules, hcomment⟩ => ⟨hrules, hcomment⟩⟩

instance (declared : Endpoint) : Decidable (EndpointNames declared) :=
  inferInstanceAs (Decidable (_ ∧ _))

instance : (declaration : Declaration) → Decidable declaration.WellFormed
  | .enumeration _ => inferInstanceAs (Decidable (_ ∧ _))
  | .entity _ => inferInstanceAs (Decidable (_ ∧ _))
  | .relationship _ => inferInstanceAs (Decidable (_ ∧ _))

/-! ## Plain texts -/

theorem FieldDeclaration.WellFormed.isRule {declared : FieldDeclaration}
    (h : declared.WellFormed) : ∀ rule ∈ declared.rules.map String.toList, IsRule rule := by
  intro _ hmem
  obtain ⟨rule, hrule, rfl⟩ := List.mem_map.mp hmem
  exact h.rules rule hrule

theorem FieldDeclaration.WellFormed.isRuleWord {declared : FieldDeclaration}
    (h : declared.WellFormed) : ∀ rule ∈ declared.rules.map String.toList, IsRuleWord rule :=
  fun rule hrule => (h.isRule rule hrule).isRuleWord

theorem FieldDeclaration.WellFormed.plain_type {declared : FieldDeclaration}
    (h : declared.WellFormed) : Plain declared.type.toList :=
  plain_of_class (by decide) (by decide) (by decide) h.type

theorem plain_intercalate {separator : List Char} (hseparator : Plain separator)
    {parts : List (List Char)} (h : ∀ part ∈ parts, Plain part) :
    Plain (separator.intercalate parts) := by
  induction parts with
  | nil => exact fun c hc => absurd hc List.not_mem_nil
  | cons first later ih =>
    have hfirst := h first List.mem_cons_self
    cases later with
    | nil => simpa using hfirst
    | cons second later =>
      rw [List.intercalate_cons_cons, plain_append, plain_append]
      exact ⟨⟨hfirst, hseparator⟩, ih fun part hpart => h part (List.mem_cons_of_mem _ hpart)⟩

/-- Only word characters, commas and blanks occur in the body of an enumeration. -/
theorem plain_enumBody {values : List String} (h : ∀ value ∈ values, IsName value.toList) :
    Plain (enumBody values) := by
  have hcomma : Plain [','] := by decide
  have hindent : Plain "\n  ".toList := by decide
  have hend : Plain ['\n'] := by decide
  refine plain_append.mpr ⟨plain_intercalate hcomma ?_, hend⟩
  intro part hpart
  obtain ⟨_, hvalues, rfl⟩ := List.mem_map.mp hpart
  obtain ⟨value, hvalue, rfl⟩ := List.mem_map.mp hvalues
  exact plain_append.mpr ⟨hindent, (h value hvalue).plain⟩

/-! ## Fields in writing

Rules and comments may hold slashes, so the line of a field is not plain. -/

theorem unbraced_flatMap {α : Type} {parts : List α} {f : α → List Char}
    (h : ∀ part ∈ parts, Unbraced (f part)) : Unbraced (parts.flatMap f) := by
  intro c hc
  obtain ⟨part, hpart, hmem⟩ := List.mem_flatMap.mp hc
  exact h part hpart c hmem

theorem unbraced_fieldText {declared : FieldDeclaration} (h : declared.WellFormed)
    (hbrace : declared.IsUnbraced) : Unbraced declared.text := by
  have hspace : Unbraced [' '] := by decide
  simp only [FieldDeclaration.text, unbraced_append]
  refine ⟨h.name.unbraced, hspace, h.plain_type.unbraced, unbraced_flatMap ?_, ?_⟩
  · intro _ hrules
    obtain ⟨rule, hrule, rfl⟩ := List.mem_map.mp hrules
    exact unbraced_append.mpr ⟨hspace, hbrace.rules rule hrule⟩
  · cases hcomment : declared.comment with
    | none => exact fun _ hc => absurd hc (by simp)
    | some comment =>
      have hsign : Unbraced " // ".toList := by decide
      exact unbraced_append.mpr ⟨hsign, hbrace.comment comment hcomment⟩

theorem unbraced_entityBody {fields : List FieldDeclaration}
    (h : ∀ field ∈ fields, field.WellFormed ∧ field.IsUnbraced) : Unbraced (entityBody fields) := by
  have hindent : Unbraced "  ".toList := by decide
  have hend : Unbraced ['\n'] := by decide
  refine unbraced_append.mpr ⟨hend, unbraced_flatMap ?_⟩
  intro field hfield
  obtain ⟨hfield, hbrace⟩ := h field hfield
  simp only [unbraced_append]
  exact ⟨⟨hindent, unbraced_fieldText hfield hbrace⟩, hend⟩

theorem avoids_fieldText {declared : FieldDeclaration} (h : declared.WellFormed) :
    Avoids opening declared.text := by
  have hspace : ' ' ∉ opening := by simp [opening]
  have hrules : ∀ rule ∈ declared.rules.map String.toList, Avoids opening rule :=
    fun rule hrule => (h.isRule rule hrule).avoids_opening
  have hhead : Avoids opening (declared.name.toList ++ ' ' :: declared.type.toList) :=
    (avoids_append_cons hspace).mpr ⟨h.name.plain.avoids_opening, h.plain_type.avoids_opening⟩
  have hspaced := avoids_append_spaced hspace hhead hrules
  cases hcomment : declared.comment with
  | none =>
    simpa only [FieldDeclaration.text, hcomment, List.append_nil, List.append_assoc,
      List.cons_append, List.nil_append] using hspaced
  | some comment =>
    have hremark : Avoids opening ('/' :: '/' :: ' ' :: comment.toList) := by
      have hsign : Avoids opening ['/', '/'] := by decide
      exact (avoids_append_cons hspace).mpr ⟨hsign, (h.comment comment hcomment).avoids_opening⟩
    have hall := (avoids_append_cons hspace).mpr ⟨hspaced, hremark⟩
    simpa only [FieldDeclaration.text, hcomment, List.append_assoc, List.cons_append,
      List.nil_append] using hall

theorem avoids_entityBody {fields : List FieldDeclaration}
    (h : ∀ field ∈ fields, field.WellFormed) : Avoids opening (entityBody fields) := by
  have hspace : ' ' ∉ opening := by simp [opening]
  have hlineFeed : '\n' ∉ opening := by simp [opening]
  have hne : opening ≠ [] := by simp [opening]
  rw [entityBody, avoids_cons hne hlineFeed]
  refine avoids_flatMap_concat hne hlineFeed ?_
  intro field hfield
  have hline : "  ".toList ++ field.text = ' ' :: ' ' :: field.text := rfl
  rw [hline, avoids_cons hne hspace, avoids_cons hne hspace]
  exact avoids_fieldText (h field hfield)

/-! ## Texts of the grammar -/

theorem isGap_space : IsGap [' '] := by decide

/-- A block in writing, after what stands before its keyword. -/
def blockText (before keyword name body : List Char) : List Char :=
  before ++ (keyword ++ ' ' :: (name ++ [' '])) ++ '{' :: (body ++ ['}'])

section

variable {name body : List Char} (hname : IsName name) (hbody : body ≠ []) (hclosed : '}' ∉ body)

include hname hbody hclosed

/-- A block in writing is the text of a block, if there is something between its braces. -/
theorem blockText_isText (keyword : String) :
    BlockText keyword ⟨name, body⟩ (blockText [] keyword.toList name body) := by
  have htext : BlockText keyword _ _ :=
    .intro isGap_space hname isGap_space.2 hbody hclosed
  simp only [List.append_assoc, List.cons_append, List.nil_append] at htext
  simpa only [blockText, List.append_assoc, List.cons_append, List.nil_append] using htext

theorem entityText_blockText {before : List Char} (hbefore : IsPrelude before) :
    EntityText ⟨name, body⟩ (blockText before "entity".toList name body) := by
  have hblock := blockText_isText hname hbody hclosed "entity"
  rcases hbefore with rfl | ⟨gap, hgap, rfl⟩
  · exact .plain hblock
  · have htext := EntityText.annotated hgap hblock
    simpa only [blockText, List.append_assoc, List.nil_append] using htext

end

/-- An enumeration is written as a block. -/
theorem blockText_enumeration {declared : Enumeration}
    (h : (Declaration.enumeration declared).WellFormed) :
    BlockText "enum" ⟨declared.name.toList, enumBody declared.values⟩
      (enumerationText declared) := by
  have hbody : enumBody declared.values ≠ [] := by simp [enumBody]
  have hclosed : '}' ∉ enumBody declared.values := (plain_enumBody h.2).unbraced.not_mem (by decide)
  have htext := blockText_isText h.1 hbody hclosed "enum"
  simpa only [blockText, enumerationText, List.append_assoc, List.cons_append, List.nil_append]
    using htext

theorem isPrelude_annotationText (audited : Bool) : IsPrelude (annotationText audited) := by
  cases audited with
  | false => exact isPrelude_nil
  | true => exact .inr ⟨['\n'], by decide, rfl⟩

/-- An entity is written as an entity, with the annotation if it is an audited one, unless its body
has a closing brace. -/
theorem entityText_of_closed {declared : EntityDeclaration} (hname : IsName declared.name.toList)
    (hclosed : '}' ∉ entityBody declared.fields) :
    EntityText ⟨declared.name.toList, entityBody declared.fields⟩ (entityText declared) := by
  have hbody : entityBody declared.fields ≠ [] := by simp [entityBody]
  have htext := entityText_blockText hname hbody hclosed (isPrelude_annotationText declared.audited)
  simpa only [blockText, entityText, List.append_assoc, List.cons_append, List.nil_append]
    using htext

theorem entityText_entity {declared : EntityDeclaration}
    (h : (Declaration.entity declared).WellFormed) :
    EntityText ⟨declared.name.toList, entityBody declared.fields⟩ (entityText declared) :=
  entityText_of_closed h.1 ((unbraced_entityBody h.2).not_mem (by decide))

theorem endpointText_text {declared : Endpoint} (h : EndpointNames declared) :
    EndpointText declared declared.text.toList := by
  obtain ⟨entity, role⟩ := declared
  obtain ⟨hentity, hrole⟩ := h
  cases role with
  | none =>
    have htext := EndpointText.bare hentity
    rw [String.ofList_toList] at htext
    exact htext
  | some role =>
    have hname : IsName role.toList := hrole role rfl
    have hne : role ≠ "" := by
      intro hempty
      rw [hempty] at hname
      exact hname.1 rfl
    have htext := EndpointText.withRole hentity hname
    rw [String.ofList_toList, String.ofList_toList] at htext
    have hnamed : Endpoint.namedRole ⟨entity, some role⟩ = some role := by
      simp [Endpoint.namedRole, Option.filter, hne]
    have hwritten : (Endpoint.text ⟨entity, some role⟩).toList =
        entity.toList ++ '(' :: role.toList ++ [')'] := by
      rw [Endpoint.text, hnamed]
      simp [toString]
    rw [hwritten]
    exact htext

theorem relationshipText_eq (declared : Relationship) :
    relationshipText declared = "relationship".toList ++ (' ' ::
      (declared.cardinality.keyword.toList ++ (' ' :: '{' :: ' ' ::
        (declared.source.text.toList ++ (' ' :: 't' :: 'o' :: ' ' ::
          (declared.target.text.toList ++ [' ', '}'])))))) := by
  have htext : declared.text.toList = declared.cardinality.keyword.toList ++ (' ' :: '{' :: ' ' ::
      (declared.source.text.toList ++ (' ' :: 't' :: 'o' :: ' ' ::
        (declared.target.text.toList ++ [' ', '}'])))) := by
    simp [Relationship.text, toString]
  unfold relationshipText
  rw [htext]

/-- A relationship is written as a relationship. -/
theorem relationshipText_relationship {declared : Relationship}
    (h : (Declaration.relationship declared).WellFormed) :
    RelationshipText declared (relationshipText declared) := by
  have htext : RelationshipText declared _ :=
    .intro isGap_space isGap_space.2 isGap_space.2 (endpointText_text h.1) isGap_space isGap_space
      (endpointText_text h.2) isGap_space.2
  have hto : "to".toList = ['t', 'o'] := by decide
  simp only [hto, List.append_assoc, List.cons_append, List.nil_append] at htext
  rw [relationshipText_eq]
  exact htext

/-! ## Shapes -/

/-- The keyword of a declaration. -/
def Declaration.keyword : Declaration → List Char
  | enumeration _ => "enum".toList
  | entity _ => "entity".toList
  | relationship _ => "relationship".toList

theorem isName_declaration_keyword (declaration : Declaration) : IsName declaration.keyword := by
  cases declaration with
  | enumeration => exact isName_enum
  | entity => exact isName_entity
  | relationship => exact isName_relationship

/-- What stands before the opening brace of a declaration. -/
theorem announcesAlone_append {before keyword word : List Char} (hbefore : IsPrelude before)
    (hword : IsName word) :
    AnnouncesAlone keyword (before ++ (keyword ++ ' ' :: (word ++ [' ']))) := by
  have hstart : Stops isWord ([] : List Char).reverse := stops_nil _
  have hstops := hbefore.stops_word hstart
  exact ⟨before, [' '], word, [' '], hstops, isGap_space, hword, isGap_space.2, rfl⟩

theorem plain_announced {before keyword word : List Char} (hbefore : IsPrelude before)
    (hkeyword : IsName keyword) (hword : IsName word) :
    Plain (before ++ (keyword ++ ' ' :: (word ++ [' ']))) := by
  have hspace : Plain [' '] := by decide
  have hrest : Plain ([' '] ++ (word ++ [' '])) :=
    plain_append.mpr ⟨hspace, plain_append.mpr ⟨hword.plain, hspace⟩⟩
  rw [plain_append, plain_append]
  exact ⟨hbefore.plain, hkeyword.plain, hrest⟩

/-- **Shapes.** The keyword of a declaration is announced before its opening brace. There are no
other braces than that one and the closing one, and no block comment is opened. -/
theorem Declaration.exists_shape {declaration : Declaration} (h : declaration.WellFormed) :
    ∃ head inside, declaration.text = head ++ '{' :: (inside ++ ['}']) ∧
      AnnouncesAlone declaration.keyword head ∧ Plain head ∧ Unbraced inside ∧
      Avoids opening inside := by
  have hkeyword := isName_declaration_keyword declaration
  cases declaration with
  | enumeration declared =>
    have hinside := plain_enumBody h.2
    refine ⟨[] ++ ("enum".toList ++ ' ' :: (declared.name.toList ++ [' '])),
      enumBody declared.values, ?_, announcesAlone_append isPrelude_nil h.1,
      plain_announced isPrelude_nil hkeyword h.1, hinside.unbraced, hinside.avoids_opening⟩
    simp only [Declaration.text, enumerationText, List.append_assoc, List.cons_append,
      List.nil_append]
  | entity declared =>
    have hprelude := isPrelude_annotationText declared.audited
    refine ⟨annotationText declared.audited ++
        ("entity".toList ++ ' ' :: (declared.name.toList ++ [' '])),
      entityBody declared.fields, ?_, announcesAlone_append hprelude h.1,
      plain_announced hprelude hkeyword h.1, unbraced_entityBody h.2,
      avoids_entityBody fun field hfield => (h.2 field hfield).1⟩
    simp only [Declaration.text, entityText, List.append_assoc, List.cons_append, List.nil_append]
  | relationship declared =>
    have hword := isName_cardinality declared.cardinality
    have hinside : Plain ([' '] ++ (declared.source.text.toList ++ ([' ', 't', 'o', ' '] ++
        (declared.target.text.toList ++ [' '])))) := by
      have hspace : Plain [' '] := by decide
      have hto : Plain [' ', 't', 'o', ' '] := by decide
      simp only [plain_append]
      exact ⟨hspace, plain_endpointText (endpointText_text h.1), hto,
        plain_endpointText (endpointText_text h.2), hspace⟩
    refine ⟨[] ++ ("relationship".toList ++ ' ' :: (declared.cardinality.keyword.toList ++ [' '])),
      _, ?_, announcesAlone_append isPrelude_nil hword,
      plain_announced isPrelude_nil hkeyword hword, hinside.unbraced, hinside.avoids_opening⟩
    simp only [Declaration.text, relationshipText_eq, List.append_assoc, List.cons_append,
      List.nil_append]

theorem avoids_text {declaration : Declaration} (h : declaration.WellFormed) :
    Avoids opening declaration.text := by
  obtain ⟨head, inside, htext, -, hhead, -, hinside⟩ := Declaration.exists_shape h
  have hopen : '{' ∉ opening := by simp [opening]
  have hclose : '}' ∉ opening := by simp [opening]
  have hnil : Avoids opening [] := by decide
  rw [htext, avoids_append_cons hopen, avoids_append_cons hclose]
  exact ⟨hhead.avoids_opening, hinside, hnil⟩

end EntityScaffold.Document
