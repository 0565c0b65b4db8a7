import EntityScaffold.Proofs.Console.Escape
import EntityScaffold.Proofs.Console.Styled
import EntityScaffold.Proofs.Console.Tree
import EntityScaffold.Proofs.Document.Names
import EntityScaffold.Proofs.TypeScript.Type
import EntityScaffold.Run.Overview

/-!
# What is shown of an overview

Names and types hold inert characters only, and rules, comments and relationships are escaped, so
the labels of entities, fields and relationships can always be shown. The values of an enumeration
are neither: whether its label can be shown, and whether it is shown as it is, is a question about
these alone (`canShow_enumLabel_iff`, `shownLines_enumLabel_iff`).
-/

namespace EntityScaffold.Run

open Console Document

/-! ## Inert words -/

theorem inert_of_isName {name : List Char} (h : IsName name) : Inert name :=
  inert_of_class (by decide) h.2

theorem inert_of_isDeclaredType {type : List Char} (h : IsDeclaredType type) : Inert type :=
  inert_of_class (by decide) h.2

/-- What a declared type stands for is written in inert characters too. -/
theorem inert_typeOf {declared : String} (h : IsDeclaredType declared.toList) :
    Inert (TypeScript.typeOf declared).toList := by
  have htable : ∀ entry ∈ TypeScript.builtinTypes, Inert entry.2.toList := by decide
  rcases TypeScript.typeOf_cases declared with ⟨-, hself⟩ | ⟨-, hentry⟩
  · rw [hself]
    exact inert_of_isDeclaredType h
  · exact htable _ hentry

theorem toList_styled (style text : String) :
    (styled style text).toList = inStyle style.toList text.toList := by
  simp [styled, inStyle, toString]

/-! ## Enumerations -/

section Enumerations

variable {enumeration : Enumeration}

/-- The values of an enumeration, one after the other. -/
def listed (enumeration : Enumeration) : String := String.intercalate ", " enumeration.values

/-- An enumeration with its values. -/
def inWords (enumeration : Enumeration) : String :=
  enumeration.name ++ ": " ++ listed enumeration

theorem listed_ne_empty (hvalues : enumeration.values ≠ [])
    (hne : ∀ value ∈ enumeration.values, value ≠ "") : listed enumeration ≠ "" := by
  obtain ⟨value, later, hcons⟩ := List.exists_cons_of_ne_nil hvalues
  have hvalue := hne value (by simp [hcons])
  obtain ⟨c, hc⟩ := List.exists_mem_of_ne_nil value.toList (by simpa using hvalue)
  intro hempty
  have hmem : c ∈ (listed enumeration).toList := by
    rw [listed, String.toList_intercalate]
    exact Text.mem_intercalate_of_mem _ (List.mem_map_of_mem (by simp [hcons])) hc
  simp [hempty] at hmem

theorem toList_enumLabel (hvalues : listed enumeration ≠ "") :
    (enumLabel enumeration).toList =
      inStyle "bold".toList enumeration.name.toList ++ (": " ++ listed enumeration).toList := by
  have hlabel : enumLabel enumeration =
      styled "bold" enumeration.name ++ (": " ++ listed enumeration) := by
    rw [enumLabel, listed] at *
    simp [hvalues, String.append_assoc]
  rw [hlabel, String.toList_append, toList_styled]

variable (hname : IsName enumeration.name.toList)

include hname

/-- The name in the label of an enumeration is shown like one without a style. -/
theorem render_enumLabel (hvalues : listed enumeration ≠ "") :
    render (enumLabel enumeration) = render (inWords enumeration) :=
  render_inStyle_append (isStyle_of_mem "bold" (by simp)) (inert_of_isName hname)
    (toList_enumLabel hvalues) (by simp [inWords, String.append_assoc])

theorem inert_front : Inert (enumeration.name ++ ": ").toList := by
  rw [String.toList_append]
  exact inert_append.mpr ⟨inert_of_isName hname, by decide⟩

/-- The label of an enumeration is shown as it is just if its values are. -/
theorem shownLines_enumLabel_iff (hvalues : listed enumeration ≠ "") :
    shownLines (enumLabel enumeration) = .ok (linesAsIs (inWords enumeration)) ↔
      ShowsAsIs (listed enumeration).toList := by
  have hlabel : shownLines (enumLabel enumeration) = shownLines (inWords enumeration) := by
    rw [shownLines, shownLines, render_enumLabel hname hvalues]
  rw [hlabel, shownLines_eq_iff, inWords, String.toList_append,
    showsAsIs_append_of_inert (inert_front hname)]

/-- The label of an enumeration can be shown just if its values can. -/
theorem canShow_enumLabel_iff :
    CanShow (enumLabel enumeration) ↔ CanShow (listed enumeration) := by
  by_cases hvalues : listed enumeration = ""
  · have hlabel : enumLabel enumeration =
        styled "bold" enumeration.name ++ (": " ++ "(no values)") := by
      rw [enumLabel, listed] at *
      simp [hvalues, String.append_assoc]
    refine iff_of_true (Unfailing.canShow ?_) (canShow_of_no_tags ?_)
    · have hbold : IsStyle "bold".toList := isStyle_of_mem "bold" (by simp)
      rw [hlabel, String.toList_append, toList_styled,
        liveTags_inStyle_append hbold (inert_of_isName hname), liveTags_eq_nil (by decide)]
      exact hbold.unfailing 0
    · rw [hvalues, liveTags_eq_nil (by decide)]
  · rw [CanShow, render_enumLabel hname hvalues]
    refine canShow_congr ?_
    rw [inWords, String.toList_append, liveTags_append_of_inert_left (inert_front hname)]

end Enumerations

/-! ## Fields, entities and relationships -/

theorem canShow_verbatim (text : String) : CanShow (verbatim text) := by
  refine canShow_of_no_tags ?_
  rw [verbatim, String.toList_ofList, liveTags_escape]

/-- The end of the label of a field. -/
def remarkText : Option String → String
  | some remark => " " ++ styled "dim" ("// " ++ verbatim remark)
  | none => ""

theorem toList_remarkText (remark : String) : (remarkText (some remark)).toList =
    ' ' :: ('[' :: "dim".toList ++ ']' :: ("// ".toList ++
      (escape remark.toList ++ ('[' :: "/dim".toList ++ [']'])))) := by
  simp [remarkText, toList_styled, inStyle, verbatim]

/-- A comment is shown, whether its style is ended or not. -/
theorem unfailing_remarkText (remark : Option String) :
    Unfailing (liveTags (remarkText remark).toList) := by
  cases remark with
  | none =>
    rw [remarkText, liveTags_eq_nil (by decide)]
    exact unfailing_nil
  | some remark =>
    have hdim : IsStyle "dim".toList := isStyle_of_mem "dim" (by simp)
    rw [toList_remarkText, liveTags_cons_of_ne (by decide) (by decide),
      liveTags_bracketed_append hdim.inside, liveTags_append_of_inert_left (by decide)]
    -- a comment that ends with backslashes may escape the end of its own style
    rcases liveTags_escape_append_bracketed hdim.insideEnd remark.toList with
      hnone | ⟨backslashes, hend⟩
    · rw [show "/dim".toList = '/' :: "dim".toList from rfl, hnone]
      exact hdim.unfailing_open
    · rw [show "/dim".toList = '/' :: "dim".toList from rfl, hend]
      exact hdim.unfailing backslashes

theorem setApart_remarkText (remark : Option String) :
    SetApart (remarkText remark).toList ∧ ClosesNothing (remarkText remark).toList := by
  cases remark with
  | none =>
    exact ⟨by simp [remarkText, SetApart], by simp [remarkText, ClosesNothing, firstBracket?]⟩
  | some remark =>
    rw [toList_remarkText]
    exact ⟨by simp [SetApart], by simp [ClosesNothing, firstBracket?, Tag.noBracket]⟩

/-- The types in the label of a field. -/
def typeText (field : Field) : String :=
  let tsType := Angular.tsTypeOf field
  s!": {field.type}" ++ (if tsType = field.type then "" else s!" -> {tsType}")

/-- The mark of an enumeration in the label of a field. -/
def enumText (isEnum : Bool) : String := if isEnum then " " ++ styled "magenta" "(enum)" else ""

/-- The rules in the label of a field. -/
def rulesText (rules : List String) : String :=
  if rules.isEmpty then "" else " " ++ verbatim ("[" ++ String.intercalate " " rules ++ "]")

theorem fieldLabel_eq (field : Field) : fieldLabel field =
    styled "bold" field.name ++ (typeText field ++ (enumText field.isEnum ++
      (rulesText field.rules ++ remarkText field.remark))) := by
  cases hremark : field.remark <;>
    simp only [fieldLabel, hremark, typeText, enumText, rulesText, remarkText,
      String.append_assoc]

theorem inert_typeText {field : Field} (htype : IsDeclaredType field.type.toList)
    (htsType : Angular.tsTypeOf field = TypeScript.typeOf field.type) :
    Inert (typeText field).toList := by
  have hdeclared := inert_of_isDeclaredType htype
  have htaken := inert_typeOf htype
  have hfront : Inert (s!": {field.type}").toList := by
    simp only [toString, String.toList_append]
    exact inert_append.mpr ⟨by decide, hdeclared⟩
  rw [typeText, htsType, String.toList_append]
  refine inert_append.mpr ⟨hfront, ?_⟩
  split
  · decide
  · simp only [toString, String.toList_append]
    exact inert_append.mpr ⟨by decide, htaken⟩

theorem liveTags_enumText_append (isEnum : Bool) (rest : List Char) :
    ∃ tags, Unfailing tags ∧
      liveTags ((enumText isEnum).toList ++ rest) = tags ++ liveTags rest := by
  cases isEnum with
  | false => exact ⟨[], unfailing_nil, rfl⟩
  | true =>
    have hmagenta : IsStyle "magenta".toList := isStyle_of_mem "magenta" (by simp)
    refine ⟨_, hmagenta.unfailing 0, ?_⟩
    rw [enumText, if_pos rfl, String.toList_append, List.append_assoc,
      liveTags_append_of_inert_left (by decide), toList_styled,
      liveTags_inStyle_append hmagenta (by decide)]

theorem liveTags_rulesText_append (rules : List String) {rest : List Char}
    (hapart : SetApart rest) (hcloses : ClosesNothing rest) :
    liveTags ((rulesText rules).toList ++ rest) = liveTags rest := by
  rw [rulesText]
  split
  · rfl
  · rw [String.toList_append, List.append_assoc, liveTags_append_of_inert_left (by decide),
      verbatim, String.toList_ofList, liveTags_escape_append_of_setApart hcloses hapart]

/-- The label of a field can be shown. -/
theorem canShow_fieldLabel {field : Field} (hname : IsName field.name.toList)
    (htype : IsDeclaredType field.type.toList)
    (htsType : Angular.tsTypeOf field = TypeScript.typeOf field.type) :
    CanShow (fieldLabel field) := by
  have hbold : IsStyle "bold".toList := isStyle_of_mem "bold" (by simp)
  obtain ⟨tags, htags, henum⟩ := liveTags_enumText_append field.isEnum
    ((rulesText field.rules).toList ++ (remarkText field.remark).toList)
  obtain ⟨hapart, hcloses⟩ := setApart_remarkText field.remark
  refine Unfailing.canShow ?_
  rw [fieldLabel_eq]
  simp only [String.toList_append]
  rw [toList_styled, liveTags_inStyle_append hbold (inert_of_isName hname),
    liveTags_append_of_inert_left (inert_typeText htype htsType), henum,
    liveTags_rulesText_append _ hapart hcloses]
  exact (hbold.unfailing 0).append (htags.append (unfailing_remarkText _))

/-- The label of an entity can be shown. -/
theorem canShow_entityLabel {entity : Entity} (hname : IsName entity.name.toList) :
    CanShow (entityLabel entity) := by
  have hbold : IsStyle "bold".toList := isStyle_of_mem "bold" (by simp)
  have hcyan : IsStyle "cyan".toList := isStyle_of_mem "cyan" (by simp)
  refine Unfailing.canShow ?_
  unfold entityLabel
  rw [String.toList_append, toList_styled, liveTags_inStyle_append hbold (inert_of_isName hname)]
  refine (hbold.unfailing 0).append ?_
  cases entity.audit with
  | none =>
    show Unfailing (liveTags "".toList)
    rw [liveTags_eq_nil (by decide)]
    exact unfailing_nil
  | enabled =>
    have htags : liveTags (" " ++ styled "cyan" auditMark).toList =
        [⟨0, "cyan".toList⟩, ⟨0, '/' :: "cyan".toList⟩] := by
      have haudit : Inert auditMark.toList := by decide
      have hstyled := liveTags_inStyle_append hcyan haudit []
      rw [String.toList_append, liveTags_append_of_inert_left (by decide), toList_styled,
        ← List.append_nil (inStyle _ _), hstyled, liveTags_nil, List.append_nil]
    show Unfailing (liveTags (" " ++ styled "cyan" auditMark).toList)
    rw [htags]
    exact hcyan.unfailing 0

/-! ## The whole -/

/-- The title of an overview. -/
def titleOf (model : Model) : String := (model.filename.filter (· ≠ "")).getD "JDL model"

/-- The label of a counted node. -/
def countedLabel (title : String) (count : Nat) : String := s!"{title} ({count})"

theorem shownLines_of_inert {text : String} (h : Inert text.toList) :
    shownLines text = .ok (linesAsIs text) :=
  shownLines_eq_iff.mpr (showsAsIs_of_inert h)

theorem inert_countedLabel {title : String} (h : Inert title.toList) (count : Nat) :
    Inert (countedLabel title count).toList := by
  have hcount := inert_toString count
  have hlabel : (countedLabel title count).toList =
      title.toList ++ (" (".toList ++ ((toString count).toList ++ ")".toList)) := by
    simp only [countedLabel, String.toList_append, List.append_assoc]
    rfl
  rw [hlabel]
  exact inert_append.mpr ⟨h, inert_append.mpr ⟨by decide, inert_append.mpr ⟨hcount, by decide⟩⟩⟩

theorem shownLines_title {model : Model} (htitle : Inert (titleOf model).toList) :
    shownLines (styled "bold" (titleOf model)) = .ok (linesAsIs (titleOf model)) := by
  have hrender : render (styled "bold" (titleOf model)) = render (titleOf model) :=
    render_inStyle_append (isStyle_of_mem "bold" (by simp)) htitle
      (by rw [toList_styled, List.append_nil]) (List.append_nil _).symm
  rw [shownLines, hrender]
  exact shownLines_of_inert htitle

/-- A model whose names and types are such as a document declares, prepared for generation. -/
structure Presentable (model : Model) : Prop where
  title : Inert (titleOf model).toList
  enums : ∀ enumeration ∈ model.enums.items, IsName enumeration.name.toList
  entities : ∀ entity ∈ model.entities.items, IsName entity.name.toList
  fields : ∀ entity ∈ model.entities.items, ∀ field ∈ entity.fields,
    IsName field.name.toList ∧ IsDeclaredType field.type.toList ∧
      Angular.tsTypeOf field = TypeScript.typeOf field.type

/-- A counted node can be shown just if its children can. -/
theorem exists_counted_iff {title : String} (h : Inert title.toList) {children : List Tree} :
    (∃ entry, (counted title children).lines = .ok entry) ↔
      ∀ child ∈ children, ∃ entry, child.lines = .ok entry := by
  rw [counted, Tree.exists_lines_iff]
  exact and_iff_right ⟨_, shownLines_of_inert (inert_countedLabel h children.length)⟩

theorem exists_entityNode {model : Model} (h : Presentable model) {entity : Entity}
    (hentity : entity ∈ model.entities.items) : ∃ entry, (entityNode entity).lines = .ok entry := by
  rw [entityNode, Tree.exists_lines_iff, exists_shownLines_iff]
  refine ⟨canShow_entityLabel (h.entities entity hentity), ?_⟩
  intro child hchild
  obtain ⟨field, hfield, rfl⟩ := List.mem_map.mp hchild
  obtain ⟨hname, htype, htsType⟩ := h.fields entity hentity field hfield
  exact Tree.exists_leaf_iff.mpr (canShow_fieldLabel hname htype htsType)

/-- Only the values of enumerations can keep an overview from being shown. -/
theorem exists_overview_iff {model : Model} (h : Presentable model) :
    (∃ lines, (overview model).lines = .ok lines) ↔
      ∀ enumeration ∈ model.enums.items, CanShow (listed enumeration) := by
  have henums : (∃ entry, (counted "Enums" (model.enums.items.map fun enumeration =>
      .node (enumLabel enumeration) [])).lines = .ok entry) ↔
      ∀ enumeration ∈ model.enums.items, CanShow (listed enumeration) := by
    rw [exists_counted_iff (by decide), List.forall_mem_map]
    refine forall₂_congr fun enumeration hmem => ?_
    rw [Tree.exists_leaf_iff, canShow_enumLabel_iff (h.enums enumeration hmem)]
  have hentities : ∃ entry, (counted "Entities" (model.entities.items.map entityNode)).lines =
      .ok entry := by
    rw [exists_counted_iff (by decide), List.forall_mem_map]
    exact fun entity hentity => exists_entityNode h hentity
  have hrelationships : ∃ entry, (counted "Relationships" (model.relationships.map
      fun relationship => .node (verbatim relationship.text) [])).lines = .ok entry := by
    rw [exists_counted_iff (by decide), List.forall_mem_map]
    exact fun relationship _ => Tree.exists_leaf_iff.mpr (canShow_verbatim _)
  have htitle : ∃ shown, shownLines (styled "bold" (titleOf model)) = .ok shown :=
    ⟨_, shownLines_title h.title⟩
  rw [overview, Tree.exists_lines_iff]
  simp only [List.forall_mem_cons, henums]
  constructor
  · exact fun hall => hall.2.1
  · exact fun hall => ⟨htitle, hall, hentities, hrelationships, by simp⟩

/-- The enumerations of a model are seen in its overview: below the title and their number stands an
entry for each, which is what is shown of its label. -/
structure SeenIn (model : Model) (printed : List String) (entries : List (List String)) : Prop where
  shown : List.Forall₂ (fun enumeration entry => shownLines (enumLabel enumeration) = .ok entry)
    model.enums.items entries
  place : ∃ entities relationships, printed = linesAsIs (titleOf model) ++
    draw [linesAsIs (countedLabel "Enums" model.enums.items.length) ++ draw entries,
      entities, relationships]

theorem exists_seenIn {model : Model} (h : Presentable model) {printed : List String}
    (hprinted : (overview model).lines = .ok printed) :
    ∃ entries, SeenIn model printed entries := by
  obtain ⟨title, nodes, htitle, hnodes, rfl⟩ := Tree.lines_eq_ok_iff.mp hprinted
  obtain ⟨enums, later, henums, hlater, rfl⟩ := List.forall₂_cons_left_iff.mp hnodes
  obtain ⟨entities, last, -, hlast, rfl⟩ := List.forall₂_cons_left_iff.mp hlater
  obtain ⟨relationships, none, -, hnone, rfl⟩ := List.forall₂_cons_left_iff.mp hlast
  obtain rfl := List.forall₂_nil_left_iff.mp hnone
  obtain ⟨label, entries, hlabel, hentries, rfl⟩ := Tree.lines_eq_ok_iff.mp henums
  have hword : Inert "Enums".toList := by decide
  have hcounted := shownLines_of_inert (inert_countedLabel hword model.enums.items.length)
  rw [List.length_map] at hlabel
  obtain rfl : linesAsIs _ = label := Except.ok.inj (hcounted.symm.trans hlabel)
  obtain rfl : linesAsIs _ = title := Except.ok.inj ((shownLines_title h.title).symm.trans htitle)
  refine ⟨entries, ?_, entities, relationships, rfl⟩
  rw [ShownEach, List.forall₂_map_left_iff] at hentries
  exact hentries.imp fun _ _ hentry => Tree.lines_leaf_iff.mp hentry

end EntityScaffold.Run
