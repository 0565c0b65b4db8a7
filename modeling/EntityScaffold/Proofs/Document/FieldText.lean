import EntityScaffold.Proofs.Document.Chain
import EntityScaffold.Proofs.Document.Names
import EntityScaffold.Proofs.Document.RoundTrip

/-!
# What rules and comments do to an entity

The body of an entity ends at its first closing brace, wherever that stands. What comes before the
brace is all that its fields are made of, since the rules and the comment of a field only have
characters of its line (`readField_subset`). So a written entity is read back exactly if there is no
closing brace in the rules and comments of its fields (`entity_read_back_iff`). Anything else may
stand in them: opening braces, whole declarations, signs of comments.
-/

namespace EntityScaffold.Document

open Text

/-! ## What a field takes from its line -/

theorem cutAtComment_subset (s : List Char) :
    (cutAtComment s).1 ⊆ s ∧ ∀ comment ∈ (cutAtComment s).2, comment ⊆ s := by
  fun_induction cutAtComment s with
  | case1 rest =>
    refine ⟨List.nil_subset _, fun comment hcomment => ?_⟩
    obtain rfl : rest = comment := by simpa using hcomment
    exact List.subset_cons_of_subset _ (List.subset_cons_self _ _)
  | case2 c rest _ before comment hcut ih =>
    rw [hcut] at ih
    obtain ⟨hbefore, hafter⟩ := ih
    exact ⟨List.cons_subset_cons c hbefore,
      fun comment hcomment => List.subset_cons_of_subset c (hafter comment hcomment)⟩
  | case3 => exact ⟨List.nil_subset _, fun comment hcomment => absurd hcomment (by simp)⟩

/-- Rules and comment have no other characters than the text they are read from. -/
theorem rulesAndComment_subset (rest : List Char) :
    (∀ rule ∈ (rulesAndComment rest).1, rule.toList ⊆ rest) ∧
      ∀ comment ∈ (rulesAndComment rest).2, comment.toList ⊆ rest := by
  obtain ⟨hrules, hcomment⟩ := cutAtComment_subset rest
  constructor
  · intro rule hrule
    obtain ⟨word, hword, rfl⟩ := List.mem_map.mp hrule
    rw [String.toList_ofList]
    exact List.Subset.trans (mem_pieces hword).2.2.subset hrules
  · intro comment hmem
    obtain ⟨text, htext, rfl⟩ := Option.map_eq_some_iff.mp hmem
    rw [String.toList_ofList]
    exact List.Subset.trans (trim_subset text) (hcomment text htext)

/-- A field has no other characters in its rules and its comment than its line has. -/
theorem readField_subset {enumNames : List String} {line : List Char} {field : Field}
    (h : readField enumNames line = some field) :
    (∀ rule ∈ field.rules, rule.toList ⊆ line) ∧
      ∀ comment ∈ field.comment, comment.toList ⊆ line := by
  obtain ⟨name, gap, type, rest, -, -, -, -, rfl, rfl⟩ := exists_of_readField h
  have hrest : rest.takeWhile (· != '\n') ⊆ name ++ (gap ++ (type ++ rest)) := by
    refine List.Subset.trans (List.takeWhile_subset _) ?_
    intro c hc
    simp [hc]
  obtain ⟨hrules, hcomment⟩ := rulesAndComment_subset (rest.takeWhile (· != '\n'))
  exact ⟨fun rule hrule => List.Subset.trans (hrules rule hrule) hrest,
    fun comment hmem => List.Subset.trans (hcomment comment hmem) hrest⟩

/-! ## What an entity takes from its body -/

/-- There is no closing brace in rules and a remark. -/
structure NoClosing (rules : List String) (remark : Option String) : Prop where
  rules : ∀ rule ∈ rules, '}' ∉ rule.toList
  comment : ∀ comment ∈ remark, '}' ∉ comment.toList

instance (rules : List String) (remark : Option String) : Decidable (NoClosing rules remark) :=
  decidable_of_iff
    ((∀ rule ∈ rules, '}' ∉ rule.toList) ∧ ∀ comment ∈ remark, '}' ∉ comment.toList)
    ⟨fun ⟨hrules, hcomment⟩ => ⟨hrules, hcomment⟩, fun ⟨hrules, hcomment⟩ => ⟨hrules, hcomment⟩⟩

/-- A body without a closing brace declares no field with one. -/
theorem noClosing_of_mem_fieldsOfLines {enumNames : List String} {body : List Char}
    (hbody : '}' ∉ body) {field : Field} (h : field ∈ fieldsOfLines enumNames (bodyLines body)) :
    NoClosing field.rules field.comment := by
  obtain ⟨line, hline, hread⟩ := List.mem_filterMap.mp h
  obtain ⟨before, after, hsplit, -⟩ := exists_of_mem_bodyLines (List.mem_of_mem_filter hline)
  have hclosed : '}' ∉ line.text := by
    intro hmem
    apply hbody
    rw [hsplit]
    simp [hmem]
  obtain ⟨hrules, hcomment⟩ := readField_subset hread
  exact ⟨fun rule hrule hmem => hclosed (hrules rule hrule hmem),
    fun comment hsome hmem => hclosed (hcomment comment hsome hmem)⟩

/-- No entity of a text has a closing brace in the rules and the comments of its fields. -/
theorem noClosing_of_mem_fields {source : Source} {enumNames : List String} {strict : Bool}
    {registry : Registry Entity}
    (hread : (readEntities source enumNames strict).outcome = .ok registry) {entity : Entity}
    (hentity : entity ∈ registry.items) {field : Field} (hfield : field ∈ entity.fields) :
    NoClosing field.rules field.comment := by
  rw [← Report.value?_eq_some_iff, value?_readEntities] at hread
  split at hread
  · exact absurd hread (by simp)
  · obtain rfl := Option.some.inj hread
    obtain ⟨declared, hdeclared, rfl⟩ := List.mem_map.mp (Registry.mem_of_mem_items_ofList hentity)
    obtain ⟨text, htext⟩ := readsDeclarations_readEntity.exists_text hdeclared
    obtain ⟨before, head, hblock⟩ := htext.exists_declared
    rcases Declared.mem_fields_cases hfield with hline | hadded
    · exact noClosing_of_mem_fieldsOfLines hblock.closed hline
    · have hplain : ∀ field ∈ Entity.auditFields, NoClosing field.rules field.comment := by decide
      exact hplain field hadded

/-! ## Written entities -/

theorem closing_not_mem_fieldText {declared : FieldDeclaration} (h : declared.WellFormed)
    (hclosing : NoClosing declared.rules declared.comment) : '}' ∉ declared.text := by
  have hbrace : isBrace '}' = true := by decide
  simp only [FieldDeclaration.text, List.mem_append, not_or]
  refine ⟨h.name.unbraced.not_mem hbrace, by simp, h.plain_type.unbraced.not_mem hbrace, ?_, ?_⟩
  · intro hmem
    obtain ⟨_, hrules, hmem⟩ := List.mem_flatMap.mp hmem
    obtain ⟨rule, hrule, rfl⟩ := List.mem_map.mp hrules
    exact hclosing.rules rule hrule (by simpa using hmem)
  · cases hcomment : declared.comment with
    | none => exact List.not_mem_nil
    | some comment => simpa using hclosing.comment comment hcomment

theorem closing_not_mem_entityBody {fields : List FieldDeclaration}
    (h : ∀ field ∈ fields, field.WellFormed)
    (hclosing : ∀ field ∈ fields, NoClosing field.rules field.comment) :
    '}' ∉ entityBody fields := by
  rw [entityBody, List.mem_cons, not_or]
  refine ⟨by decide, fun hmem => ?_⟩
  obtain ⟨field, hfield, hmem⟩ := List.mem_flatMap.mp hmem
  have htext := closing_not_mem_fieldText (h field hfield) (hclosing field hfield)
  simp [htext] at hmem

/-- An entity whose body has no closing brace is all that a scan of its text finds. -/
theorem occurrences_entityText {declared : EntityDeclaration}
    (hname : IsName declared.name.toList) (hclosed : '}' ∉ entityBody declared.fields) :
    occurrences readEntity (entityText declared) =
      [⟨0, entityText declared, ⟨declared.name.toList, entityBody declared.fields⟩⟩] :=
  readsDeclarations_readEntity.occurrences_text (entityText_of_closed hname hclosed)

/-- **Entities.** An entity in writing is read back, strictly or not, exactly if there is no closing
brace in the rules and comments of its fields. -/
theorem entity_read_back_iff {declared : EntityDeclaration} (hname : IsName declared.name.toList)
    (hfields : ∀ field ∈ declared.fields, field.WellFormed) (enumNames : List String)
    (strict : Bool) :
    (∃ registry : Registry Entity,
      (readEntities (.asWritten (entityText declared)) enumNames strict).outcome = .ok registry ∧
        registry.items = [declared.entity enumNames]) ↔
      ∀ field ∈ declared.fields, NoClosing field.rules field.comment := by
  constructor
  · rintro ⟨registry, hread, hitems⟩ field hfield
    have hentity : declared.entity enumNames ∈ registry.items := by simp [hitems]
    have hmem : field.field enumNames ∈ (declared.entity enumNames).fields :=
      List.mem_append_left _ (List.mem_map_of_mem hfield)
    exact noClosing_of_mem_fields hread hentity hmem
  · intro hclosing
    have hclosed := closing_not_mem_entityBody hfields hclosing
    have hentity :=
      outcome_readEntityAt (.asWritten (entityText declared)) enumNames strict 0 hfields
    refine ⟨.ofList [declared.entity enumNames], ?_, rfl⟩
    have hlive : isCommented (entityText declared) 0 = false :=
      isCommented_of_lineStart (show lastLine [] = [] from rfl) _
    unfold readEntities
    rw [Source.asWritten, occurrences_entityText hname hclosed, foldLive,
      if_neg (by rw [hlive]; exact Bool.false_ne_true)]
    exact Report.outcome_andThen_of_ok (Report.outcome_andThen_of_ok hentity)

/-- Opening braces and the head of another entity do no harm. -/
theorem entity_read_back_of_opening :
    let declared : EntityDeclaration := ⟨"A",
      [⟨"code", "String", ["pattern(/[\x7b]/)"], some "entity B \x7b"⟩, ⟨"x", "Long", [], none⟩],
      false⟩
    IsName declared.name.toList ∧ (∀ field ∈ declared.fields, field.WellFormed) ∧
      (∀ field ∈ declared.fields, NoClosing field.rules field.comment) ∧
      ∃ registry : Registry Entity,
        (readEntities (.asWritten (entityText declared)) [] true).outcome = .ok registry ∧
          registry.items = [declared.entity []] := by
  intro declared
  have hname : IsName declared.name.toList := by decide
  have hfields : ∀ field ∈ declared.fields, field.WellFormed := by decide +kernel
  have hclosing : ∀ field ∈ declared.fields, NoClosing field.rules field.comment := by
    decide +kernel
  exact ⟨hname, hfields, hclosing, (entity_read_back_iff hname hfields [] true).mpr hclosing⟩

/-- The closing brace of a quantifier in a rule ends the entity: the rule is cut short, and the
field after it is lost without a word even if the reading is strict. -/
theorem entity_cut_short_by_rule :
    let declared : EntityDeclaration := ⟨"A",
      [⟨"code", "String", ["pattern(/[0-9]\x7b4\x7d/)"], none⟩, ⟨"x", "Long", [], none⟩], false⟩
    let cut : Entity :=
      ⟨"A", [⟨"code", "String", false, ["pattern(/[0-9]\x7b4"], none, none⟩], .none⟩
    IsName declared.name.toList ∧ (∀ field ∈ declared.fields, field.WellFormed) ∧
      String.ofList (entityText declared) =
        "entity A \x7b\n  code String pattern(/[0-9]\x7b4\x7d/)\n  x Long\n\x7d" ∧
      (∀ strict, (readEntities (.asWritten (entityText declared)) [] strict).notes = [] ∧
        (readEntities (.asWritten (entityText declared)) [] strict).value?.map Registry.items =
          some [cut]) ∧
      [cut] ≠ [declared.entity []] := by
  decide +kernel

end EntityScaffold.Document
