import EntityScaffold.Proofs.Document.Redeclaration
import EntityScaffold.Proofs.Document.RoundTrip

/-!
# Documents of one block without members

An enumeration without values and an entity without fields are blocks with nothing but blanks
between their braces. All the lines of such a body are idle, so it has no members and strictness
does not matter to it. But a body is one character or more. With a blank between its braces the
block is all that the document declares, and with nothing between them it is not there: nothing is
read off any part of it (`read_eq_none_of_hollow`), and no note is made of it (`memberless_blocks`).
-/

namespace EntityScaffold.Document

open Text

/-! ## Blank bodies -/

theorem exists_line_of_mem_bodyLinesFrom {start : Nat} {ls : List (List Char)} {line : BodyLine}
    (h : line ∈ bodyLinesFrom start ls) : ∃ l ∈ ls, line.text = trim l := by
  induction ls generalizing start with
  | nil => exact absurd h List.not_mem_nil
  | cons first later ih =>
    rcases List.mem_cons.mp h with rfl | hlater
    · exact ⟨first, List.mem_cons_self, rfl⟩
    · obtain ⟨l, hl, htext⟩ := ih hlater
      exact ⟨l, List.mem_cons_of_mem _ hl, htext⟩

section

variable {space : List Char} (hspace : IsSpace space)

include hspace

/-- The lines of a blank body are idle. -/
theorem isIdle_of_mem_bodyLines {line : BodyLine} (h : line ∈ bodyLines space) :
    line.isIdle = true := by
  obtain ⟨l, hl, htext⟩ := exists_line_of_mem_bodyLinesFrom h
  have hblank : ∀ c ∈ l, isBlank c = true := fun c hc => hspace c (mem_of_mem_splitOn hl hc)
  rw [BodyLine.isIdle, htext, trim_eq_nil_iff.mpr hblank]
  rfl

/-- A blank body declares no fields. -/
theorem fieldsOfLines_of_space (enumNames : List String) :
    fieldsOfLines enumNames (bodyLines space) = [] := by
  have hidle : (bodyLines space).filter (fun line => !line.isIdle) = [] := by
    rw [List.filter_eq_nil_iff]
    intro line hline
    simp [isIdle_of_mem_bodyLines hspace hline]
  rw [fieldsOfLines, hidle]
  rfl

/-- It has no misfits. -/
theorem hasMisfit_of_space (name : List Char) : Block.hasMisfit ⟨name, space⟩ = false := by
  rw [Block.hasMisfit, List.any_eq_false]
  intro line hline
  simp [BodyLine.isMisfit, isIdle_of_mem_bodyLines hspace hline]

/-- It names no values. -/
theorem valuesOf_of_space : valuesOf space = [] := by
  rw [valuesOf, trim_eq_nil_iff.mpr hspace]
  rfl

end

/-! ## Hollow blocks -/

/-- All texts of a kind of block are declarations whose body is not empty. -/
def HasBody (IsText : Block → List Char → Prop) : Prop :=
  ∀ {block : Block} {text : List Char}, IsText block text →
    block.body ≠ [] ∧ ∃ keyword before head, IsDeclared keyword text before head block.body

theorem hasBody_enum : HasBody (BlockText "enum") := by
  intro block text h
  obtain ⟨head, hdeclared⟩ := h.exists_declared isName_enum
  exact ⟨h.body_ne_nil, _, _, head, hdeclared⟩

theorem hasBody_entity : HasBody EntityText := by
  intro block text h
  obtain ⟨before, head, hdeclared⟩ := h.exists_declared
  exact ⟨h.hasBlockShape.body_ne_nil, _, before, head, hdeclared⟩

/-- No part of a head and two braces, from anywhere in it to its end, is read as a block. -/
theorem ReadsDeclarations.read_eq_none_of_hollow {read : List Char → Option (Block × List Char)}
    {IsText : Block → List Char → Prop} (hreads : ReadsDeclarations read IsText)
    (hbody : HasBody IsText) {head : List Char} (hhead : Unbraced head) {t : List Char}
    (hne : t ≠ []) (ht : t <:+ head ++ ['{', '}']) : read t = none := by
  have hopen : isBrace '{' = true := by decide
  have hclose : isBrace '}' = true := by decide
  cases hresult : read t with
  | none => rfl
  | some found =>
    exfalso
    obtain ⟨block, rest⟩ := found
    obtain ⟨text, htext, hsplit⟩ := hreads.reads.mp hresult
    obtain ⟨hne', keyword, before, head', hdeclared⟩ := hbody htext
    have hunbraced := hdeclared.plain_head.unbraced
    rw [hdeclared.eq, List.append_assoc, List.cons_append] at hsplit
    have hpart : t <:+ head ++ '{' :: ([] ++ ['}']) := ht
    rcases suffix_block hne hpart with ⟨t', ht', rfl⟩ | ⟨t', ht', rfl⟩
    · -- from before the opening brace: what comes after it is the closing one, so the body is empty
      obtain ⟨-, -, hinside⟩ :=
        unbraced_cut_unique (hhead.of_suffix ht') hunbraced hopen hopen hsplit
      obtain ⟨c, inside, hcons⟩ := List.exists_cons_of_ne_nil hne'
      rw [hcons] at hinside
      obtain ⟨rfl, -⟩ := List.cons.inj hinside
      exact hdeclared.closed (by simp [hcons])
    · -- from after it: the first brace is the closing one
      obtain rfl := List.suffix_nil.mp ht'
      have hnil : Unbraced [] := by decide
      obtain ⟨-, hbrace, -⟩ := unbraced_cut_unique hnil hunbraced hclose hopen hsplit
      exact absurd hbrace (by decide)

/-- A scan for its own kind finds a block, unless there is nothing between its braces. -/
theorem liveDeclarations_blockText {read : List Char → Option (Block × List Char)}
    {IsText : Block → List Char → Prop} (hreads : ReadsDeclarations read IsText)
    (hbody : HasBody IsText) {before keyword name body : List Char} (hbefore : IsPrelude before)
    (hkeyword : IsName keyword) (hname : IsName name)
    (htext : body ≠ [] → IsText ⟨name, body⟩ (blockText before keyword name body)) :
    liveDeclarations read (blockText before keyword name body) =
      if body = [] then [] else [⟨blockText before keyword name body, ⟨name, body⟩⟩] := by
  split
  · rename_i hnil
    have hhead := (plain_announced hbefore hkeyword hname).unbraced
    rw [hnil]
    exact liveDeclarations_of_dead fun t hne ht =>
      hreads.read_eq_none_of_hollow hbody hhead hne ht
  · rename_i hne
    exact hreads.liveDeclarations_text (htext hne)

/-! ## Documents -/

/-- A document declares enumerations and entities and nothing else, however strictly it is read. -/
def DeclaresJust (text : List Char) (enums : List Enumeration) (entities : List Entity) : Prop :=
  ∀ strict, ∃ model : Model, (parse strict (String.ofList text)).outcome = .ok model ∧
    model.enums.items = enums ∧ model.entities.items = entities ∧ model.relationships = []

/-- A document without comments declares what its live declarations make. -/
theorem declaresJust_of_live {text : List Char} (hplain : Avoids opening text)
    {enums entities : List (Declared Block)} (henums : liveDeclarations readEnum text = enums)
    (hentities : liveDeclarations readEntity text = entities)
    (hrelationships : liveDeclarations readRelationship text = [])
    (hfit : ∀ declared ∈ entities, declared.value.hasMisfit = false) :
    DeclaresJust text (modelOf enums entities []).enums.items
      (modelOf enums entities []).entities.items := by
  intro strict
  have haccepted : (strict && entities.any (·.value.hasMisfit)) = false := by
    rw [List.any_eq_false.mpr fun declared hmem => by simp [hfit declared hmem], Bool.and_false]
  refine ⟨modelOf enums entities [], ?_, rfl, rfl, rfl⟩
  rw [← Report.value?_eq_some_iff, value?_parse, String.toList_ofList,
    Source.strip_of_avoids hplain]
  simp only [Source.asWritten, henums, hentities, hrelationships, haccepted, Bool.false_eq_true,
    if_false]

section

variable {before keyword name space : List Char} (hbefore : IsPrelude before)
  (hkeyword : IsName keyword) (hname : IsName name) (hspace : IsSpace space)

include hbefore hkeyword hname hspace

theorem avoids_blockText : Avoids opening (blockText before keyword name space) := by
  have hopen : '{' ∉ opening := by decide
  have hclose : '}' ∉ opening := by decide
  have hnil : Avoids opening [] := by decide
  have hhead := (plain_announced hbefore hkeyword hname).avoids_opening
  have hbody := (avoids_append_cons hclose).mpr ⟨hspace.plain.avoids_opening, hnil⟩
  exact (avoids_append_cons hopen).mpr ⟨hhead, hbody⟩

/-- A scan for another kind of declaration finds nothing in a block. -/
theorem liveDeclarations_blockText_other {α : Type} {read : List Char → Option (α × List Char)}
    {other : List Char} (hread : ReadsAnnounced read other) (hother : IsName other)
    (hsuffix : ¬other <:+ keyword) :
    liveDeclarations read (blockText before keyword name space) = [] := by
  have hplain := plain_announced hbefore hkeyword hname
  refine liveDeclarations_of_dead fun t hne ht => ?_
  have hnone := read_eq_none_of_suffix hread hother hkeyword hsuffix
    (announcesAlone_append hbefore hname) hplain.unbraced hspace.unbraced hne ht []
  rw [List.append_nil] at hnone
  exact hnone

end

section

variable {name space : List Char} (hname : IsName name) (hspace : IsSpace space)

include hname hspace

theorem declaresJust_enum : DeclaresJust (blockText [] "enum".toList name space)
    (if space = [] then [] else [⟨String.ofList name, []⟩]) [] := by
  have hbefore := isPrelude_nil
  have hentity : ¬"entity".toList <:+ "enum".toList := by decide
  have hrelationship : ¬"relationship".toList <:+ "enum".toList := by decide
  have hclosed : '}' ∉ space := hspace.unbraced.not_mem (by decide)
  have hlive := liveDeclarations_blockText readsDeclarations_readEnum hasBody_enum hbefore
    isName_enum hname fun hne => blockText_isText hname hne hclosed "enum"
  have hdeclares := declaresJust_of_live (avoids_blockText hbefore isName_enum hname hspace) hlive
    (liveDeclarations_blockText_other hbefore isName_enum hname hspace
      readsAnnounced_readEntity isName_entity hentity)
    (liveDeclarations_blockText_other hbefore isName_enum hname hspace
      readsAnnounced_readRelationship isName_relationship hrelationship)
    (fun _ h => absurd h List.not_mem_nil)
  have henum : Block.enumeration ⟨name, space⟩ = ⟨String.ofList name, []⟩ := by
    rw [Block.enumeration, valuesOf_of_space hspace]
    rfl
  split at hdeclares
  · rename_i hnil
    rw [if_pos hnil]
    exact hdeclares
  · rename_i hne
    rw [if_neg hne, ← henum]
    exact hdeclares

theorem declaresJust_entity {before : List Char} (hbefore : IsPrelude before) {mode : AuditMode}
    (hmode : space ≠ [] → auditModeOf (blockText before "entity".toList name space) = mode) :
    DeclaresJust (blockText before "entity".toList name space) []
      (if space = [] then [] else [audited ⟨String.ofList name, [], mode⟩]) := by
  have henum : ¬"enum".toList <:+ "entity".toList := by decide
  have hrelationship : ¬"relationship".toList <:+ "entity".toList := by decide
  have hclosed : '}' ∉ space := hspace.unbraced.not_mem (by decide)
  have hlive := liveDeclarations_blockText readsDeclarations_readEntity hasBody_entity hbefore
    isName_entity hname fun hne => entityText_blockText hname hne hclosed hbefore
  have hdeclares := declaresJust_of_live (avoids_blockText hbefore isName_entity hname hspace)
    (liveDeclarations_blockText_other hbefore isName_entity hname hspace
      readsAnnounced_readEnum isName_enum henum)
    hlive
    (liveDeclarations_blockText_other hbefore isName_entity hname hspace
      readsAnnounced_readRelationship isName_relationship hrelationship)
    (by
      intro declared hmem
      split at hmem
      · exact absurd hmem List.not_mem_nil
      · obtain rfl := List.mem_singleton.mp hmem
        exact hasMisfit_of_space hspace name)
  split at hdeclares
  · rename_i hnil
    rw [if_pos hnil]
    exact hdeclares
  · rename_i hne
    have hfields := fieldsOfLines_of_space hspace []
    rw [if_neg hne, ← hmode hne, ← hfields]
    exact hdeclares

end

/-- **Blocks without members.** If a blank or more stands between its braces, a block without
members is all that a document of it declares: an enumeration without values, or an entity without
fields, to which the annotation adds the audit fields. If nothing stands between them the document
declares nothing. -/
theorem memberless_blocks {name space : List Char} (hname : IsName name) (hspace : IsSpace space) :
    DeclaresJust (blockText [] "enum".toList name space)
      (if space = [] then [] else [⟨String.ofList name, []⟩]) [] ∧
    DeclaresJust (blockText [] "entity".toList name space) []
      (if space = [] then [] else [⟨String.ofList name, [], .none⟩]) ∧
    ∀ gap, IsGap gap →
      DeclaresJust (blockText (auditMark.toList ++ gap) "entity".toList name space) []
        (if space = [] then [] else [⟨String.ofList name, Entity.auditFields, .enabled⟩]) := by
  have hclosed : '}' ∉ space := hspace.unbraced.not_mem (by decide)
  have hplain : space ≠ [] →
      auditModeOf (blockText [] "entity".toList name space) = .none := by
    intro hne
    have hblock := blockText_isText hname hne hclosed "entity"
    have hmode := (EntityText.plain hblock).auditModeOf_eq_enabled_iff.not.mpr hblock.not_annotated
    cases hsame : auditModeOf (blockText [] "entity".toList name space) with
    | none => rfl
    | enabled => exact absurd hsame hmode
  have hannotated : ∀ gap, IsGap gap → space ≠ [] →
      auditModeOf (blockText (auditMark.toList ++ gap) "entity".toList name space) =
        .enabled := by
    intro gap hgap hne
    have htext := entityText_blockText hname hne hclosed (.inr ⟨gap, hgap, rfl⟩)
    refine htext.auditModeOf_eq_enabled_iff.mpr ?_
    simp only [blockText, List.append_assoc]
    exact List.prefix_append _ _
  have hentity := declaresJust_entity hname hspace isPrelude_nil hplain
  refine ⟨declaresJust_enum hname hspace, hentity, fun gap hgap => ?_⟩
  exact declaresJust_entity hname hspace (.inr ⟨gap, hgap, rfl⟩) (hannotated gap hgap)

/-- A line feed is enough. -/
theorem memberless_blocks_lineFeed :
    IsName "A".toList ∧ IsSpace ['\n'] ∧
      DeclaresJust (blockText [] "enum".toList "A".toList ['\n']) [⟨"A", []⟩] [] ∧
      DeclaresJust (blockText [] "entity".toList "A".toList ['\n']) [] [⟨"A", [], .none⟩] := by
  have hname : IsName "A".toList := by decide
  have hspace : IsSpace ['\n'] := by decide
  obtain ⟨henum, hentity, -⟩ := memberless_blocks hname hspace
  exact ⟨hname, hspace, henum, hentity⟩

/-- With nothing between its braces an entity is not there, and neither is an enumeration. Nothing
is said about it. -/
theorem memberless_blocks_lost :
    String.ofList (blockText [] "entity".toList "A".toList []) = "entity A \x7b\x7d" ∧
      String.ofList (blockText [] "enum".toList "A".toList []) = "enum A \x7b\x7d" ∧
      (∀ strict, (parse strict "entity A \x7b\x7d").notes = [] ∧
        (parse strict "entity A \x7b\x7d").value?.map (fun model => model.entities.items) =
          some []) ∧
      ∀ strict, (parse strict "enum A \x7b\x7d").notes = [] ∧
        (parse strict "enum A \x7b\x7d").value?.map (fun model => model.enums.items) =
          some [] := by
  decide +kernel

end EntityScaffold.Document
