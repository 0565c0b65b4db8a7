import EntityScaffold.Proofs.Document.Names
import EntityScaffold.Proofs.Generation.Context
import EntityScaffold.Proofs.Naming.Case
import EntityScaffold.Proofs.Naming.Plural

/-!
# Texts that are told from what stands around them

Code and pages print names between other texts. A name can be read back where no character of it
sets words apart: no quotation mark, bracket, blank or other mark of ASCII. Names of a document are
such texts, and so are their plurals and what the cases make of them.
-/

namespace EntityScaffold.Angular

open Document Generation Naming

/-! ## Solid texts -/

/-- Does a character set words apart? Those of ASCII do that stand in no name. -/
def setsApart (c : Char) : Bool := c.toNat < 128 && !Text.isWord c

/-- A text that can be told from what stands around it: before a mark in a line of code, in a value
of an attribute, between tags and in a loop. -/
def IsSolid (text : String) : Prop := ∀ c ∈ text.toList, setsApart c = false

instance (text : String) : Decidable (IsSolid text) :=
  decidable_of_iff (text.toList.all fun c => !setsApart c) (by simp [IsSolid])

namespace IsSolid

variable {text : String}

theorem not_mem (h : IsSolid text) {c : Char} (hc : setsApart c = true) : c ∉ text.toList := by
  intro hmem
  rw [h c hmem] at hc
  exact absurd hc (by decide)

theorem quote (h : IsSolid text) : '"' ∉ text.toList := h.not_mem (by decide)

theorem bracket (h : IsSolid text) : '<' ∉ text.toList := h.not_mem (by decide)

theorem append {a b : String} (ha : IsSolid a) (hb : IsSolid b) : IsSolid (a ++ b) := by
  rw [IsSolid, String.toList_append, List.forall_mem_append]
  exact ⟨ha, hb⟩

theorem of_isName (h : IsName text.toList) : IsSolid text := by
  intro c hc
  simp [setsApart, h.2 c hc]

theorem of_wordLetters (h : ∀ c ∈ text.toList, IsWordLetter c) : IsSolid text := by
  intro c hc
  by_cases hascii : c.toNat < 128
  · have halphanum : c.isAlphanum = true := by
      rcases h c hc with halpha | hdecimal
      · rw [Char.isAlphanum, halpha, Bool.true_or]
      · rw [Text.isDecimal, if_pos hascii] at hdecimal
        rw [Char.isAlphanum, hdecimal, Bool.or_true]
    simp [setsApart, Text.isWord, hascii, halphanum]
  · simp [setsApart, hascii]

/-- The plural of a solid name is solid. -/
theorem plural (h : IsSolid text) (style : PluralStyle) :
    IsSolid (Naming.plural style text) := by
  intro c hc
  rw [Bool.eq_false_iff]
  intro hapart
  obtain ⟨hascii, hword⟩ : c.toNat < 128 ∧ Text.isWord c = false := by
    simpa [setsApart] using hapart
  have hletter : c.isAlpha = false := by
    rw [Text.isWord, if_pos hascii, Bool.or_eq_false_iff, Char.isAlphanum,
      Bool.or_eq_false_iff] at hword
    exact hword.1.1
  exact h.not_mem hapart (mem_of_mem_plural hascii hletter hc)

end IsSolid

theorem isSolid_camel (name : String) : IsSolid (camel name) :=
  .of_wordLetters fun _ h => mem_camel h

theorem isSolid_pascal (name : String) : IsSolid (pascal name) :=
  .of_wordLetters fun _ h => mem_pascal h

theorem quote_not_mem_kebab (name : String) : '"' ∉ (kebab name).toList := by
  intro hmem
  rcases mem_kebab hmem with hhyphen | hletter
  · exact absurd hhyphen (by decide)
  · exact hletter.ne (by decide) (by decide) rfl

/-! ## Contexts -/

/-- The names and plurals in a context are solid. -/
structure HasSolidNames (context : Context) : Prop where
  field : ∀ field ∈ context.fields, IsSolid field.name
  property : ∀ view ∈ context.views, IsSolid view.property
  plural : ∀ view ∈ context.views, IsSolid view.otherPlural

section

variable {strict : Bool} {text : String} {model : Model}
  (hparse : (parse strict text).outcome = .ok model) {style : PluralStyle} {entity : Entity}
include hparse

/-- The properties in a context that is made of a document are camel cases or names. -/
theorem isSolid_property {view : View}
    (h : view ∈ (Context.of style model.relationships entity).views) : IsSolid view.property := by
  obtain ⟨relationship, hrelationship, rfl⟩ := List.mem_map.mp h
  have hmem := (List.mem_filter.mp hrelationship).1
  have hend : relationship.source ∈ relationship.ends := by simp [Relationship.ends]
  unfold View.property
  cases hrole : (View.ofRelationship style relationship).relationship.source.namedRole with
  | none => exact isSolid_camel _
  | some role =>
    obtain ⟨hsource, -⟩ := Option.filter_eq_some_iff.mp hrole
    exact .of_isName (isName_of_role hparse hmem hend hsource)

/-- So the texts that are printed for the context can be told. -/
theorem hasSolidNames_of_parse (hentity : entity ∈ model.entities.items) :
    HasSolidNames (.of style model.relationships entity) where
  field := by
    intro field hfield
    obtain ⟨declared, hdeclared, rfl⟩ := List.mem_map.mp (List.mem_filter.mp hfield).1
    have hname : IsName declared.name.toList := isName_of_mem_fields hparse hentity hdeclared
    exact .of_isName hname
  property _ hview := isSolid_property hparse hview
  plural := by
    intro view hview
    obtain ⟨relationship, hrelationship, rfl⟩ := List.mem_map.mp hview
    have hmem := (List.mem_filter.mp hrelationship).1
    have hend : relationship.target ∈ relationship.ends := by simp [Relationship.ends]
    exact (IsSolid.of_isName (isName_of_mem_ends hparse hmem hend)).plural style

theorem hasSolidNames_of_contexts {strictEnds : Bool} {contexts : List Context}
    (hcontexts : (entityContexts style strictEnds model).outcome = .ok contexts)
    {context : Context} (h : context ∈ contexts) : HasSolidNames context := by
  rw [contexts_eq_of_outcome hcontexts] at h
  obtain ⟨entity, hentity, rfl⟩ := List.mem_map.mp h
  exact hasSolidNames_of_parse hparse hentity

end

end EntityScaffold.Angular
