import EntityScaffold.Document.Parse
import EntityScaffold.Proofs.Angular.Pages
import EntityScaffold.Proofs.Angular.Symbols
import EntityScaffold.Proofs.Generation.Context
import EntityScaffold.Proofs.Naming.Plural
import EntityScaffold.Proofs.Text.Blank
import EntityScaffold.Proofs.TypeScript.Block

/-!
# The collections behind a form

The form of an entity goes through one collection for every relationship property that holds one
entity, whatever the collections are called. Its component has one collection for each entity at the
other end, and takes names that differ in case only for one. Both name a collection after the plural
of that entity, and a plural is made from small letters, so the component has every collection that
the form goes through for its properties: it declares it, and fills it from the service of the
entity, which it declares too. Where a plural tells the small letters it is made from, as a naive
one does, the component declares and fills each collection once.

The form prints the comments of fields as they are, and a comment may hold a loop of its own. So the
form and the component agree exactly if comments go through no other collections
(`optionsAgree_iff_of_contexts`).
-/

namespace EntityScaffold.Angular

open Document Generation Html Naming TypeScript

/-! ## What a form goes through -/

/-- The words of a loop, from the one on that says what it goes through. -/
def sourcesOf (loop : String) : List String :=
  ((Text.pieces setsApart loop.toList).map String.ofList).dropWhile fun word => word ≠ "of"

/-- Is a collection of entities among what loops go through? -/
def GoesThrough (loops : List String) (collection : String) : Prop :=
  EndsIn "SharedCollection" collection ∧ ∃ loop ∈ loops, collection ∈ sourcesOf loop

instance (loops : List String) (collection : String) : Decidable (GoesThrough loops collection) :=
  inferInstanceAs (Decidable (_ ∧ _))

/-- The loops in the form of an entity as it is printed. -/
def formLoops (context : Context) : List String :=
  loopsOf (tagsOf (FormPage.ofContext context).page.lines)

/-- The loops in the comment of a field as it is printed in the form. -/
def remarkLoops (field : Field) : List String := loopsOf (Input.ofField field).remarkTags

/-- A loop over the values of an enumeration or over entities. -/
theorem sourcesOf_loop {front source : String}
    (hfront : front = "let value of " ∨ front = "let option of ") (hsource : IsSolid source)
    (hne : source ≠ "") : sourcesOf (front ++ source) = ["of", source] := by
  obtain ⟨item, ⟨hsolid, hsome, hof⟩, hitem⟩ : ∃ item : String,
      (IsSolid item ∧ item ≠ "" ∧ item ≠ "of") ∧ front = "let " ++ item ++ " of " := by
    rcases hfront with rfl | rfl
    · exact ⟨"value", by decide, rfl⟩
    · exact ⟨"option", by decide, rfl⟩
  have hloop : (front ++ source).toList =
      "let".toList ++ ' ' :: (item.toList ++ ' ' :: ("of".toList ++ ' ' :: source.toList)) := by
    simp [hitem]
  have hpieces : Text.pieces setsApart (front ++ source).toList =
      ["let".toList, item.toList, "of".toList, source.toList] := by
    rw [hloop, Text.pieces_append_cons (by decide), Text.pieces_append_cons (by decide),
      Text.pieces_append_cons (by decide), Text.pieces_eq_singleton (by simpa using hsome) hsolid,
      Text.pieces_eq_singleton (by simpa using hne) hsource]
    rfl
  rw [sourcesOf, hpieces]
  simp [hof]

theorem goesThrough_append {loops later : List String} {collection : String} :
    GoesThrough (loops ++ later) collection ↔
      GoesThrough loops collection ∨ GoesThrough later collection := by
  simp only [GoesThrough, List.mem_append, or_and_right, exists_or, and_or_left]

theorem goesThrough_flatMap {α : Type} {items : List α} {loops : α → List String}
    {collection : String} :
    GoesThrough (items.flatMap loops) collection ↔
      ∃ item ∈ items, GoesThrough (loops item) collection := by
  simp only [GoesThrough, List.mem_flatMap]
  constructor
  · rintro ⟨hends, loop, ⟨item, hitem, hloop⟩, hmem⟩
    exact ⟨item, hitem, hends, loop, hloop, hmem⟩
  · rintro ⟨item, hitem, hends, loop, hloop, hmem⟩
    exact ⟨hends, loop, ⟨item, hitem, hloop⟩, hmem⟩

theorem goesThrough_singleton {front source : String}
    (hfront : front = "let value of " ∨ front = "let option of ") (hsource : IsSolid source)
    (hne : source ≠ "") {collection : String} :
    GoesThrough [front ++ source] collection ↔
      EndsIn "SharedCollection" collection ∧ collection = source := by
  have hof : EndsIn "SharedCollection" collection → collection ≠ "of" := by
    rintro hends rfl
    exact absurd hends (by decide)
  simp only [GoesThrough, List.mem_cons, List.not_mem_nil, or_false, exists_eq_left,
    sourcesOf_loop hfront hsource hne]
  exact and_congr_right fun hends => or_iff_right (hof hends)

/-- The loop over the values of an enumeration goes through no collection of entities. -/
theorem not_goesThrough_ofField (field : Field) (collection : String) :
    ¬GoesThrough (Input.ofField field).loops collection := by
  unfold Input.loops
  split
  case h_1 member hkind =>
    obtain rfl := Input.kindOfField_eq_enumValue hkind
    have hends : ¬EndsIn "SharedCollection" (FormComponent.enumValuesMember field.type) := by
      intro hshared
      have hlast : EndsIn "n" (FormComponent.enumValuesMember field.type) :=
        List.IsSuffix.trans (by decide) hshared
      exact not_endsIn_append (by decide) _ hlast
    have hvalues : FormComponent.enumValuesMember field.type ≠ "" := by
      simp [FormComponent.enumValuesMember]
    rw [goesThrough_singleton (.inl rfl) (isSolid_enumValuesMember _) hvalues]
    rintro ⟨hshared, rfl⟩
    exact hends hshared
  case h_2 other hkind => exact absurd hkind (Input.kindOfField_ne_entity field other)
  case h_3 =>
    rintro ⟨-, loop, hloop, -⟩
    exact absurd hloop List.not_mem_nil

theorem goesThrough_ofView_iff {view : View} (h : IsSolid view.otherPlural) {collection : String} :
    GoesThrough (Input.ofView view).loops collection ↔
      collection = view.otherPlural ++ "SharedCollection" := by
  have hsolid : IsSolid (view.otherPlural ++ "SharedCollection") := h.append (by decide)
  show GoesThrough ["let option of " ++ (view.otherPlural ++ "SharedCollection")] collection ↔ _
  rw [goesThrough_singleton (.inr rfl) hsolid (by simp)]
  constructor
  · exact fun hboth => hboth.2
  · rintro rfl
    exact ⟨EndsIn.append (by decide) _, rfl⟩

theorem formLoops_eq {context : Context} (h : HasSolidNames context) :
    formLoops context = (FormPage.ofContext context).inputs.flatMap fun input =>
      input.loops ++ loopsOf input.remarkTags :=
  FormPage.loopsOf_page h.inputs (quote_not_mem_kebab _) (isSolid_pascal _)

/-- The form goes through the collections of its relationship properties, and through those that
comments go through. -/
theorem goesThrough_formLoops_iff {context : Context} (h : HasSolidNames context)
    {collection : String} :
    GoesThrough (formLoops context) collection ↔
      (∃ view ∈ singleViews context, collection = view.otherPlural ++ "SharedCollection") ∨
        ∃ field ∈ listedFields context, GoesThrough (remarkLoops field) collection := by
  have hviews : ∀ view ∈ singleViews context,
      (GoesThrough ((Input.ofView view).loops ++ loopsOf (Input.ofView view).remarkTags)
        collection ↔ collection = view.otherPlural ++ "SharedCollection") := by
    intro view hview
    have hplural := h.plural view (List.mem_filter.mp hview).1
    have hnone : loopsOf (Input.ofView view).remarkTags = [] := rfl
    rw [hnone, List.append_nil, goesThrough_ofView_iff hplural]
  have hfields : ∀ field ∈ listedFields context,
      (GoesThrough ((Input.ofField field).loops ++ loopsOf (Input.ofField field).remarkTags)
        collection ↔ GoesThrough (remarkLoops field) collection) := by
    intro field _
    rw [goesThrough_append, or_iff_right (not_goesThrough_ofField field collection), remarkLoops]
  rw [formLoops_eq h, FormPage.ofContext, List.flatMap_append, List.flatMap_map, List.flatMap_map,
    goesThrough_append, goesThrough_flatMap, goesThrough_flatMap, or_comm]
  exact or_congr (exists_congr fun view => and_congr_right (hviews view))
    (exists_congr fun field => and_congr_right (hfields field))

/-! ## Lines that declare and fill lists -/

/-- Does a line end like one that declares an empty list? -/
def declaresList (text : String) : Bool := EndsIn "];" text

/-- Does a line start and end like one that hands on what was loaded? -/
def handsOn (text : String) : Bool := (Code.bare text).head? = some '.' && EndsIn "));" text

/-- Could a line declare or fill a list? Both tests look at the ends of a line only, so they can be
told for lines with names in them. -/
def isListLine (text : String) : Bool := declaresList text || handsOn text

theorem declaresList_indented (text : String) :
    declaresList ("  " ++ text) = declaresList text := by
  simp only [declaresList, endsIn_indented (show "];".toList.head? = some ']' from rfl) (by decide)]

theorem isListLine_indented (text : String) : isListLine ("  " ++ text) = isListLine text := by
  simp only [isListLine, handsOn, declaresList_indented, Code.bare_indented,
    endsIn_indented (show "));".toList.head? = some ')' from rfl) (by decide)]

/-- Does a line declare a collection, whatever the entities in it are? -/
def isDeclaration (collection text : String) : Bool :=
  (collection ++ ": I").toList.isPrefixOf text.toList && EndsIn "[] = [];" text

/-- Does a line, wherever it starts, fill a collection with what was loaded? -/
def isAssignment (collection text : String) : Bool :=
  Code.bare text = s!".subscribe(res => (this.{collection} = res.body ?? []));".toList

theorem declaresList_of_isDeclaration {collection text : String}
    (h : isDeclaration collection text = true) : declaresList text = true := by
  rw [isDeclaration, Bool.and_eq_true, decide_eq_true_iff] at h
  exact decide_eq_true (List.IsSuffix.trans (by decide) h.2)

theorem handsOn_of_isAssignment {collection text : String}
    (h : isAssignment collection text = true) : handsOn text = true := by
  rw [isAssignment, decide_eq_true_iff] at h
  have hends : EndsIn "));" text := by
    have hbare : Code.bare text <:+ text.toList := List.dropWhile_suffix _
    rw [h] at hbare
    exact (EndsIn.append (by decide) _).trans hbare
  simp [handsOn, hends, h, toString]

/-- A line of a class that neither opens a block nor declares or fills a list. -/
def IsPlain (text : String) : Prop := ¬EndsIn "\x7b" text ∧ isListLine text = false

instance (text : String) : Decidable (IsPlain text) := inferInstanceAs (Decidable (_ ∧ _))

/-- That a line is plain can be told from its last piece. -/
theorem isPlain_append {last : String}
    (h : 3 ≤ last.toList.length ∧ ¬EndsIn "\x7b" last ∧ ¬EndsIn "];" last ∧ ¬EndsIn "));" last)
    (before : String) : IsPlain (before ++ last) := by
  obtain ⟨hlength, hbrace, hdeclares, hhands⟩ := h
  have hbrace := not_endsIn_append ⟨Nat.le_trans (by decide) hlength, hbrace⟩ before
  have hdeclares := not_endsIn_append ⟨Nat.le_trans (by decide) hlength, hdeclares⟩ before
  have hhands := not_endsIn_append ⟨Nat.le_trans (by decide) hlength, hhands⟩ before
  exact ⟨hbrace, by simp [isListLine, declaresList, handsOn, hdeclares, hhands]⟩

/-! ## What a component holds -/

namespace FormComponent

variable (component : FormComponent)

/-- The lines of the class. -/
def classLines : List String :=
  Code.inside s!"export class {component.symbols.pascal}FormComponent implements OnInit "
    component.file.code.texts

/-- The lines of the method that fills the collections. -/
def loadingLines : List String :=
  Code.inside "protected loadRelationshipsOptions(): void " component.classLines

theorem classLines_eq : component.classLines = component.members.texts := by
  have hother : Code.isInner
      (s!"export class {component.symbols.pascal}FormComponent implements OnInit " ++ "\x7b") =
      false := by
    simp [Code.isInner, toString, List.isPrefixOf]
  rw [classLines, SourceFile.inside_code (by simp [← String.toList_inj, toString]), file]
  dsimp only
  rw [Code.texts_append,
    Code.inside_other ⟨hother, by simp [← String.toList_inj, toString],
      by simp [← String.toList_inj, toString]⟩,
    Code.inside_last]

/-! ### The state -/

theorem isPlain_enumLine (name : String) : IsPlain (enumLine name) := by
  have hline : enumLine name = camel name ++ ("Values = Object.keys(" ++ (name ++ ");")) := by
    simp [enumLine, enumValuesMember, toString, ← String.toList_inj]
  have hends : ¬EndsIn "\x7b" (enumLine name) ∧ ¬EndsIn "];" (enumLine name) :=
    ⟨not_endsIn_append (by decide) _, not_endsIn_append (by decide) _⟩
  -- the type may end in anything, but the line starts with a letter of the camel case
  have hbare : (Code.bare (enumLine name)).head? ≠ some '.' := by
    rw [hline, Code.bare, String.toList_append]
    cases hcamel : (camel name).toList with
    | nil => simp
    | cons c later =>
      have hletter : IsWordLetter c := mem_camel (by rw [hcamel]; exact List.mem_cons_self)
      have hblank : c ≠ ' ' := hletter.ne (by decide) (by decide)
      have hdot : c ≠ '.' := hletter.ne (by decide) (by decide)
      simp [hblank, hdot]
  exact ⟨hends.1, by simp [isListLine, declaresList, handsOn, hends.2, hbare]⟩

/-- The state holds the collections between plain lines. -/
theorem exists_texts_state : ∃ before after, component.state.texts =
    before ++ component.collections.map OptionCollection.declaration ++ after ∧
      ∀ text ∈ before ++ after, IsPlain text := by
  refine ⟨?before, ?after, ?lines, ?plain⟩
  case lines =>
    rw [state, Code.texts_lines, List.append_assoc, List.append_assoc]
  case plain =>
    -- the names stand inside the lines, so their last pieces tell
    simp only [List.forall_mem_append, List.forall_mem_map, List.forall_mem_cons,
      List.not_mem_nil, IsEmpty.forall_iff, implies_true, and_true]
    refine ⟨⟨⟨?_, ?_⟩, ?_⟩, ⟨?_, ?_, ?_⟩, ?_, ?_, ?_, ?_, ?_⟩
    · decide
    · exact isPlain_append (by decide) _
    · exact fun name _ => isPlain_enumLine name
    · decide
    · exact isPlain_append (by decide) _
    · exact isPlain_append (by decide) _
    · exact fun name _ => isPlain_append (by decide) _
    · decide
    · decide
    · decide
    · exact isPlain_append (by decide) _

/-- No line of the state opens a block. -/
theorem not_mem_texts_state (opening : String) : opening ++ "\x7b" ∉ component.state.texts := by
  obtain ⟨before, after, hlines, hplain⟩ := component.exists_texts_state
  have hopening : EndsIn "\x7b" (opening ++ "\x7b") := EndsIn.append (by decide) opening
  rw [hlines, List.append_assoc, List.mem_append, List.mem_append]
  rintro (hmem | hmem | hmem)
  · exact (hplain _ (List.mem_append_left _ hmem)).1 hopening
  · obtain ⟨collection, -, hline⟩ := List.mem_map.mp hmem
    rw [← hline] at hopening
    exact not_endsIn_append (by decide) _ hopening
  · exact (hplain _ (List.mem_append_right _ hmem)).1 hopening

/-! ### The methods -/

theorem loadingLines_eq :
    component.loadingLines = component.collections.flatMap OptionCollection.loading := by
  have hopening : Code.isInner ("protected loadRelationshipsOptions(): void " ++ "\x7b") =
      false := by
    decide
  have hclosing : "protected loadRelationshipsOptions(): void " ++ "\x7b" ≠ "\x7d" ++ "" := by
    decide
  rw [loadingLines, classLines_eq]
  -- the state and the blocks of four methods are passed over, with the empty lines between them
  simp only [members, start, saving, Code.texts_append, Code.texts_lines, List.append_assoc,
    List.singleton_append]
  rw [Code.inside_append (component.not_mem_texts_state _), Code.inside_cons (by decide),
    Code.inside_other ⟨hopening, by decide, hclosing⟩, Code.inside_cons (by decide),
    Code.inside_other ⟨hopening, by decide, hclosing⟩, Code.inside_cons (by decide),
    Code.inside_other ⟨hopening, by decide, hclosing⟩, Code.inside_cons (by decide),
    Code.inside_other ⟨hopening, by simp [← String.toList_inj, toString], hclosing⟩,
    Code.inside_cons (by decide), Code.inside_last, Code.texts_lines]

/-- No line of the other methods declares or fills a list. -/
theorem countP_start (symbols : Symbols) : (start symbols).texts.countP isListLine = 0 := by
  simp only [start, Code.countP_texts_block isListLine_indented, Code.texts_append,
    Code.texts_lines, List.countP_append]
  simp [isListLine, declaresList, handsOn, EndsIn, Code.bare, toString,
    ← List.isSuffixOf_iff_suffix, List.isSuffixOf, List.isPrefixOf]

theorem countP_saving (symbols : Symbols) : (saving symbols).texts.countP isListLine = 0 := by
  simp only [saving, Code.countP_texts_block isListLine_indented, Code.texts_append,
    Code.texts_lines, List.countP_append, Code.countP_texts_indent isListLine_indented]
  simp [isListLine, declaresList, handsOn, EndsIn, Code.bare, toString,
    ← List.isSuffixOf_iff_suffix, List.isSuffixOf, List.isPrefixOf]

/-- The lines of the method that fills the collections, with those that open and close it. -/
def loadingBlock : Code :=
  Code.block "protected loadRelationshipsOptions(): void "
    (Code.lines (component.collections.flatMap OptionCollection.loading)) ""

/-- What declares or fills lists stands where the collections are declared and filled. -/
theorem countP_members {test : String → Bool}
    (h : ∀ text, test text = true → isListLine text = true) :
    component.members.texts.countP test =
      (component.collections.map OptionCollection.declaration).countP test +
        component.loadingBlock.texts.countP test := by
  have hnone : ∀ texts : List String, texts.countP isListLine = 0 → texts.countP test = 0 :=
    fun texts hcount => Nat.le_zero.mp (hcount ▸ List.countP_mono_left fun text _ => h text)
  -- neither the state around the declarations nor another method has such a line
  obtain ⟨before, after, hlines, hplain⟩ := component.exists_texts_state
  have hempty : [""].countP test = 0 := hnone _ (by decide)
  have hbefore : before.countP test = 0 := hnone _ (List.countP_eq_zero.mpr fun text htext => by
    simp [(hplain text (List.mem_append_left _ htext)).2])
  have hafter : after.countP test = 0 := hnone _ (List.countP_eq_zero.mpr fun text htext => by
    simp [(hplain text (List.mem_append_right _ htext)).2])
  have hback : (Code.block "previousState(): void "
      (Code.lines ["this.router.navigate(['../'], " ++ braced "relativeTo: this.route" ++ ");"])
      "").texts.countP test = 0 := hnone _ (by decide)
  have hstart := hnone _ (countP_start component.symbols)
  have hsaving := hnone _ (countP_saving component.symbols)
  simp only [members, Code.texts_append, List.countP_append, hlines, Code.texts_lines, hempty,
    hbefore, hafter, hback, hstart, hsaving, loadingBlock]
  omega

/-! ### Counting declarations and assignments -/

theorem isAssignment_indented (collection text : String) :
    isAssignment collection ("  " ++ text) = isAssignment collection text := by
  rw [isAssignment, Code.bare_indented, isAssignment]

theorem countP_loading (collection : String) (collections : List OptionCollection) :
    (collections.flatMap OptionCollection.loading).countP (isAssignment collection) =
      (collections.map OptionCollection.name).count collection := by
  induction collections with
  | nil => rfl
  | cons first later ih =>
    have hfirst : first.loading.countP (isAssignment collection) =
        if first.name = collection then 1 else 0 := by
      simp [OptionCollection.loading, isAssignment, Code.bare, toString, List.countP_cons,
        String.toList_inj]
    rw [List.flatMap_cons, List.countP_append, ih, hfirst, List.map_cons, List.count_cons]
    simp [Nat.add_comm]

/-- A collection is filled as often as it is one of those of the component. -/
theorem countP_isAssignment (collection : String) :
    component.classLines.countP (isAssignment collection) =
      (component.collections.map OptionCollection.name).count collection := by
  have hdeclarations : (component.collections.map OptionCollection.declaration).countP
      (isAssignment collection) = 0 := by
    simp only [List.countP_eq_zero, List.forall_mem_map]
    intro other _ hassigns
    have hhands := handsOn_of_isAssignment hassigns
    rw [handsOn, Bool.and_eq_true, decide_eq_true_iff, decide_eq_true_iff] at hhands
    exact not_endsIn_append (by decide) _ hhands.2
  have hlist : ∀ text, isAssignment collection text = true → isListLine text = true := by
    intro text hassigns
    rw [isListLine, handsOn_of_isAssignment hassigns, Bool.or_true]
  rw [classLines_eq, component.countP_members hlist, hdeclarations, loadingBlock,
    Code.countP_texts_block (isAssignment_indented collection), Code.texts_lines, countP_loading]
  simp [isAssignment, Code.bare, toString]

/-- A collection is declared as often as it is one of those of the component, if names of
collections can be told from the declarations. -/
theorem countP_isDeclaration {collection : String}
    (h : ∀ other ∈ component.collections,
      isDeclaration collection other.declaration = decide (other.name = collection)) :
    component.classLines.countP (isDeclaration collection) =
      (component.collections.map OptionCollection.name).count collection := by
  have hlist : ∀ text, isDeclaration collection text = true → isListLine text = true := by
    intro text hdeclares
    rw [isListLine, declaresList_of_isDeclaration hdeclares, Bool.true_or]
  have hloading : component.loadingBlock.texts.countP declaresList = 0 := by
    have hlines : ∀ text ∈ component.collections.flatMap OptionCollection.loading,
        ¬declaresList text = true := by
      intro text htext
      obtain ⟨other, -, htext⟩ := List.mem_flatMap.mp htext
      simp only [OptionCollection.loading, List.mem_cons, List.not_mem_nil, or_false] at htext
      rw [declaresList, decide_eq_true_iff]
      rcases htext with rfl | rfl | rfl
      · exact not_endsIn_append ⟨by simp, not_endsIn_append (by decide) _⟩ _
      · decide
      · exact not_endsIn_append (by decide) _
    rw [loadingBlock, Code.countP_texts_block declaresList_indented, Code.texts_lines,
      List.countP_eq_zero.mpr hlines]
    decide
  have hnone : component.loadingBlock.texts.countP (isDeclaration collection) = 0 :=
    Nat.le_zero.mp (hloading ▸
      List.countP_mono_left fun text _ hdeclares => declaresList_of_isDeclaration hdeclares)
  rw [classLines_eq, component.countP_members hlist, hnone, List.countP_map, List.count,
    List.countP_map, Nat.add_zero]
  exact List.countP_congr fun other hother => by simp [h other hother]

end FormComponent

/-! ## Naive plurals -/

theorem isDeclaration_naivePlural (a b entity : String) :
    isDeclaration (naivePlural a ++ "SharedCollection")
        (OptionCollection.declaration ⟨naivePlural b ++ "SharedCollection", entity⟩) =
      decide (naivePlural b ++ "SharedCollection" = naivePlural a ++ "SharedCollection") := by
  rw [Bool.eq_iff_iff, isDeclaration, Bool.and_eq_true, decide_eq_true_iff, decide_eq_true_iff,
    List.isPrefixOf_iff_prefix, String.append_left_inj]
  constructor
  · rintro ⟨⟨rest, hprefix⟩, -⟩
    -- both plurals end where the first capital letter stands
    have hsplit : (naivePlural a).toList ++ 'S' :: ("haredCollection: I".toList ++ rest) =
        (naivePlural b).toList ++ 'S' ::
          ("haredCollection: I".toList ++ ((pascal entity).toList ++ "[] = [];".toList)) := by
      simpa [OptionCollection.declaration, toString] using hprefix
    exact (naivePlural_unique hsplit).symm
  · intro hsame
    refine ⟨?_, EndsIn.append (by decide) _⟩
    rw [hsame]
    exact ⟨(pascal entity ++ "[] = [];").toList, by simp [OptionCollection.declaration, toString]⟩

/-! ## Agreement -/

/-- A component offers the entities of one kind in a collection: it declares the collection and the
service of the entities, and fills the collection from the service. -/
structure Offers (component : FormComponent) (collection entity : String) : Prop where
  declared : s!"{collection}: I{pascal entity}[] = [];" ∈ component.classLines
  service : s!"protected readonly {camel entity}Service = inject({pascal entity}Service);" ∈
    component.classLines
  loaded : [s!"this.{camel entity}Service", "  .query()",
      s!"  .subscribe(res => (this.{collection} = res.body ?? []));"] <:+: component.loadingLines

/-- The component offers what every relationship property holds that holds one entity. The entity is
spelled as in the first of the properties that hold it, case aside. -/
def OptionsOffered (context : Context) : Prop :=
  ∀ view ∈ singleViews context, ∃ first ∈ singleViews context,
    Text.lower first.other = Text.lower view.other ∧
      IsFirstSpelling ((singleViews context).map View.other) first.other ∧
        Offers (.ofContext context) (view.otherPlural ++ "SharedCollection") first.other

/-- The component offers every collection that the form goes through. -/
def OptionsAgree (context : Context) : Prop :=
  ∀ collection, GoesThrough (formLoops context) collection →
    ∃ entity, Offers (.ofContext context) collection entity

/-- Each collection that the form goes through is declared and filled once. A member that holds the
entity of the form is none of the collections, whatever the entity is called. -/
def OptionsOnce (context : Context) : Prop :=
  ∀ collection, GoesThrough (formLoops context) collection →
    (FormComponent.ofContext context).classLines.countP (isDeclaration collection) = 1 ∧
      (FormComponent.ofContext context).classLines.countP (isAssignment collection) = 1

/-- The comments in the form go through no collections but those of relationship properties. -/
def RemarksAgree (context : Context) : Prop :=
  ∀ field ∈ context.fields, field.name ≠ "id" → ∀ collection,
    GoesThrough (remarkLoops field) collection →
      ∃ view ∈ singleViews context, collection = view.otherPlural ++ "SharedCollection"

namespace FormComponent

theorem serviceLine_eq (name : String) : serviceLine name =
    s!"protected readonly {camel name}Service = inject({pascal name}Service);" := by
  unfold serviceLine OptionCollection.serviceMember
  generalize camel name = c, pascal name = p
  simp [toString, ← String.toList_inj]

theorem loading_eq (collection : OptionCollection) : collection.loading =
    [s!"this.{camel collection.entity}Service", "  .query()",
      s!"  .subscribe(res => (this.{collection.name} = res.body ?? []));"] := by
  unfold OptionCollection.loading OptionCollection.serviceMember
  generalize camel collection.entity = c
  simp [toString, ← String.toList_inj]

theorem mem_classLines_of_mem_state {component : FormComponent} {text : String}
    (h : text ∈ component.state.texts) : text ∈ component.classLines := by
  rw [classLines_eq]
  simp [members, h]

/-- The service of every entity in a collection is declared, that of the entity of the form with its
own members. -/
theorem serviceLine_mem_classLines {context : Context} {view : View}
    (h : view ∈ optionViews context) :
    serviceLine view.other ∈ (ofContext context).classLines := by
  apply mem_classLines_of_mem_state
  rw [state, Code.texts_lines]
  by_cases hself : view.other = context.entity.name
  · rw [serviceLine_eq, hself]
    simp [ofContext, Symbols.ofName]
  · have hforeign : view.other ∈ (ofContext context).foreignEntities :=
      List.mem_filter.mpr ⟨List.mem_map_of_mem h, decide_eq_true hself⟩
    exact List.mem_append_left _ (List.mem_append_right _ (List.mem_map_of_mem hforeign))

/-- The component offers the collections that it holds. -/
theorem offers_of_mem_optionViews {context : Context} {view : View}
    (h : view ∈ optionViews context) :
    Offers (.ofContext context) (view.otherPlural ++ "SharedCollection") view.other := by
  have hmem : OptionCollection.ofView view ∈ (ofContext context).collections :=
    List.mem_map_of_mem h
  constructor
  case declared =>
    obtain ⟨before, after, hlines, -⟩ := (ofContext context).exists_texts_state
    have hline : (OptionCollection.ofView view).declaration ∈
        (ofContext context).collections.map OptionCollection.declaration :=
      List.mem_map_of_mem hmem
    have hstate : (OptionCollection.ofView view).declaration ∈ (ofContext context).state.texts :=
      hlines ▸ List.mem_append_left _ (List.mem_append_right _ hline)
    exact mem_classLines_of_mem_state hstate
  case service =>
    rw [← serviceLine_eq]
    exact serviceLine_mem_classLines h
  case loaded =>
    have hloading := loading_eq (OptionCollection.ofView view)
    rw [OptionCollection.ofView] at hloading
    rw [loadingLines_eq, ← hloading]
    exact List.infix_of_mem_flatten (List.mem_map_of_mem hmem)

end FormComponent

theorem isFirstSpelling_of_mem_optionViews {context : Context} {view : View}
    (h : view ∈ FormComponent.optionViews context) :
    IsFirstSpelling ((singleViews context).map View.other) view.other := by
  rw [IsFirstSpelling, List.find?_map]
  exact congrArg (Option.map View.other) (mem_distinctBy.mp h).2

/-- Of the relationship properties that hold entities of one name, case aside, the component keeps
the first. -/
theorem exists_mem_optionViews {context : Context} {view : View} (h : view ∈ singleViews context) :
    ∃ first ∈ FormComponent.optionViews context,
      Text.lower first.other = Text.lower view.other := by
  have hsome : ((singleViews context).find? fun other =>
      Text.lower other.other = Text.lower view.other).isSome := by
    rw [List.find?_isSome]
    exact ⟨view, h, by simp⟩
  obtain ⟨first, hfirst⟩ := Option.isSome_iff_exists.mp hsome
  have hsame : Text.lower first.other = Text.lower view.other := by
    simpa using List.find?_some hfirst
  refine ⟨first, mem_distinctBy.mpr ⟨List.not_mem_nil, ?_⟩, hsame⟩
  rw [hsame]
  exact hfirst

/-- The plurals of a context are made from the small letters of names. -/
def PluralsBy (pluralize : String → String) (context : Context) : Prop :=
  ∀ view ∈ context.views, view.otherPlural = pluralize (Text.lower view.other)

/-- Two properties with entities of one name, case aside, have one plural: it plays no part how that
is made from small letters. -/
theorem PluralsBy.eq_of_lower_eq {context : Context} {pluralize : String → String}
    (h : PluralsBy pluralize context) {first view : View} (hfirst : first ∈ singleViews context)
    (hview : view ∈ singleViews context)
    (hsame : Text.lower first.other = Text.lower view.other) :
    first.otherPlural = view.otherPlural := by
  rw [h view (List.mem_filter.mp hview).1, h first (List.mem_filter.mp hfirst).1, hsame]

theorem optionsOffered_of_pluralsBy {context : Context} {pluralize : String → String}
    (h : PluralsBy pluralize context) : OptionsOffered context := by
  intro view hview
  obtain ⟨first, hfirst, hsame⟩ := exists_mem_optionViews hview
  have hsingle : first ∈ singleViews context := mem_of_mem_distinctBy hfirst
  refine ⟨first, hsingle, hsame, isFirstSpelling_of_mem_optionViews hfirst, ?_⟩
  rw [← h.eq_of_lower_eq hsingle hview hsame]
  exact FormComponent.offers_of_mem_optionViews hfirst

/-- A collection that is offered is one of those of the component. -/
theorem Offers.mem_names {component : FormComponent} {collection entity : String}
    (h : Offers component collection entity) :
    collection ∈ component.collections.map OptionCollection.name := by
  have hfills : isAssignment collection
      s!"  .subscribe(res => (this.{collection} = res.body ?? []));" = true := by
    simp [isAssignment, Code.bare, toString]
  have hcount : 0 < component.loadingLines.countP (isAssignment collection) :=
    List.countP_pos_iff.mpr ⟨_, h.loaded.subset (by simp), hfills⟩
  rw [FormComponent.loadingLines_eq, FormComponent.countP_loading] at hcount
  exact List.count_pos_iff.mp hcount

/-- So it belongs to a relationship property that holds one entity. -/
theorem exists_view_of_mem_names {context : Context} {collection : String}
    (h : collection ∈ (FormComponent.ofContext context).collections.map OptionCollection.name) :
    ∃ view ∈ singleViews context, collection = view.otherPlural ++ "SharedCollection" := by
  obtain ⟨offered, hoffered, rfl⟩ := List.mem_map.mp h
  obtain ⟨view, hview, rfl⟩ := List.mem_map.mp hoffered
  exact ⟨view, mem_of_mem_distinctBy hview, rfl⟩

/-- What the form goes through belongs to relationship properties just if what comments go through
does. -/
theorem remarksAgree_iff {context : Context} (h : HasSolidNames context) :
    RemarksAgree context ↔ ∀ collection, GoesThrough (formLoops context) collection →
      ∃ view ∈ singleViews context, collection = view.otherPlural ++ "SharedCollection" := by
  constructor
  · intro hremarks collection hloop
    rcases (goesThrough_formLoops_iff h).mp hloop with hview | ⟨field, hfield, hremark⟩
    · exact hview
    · obtain ⟨hmem, hname⟩ := List.mem_filter.mp hfield
      exact hremarks field hmem (of_decide_eq_true hname) collection hremark
  · intro hform field hmem hname collection hremark
    have hlisted : field ∈ listedFields context := List.mem_filter.mpr ⟨hmem, decide_eq_true hname⟩
    exact hform collection ((goesThrough_formLoops_iff h).mpr (.inr ⟨field, hlisted, hremark⟩))

theorem optionsAgree_iff {context : Context} (h : HasSolidNames context)
    {pluralize : String → String} (hplurals : PluralsBy pluralize context) :
    OptionsAgree context ↔ RemarksAgree context := by
  rw [remarksAgree_iff h]
  refine forall₂_congr fun collection _ => ?_
  constructor
  · rintro ⟨entity, hoffers⟩
    exact exists_view_of_mem_names hoffers.mem_names
  · rintro ⟨view, hview, rfl⟩
    obtain ⟨first, -, -, -, hoffers⟩ := optionsOffered_of_pluralsBy hplurals view hview
    exact ⟨first.other, hoffers⟩

/-- Comments without angle brackets go through nothing. -/
theorem remarksAgree_of_not_mem {context : Context}
    (h : ∀ field ∈ context.fields, ∀ remark ∈ field.remark, '<' ∉ remark.toList) :
    RemarksAgree context := by
  intro field hfield _ collection hremark
  have htags := Input.remarkTags_of_not_mem (show ∀ remark ∈ (Input.ofField field).hint, _ from
    h field hfield)
  have hnone : remarkLoops field = [] := by
    rw [remarkLoops, htags]
    cases (Input.ofField field).hint <;> simp [loopsOf, StartTag.values, attr]
  obtain ⟨-, loop, hloop, -⟩ := hremark
  rw [hnone] at hloop
  exact absurd hloop List.not_mem_nil

/-- A context with plurals that another function makes. -/
def pluralized (pluralize : String → String) (context : Context) : Context :=
  { context with
    views := context.views.map fun view =>
      { view with otherPlural := pluralize (Text.lower view.other) } }

theorem pluralsBy_pluralized (pluralize : String → String) (context : Context) :
    PluralsBy pluralize (pluralized pluralize context) := by
  intro view hview
  obtain ⟨original, -, rfl⟩ := List.mem_map.mp hview
  rfl

theorem HasSolidNames.pluralized {context : Context} (h : HasSolidNames context)
    {pluralize : String → String}
    (hplurals : ∀ view ∈ context.views, IsSolid (pluralize (Text.lower view.other))) :
    HasSolidNames (pluralized pluralize context) where
  field := h.field
  property := by
    intro view hview
    obtain ⟨original, horiginal, rfl⟩ := List.mem_map.mp hview
    exact h.property original horiginal
  plural := by
    intro view hview
    obtain ⟨original, horiginal, rfl⟩ := List.mem_map.mp hview
    exact hplurals original horiginal

/-- The plurals of both styles are made from small letters. -/
theorem pluralsBy_of (style : PluralStyle) (relationships : List Relationship) (entity : Entity) :
    PluralsBy (match style with
      | .naive => fun small => small ++ "s"
      | .english => pluralOfLower) (.of style relationships entity) := by
  intro view hview
  obtain ⟨relationship, -, rfl⟩ := List.mem_map.mp hview
  cases style <;> rfl

/-- Naive plurals tell names that do not agree, case aside. -/
theorem nodup_names_of_naive {context : Context} (h : PluralsBy (· ++ "s") context) :
    ((FormComponent.ofContext context).collections.map OptionCollection.name).Nodup := by
  have hkeys := nodup_map_distinctBy View.other [] (singleViews context)
  have hnames : (FormComponent.ofContext context).collections.map OptionCollection.name =
      ((FormComponent.optionViews context).map fun view => Text.lower view.other).map
        fun small => small ++ "s" ++ "SharedCollection" := by
    rw [FormComponent.ofContext, List.map_map, List.map_map]
    apply List.map_congr_left
    intro view hview
    have hmem := (List.mem_filter.mp (mem_of_mem_distinctBy hview)).1
    exact congrArg (· ++ "SharedCollection") (h view hmem)
  rw [hnames]
  refine hkeys.map fun a b hsame => ?_
  simpa using hsame

/-- With naive plurals each collection of the component is declared and filled once. -/
theorem count_eq_one_of_naive {context : Context} (h : PluralsBy (· ++ "s") context) {view : View}
    (hview : view ∈ FormComponent.optionViews context) :
    (FormComponent.ofContext context).classLines.countP
        (isDeclaration (view.otherPlural ++ "SharedCollection")) = 1 ∧
      (FormComponent.ofContext context).classLines.countP
        (isAssignment (view.otherPlural ++ "SharedCollection")) = 1 := by
  have hplural : ∀ view ∈ FormComponent.optionViews context,
      view.otherPlural = naivePlural view.other := fun view hview =>
    h view (List.mem_filter.mp (mem_of_mem_distinctBy hview)).1
  have hmem : view.otherPlural ++ "SharedCollection" ∈
      (FormComponent.ofContext context).collections.map OptionCollection.name :=
    List.mem_map_of_mem (List.mem_map_of_mem hview)
  have hdeclarations : ∀ other ∈ (FormComponent.ofContext context).collections,
      isDeclaration (view.otherPlural ++ "SharedCollection") other.declaration =
        decide (other.name = view.otherPlural ++ "SharedCollection") := by
    intro other hother
    obtain ⟨kept, hkept, rfl⟩ := List.mem_map.mp hother
    rw [OptionCollection.ofView, hplural view hview, hplural kept hkept]
    exact isDeclaration_naivePlural _ _ _
  have hcount := List.count_eq_one_of_mem (nodup_names_of_naive h) hmem
  rw [FormComponent.countP_isDeclaration _ hdeclarations, FormComponent.countP_isAssignment]
  exact ⟨hcount, hcount⟩

theorem optionsOnce_iff {context : Context} (h : HasSolidNames context)
    (hplurals : PluralsBy (· ++ "s") context) : OptionsOnce context ↔ RemarksAgree context := by
  rw [remarksAgree_iff h]
  refine forall₂_congr fun collection _ => ?_
  constructor
  · rintro ⟨-, hfilled⟩
    rw [FormComponent.countP_isAssignment] at hfilled
    exact exists_view_of_mem_names (List.count_pos_iff.mp (by omega))
  · rintro ⟨view, hview, rfl⟩
    obtain ⟨first, hfirst, hsame⟩ := exists_mem_optionViews hview
    rw [← hplurals.eq_of_lower_eq (mem_of_mem_distinctBy hfirst) hview hsame]
    exact count_eq_one_of_naive hplurals hfirst

end EntityScaffold.Angular
