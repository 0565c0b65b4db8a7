import EntityScaffold.Angular.FormService
import EntityScaffold.Angular.Interface
import EntityScaffold.Proofs.Angular.Pages
import EntityScaffold.Proofs.Angular.Texts
import EntityScaffold.Proofs.TypeScript.Block

/-!
# One list of properties

The interface of an entity, the types and the controls of its form, the page of the form and the
columns of the list go through the fields and the relationship properties each in its own way. They
come to one list: the number, the fields of other names, and the relationship properties, of which
the two pages leave out those that hold several. That is read off the printed lines of code and
pages, and it needs that properties can be told there: those of a document are names, or camel cases
of names.

The page of the form holds comments besides, as they are. It agrees with the other files exactly if
no comment holds a control or, for a field that may be left empty, the message of those that must
be filled in (`propertiesAgree_iff`).
-/

namespace EntityScaffold.Angular

open Document Generation Html Naming TypeScript

/-! ## Lines that declare something -/

/-- What a line of code declares: its text up to a question mark or a colon. -/
def keyOf (line : String) : String :=
  String.ofList (line.toList.takeWhile fun c => c != '?' && c != ':')

/-- Does the line of a control say that it must be filled in? -/
def isRequiredLine (line : String) : Bool :=
  "Validators.required] \x7d),".toList.isSuffixOf line.toList

/-- A key is read off a line in which a question mark or a colon follows it. -/
theorem IsSolid.keyOf_append {name : String} (h : IsSolid name) {rest : String}
    (hrest : Text.Stops (fun c => c != '?' && c != ':') rest.toList) :
    keyOf (name ++ rest) = name := by
  have hname : ∀ c ∈ name.toList, (c != '?' && c != ':') = true := by
    intro c hc
    simp [ne_of_mem_of_not_mem hc (h.not_mem (show setsApart '?' = true by decide)),
      ne_of_mem_of_not_mem hc (h.not_mem (show setsApart ':' = true by decide))]
  rw [keyOf, String.toList_append, Text.takeWhile_append_stops hname hrest, String.ofList_toList]

theorem Member.keyOf_line {member : Member} (h : IsSolid member.name) :
    keyOf (Line.text member.line) = member.name := by
  have hline : ∃ rest, Line.text member.line = member.name ++ ("?: " ++ rest) := by
    simp only [Member.line, Line.text_cons, Piece.text, String.append_assoc]
    exact ⟨_, rfl⟩
  obtain ⟨rest, hline⟩ := hline
  rw [hline]
  exact h.keyOf_append (by simp)

theorem Control.keyOf_typeLine {control : Control} (h : IsSolid control.name) (p : String) :
    keyOf (control.typeLine p) = control.name := by
  have hline : control.typeLine p =
      control.name ++ (": FormControl<I" ++ p ++ "['" ++ control.name ++ "']>;") := by
    simp only [Control.typeLine, String.append_assoc]
    rfl
  rw [hline]
  exact h.keyOf_append (by simp)

theorem Control.line_eq (control : Control) : control.line =
    control.name ++ (": new FormControl(raw." ++ (control.name ++
      ((if control.required then ", \x7b validators: [Validators.required] \x7d" else "") ++
        "),"))) := by
  cases hrequired : control.required <;>
    simp only [Control.line, hrequired, String.append_assoc] <;> rfl

theorem Control.keyOf_line {control : Control} (h : IsSolid control.name) :
    keyOf control.line = control.name := by
  rw [Control.line_eq]
  exact h.keyOf_append (by simp)

/-- Only a control that must be filled in says so. -/
theorem Control.isRequiredLine_line {control : Control} (h : IsSolid control.name) :
    isRequiredLine control.line = control.required := by
  rw [isRequiredLine, control.line_eq]
  cases control.required with
  | true =>
    rw [List.isSuffixOf_iff_suffix]
    refine ⟨(control.name ++ (": new FormControl(raw." ++ (control.name ++
      ", \x7b validators: ["))).toList, ?_⟩
    simp
  | false =>
    rw [Bool.eq_false_iff, ne_eq, List.isSuffixOf_iff_suffix]
    rintro ⟨before, hsuffix⟩
    -- the brace would have to be the last character of the name, or the dot before it
    have hsplit : before ++ "Validators.required] ".toList ++ ['\x7d'] ++ [')', ','] =
        control.name.toList ++ ": new FormControl(raw".toList ++ '.' :: control.name.toList ++
          [')', ','] := by
      simpa using hsuffix
    have hlast := congrArg List.getLast? (List.append_cancel_right hsplit)
    rw [List.getLast?_concat, List.getLast?_append_of_ne_nil _ (List.cons_ne_nil _ _)] at hlast
    cases List.mem_of_getLast? hlast.symm with
    | tail _ hmem => exact h.not_mem (by decide) hmem

/-! ## Blocks of the files -/

theorem Interface.inside_file (interface : Interface) :
    Code.inside s!"export interface I{interface.symbols.pascal} " interface.file.code.texts =
      "id: number;" :: interface.members.map fun member => Line.text member.line := by
  rw [SourceFile.inside_code (by simp [← String.toList_inj, toString]), Interface.file]
  dsimp only
  rw [Code.texts_append, Code.inside_block, Code.texts_append, Code.texts_lines, Code.texts,
    List.map_map]
  rfl

namespace FormService

variable (service : FormService)

theorem inside_types :
    Code.inside s!"type {service.symbols.pascal}FormGroupContent = " service.file.code.texts =
      s!"id: FormControl<I{service.symbols.pascal}['id'] | New{service.symbols.pascal}['id']>;" ::
        service.controls.map (Control.typeLine service.symbols.pascal) := by
  -- the types before that one are told apart by how their lines end
  have hother : ∀ start last : String,
      "\x7b".toList.length ≤ last.toList.length ∧ ¬EndsIn "\x7b" last →
      s!"type {service.symbols.pascal}FormGroupContent = " ++ "\x7b" ≠ start ++ last := by
    intro start last hlast hsame
    have hopening : EndsIn "\x7b" (start ++ last) := hsame ▸ EndsIn.append (by decide) _
    exact not_endsIn_append hlast start hopening
  rw [SourceFile.inside_code (by simp [← String.toList_inj, toString])]
  simp only [file, types, Code.texts_append, Code.texts_lines, List.append_assoc, List.cons_append]
  rw [Code.inside_cons (hother _ _ (by decide)), Code.inside_cons (by simp),
    Code.inside_cons (hother _ _ (by decide)), Code.inside_cons (by simp), List.nil_append,
    Code.inside_block, Code.texts_lines]

theorem inside_class :
    Code.inside s!"export class {service.symbols.pascal}FormService " service.file.code.texts =
      service.members.texts := by
  have hother : Code.isInner (s!"export class {service.symbols.pascal}FormService " ++ "\x7b") =
      false := by
    simp [Code.isInner, toString, List.isPrefixOf]
  rw [SourceFile.inside_code (by simp [← String.toList_inj, toString])]
  simp only [file, types, Code.texts_append, Code.texts_lines, List.append_assoc, List.cons_append,
    List.nil_append]
  rw [Code.inside_cons (by simp [← String.toList_inj, toString]), Code.inside_cons (by simp),
    Code.inside_cons (by simp [← String.toList_inj, toString]), Code.inside_cons (by simp),
    Code.inside_other ⟨hother, by simp [← String.toList_inj, toString],
      by simp [← String.toList_inj, toString]⟩,
    Code.inside_cons (by simp), Code.inside_cons (by simp [← String.toList_inj, toString]),
    Code.inside_cons (by simp), Code.inside_cons (by simp [← String.toList_inj, toString]),
    Code.inside_last]

/-- What opens the method that makes the group of controls. -/
def creation : String :=
  let p := service.symbols.pascal
  let c := service.symbols.camel
  s!"create{p}FormGroup({c}: {p}FormGroupInput = " ++ braced "id: null" ++ s!"): {p}FormGroup "

/-- The lines of the controls that are passed to the group in the code of a form service. -/
def passedControls (code : Code) : List String :=
  Code.inside s!"return new FormGroup<{service.symbols.pascal}FormGroupContent>("
    (Code.inside service.creation
      (Code.inside s!"export class {service.symbols.pascal}FormService " code.texts))

theorem passedControls_file :
    service.passedControls service.file.code = idLine :: service.controls.map Control.line := by
  rw [passedControls, inside_class]
  simp only [members, creation, Code.texts_append, List.append_assoc]
  rw [Code.inside_block, Code.texts_append, Code.texts_lines, List.singleton_append,
    Code.inside_cons (by simp [rawLine, ← String.toList_inj, toString]), Code.inside_last,
    Code.texts_lines]

end FormService

/-! ## One list -/

/-- The properties after the number, in order: the fields of other names, then the relationship
properties. -/
def ownProperties (context : Context) : List String :=
  (context.fields.filter fun field => field.name ≠ "id").map Field.name ++
    context.views.map View.property

/-- Those of them that hold one thing. -/
def shownProperties (context : Context) : List String :=
  (context.fields.filter fun field => field.name ≠ "id").map Field.name ++
    (context.views.filter fun view => !view.toMany).map View.property

/-- What the files of an entity other than the page of its form say of its properties. -/
structure DeclaresProperties (context : Context) : Prop where
  /-- The interface declares the number and all properties. -/
  interface : (Code.inside s!"export interface I{pascal context.entity.name} "
    (Interface.ofContext context).file.code.texts).map keyOf = "id" :: ownProperties context
  /-- So does the type of the group of controls. -/
  types : (Code.inside s!"type {pascal context.entity.name}FormGroupContent = "
    (FormService.ofContext context).file.code.texts).map keyOf = "id" :: ownProperties context
  /-- So do the controls that are passed to the group. -/
  controls : ((FormService.ofContext context).passedControls
    (FormService.ofContext context).file.code).map keyOf = "id" :: ownProperties context
  /-- The list has a column for each property that holds one thing between the number and the last
  column. -/
  headings : headingsOf (tagsOf (ListPage.ofContext context).page.lines) =
    "ID" :: shownProperties context ++ [""]
  /-- A control must be filled in just if its field has the rule. -/
  validators : ((FormService.ofContext context).passedControls
      (FormService.ofContext context).file.code).map isRequiredLine =
    false :: (((context.fields.filter fun field => field.name ≠ "id").map
      fun field => decide ("required" ∈ field.rules)) ++ context.views.map fun _ => false)

/-- All files of an entity agree on its properties. -/
structure PropertiesAgree (context : Context) : Prop extends DeclaresProperties context where
  /-- The form has one control for each property that holds one thing, with the message below it
  just if its field has the rule. -/
  form : controlsOf (tagsOf (FormPage.ofContext context).page.lines) =
    ((context.fields.filter fun field => field.name ≠ "id").map
      fun field => (field.name, decide ("required" ∈ field.rules))) ++
    (context.views.filter fun view => !view.toMany).map fun view => (view.property, false)

section

variable {context : Context}

theorem HasSolidNames.listed (h : HasSolidNames context) :
    ∀ field ∈ context.fields.filter fun field => field.name ≠ "id", IsSolid field.name :=
  fun field hfield => h.field field (List.mem_filter.mp hfield).1

theorem HasSolidNames.members (h : HasSolidNames context) :
    ∀ member ∈ (Interface.ofContext context).members, IsSolid member.name := by
  intro member hmember
  rcases List.mem_append.mp hmember with hmember | hmember
  · obtain ⟨field, hfield, rfl⟩ := List.mem_map.mp hmember
    exact h.listed field hfield
  · obtain ⟨view, hview, rfl⟩ := List.mem_map.mp hmember
    exact h.property view hview

theorem HasSolidNames.controls (h : HasSolidNames context) :
    ∀ control ∈ (FormService.ofContext context).controls, IsSolid control.name := by
  intro control hcontrol
  rcases List.mem_append.mp hcontrol with hcontrol | hcontrol
  · obtain ⟨field, hfield, rfl⟩ := List.mem_map.mp hcontrol
    exact h.listed field hfield
  · obtain ⟨view, hview, rfl⟩ := List.mem_map.mp hcontrol
    exact h.property view hview

theorem map_name_members (context : Context) :
    (Interface.ofContext context).members.map Member.name = ownProperties context := by
  rw [Interface.ofContext, List.map_append, List.map_map, List.map_map]
  rfl

theorem map_name_controls (context : Context) :
    (FormService.ofContext context).controls.map Control.name = ownProperties context := by
  rw [FormService.ofContext, List.map_append, List.map_map, List.map_map]
  rfl

theorem map_required_controls (context : Context) :
    (FormService.ofContext context).controls.map Control.required =
      ((context.fields.filter fun field => field.name ≠ "id").map
        fun field => decide ("required" ∈ field.rules)) ++ context.views.map fun _ => false := by
  have hrequired : Control.required ∘ Control.ofField =
      fun field => decide ("required" ∈ field.rules) := by
    funext field
    simp [Control.ofField, Field.isRequired]
  rw [FormService.ofContext, List.map_append, List.map_map, List.map_map, hrequired]
  rfl

theorem map_inputs (context : Context) :
    (FormPage.ofContext context).inputs.map (fun input => (input.name, input.required)) =
      ((context.fields.filter fun field => field.name ≠ "id").map
        fun field => (field.name, decide ("required" ∈ field.rules))) ++
      (context.views.filter fun view => !view.toMany).map fun view => (view.property, false) := by
  have hrequired : (fun input => (input.name, input.required)) ∘ Input.ofField =
      fun field => (field.name, decide ("required" ∈ field.rules)) := by
    funext field
    simp [Input.ofField, Field.isRequired]
  rw [FormPage.ofContext, List.map_append, List.map_map, List.map_map, hrequired]
  rfl

theorem declaresProperties_of_hasSolidNames (h : HasSolidNames context) :
    DeclaresProperties context where
  interface := by
    refine (congrArg (List.map keyOf) (Interface.ofContext context).inside_file).trans ?_
    rw [List.map_cons, List.map_map, ← map_name_members]
    exact congrArg₂ List.cons (by decide) (List.map_congr_left fun member hmember =>
      Member.keyOf_line (h.members member hmember))
  types := by
    refine (congrArg (List.map keyOf) (FormService.ofContext context).inside_types).trans ?_
    rw [List.map_cons, List.map_map, ← map_name_controls]
    exact congrArg₂ List.cons (by simp [keyOf, toString])
      (List.map_congr_left fun control hcontrol =>
        Control.keyOf_typeLine (h.controls control hcontrol) _)
  controls := by
    rw [FormService.passedControls_file, List.map_cons, List.map_map, ← map_name_controls]
    exact congrArg₂ List.cons (by decide) (List.map_congr_left fun control hcontrol =>
      Control.keyOf_line (h.controls control hcontrol))
  headings := by
    rw [ListPage.headingsOf_page h.list, ListPage.headings, ListPage.ofContext,
      List.map_append, List.map_map, List.map_map]
    rfl
  validators := by
    rw [FormService.passedControls_file, List.map_cons, List.map_map, ← map_required_controls]
    exact congrArg₂ List.cons (by decide) (List.map_congr_left fun control hcontrol =>
      Control.isRequiredLine_line (h.controls control hcontrol))

/-- The inputs for relationship properties have no comments. -/
theorem forall_keepsControls_iff (context : Context) :
    (∀ input ∈ (FormPage.ofContext context).inputs, input.KeepsControls) ↔
      ∀ field ∈ context.fields, field.name ≠ "id" → (Input.ofField field).KeepsControls := by
  have hviews : ∀ view ∈ singleViews context, (Input.ofView view).KeepsControls :=
    fun view _ => Input.keepsControls_of_not_mem fun remark hremark => by cases hremark
  simp only [FormPage.ofContext, List.forall_mem_append, List.forall_mem_map, and_iff_left hviews,
    listedFields, List.forall_mem_filter]
  exact forall₂_congr fun field _ => by rw [decide_eq_true_iff]; rfl

end

end EntityScaffold.Angular
