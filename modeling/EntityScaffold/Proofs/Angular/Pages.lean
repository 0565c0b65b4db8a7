import EntityScaffold.Angular.FormPage
import EntityScaffold.Angular.ListPage
import EntityScaffold.Proofs.Angular.Texts
import EntityScaffold.Proofs.Html.Reading

/-!
# What the printed pages of an entity show

Controls, the message for those that must be filled in, loops and headings are read off the start
tags of the printed lines. The form has one control for each of its inputs, with the message before
the next control if it must be filled in; only the inputs for entities and for enumerations repeat
an element. The list has one heading for each of its columns.

The comment of a field is printed below its control as it is, so what is read off the form is what
it shows itself and what the comments hold besides: the form shows its inputs exactly if no comment
holds a control, or the message for an input that may be left empty (`controlsOf_page_iff`).
-/

namespace EntityScaffold.Angular

open Document Generation Html Naming

/-! ## What is read -/

/-- The attribute that ties a control to a property. -/
def controlName : String := "formControlName"

/-- Does a start tag say that a property must be given? -/
def isMessage (tag : StartTag) : Bool :=
  attr "class" "form-text text-danger" ∈ tag.attributes && tag.text = "This field is required."

/-- The controls among start tags in order, each with whether the message stands between it and the
next one. -/
def controlsOf : List StartTag → List (String × Bool)
  | [] => []
  | tag :: later =>
    (tag.values controlName).map
        (·, (later.takeWhile fun other => (other.values controlName).isEmpty).any isMessage) ++
      controlsOf later

/-- What is repeated for start tags, in order. -/
def loopsOf (tags : List StartTag) : List String := tags.flatMap (StartTag.values "*ngFor")

/-- The headings of columns among start tags, in order. -/
def headingsOf (tags : List StartTag) : List String :=
  (tags.filter fun tag => attr "scope" "col" ∈ tag.attributes).map StartTag.text

/-- The start tags on the line of a comment in the form. -/
def remarkTags (remark : String) : List StartTag :=
  tagsOf (Node.leaf "small" [attr "class" "form-text text-muted"] remark).lines

/-- A start tag is neither that of a control nor that of the message. -/
structure IsSilent (tag : StartTag) : Prop where
  control : tag.values controlName = []
  message : isMessage tag = false

instance (tag : StartTag) : Decidable (IsSilent tag) :=
  decidable_of_iff (tag.values controlName = [] ∧ isMessage tag = false)
    ⟨fun h => ⟨h.1, h.2⟩, fun h => ⟨h.control, h.message⟩⟩

/-! ## Inputs -/

namespace Input

/-- What is repeated for an input. -/
def loops (input : Input) : List String :=
  match input.kind with
  | .enumValue member => ["let value of " ++ member]
  | .entity collection => ["let option of " ++ collection]
  | _ => []

/-- The start tags on the line of the comment of an input, if it has one. -/
def remarkTags (input : Input) : List StartTag := input.hint.toList.flatMap Angular.remarkTags

/-- The comment of an input holds no control, and the message only if the input must be filled
in. -/
structure KeepsControls (input : Input) : Prop where
  controls : input.remarkTags.flatMap (StartTag.values controlName) = []
  message : input.remarkTags.any isMessage = true → input.required = true

/-- A comment without angle brackets is read as it is. -/
theorem remarkTags_of_not_mem {input : Input} (h : ∀ remark ∈ input.hint, '<' ∉ remark.toList) :
    input.remarkTags = input.hint.toList.map (⟨[attr "class" "form-text text-muted"], ·⟩) := by
  cases hhint : input.hint with
  | none => rw [remarkTags, hhint]; rfl
  | some remark =>
    rw [remarkTags, hhint, Option.toList_some, List.flatMap_singleton, Angular.remarkTags,
      tagsOf_leaf (by decide), tagsIn_of_not_mem (by decide) (h remark hhint)]
    rfl

theorem keepsControls_of_not_mem {input : Input}
    (h : ∀ remark ∈ input.hint, '<' ∉ remark.toList) : input.KeepsControls where
  controls := by
    rw [remarkTags_of_not_mem h]
    cases input.hint <;> simp [StartTag.values, controlName, attr]
  message := by
    rw [remarkTags_of_not_mem h]
    cases input.hint <;> simp [isMessage, attr]

/-- The texts of an input can be told on a page. -/
structure HasSolidTexts (input : Input) : Prop where
  name : IsSolid input.name
  enumValue : ∀ member, input.kind = .enumValue member → IsSolid member
  entity : ∀ collection, input.kind = .entity collection → IsSolid collection

variable {input : Input}

/-- What ties an element to its property may follow other attributes. -/
theorem isPlainOpening_binding (h : IsSolid input.name) {tag : String}
    {attributes : List Attribute} (hplain : IsPlainOpening tag attributes) :
    IsPlainOpening tag (attributes ++ binding input.name) := by
  have hid : '"' ∉ s!"field_{input.name}".toList := by simp [toString, h.quote]
  have hboth := (hplain.concat (show IsTagWord "id".toList by decide) hid).concat
    (show IsTagWord "formControlName".toList by decide) h.quote
  rwa [List.append_assoc] at hboth

/-- A control of a simple type: one start tag, which is tied to the property. -/
theorem tagsOf_simple (h : IsSolid input.name) {type style : String}
    (htype : '"' ∉ type.toList) (hstyle : '"' ∉ style.toList) :
    tagsOf (simple type style input.name).lines =
      [⟨[attr "type" type, attr "class" style] ++ binding input.name, ""⟩] := by
  refine tagsOf_void (isPlainOpening_binding h ?_)
  have htyped : IsPlainOpening "input" [attr "type" type] :=
    .concat (show IsPlainOpening "input" [] by decide) (by decide) htype
  exact htyped.concat (by decide) hstyle

/-- A control with options: after its own start tag that of the empty option and that of the
repeated one. -/
theorem tagsOf_choice (h : IsSolid input.name) {item source value expression : String}
    (hitem : '"' ∉ item.toList) (hsource : '"' ∉ source.toList) (hvalue : IsTagWord value.toList)
    (hshown : '<' ∉ (shown expression).toList) :
    tagsOf (choice input.name item source value expression).lines =
      [⟨attr "class" "form-control" :: binding input.name, ""⟩, ⟨[attr "[ngValue]" "null"], ""⟩,
        ⟨[attr "*ngFor" s!"let {item} of {source}", attr value item], shown expression⟩] := by
  have hselect : IsPlainOpening "select" (attr "class" "form-control" :: binding input.name) :=
    isPlainOpening_binding h (show IsPlainOpening "select" [attr "class" "form-control"] by decide)
  have hempty : IsPlainOpening "option" [attr "[ngValue]" "null"] := by decide
  have hloop : IsPlainOpening "option" [attr "*ngFor" s!"let {item} of {source}"] :=
    .concat (show IsPlainOpening "option" [] by decide) (by decide)
      (by simp [toString, hitem, hsource])
  have hoption : IsPlainOpening "option"
      [attr "*ngFor" s!"let {item} of {source}", attr value item] := hloop.concat hvalue hitem
  rw [choice, tagsOf_element hselect, List.flatMap_cons, List.flatMap_singleton,
    tagsOf_leaf hempty, tagsIn_of_not_mem (by decide) (by decide), tagsOf_leaf hoption,
    tagsIn_of_not_mem (by decide) hshown]
  rfl

/-- The start tags of a control: the one that is tied to the property, and those of its options. -/
structure IsControl (input : Input) (tied : StartTag) (options : List StartTag) : Prop where
  name : tied.values controlName = [input.name]
  message : isMessage tied = false
  loops : loopsOf (tied :: options) = input.loops
  options : ∀ tag ∈ options, IsSilent tag

theorem isControl_simple (h : input.loops = []) (type style : String) :
    IsControl input ⟨[attr "type" type, attr "class" style] ++ binding input.name, ""⟩ [] where
  name := by simp [StartTag.values, binding, controlName, attr]
  message := by simp [isMessage, binding, attr]
  loops := by simp [loopsOf, StartTag.values, binding, h, attr]
  options := by simp

theorem isControl_choice {item source value : String}
    (hvalue : value = "[value]" ∨ value = "[ngValue]")
    (h : input.loops = [s!"let {item} of {source}"]) (expression : String) :
    IsControl input ⟨attr "class" "form-control" :: binding input.name, ""⟩
      [⟨[attr "[ngValue]" "null"], ""⟩,
        ⟨[attr "*ngFor" s!"let {item} of {source}", attr value item], shown expression⟩] where
  name := by simp [StartTag.values, binding, controlName, attr]
  message := by simp [isMessage, binding, attr]
  loops := by rcases hvalue with rfl | rfl <;> simp [loopsOf, StartTag.values, binding, h, attr]
  options := by
    simp only [List.forall_mem_cons, List.not_mem_nil, IsEmpty.forall_iff, implies_true, and_true]
    refine ⟨⟨by decide, by decide⟩, ?_, ?_⟩
    · rcases hvalue with rfl | rfl <;> simp [StartTag.values, attr, controlName]
    · rcases hvalue with rfl | rfl <;> simp [isMessage, attr]

theorem exists_tagsOf_control (h : input.HasSolidTexts) :
    ∃ tied options, tagsOf input.control.lines = tied :: options ∧
      IsControl input tied options := by
  unfold control
  split
  case h_1 member hkind =>
    have hloops : input.loops = ["let value of " ++ member] := by rw [loops, hkind]
    exact ⟨_, _, tagsOf_choice h.name (by decide) (h.enumValue member hkind).quote (by decide)
      (by decide), isControl_choice (.inl rfl) hloops _⟩
  case h_6 collection hkind =>
    have hloops : input.loops = ["let option of " ++ collection] := by rw [loops, hkind]
    exact ⟨_, _, tagsOf_choice h.name (by decide) (h.entity collection hkind).quote (by decide)
      (by decide), isControl_choice (.inr rfl) hloops _⟩
  all_goals
    rename_i hkind
    exact ⟨_, _, tagsOf_simple h.name (by decide) (by decide),
      isControl_simple (by simp [loops, hkind]) _ _⟩

/-- The message is there just if the input must be filled in. -/
theorem exists_tagsOf_message (h : IsSolid input.name) :
    ∃ message, (if input.required then [requiredMessage input.name] else []).flatMap
        (fun node => tagsOf node.lines) = message ∧
      message.flatMap (StartTag.values controlName) = [] ∧ loopsOf message = [] ∧
      message.any isMessage = input.required := by
  obtain ⟨condition, hcondition, hmessage⟩ : ∃ condition : String, '"' ∉ condition.toList ∧
      requiredMessage input.name = .element "div" [attr "*ngIf" condition]
        [.leaf "small" [attr "class" "form-text text-danger"] "This field is required."] := by
    refine ⟨_, ?_, rfl⟩
    simp [toString, h.quote]
  have hdiv : IsPlainOpening "div" [attr "*ngIf" condition] :=
    .concat (show IsPlainOpening "div" [] by decide) (by decide) hcondition
  have hsmall : IsPlainOpening "small" [attr "class" "form-text text-danger"] := by decide
  have htags : tagsOf (requiredMessage input.name).lines = [⟨[attr "*ngIf" condition], ""⟩,
      ⟨[attr "class" "form-text text-danger"], "This field is required."⟩] := by
    rw [hmessage, tagsOf_element hdiv, List.flatMap_singleton, tagsOf_leaf hsmall,
      tagsIn_of_not_mem (by decide) (by decide)]
  cases hrequired : input.required with
  | false => exact ⟨[], by simp, rfl, rfl, rfl⟩
  | true =>
    refine ⟨_, by rw [if_pos rfl, List.flatMap_singleton, htags], ?_, ?_, ?_⟩
    · simp [StartTag.values, controlName, attr]
    · simp [loopsOf, StartTag.values, attr]
    · simp [isMessage, attr]

/-- What is read off an input: its control, between start tags that say nothing about controls, and
what its comment holds. -/
theorem exists_tagsOf_node (h : input.HasSolidTexts) :
    ∃ front tied rest, tagsOf input.node.lines = front ++ tied :: rest ∧
      (∀ tag ∈ front, IsSilent tag) ∧ tied.values controlName = [input.name] ∧
      rest.flatMap (StartTag.values controlName) =
        input.remarkTags.flatMap (StartTag.values controlName) ∧
      rest.any isMessage = (input.remarkTags.any isMessage || input.required) ∧
      loopsOf (front ++ tied :: rest) = input.loops ++ loopsOf input.remarkTags := by
  obtain ⟨tied, options, hcontrol, hread⟩ := exists_tagsOf_control h
  obtain ⟨message, hmessage, hnames, hloops, hshown⟩ := exists_tagsOf_message h.name
  have hdiv : IsPlainOpening "div" [attr "class" "mb-3"] := by decide
  have hlabel : IsPlainOpening "label"
      [attr "class" "form-label", attr "for" s!"field_{input.name}"] :=
    .concat (show IsPlainOpening "label" [attr "class" "form-label"] by decide) (by decide)
      (by simp [toString, h.name.quote])
  have hlabelTags := (tagsOf_leaf hlabel input.name).trans
    (tagsIn_of_not_mem (by decide) h.name.bracket)
  have hnode : tagsOf input.node.lines =
      [⟨[attr "class" "mb-3"], ""⟩,
          ⟨[attr "class" "form-label", attr "for" s!"field_{input.name}"], input.name⟩] ++
        tied :: (options ++ input.remarkTags ++ message) := by
    have hhint : (input.hint.toList.map
          (Node.leaf "small" [attr "class" "form-text text-muted"])).flatMap
            (fun node => tagsOf node.lines) = input.remarkTags := List.flatMap_map ..
    rw [node, tagsOf_element hdiv, List.flatMap_append, List.flatMap_append, hmessage, hhint,
      List.flatMap_cons, List.flatMap_singleton, hlabelTags, hcontrol]
    simp
  have hoptions : options.flatMap (StartTag.values controlName) = [] :=
    List.flatMap_eq_nil_iff.mpr fun tag htag => (hread.options tag htag).control
  have hsilent : options.any isMessage = false :=
    List.any_eq_false.mpr fun tag htag => by simp [(hread.options tag htag).message]
  refine ⟨_, _, _, hnode, ?_, hread.name, ?_, ?_, ?_⟩
  · simp only [List.forall_mem_cons, List.not_mem_nil, IsEmpty.forall_iff, implies_true, and_true]
    exact ⟨⟨by decide, by decide⟩, by simp [StartTag.values, controlName, attr],
      by simp [isMessage, attr]⟩
  · rw [List.flatMap_append, List.flatMap_append, hoptions, hnames, List.nil_append,
      List.append_nil]
  · rw [List.any_append, List.any_append, hsilent, hshown, Bool.false_or]
  · have hcontrolLoops := hread.loops
    simp only [loopsOf, List.flatMap_append, List.flatMap_cons] at hcontrolLoops hloops ⊢
    simp [hloops, ← hcontrolLoops, StartTag.values, attr]

theorem controlNames_node (h : input.HasSolidTexts) :
    (tagsOf input.node.lines).flatMap (StartTag.values controlName) =
      input.name :: input.remarkTags.flatMap (StartTag.values controlName) := by
  obtain ⟨front, tied, rest, htags, hfront, hname, hrest, -, -⟩ := exists_tagsOf_node h
  have hnone : front.flatMap (StartTag.values controlName) = [] :=
    List.flatMap_eq_nil_iff.mpr fun tag htag => (hfront tag htag).control
  rw [htags, List.flatMap_append, hnone, List.flatMap_cons, hname, hrest]
  rfl

theorem loopsOf_node (h : input.HasSolidTexts) :
    loopsOf (tagsOf input.node.lines) = input.loops ++ loopsOf input.remarkTags := by
  obtain ⟨front, tied, rest, htags, -, -, -, -, hloops⟩ := exists_tagsOf_node h
  rw [htags, hloops]

end Input

/-! ## The form -/

/-- Inputs are read off the controls of a form: what stands before a control does not matter. -/
theorem controlsOf_append {front : List StartTag} (h : ∀ tag ∈ front, tag.values controlName = [])
    (later : List StartTag) : controlsOf (front ++ later) = controlsOf later := by
  induction front with
  | nil => rfl
  | cons tag front ih =>
    rw [List.cons_append, controlsOf, h tag List.mem_cons_self, List.map_nil, List.nil_append,
      ih fun other hother => h other (List.mem_cons_of_mem _ hother)]

theorem map_fst_controlsOf (tags : List StartTag) :
    (controlsOf tags).map Prod.fst = tags.flatMap (StartTag.values controlName) := by
  induction tags with
  | nil => rfl
  | cons tag later ih => simp [controlsOf, ih, Function.comp_def]

/-- If only the heads of parts are there, nothing follows them. -/
theorem eq_nil_of_flatMap_cons {α β : Type} {items : List α} {head : α → β} {more : α → List β}
    (h : items.flatMap (fun item => head item :: more item) = items.map head) :
    ∀ item ∈ items, more item = [] := by
  have hle : ∀ items : List α,
      items.length ≤ (items.flatMap fun item => head item :: more item).length := by
    intro items
    induction items with
    | nil => exact Nat.le_refl 0
    | cons item later ih =>
      simp only [List.flatMap_cons, List.cons_append, List.length_cons, List.length_append]
      omega
  induction items with
  | nil => simp
  | cons item later ih =>
    rw [List.flatMap_cons, List.map_cons, List.cons_append, List.cons.injEq] at h
    have hlength := congrArg List.length h.2
    rw [List.length_append, List.length_map] at hlength
    have hnil : more item = [] := List.eq_nil_of_length_eq_zero (by have := hle later; omega)
    rw [hnil, List.nil_append] at h
    exact List.forall_mem_cons.mpr ⟨hnil, ih h.2⟩

namespace FormPage

variable {form : FormPage}

theorem exists_tagsOf_page (hkebab : '"' ∉ form.symbols.kebab.toList)
    (hpascal : IsSolid form.symbols.pascal) :
    ∃ front rest, tagsOf form.page.lines =
        front ++ (form.inputs.flatMap fun input => tagsOf input.node.lines) ++ rest ∧
      (∀ tag ∈ front ++ rest, IsSilent tag) ∧ loopsOf (front ++ rest) = [] := by
  have hheading : IsPlainOpening "h2" [attr "id" s!"app-{form.symbols.kebab}-heading"] :=
    .concat (show IsPlainOpening "h2" [] by decide) (by decide) (by simp [toString, hkebab])
  have htitle : '<' ∉ s!"Create or edit a {form.symbols.pascal}".toList := by
    simp [toString, hpascal.bracket]
  have hinputs : (form.inputs.flatMap fun input => [input.node, .blank]).flatMap
      (fun node => tagsOf node.lines) =
        form.inputs.flatMap fun input => tagsOf input.node.lines := by
    rw [List.flatMap_assoc]
    refine List.flatMap_congr fun input _ => ?_
    rw [List.flatMap_cons, List.flatMap_singleton, tagsOf_blank, List.append_nil]
  have hpage : tagsOf form.page.lines =
      [⟨[attr "class" "d-flex justify-content-center"], ""⟩, ⟨[attr "class" "col-8"], ""⟩,
          ⟨[attr "name" "editForm", flag "novalidate", attr "(ngSubmit)" "save()",
            attr "[formGroup]" "editForm"], ""⟩,
          ⟨[attr "id" s!"app-{form.symbols.kebab}-heading"],
            s!"Create or edit a {form.symbols.pascal}"⟩] ++
        (form.inputs.flatMap fun input => tagsOf input.node.lines) ++ tagsOf buttons.lines := by
    rw [page, tagsOf_element (by decide), List.flatMap_singleton, tagsOf_element (by decide),
      List.flatMap_singleton, tagsOf_element (by decide), List.flatMap_append,
      List.flatMap_append, hinputs, List.flatMap_cons, List.flatMap_singleton,
      List.flatMap_singleton, tagsOf_leaf hheading, tagsIn_of_not_mem (by decide) htitle,
      tagsOf_blank]
    rfl
  refine ⟨_, _, hpage, ?_, ?_⟩
  · have hbuttons : ∀ tag ∈ tagsOf buttons.lines, IsSilent tag := by decide
    simp only [List.forall_mem_append, List.forall_mem_cons, List.not_mem_nil, IsEmpty.forall_iff,
      implies_true, and_true]
    refine ⟨⟨by decide, by decide, by decide, ?_, ?_⟩, hbuttons⟩
    · simp [StartTag.values, controlName, attr]
    · simp [isMessage, attr]
  · have hbuttons : loopsOf (tagsOf buttons.lines) = [] := by decide
    rw [loopsOf, List.flatMap_append, ← loopsOf, ← loopsOf, hbuttons]
    simp [loopsOf, StartTag.values, attr, flag]

/-- Where comments hold no controls, the form has one for each input, and no message stands before
the first. -/
theorem controlsOf_inputs {inputs : List Input} (h : ∀ input ∈ inputs, input.HasSolidTexts)
    (hnone : ∀ input ∈ inputs, input.remarkTags.flatMap (StartTag.values controlName) = [])
    {rest : List StartTag} (hrest : ∀ tag ∈ rest, IsSilent tag) :
    controlsOf ((inputs.flatMap fun input => tagsOf input.node.lines) ++ rest) =
        inputs.map (fun input =>
          (input.name, input.remarkTags.any isMessage || input.required)) ∧
      (((inputs.flatMap fun input => tagsOf input.node.lines) ++ rest).takeWhile
        fun tag => (tag.values controlName).isEmpty).any isMessage = false := by
  induction inputs with
  | nil =>
    have hcontrols := controlsOf_append (fun tag htag => (hrest tag htag).control) []
    rw [List.append_nil] at hcontrols
    refine ⟨hcontrols, List.any_eq_false.mpr fun tag htag => ?_⟩
    have hmem : tag ∈ rest := List.takeWhile_subset _ htag
    simp [(hrest tag hmem).message]
  | cons input later ih =>
    obtain ⟨hcontrols, hsilent⟩ := ih (fun other hother => h other (List.mem_cons_of_mem _ hother))
      fun other hother => hnone other (List.mem_cons_of_mem _ hother)
    obtain ⟨front, tied, after, htags, hfront, hname, hafter, hshown, -⟩ :=
      Input.exists_tagsOf_node (h input List.mem_cons_self)
    rw [hnone input List.mem_cons_self] at hafter
    have hfree : ∀ tag ∈ after, tag.values controlName = [] := List.flatMap_eq_nil_iff.mp hafter
    rw [List.flatMap_cons, htags, List.append_assoc, List.append_assoc, List.cons_append]
    constructor
    · rw [controlsOf_append fun tag htag => (hfront tag htag).control, controlsOf, hname,
        List.takeWhile_append_of_pos (by simpa using hfree), List.any_append, hsilent,
        controlsOf_append hfree, hcontrols, hshown]
      simp
    · rw [List.takeWhile_append_of_pos fun tag htag => by simp [(hfront tag htag).control],
        List.takeWhile_cons_of_neg (by simp [hname]), List.append_nil, List.any_eq_false]
      intro tag htag
      simp [(hfront tag htag).message]

/-- The controls that are read off the form are those of its inputs and those in comments. -/
theorem controlNames_page (h : ∀ input ∈ form.inputs, input.HasSolidTexts)
    (hkebab : '"' ∉ form.symbols.kebab.toList) (hpascal : IsSolid form.symbols.pascal) :
    (controlsOf (tagsOf form.page.lines)).map Prod.fst = form.inputs.flatMap fun input =>
      input.name :: input.remarkTags.flatMap (StartTag.values controlName) := by
  obtain ⟨front, rest, hpage, hsilent, -⟩ := exists_tagsOf_page hkebab hpascal
  have hnone : ∀ tags ⊆ front ++ rest, tags.flatMap (StartTag.values controlName) = [] :=
    fun tags htags =>
      List.flatMap_eq_nil_iff.mpr fun tag htag => (hsilent tag (htags htag)).control
  rw [map_fst_controlsOf, hpage, List.flatMap_append, List.flatMap_append,
    hnone front (List.subset_append_left front rest),
    hnone rest (List.subset_append_right front rest), List.nil_append, List.append_nil,
    List.flatMap_assoc]
  exact List.flatMap_congr fun input hinput => Input.controlNames_node (h input hinput)

/-- Where comments hold no controls, the message is read for an input if it must be filled in or its
comment holds the message. -/
theorem controlsOf_page (h : ∀ input ∈ form.inputs, input.HasSolidTexts)
    (hkebab : '"' ∉ form.symbols.kebab.toList) (hpascal : IsSolid form.symbols.pascal)
    (hnone : ∀ input ∈ form.inputs,
      input.remarkTags.flatMap (StartTag.values controlName) = []) :
    controlsOf (tagsOf form.page.lines) = form.inputs.map fun input =>
      (input.name, input.remarkTags.any isMessage || input.required) := by
  obtain ⟨front, rest, hpage, hsilent, -⟩ := exists_tagsOf_page hkebab hpascal
  obtain ⟨hfront, hrest⟩ := List.forall_mem_append.mp hsilent
  obtain ⟨hcontrols, -⟩ := controlsOf_inputs h hnone hrest
  rw [hpage, List.append_assoc, controlsOf_append fun tag htag => (hfront tag htag).control]
  exact hcontrols

/-- The form shows its inputs, and the message for those that must be filled in, just if no comment
adds to that. -/
theorem controlsOf_page_iff (h : ∀ input ∈ form.inputs, input.HasSolidTexts)
    (hkebab : '"' ∉ form.symbols.kebab.toList) (hpascal : IsSolid form.symbols.pascal) :
    controlsOf (tagsOf form.page.lines) =
        form.inputs.map (fun input => (input.name, input.required)) ↔
      ∀ input ∈ form.inputs, input.KeepsControls := by
  constructor
  · intro hshows
    have hnames := congrArg (List.map Prod.fst) hshows
    rw [controlNames_page h hkebab hpascal, List.map_map] at hnames
    have hnone := eq_nil_of_flatMap_cons hnames
    rw [controlsOf_page h hkebab hpascal hnone, List.map_inj_left] at hshows
    intro input hinput
    have hshown := hshows input hinput
    rw [Prod.mk.injEq, Bool.or_eq_right_iff_imp] at hshown
    exact ⟨hnone input hinput, hshown.2⟩
  · intro hkeeps
    rw [controlsOf_page h hkebab hpascal fun input hinput => (hkeeps input hinput).controls]
    refine List.map_congr_left fun input hinput => ?_
    rw [Prod.mk.injEq, Bool.or_eq_right_iff_imp]
    exact ⟨rfl, (hkeeps input hinput).message⟩

/-- The form repeats elements for its inputs, and what its comments repeat. -/
theorem loopsOf_page (h : ∀ input ∈ form.inputs, input.HasSolidTexts)
    (hkebab : '"' ∉ form.symbols.kebab.toList) (hpascal : IsSolid form.symbols.pascal) :
    loopsOf (tagsOf form.page.lines) =
      form.inputs.flatMap fun input => input.loops ++ loopsOf input.remarkTags := by
  obtain ⟨front, rest, hpage, -, hloops⟩ := exists_tagsOf_page hkebab hpascal
  rw [loopsOf, List.flatMap_append, List.append_eq_nil_iff] at hloops
  rw [hpage, loopsOf, List.flatMap_append, List.flatMap_append, hloops.1, hloops.2,
    List.nil_append, List.append_nil, List.flatMap_assoc]
  exact List.flatMap_congr fun input hinput => Input.loopsOf_node (h input hinput)

end FormPage

/-! ## The list -/

section

variable {tag : String} {attributes : List Attribute}

/-- An element that is no heading has the headings of its parts. -/
theorem headingsOf_element (h : IsPlainOpening tag attributes)
    (hnone : attr "scope" "col" ∉ attributes) (children : List Node) :
    headingsOf (tagsOf (Node.element tag attributes children).lines) =
      children.flatMap fun child => headingsOf (tagsOf child.lines) := by
  rw [tagsOf_element h, headingsOf, List.filter_cons_of_neg (by simpa using hnone),
    List.filter_flatMap, List.map_flatMap]
  rfl

theorem headingsOf_leaf (h : IsPlainOpening tag attributes)
    (hnone : attr "scope" "col" ∉ attributes) {text : String} (htext : '<' ∉ text.toList) :
    headingsOf (tagsOf (Node.leaf tag attributes text).lines) = [] := by
  rw [tagsOf_leaf h, tagsIn_of_not_mem h.tag htext, headingsOf,
    List.filter_cons_of_neg (by simpa using hnone)]
  rfl

theorem headingsOf_nil : headingsOf [] = [] := rfl

theorem headingsOf_headingNode {heading : String} (h : '<' ∉ heading.toList) :
    headingsOf (tagsOf (Column.headingNode heading).lines) = [heading] := by
  rw [Column.headingNode, tagsOf_leaf (by decide), tagsIn_of_not_mem (by decide) h]
  rfl

end

namespace ListPage

variable {list : ListPage}

/-- The texts of a list can be told on a page. -/
structure HasSolidTexts (list : ListPage) : Prop where
  camel : IsSolid list.symbols.camel
  pascal : IsSolid list.symbols.pascal
  collection : IsSolid list.collection
  heading : ∀ column ∈ list.columns, '<' ∉ column.heading.toList
  access : ∀ column ∈ list.columns, '<' ∉ column.access.toList

/-- Cells have no headings. -/
theorem headingsOf_cell {camel access : String} (hcamel : '<' ∉ camel.toList)
    (haccess : '<' ∉ access.toList) :
    headingsOf (tagsOf (Column.cell camel access).lines) = [] := by
  refine headingsOf_leaf (by decide) (by decide) ?_
  simp [shown, toString, hcamel, haccess]

theorem headingsOf_actions {camel : String} (h : IsSolid camel) :
    headingsOf (tagsOf (actions camel).lines) = [] := by
  have hbutton : ∀ style name value, '"' ∉ style.toList → IsTagWord name.toList →
      '"' ∉ value.toList → IsPlainOpening "button"
        [attr "type" "button", attr "class" style, attr name value] := by
    intro style name value hstyle hname hvalue
    have htyped : IsPlainOpening "button" [attr "type" "button"] := by decide
    exact (htyped.concat (by decide) hstyle).concat hname hvalue
  have hroute : '"' ∉ s!"[{camel}.id, 'edit']".toList := by simp [toString, h.quote]
  have hclick : '"' ∉ s!"delete({camel})".toList := by simp [toString, h.quote]
  rw [actions, headingsOf_element (by decide) (by decide), List.flatMap_cons,
    List.flatMap_singleton,
    headingsOf_leaf (hbutton _ _ _ (by decide) (by decide) hroute) (by simp [attr]) (by decide),
    headingsOf_leaf (hbutton _ _ _ (by decide) (by decide) hclick) (by simp [attr]) (by decide)]
  rfl

/-- The list has the headings of its columns and no others. -/
theorem headingsOf_page (h : list.HasSolidTexts) :
    headingsOf (tagsOf list.page.lines) = list.headings := by
  have hhead : (list.headings.map Column.headingNode).flatMap
      (fun node => headingsOf (tagsOf node.lines)) = list.headings := by
    have hplain : ∀ heading ∈ list.headings, '<' ∉ heading.toList := by
      simp only [headings, List.cons_append, List.forall_mem_cons, List.forall_mem_append,
        List.forall_mem_map, List.not_mem_nil, IsEmpty.forall_iff, implies_true, and_true]
      exact ⟨by decide, h.heading, by decide⟩
    rw [List.flatMap_map, List.flatMap_congr fun heading hheading =>
      headingsOf_headingNode (hplain heading hheading)]
    exact List.flatMap_singleton' _
  have hcells : (list.columns.map fun column =>
      Column.cell list.symbols.camel column.access).flatMap
        (fun node => headingsOf (tagsOf node.lines)) = [] := by
    rw [List.flatMap_map]
    exact List.flatMap_eq_nil_iff.mpr fun column hcolumn =>
      headingsOf_cell h.camel.bracket (h.access column hcolumn)
  have hrow : IsPlainOpening "tr"
      [attr "*ngFor" s!"let {list.symbols.camel} of {list.collection}; trackBy: trackId"] :=
    .concat (show IsPlainOpening "tr" [] by decide) (by decide)
      (by simp [toString, h.camel.quote, h.collection.quote])
  have htable : headingsOf (tagsOf list.table.lines) = list.headings := by
    rw [table, headingsOf_element (by decide) (by decide), List.flatMap_cons,
      List.flatMap_singleton, headingsOf_element (by decide) (by decide), List.flatMap_singleton,
      headingsOf_element (by decide) (by decide), hhead, headingsOf_element (by decide) (by decide),
      List.flatMap_singleton, headingsOf_element hrow (by simp [attr]), List.flatMap_append,
      List.flatMap_cons, hcells, headingsOf_cell h.camel.bracket (by decide),
      List.flatMap_singleton, headingsOf_actions h.camel]
    simp
  have hnone : IsPlainOpening "div" [attr "class" "alert alert-warning",
      attr "*ngIf" s!"!isLoading && {list.collection}.length === 0"] :=
    .concat (show IsPlainOpening "div" [attr "class" "alert alert-warning"] by decide) (by decide)
      (by simp [toString, h.collection.quote])
  have hsome : IsPlainOpening "div"
      [attr "class" "table-responsive", attr "*ngIf" s!"{list.collection}.length > 0"] :=
    .concat (show IsPlainOpening "div" [attr "class" "table-responsive"] by decide) (by decide)
      (by simp [toString, h.collection.quote])
  rw [page, headingsOf_element (by decide) (by decide)]
  simp only [List.flatMap_cons, List.flatMap_nil, tagsOf_blank, headingsOf_nil]
  rw [headingsOf_element (by decide) (by decide), List.flatMap_cons, List.flatMap_singleton,
    headingsOf_leaf (by decide) (by decide) h.pascal.bracket,
    headingsOf_leaf (by decide) (by decide) (by simp [toString, h.pascal.bracket]),
    headingsOf_leaf hnone (by simp [attr]) (by simp [toString, h.pascal.bracket]),
    headingsOf_element hsome (by simp [attr]), List.flatMap_singleton, htable]
  simp

end ListPage

/-! ## Pages of a context -/

section

variable {context : Context}

theorem Input.kindOfField_ne_entity (field : Field) (collection : String) :
    Input.kindOfField field ≠ .entity collection := by
  unfold Input.kindOfField
  split_ifs <;> simp

theorem Input.kindOfField_eq_enumValue {field : Field} {member : String}
    (h : Input.kindOfField field = .enumValue member) :
    member = FormComponent.enumValuesMember field.type := by
  unfold Input.kindOfField at h
  split_ifs at h
  exact (InputKind.enumValue.inj h).symm

theorem isSolid_enumValuesMember (type : String) :
    IsSolid (FormComponent.enumValuesMember type) :=
  (isSolid_camel type).append (by decide)

theorem Input.hasSolidTexts_ofField {field : Field} (h : IsSolid field.name) :
    (Input.ofField field).HasSolidTexts where
  name := h
  enumValue _ hkind :=
    Input.kindOfField_eq_enumValue hkind ▸ isSolid_enumValuesMember field.type
  entity collection hkind := absurd hkind (Input.kindOfField_ne_entity field collection)

theorem Input.hasSolidTexts_ofView {view : View} (hproperty : IsSolid view.property)
    (hplural : IsSolid view.otherPlural) : (Input.ofView view).HasSolidTexts where
  name := hproperty
  enumValue member hkind := by cases hkind
  entity := by
    intro collection hkind
    obtain rfl := InputKind.entity.inj hkind
    exact hplural.append (by decide)

theorem HasSolidNames.inputs (h : HasSolidNames context) :
    ∀ input ∈ (FormPage.ofContext context).inputs, input.HasSolidTexts := by
  simp only [FormPage.ofContext, List.forall_mem_append, List.forall_mem_map]
  constructor
  · intro field hfield
    exact Input.hasSolidTexts_ofField (h.field field (List.mem_filter.mp hfield).1)
  · intro view hview
    have hmem := (List.mem_filter.mp hview).1
    exact Input.hasSolidTexts_ofView (h.property view hmem) (h.plural view hmem)

theorem HasSolidNames.list (h : HasSolidNames context) :
    (ListPage.ofContext context).HasSolidTexts where
  camel := isSolid_camel _
  pascal := isSolid_pascal _
  collection := isSolid_camel _
  heading := by
    simp only [ListPage.ofContext, List.forall_mem_append, List.forall_mem_map]
    exact ⟨fun field hfield => (h.field field (List.mem_filter.mp hfield).1).bracket,
      fun view hview => (h.property view (List.mem_filter.mp hview).1).bracket⟩
  access := by
    simp only [ListPage.ofContext, List.forall_mem_append, List.forall_mem_map]
    constructor
    · intro field hfield
      have hname := (h.field field (List.mem_filter.mp hfield).1).bracket
      unfold Column.ofField
      split_ifs
      · simp [toString, hname]
      · exact hname
    · intro view hview
      simp [Column.ofView, toString, (h.property view (List.mem_filter.mp hview).1).bracket]

end

end EntityScaffold.Angular
