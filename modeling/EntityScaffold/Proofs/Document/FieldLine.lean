import EntityScaffold.Proofs.Document.FieldText

/-!
# The line of a field

A line declares a field exactly if it begins with a name, a gap and a type, whatever comes after
them (`IsFieldLine`). What the field holds can be told from the line without saying how to read it
(`FieldOfLine`): the name and the type go as far as they can, the rest of the line is split at its
first comment sign (`SplitsAtSign`), the words before the sign are the rules and what is after it is
the comment, trimmed. Rules are words without a sign, so the line that a field is written as
declares the same field again (`field_line_read_exactly`).
-/

namespace EntityScaffold.Document

open Text

/-! ## Comment signs -/

/-- A text is split at its first comment sign, if it has one. -/
inductive SplitsAtSign : List Char → List Char → Option (List Char) → Prop
  | bare {s : List Char} : Avoids commentSign s → SplitsAtSign s s none
  /-- The sign after `before` is the first, as none is in `before` or begins at the end of it. -/
  | sign {before text : List Char} : Avoids commentSign (before ++ ['/']) →
      SplitsAtSign (before ++ (commentSign ++ text)) before (some text)

theorem avoids_sign_cons {c : Char} {s : List Char} (h : Avoids commentSign s)
    (hsign : startsComment (c :: s) = false) : Avoids commentSign (c :: s) := by
  intro hfound
  rcases List.infix_cons_iff.mp hfound with hfront | hlater
  · rw [startsComment, List.isPrefixOf_iff_prefix.mpr hfront] at hsign
    exact absurd hsign (by simp)
  · exact h hlater

/-- A character at which no sign begins is before the first sign. -/
theorem SplitsAtSign.cons {s before : List Char} {remark : Option (List Char)}
    (h : SplitsAtSign s before remark) {c : Char} (hsign : startsComment (c :: s) = false) :
    SplitsAtSign (c :: s) (c :: before) remark := by
  cases h with
  | bare havoids => exact .bare (avoids_sign_cons havoids hsign)
  | @sign _ text havoids =>
    have hfirst : startsComment (c :: (before ++ ['/'])) = false := by
      rw [Bool.eq_false_iff]
      intro hstarts
      have hfront : commentSign <+: c :: (before ++ ['/']) := List.isPrefixOf_iff_prefix.mp hstarts
      have hwhole : c :: (before ++ ['/']) <+: c :: (before ++ (commentSign ++ text)) :=
        ⟨'/' :: text, by simp [commentSign]⟩
      rw [startsComment, List.isPrefixOf_iff_prefix.mpr (hfront.trans hwhole)] at hsign
      exact absurd hsign (by simp)
    have hbefore : Avoids commentSign ((c :: before) ++ ['/']) := avoids_sign_cons havoids hfirst
    exact .sign hbefore

theorem splitsAtSign_cutAtComment (s : List Char) :
    SplitsAtSign s (cutAtComment s).1 (cutAtComment s).2 := by
  induction s with
  | nil => exact .bare (by decide)
  | cons c s ih =>
    cases hsign : startsComment (c :: s) with
    | true =>
      obtain ⟨text, htext⟩ := List.isPrefixOf_iff_prefix.mp hsign
      have hbefore : Avoids commentSign ([] ++ ['/']) := by decide
      rw [← htext]
      exact .sign hbefore
    | false =>
      rw [cutAtComment_cons hsign]
      exact ih.cons hsign

/-- Nothing is split off just if there is no sign. -/
theorem SplitsAtSign.eq_none_iff {s before : List Char} {remark : Option (List Char)}
    (h : SplitsAtSign s before remark) : remark = none ↔ Avoids commentSign s := by
  cases h with
  | bare havoids => simpa using havoids
  | @sign _ text _ =>
    have hfound : commentSign <:+: before ++ (commentSign ++ text) :=
      ⟨before, text, by simp⟩
    simp [Avoids, hfound]

/-- What is before the sign has no sign. -/
theorem SplitsAtSign.avoids {s before : List Char} {remark : Option (List Char)}
    (h : SplitsAtSign s before remark) : Avoids commentSign before := by
  cases h with
  | bare havoids => exact havoids
  | sign havoids => exact havoids.of_infix (List.prefix_append _ _).isInfix

/-! ## Fields of lines -/

/-- A line that begins with a name, a gap and a type. -/
def IsFieldLine (line : List Char) : Prop :=
  ∃ name gap type rest, IsName name ∧ IsGap gap ∧ IsDeclaredType type ∧
    line = name ++ (gap ++ (type ++ rest))

/-- A field is what a line declares that has the gap and the rest around its type. -/
structure FieldOfLine (enumNames : List String) (line : List Char) (field : Field)
    (gap rest : List Char) : Prop where
  line_eq : line = field.name.toList ++ (gap ++ (field.type.toList ++ rest))
  isGap : IsGap gap
  name : IsName field.name.toList
  /-- The name does not go on. -/
  name_ends : Stops isWord (gap ++ (field.type.toList ++ rest))
  type : IsDeclaredType field.type.toList
  /-- The type does not go on. -/
  type_ends : Stops isTypeChar rest
  isEnum : field.isEnum = true ↔ field.type ∈ enumNames
  /-- Rules are words in which no comment begins. -/
  rules : ∀ rule ∈ field.rules, IsRuleWord rule.toList
  /-- There is no comment just if nothing in the rest begins one. -/
  no_comment : field.comment = none ↔ Avoids commentSign rest
  comment : ∀ comment ∈ field.comment, trim comment.toList = comment.toList
  /-- The rules are all words before the first sign and the comment is all that follows it. -/
  split : ∃ before remark, SplitsAtSign rest before remark ∧
    field.rules = (fields before).map String.ofList ∧
    field.comment = remark.map fun text => String.ofList (trim text)
  untyped : field.tsType = none

/-- A field that is read holds what its line declares. -/
theorem fieldOfLine_of_readField {enumNames : List String} {line : List Char}
    (hline : '\n' ∉ line) {field : Field} (h : readField enumNames line = some field) :
    ∃ gap rest, FieldOfLine enumNames line field gap rest := by
  obtain ⟨name, gap, type, rest, hname, hgap, htype, hrest, rfl, rfl⟩ := exists_of_readField h
  have hfeed : '\n' ∉ rest := fun hmem => hline (by simp [hmem])
  rw [List.takeWhile_eq_self_iff.mpr (bne_of_not_mem hfeed)]
  have hsplit := splitsAtSign_cutAtComment rest
  refine ⟨gap, rest, ?_⟩
  constructor
  case line_eq => simp only [String.toList_ofList]
  case isGap => exact hgap
  case name => rwa [String.toList_ofList]
  case name_ends => exact hgap.stops_word _
  case type => rwa [String.toList_ofList]
  case type_ends => exact hrest
  case isEnum => exact List.contains_iff_mem
  case rules =>
    intro rule hrule
    obtain ⟨word, hword, rfl⟩ := List.mem_map.mp hrule
    obtain ⟨hne, hsolid, hinfix⟩ := mem_pieces hword
    rw [String.toList_ofList]
    exact ⟨hne, hsolid, hsplit.avoids.of_infix hinfix⟩
  case no_comment =>
    rw [← hsplit.eq_none_iff]
    exact Option.map_eq_none_iff
  case comment =>
    intro comment hcomment
    obtain ⟨text, -, rfl⟩ := Option.map_eq_some_iff.mp hcomment
    rw [String.toList_ofList, trim_trim]
  case split => exact ⟨_, _, hsplit, rfl, rfl⟩
  case untyped => rfl

/-- Every line of the form declares a field. -/
theorem IsFieldLine.exists_readField {line : List Char} (h : IsFieldLine line)
    (hline : '\n' ∉ line) (enumNames : List String) :
    ∃ field, readField enumNames line = some field := by
  obtain ⟨name, gap, type, rest, hname, hgap, htype, rfl⟩ := h
  -- the type goes on as far as it can
  have hwhole : ∀ c ∈ type ++ rest.takeWhile isTypeChar, isTypeChar c = true :=
    List.forall_mem_append.mpr ⟨htype.2, fun _ hc => List.mem_takeWhile_imp hc⟩
  have hfeed : '\n' ∉ rest.dropWhile isTypeChar :=
    fun hmem => hline (by simp [(List.dropWhile_sublist _).subset hmem])
  have hread := readField_append enumNames hname hgap (by simp [htype.1]) hwhole
    (stops_dropWhile isTypeChar rest) hfeed
  rw [List.append_assoc, List.takeWhile_append_dropWhile] at hread
  exact ⟨_, hread⟩

/-! ## Fields as they are written -/

/-- The declaration of a field. -/
def FieldDeclaration.ofField (field : Field) : FieldDeclaration :=
  ⟨field.name, field.type, field.rules, field.comment⟩

/-- The line that a field is written as declares it. -/
theorem readField_text {declared : FieldDeclaration} (hname : IsName declared.name.toList)
    (htype : IsDeclaredType declared.type.toList)
    (hrules : ∀ rule ∈ declared.rules.map String.toList, IsRuleWord rule)
    (hcomment : ∀ comment ∈ declared.comment,
      trim comment.toList = comment.toList ∧ '\n' ∉ comment.toList) (enumNames : List String) :
    readField enumNames declared.text = some (declared.field enumNames) := by
  have hline : '\n' ∉ restText (declared.rules.map String.toList)
      (declared.comment.map fun comment => ' ' :: comment.toList) := by
    refine not_mem_restText hrules fun text htext => ?_
    obtain ⟨comment, hsome, rfl⟩ := Option.map_eq_some_iff.mp htext
    simpa using (hcomment comment hsome).2
  have hback : (declared.rules.map String.toList).map String.ofList = declared.rules := by
    simp [Function.comp_def]
  have hremark : (declared.comment.map fun comment => ' ' :: comment.toList).map
      (fun text => String.ofList (trim text)) = declared.comment := by
    cases hsome : declared.comment with
    | none => rfl
    | some comment =>
      have hspace : ∀ c ∈ [' '], isBlank c = true := by decide
      have htrim : trim (' ' :: comment.toList) = comment.toList :=
        (trim_append_of_blank_left hspace comment.toList).trans (hcomment comment hsome).1
      rw [Option.map_some, Option.map_some, htrim, String.ofList_toList]
  rw [FieldDeclaration.text_eq, readField_append enumNames hname isGap_space htype.1 htype.2
    (stops_restText _ _) hline, rulesAndComment_restText hrules, hback, hremark]
  simp [FieldDeclaration.field]

/-- What a field that is read is written as is read as the field again. -/
theorem readField_text_ofField {enumNames : List String} {line : List Char} (hline : '\n' ∉ line)
    {field : Field} (h : readField enumNames line = some field) :
    readField enumNames (FieldDeclaration.ofField field).text = some field := by
  obtain ⟨gap, rest, hfield⟩ := fieldOfLine_of_readField hline h
  have hrules : ∀ rule ∈ field.rules.map String.toList, IsRuleWord rule := by
    simpa using hfield.rules
  have hcomment : ∀ comment ∈ field.comment,
      trim comment.toList = comment.toList ∧ '\n' ∉ comment.toList :=
    fun comment hmem => ⟨hfield.comment comment hmem,
      fun hfeed => hline ((readField_subset h).2 comment hmem hfeed)⟩
  have hsame : (FieldDeclaration.ofField field).field enumNames = field := by
    have henum : enumNames.contains field.type = field.isEnum := by
      rw [Bool.eq_iff_iff, hfield.isEnum, List.contains_iff_mem]
    simp only [FieldDeclaration.field, FieldDeclaration.ofField, henum, ← hfield.untyped]
  rw [← hsame]
  exact readField_text hfield.name hfield.type hrules hcomment enumNames

/-- **Lines.** A line without a line feed declares a field exactly if it begins with a name, a gap
and a type. The field holds what the line has, and the line that it is written as declares it
again. -/
theorem field_line_read_exactly (enumNames : List String) {line : List Char}
    (hline : '\n' ∉ line) :
    ((∃ field, readField enumNames line = some field) ↔ IsFieldLine line) ∧
    ∀ field, readField enumNames line = some field →
      (∃ gap rest, FieldOfLine enumNames line field gap rest) ∧
        readField enumNames (FieldDeclaration.ofField field).text = some field := by
  refine ⟨⟨?_, fun h => h.exists_readField hline enumNames⟩, fun field h => ⟨?_, ?_⟩⟩
  · rintro ⟨field, h⟩
    obtain ⟨gap, rest, hfield⟩ := fieldOfLine_of_readField hline h
    exact ⟨_, gap, _, rest, hfield.name, hfield.isGap, hfield.type, hfield.line_eq⟩
  · exact fieldOfLine_of_readField hline h
  · exact readField_text_ofField hline h

/-- A rule glued to the type, one that ends with a slash, and a comment that begins with one. -/
theorem field_line_read_of_slashes :
    let line := "tags\t List<Tag>(max) a/ ///  the tags ".toList
    let field : Field :=
      ⟨"tags", "List<Tag>", false, ["(max)", "a/"], some "/  the tags", none⟩
    '\n' ∉ line ∧ readField ["Tag"] line = some field ∧ IsFieldLine line ∧
      (FieldDeclaration.ofField field).text = "tags List<Tag> (max) a/ // /  the tags".toList ∧
      readField ["Tag"] (FieldDeclaration.ofField field).text = some field := by
  intro line field
  have hline : '\n' ∉ line := by decide
  have hread : readField ["Tag"] line = some field := by decide +kernel
  obtain ⟨haccepted, hagain⟩ := field_line_read_exactly ["Tag"] hline
  exact ⟨hline, hread, haccepted.mp ⟨field, hread⟩, by decide +kernel, (hagain field hread).2⟩

end EntityScaffold.Document
