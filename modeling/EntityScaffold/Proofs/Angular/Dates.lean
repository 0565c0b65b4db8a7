import EntityScaffold.Angular.Service
import EntityScaffold.Proofs.Angular.Imports
import EntityScaffold.Proofs.Angular.Properties
import EntityScaffold.Proofs.Document.Body
import EntityScaffold.Proofs.TypeScript.Type

/-!
# Dates in the files of an entity

Dates travel as texts, so the service of an entity converts them on the way to the server and on
the way back. It picks out the fields to convert by their declared types; the interface prints what
the types stand for, and it alone passes over a field that is called like the number. All this is
read off the printed lines of the two files. In a document a field of dates cannot be told from
another one in any other way, so the service converts what the interface declares as dates, and the
number besides if a field of that name has a type of dates: `convertsDates_iff`.
-/

namespace EntityScaffold.Angular

open Document Generation Naming TypeScript

/-! ## Types in lines -/

/-- The type that a line of code gives to what it declares: the text after the first colon up to a
bar or a semicolon, without the blanks at its ends. -/
def declaredType (line : String) : String :=
  String.ofList (Text.trim
    (((line.toList.dropWhile (· != ':')).drop 1).takeWhile fun c => c != '|' && c != ';'))

/-- A type that can be told from what stands around it in a line of code. -/
structure IsTypeText (type : String) : Prop where
  bar : '|' ∉ type.toList
  semicolon : ';' ∉ type.toList
  trimmed : Text.trim type.toList = type.toList

theorem isTypeText_of_isDeclaredType {type : String} (h : IsDeclaredType type.toList) :
    IsTypeText type := by
  obtain ⟨-, hchars⟩ := h
  have hne : ∀ c, isTypeChar c = false → c ∉ type.toList := by
    intro c hc hmem
    rw [hchars c hmem] at hc
    cases hc
  have hblank : ∀ c ∈ type.toList, Text.isBlank c = false :=
    fun c hc => isBlank_of_isTypeChar (hchars c hc)
  refine ⟨hne _ (by decide), hne _ (by decide), Text.trim_eq_self ?_ ?_⟩
  · exact fun c hc => hblank c (List.mem_of_head? hc)
  · exact fun c hc => hblank c (List.mem_reverse.mp (List.mem_of_head? hc))

theorem isTypeText_typeOf {type : String} (h : IsDeclaredType type.toList) :
    IsTypeText (typeOf type) := by
  have hbuiltin : ∀ entry ∈ builtinTypes, '|' ∉ entry.2.toList ∧ ';' ∉ entry.2.toList ∧
      Text.trim entry.2.toList = entry.2.toList := by decide
  rcases typeOf_cases type with ⟨-, hself⟩ | ⟨-, hentry⟩
  · rw [hself]
    exact isTypeText_of_isDeclaredType h
  · obtain ⟨hbar, hsemicolon, htrimmed⟩ := hbuiltin _ hentry
    exact ⟨hbar, hsemicolon, htrimmed⟩

/-- No type of a document is the type of dates itself: that one has a dot in it. -/
theorem ne_dateType {type : String} (h : IsDeclaredType type.toList) : type ≠ dateType := by
  rintro rfl
  exact absurd (h.2 '.' (by decide)) (by decide)

theorem Member.isTypeText_ofView (view : View) : IsTypeText (Member.ofView view).type := by
  have hpascal : ∀ c : Char, c.isAlpha = false ∧ Text.isDecimal c = false →
      c ∉ view.otherPascal.toList := fun c hc hmem => (mem_pascal hmem).ne hc.1 hc.2 rfl
  have hbar := hpascal '|' (by decide)
  have hsemicolon := hpascal ';' (by decide)
  refine ⟨?_, ?_, ?_⟩
  · cases hmany : view.toMany <;> simp [Member.ofView, hmany, hbar, toString]
  · cases hmany : view.toMany <;> simp [Member.ofView, hmany, hsemicolon, toString]
  · apply Text.trim_eq_self
    · simp [Member.ofView, toString]
      decide
    · cases hmany : view.toMany <;> simp [Member.ofView, hmany, toString] <;> decide

theorem Member.declaredType_line {member : Member} (hname : IsSolid member.name)
    (htype : IsTypeText member.type) : declaredType (Line.text member.line) = member.type := by
  obtain ⟨rest, hline⟩ : ∃ rest, (Line.text member.line).toList =
      (member.name.toList ++ ['?']) ++ (':' :: ([' '] ++ member.type.toList ++ [' ']) ++
        '|' :: rest) := by
    simp only [Member.line, Line.text, List.map_cons, List.map_nil, Piece.text]
    simp [toString]
  have hbefore : ∀ c ∈ member.name.toList ++ ['?'], (c != ':') = true :=
    Text.bne_of_not_mem (by simp [hname.not_mem (show setsApart ':' = true by decide)])
  have hbar : '|' ∉ [' '] ++ member.type.toList ++ [' '] := by simpa using htype.bar
  have hsemicolon : ';' ∉ [' '] ++ member.type.toList ++ [' '] := by simpa using htype.semicolon
  have hinside : ∀ c ∈ [' '] ++ member.type.toList ++ [' '], (c != '|' && c != ';') = true := by
    intro c hc
    rw [Text.bne_of_not_mem hbar c hc, Text.bne_of_not_mem hsemicolon c hc, Bool.and_self]
  rw [declaredType, hline, List.cons_append, Text.dropWhile_append_stops hbefore (by simp),
    List.drop_one, List.tail_cons, Text.takeWhile_append_stops hinside (by simp),
    Text.trim_append_of_blank (by decide) (by decide), htype.trimmed, String.ofList_toList]

/-! ## What the interface declares -/

/-- The properties that lines declare as dates. -/
def declaredDates (lines : List String) : List String :=
  (lines.filter fun line => declaredType line = dateType).map keyOf

/-- The properties that the interface of an entity declares as dates. -/
def interfaceDates (context : Context) : List String :=
  declaredDates (Code.inside s!"export interface I{pascal context.entity.name} "
    (Interface.ofContext context).file.code.texts)

theorem declaredDates_members {members : List Member}
    (h : ∀ member ∈ members, IsSolid member.name ∧ IsTypeText member.type) :
    declaredDates (members.map fun member => Line.text member.line) =
      (members.filter fun member => member.type = dateType).map Member.name := by
  induction members with
  | nil => rfl
  | cons member later ih =>
    obtain ⟨⟨hname, htype⟩, hlater⟩ := List.forall_mem_cons.mp h
    have hline := Member.declaredType_line hname htype
    unfold declaredDates at ih ⊢
    by_cases hdate : member.type = dateType
    · rw [List.map_cons, List.filter_cons_of_pos (by simp [hline, hdate]),
        List.filter_cons_of_pos (by simp [hdate]), List.map_cons, List.map_cons, ih hlater,
        Member.keyOf_line hname]
    · rw [List.map_cons, List.filter_cons_of_neg (by simp [hline, hdate]),
        List.filter_cons_of_neg (by simp [hdate]), ih hlater]

/-- The property of a relationship is no date. -/
theorem Member.type_ofView_ne (view : View) : (Member.ofView view).type ≠ dateType := by
  simp [Member.ofView, dateType, ← String.toList_inj, toString]

/-- The fields of a context have types that can be told from what stands around them, and that are
the type of dates just if they are declared with a type of dates. -/
structure HasTypes (context : Context) : Prop where
  text : ∀ field ∈ context.fields, IsTypeText (tsTypeOf field)
  date : ∀ field ∈ context.fields, isDate field.type = true ↔ tsTypeOf field = dateType

theorem hasTypes_of_parse {strict : Bool} {text : String} {model : Model}
    (hparse : (parse strict text).outcome = .ok model) {style : PluralStyle} {entity : Entity}
    (hentity : entity ∈ model.entities.items) :
    HasTypes (.of style model.relationships entity) := by
  have hdeclared : ∀ field ∈ (Context.of style model.relationships entity).fields,
      IsDeclaredType field.type.toList ∧ tsTypeOf field = typeOf field.type := by
    intro field hfield
    obtain ⟨declared, hmem, rfl⟩ := List.mem_map.mp (List.mem_filter.mp hfield).1
    have htype : IsDeclaredType declared.type.toList :=
      isDeclaredType_of_mem_fields hparse hentity hmem
    exact ⟨htype, rfl⟩
  constructor
  case text =>
    intro field hfield
    obtain ⟨htype, hts⟩ := hdeclared field hfield
    rw [hts]
    exact isTypeText_typeOf htype
  case date =>
    intro field hfield
    obtain ⟨htype, hts⟩ := hdeclared field hfield
    rw [hts]
    exact isDate_iff (ne_dateType htype)

section

variable {context : Context}

theorem HasTypes.members (h : HasTypes context) :
    ∀ member ∈ (Interface.ofContext context).members, IsTypeText member.type := by
  intro member hmember
  rcases List.mem_append.mp hmember with hmember | hmember
  · obtain ⟨field, hfield, rfl⟩ := List.mem_map.mp hmember
    exact h.text field (List.mem_filter.mp hfield).1
  · obtain ⟨view, -, rfl⟩ := List.mem_map.mp hmember
    exact Member.isTypeText_ofView view

/-- The properties that are dates are those of the fields declared with a type of dates. -/
theorem HasTypes.filter_members (h : HasTypes context) :
    (Interface.ofContext context).members.filter (fun member => member.type = dateType) =
      ((listedFields context).filter fun field => isDate field.type).map Member.ofField := by
  have hfields : ((listedFields context).map Member.ofField).filter
      (fun member => member.type = dateType) =
      ((listedFields context).filter fun field => isDate field.type).map Member.ofField := by
    rw [List.filter_map]
    congr 1
    apply List.filter_congr
    intro field hfield
    rw [Bool.eq_iff_iff, h.date field (List.mem_filter.mp hfield).1]
    exact decide_eq_true_iff
  have hviews : (context.views.map Member.ofView).filter
      (fun member => member.type = dateType) = [] := by
    rw [List.filter_eq_nil_iff]
    intro member hmember
    obtain ⟨view, -, rfl⟩ := List.mem_map.mp hmember
    simpa using Member.type_ofView_ne view
  rw [Interface.ofContext]
  dsimp only
  rw [List.filter_append, hfields, hviews, List.append_nil]

/-- The interface declares as dates the listed fields that are declared with a type of dates. -/
theorem interfaceDates_eq (hsolid : HasSolidNames context) (htypes : HasTypes context) :
    interfaceDates context =
      ((listedFields context).filter fun field => isDate field.type).map Field.name := by
  have hmembers : ∀ member ∈ (Interface.ofContext context).members,
      IsSolid member.name ∧ IsTypeText member.type :=
    fun member hmember => ⟨hsolid.members member hmember, htypes.members member hmember⟩
  have hnumber : declaredType "id: number;" ≠ dateType := by decide
  have hinside : interfaceDates context = declaredDates ("id: number;" ::
      (Interface.ofContext context).members.map fun member => Line.text member.line) :=
    congrArg declaredDates (Interface.ofContext context).inside_file
  rw [hinside, declaredDates, List.filter_cons_of_neg (by simpa using hnumber), ← declaredDates,
    declaredDates_members hmembers, htypes.filter_members, List.map_map]
  rfl

end

/-! ## What the service converts -/

/-- The properties that the lines of an object set. A line without a colon takes over those of
another object. -/
def setProperties (lines : List String) : List String :=
  (lines.filter fun line => ':' ∈ line.toList).map keyOf

theorem setProperties_conversion {convert : String → String} {names : List String}
    (hconvert : ∀ name ∈ names, ∃ rest, convert name = name ++ rest ∧
      rest.toList.head? = some ':')
    (hsolid : ∀ name ∈ names, IsSolid name) :
    setProperties ("...entity," :: names.map convert) = names := by
  rw [setProperties, List.filter_cons_of_neg (by simp), List.filter_eq_self.mpr,
    List.map_map, List.map_congr_left, List.map_id]
  · intro name hname
    obtain ⟨rest, hline, hhead⟩ := hconvert name hname
    rw [Function.comp_apply, hline]
    exact (hsolid name hname).keyOf_append (by simp [Text.Stops, hhead])
  · intro line hline
    obtain ⟨name, hname, rfl⟩ := List.mem_map.mp hline
    obtain ⟨rest, hline, hhead⟩ := hconvert name hname
    simp [hline, List.mem_of_head? hhead]

namespace Service

variable (service : Service)

/-- What opens the method that converts dates on the way to the server. -/
def sending : String :=
  let p := service.symbols.pascal
  s!"protected convertDatesFromClient<T extends I{p} | New{p}>(entity: T): T "

/-- What opens the method that converts dates on the way back. -/
def receiving : String :=
  let p := service.symbols.pascal
  s!"protected convertDatesFromServer(entity: I{p}): I{p} "

/-- The properties that a method converts in the code of a service. -/
def convertedBy (method : String) (code : Code) : List String :=
  setProperties (Code.inside "return "
    (Code.inside method (Code.inside s!"export class {service.symbols.pascal}Service " code.texts)))

/-- The properties that are converted on the way to the server. -/
def sentDates : List String := service.convertedBy service.sending service.file.code

/-- The properties that are converted on the way back. -/
def receivedDates : List String := service.convertedBy service.receiving service.file.code

theorem inside_class :
    Code.inside s!"export class {service.symbols.pascal}Service " service.file.code.texts =
      "private readonly http = inject(HttpClient);" ::
        s!"private readonly resourceUrl = '{service.resourceUrl}';" :: "" ::
        ((requests service.symbols).texts ++ "" :: service.conversions.texts) := by
  rw [SourceFile.inside_code (by simp [← String.toList_inj, toString])]
  simp only [file, Code.texts_append, Code.texts_lines, List.cons_append, List.nil_append]
  rw [Code.inside_cons (by simp [← String.toList_inj, toString]),
    Code.inside_cons (by simp [← String.toList_inj, toString]), Code.inside_cons (by simp),
    Code.inside_cons (by simp [← String.toList_inj, toString]), Code.inside_last]
  simp only [Code.texts_append, Code.texts_lines, List.cons_append, List.nil_append,
    List.append_assoc]

/-- A line that opens a protected method. -/
def IsProtected (opening : String) : Prop := "protected ".toList <+: opening.toList

theorem isProtected_append {start : String} (h : "protected ".toList <+: start.toList)
    (rest : String) : IsProtected (start ++ rest) := by
  rw [IsProtected, String.toList_append]
  exact h.trans (List.prefix_append _ _)

/-- The methods that send requests are passed over in the search for a protected one. -/
theorem inside_requests {opening : String} (h : IsProtected opening)
    (symbols : Symbols) (later : List String) :
    Code.inside opening ((requests symbols).texts ++ later) = Code.inside opening later := by
  obtain ⟨rest, hopening⟩ := h
  have houter : Code.isInner (opening ++ "\x7b") = false := by
    simp [Code.isInner, ← hopening, List.isPrefixOf, ← String.toList_inj]
  have hclosing : opening ++ "\x7b" ≠ "\x7d" ++ "" := by
    simp [← String.toList_inj, ← hopening]
  have hempty : opening ++ "\x7b" ≠ "" := by simp
  simp only [requests, Code.texts_append, Code.texts_lines, List.append_assoc, List.cons_append,
    List.nil_append]
  rw [Code.inside_other
      ⟨houter, by simp [← String.toList_inj, ← hopening, toString], hclosing⟩,
    Code.inside_cons hempty,
    Code.inside_other
      ⟨houter, by simp [← String.toList_inj, ← hopening, toString], hclosing⟩,
    Code.inside_cons hempty,
    Code.inside_other ⟨houter, by simp [← String.toList_inj, ← hopening], hclosing⟩,
    Code.inside_cons hempty,
    Code.inside_other ⟨houter, by simp [← String.toList_inj, ← hopening], hclosing⟩,
    Code.inside_cons hempty,
    Code.inside_other ⟨houter, by simp [← String.toList_inj, ← hopening], hclosing⟩]

/-- A protected method is looked for among the methods that convert. -/
theorem inside_conversions {opening : String} (h : IsProtected opening) :
    Code.inside opening
        (Code.inside s!"export class {service.symbols.pascal}Service " service.file.code.texts) =
      Code.inside opening service.conversions.texts := by
  have hprotected := h
  obtain ⟨rest, hopening⟩ := h
  rw [inside_class,
    Code.inside_cons (by simp [← String.toList_inj, ← hopening]),
    Code.inside_cons (by simp [← String.toList_inj, ← hopening, toString]),
    Code.inside_cons (by simp), inside_requests hprotected, Code.inside_cons (by simp)]

variable {service : Service}

/-- What a protected method converts, if it returns an object that is put together in the usual
way. -/
theorem convertedBy_eq {method closing : String} {convert : String → String} {names : List String}
    (hprotected : IsProtected method)
    (hreturned : Code.inside method service.conversions.texts =
      (Code.block "return " (Code.lines ("...entity," :: names.map convert)) closing).texts)
    (hconvert : ∀ name ∈ names, ∃ rest, convert name = name ++ rest ∧
      rest.toList.head? = some ':')
    (hsolid : ∀ name ∈ names, IsSolid name) :
    service.convertedBy method service.file.code = names := by
  rw [convertedBy, inside_conversions service hprotected, hreturned, Code.inside_last,
    Code.texts_lines]
  exact setProperties_conversion hconvert hsolid

theorem sentDates_eq (h : ∀ name ∈ service.dates, IsSolid name) :
    service.sentDates = service.dates := by
  refine @convertedBy_eq _ _ " as T;" dateToText _ ?_ ?_ ?_ h
  · unfold sending
    simp only [toString, String.append_assoc]
    exact isProtected_append (by decide) _
  · simp only [conversions, Code.texts_append, List.append_assoc]
    exact Code.inside_block _ _ _ _
  · intro name _
    simp only [dateToText, toString, String.append_assoc]
    exact ⟨_, rfl, by simp⟩

theorem receivedDates_eq (h : ∀ name ∈ service.dates, IsSolid name) :
    service.receivedDates = service.dates := by
  have hprotected : IsProtected service.receiving := by
    unfold receiving
    simp only [toString, String.append_assoc]
    exact isProtected_append (by decide) _
  have hpassed : Code.isInner (service.receiving ++ "\x7b") = false ∧
      service.receiving ≠ service.sending ∧ service.receiving ++ "\x7b" ≠ "\x7d" ++ "" := by
    refine ⟨?_, ?_, ?_⟩
    · obtain ⟨rest, hrest⟩ := hprotected
      simp [Code.isInner, ← hrest, List.isPrefixOf]
    · unfold receiving sending
      simp [← String.toList_inj, toString]
    · obtain ⟨rest, hrest⟩ := hprotected
      simp [← String.toList_inj, ← hrest]
  refine @convertedBy_eq _ _ ";" dateFromText _ hprotected ?_ ?_ h
  · simp only [conversions, Code.texts_append, Code.texts_lines, List.append_assoc,
      List.cons_append, List.nil_append]
    -- the method that converts on the way to the server comes first
    refine (Code.inside_other hpassed _).trans ?_
    rw [Code.inside_cons (by simp)]
    exact Code.inside_block _ _ _ _
  · intro name _
    simp only [dateFromText, toString, String.append_assoc]
    exact ⟨_, rfl, by simp⟩

end Service

/-! ## Who imports dates -/

/-- The import of dates. -/
def dateImport : Import := .default "dayjs" "dayjs/esm"

theorem symbols_line_ne_dateImport (names : List String) (specifier : String) :
    (Import.symbols names specifier).line ≠ dateImport.line := by
  simp [Import.line, dateImport, braced, toString, ← String.toList_inj]

theorem line_mem_dateImports_iff (context : Context) :
    dateImport.line ∈ (dateImports context).map Import.line ↔ dateFields context ≠ [] := by
  unfold dateImports
  cases hdates : (dateFields context).isEmpty with
  | true =>
    rw [List.isEmpty_iff] at hdates
    simp [hdates]
  | false =>
    rw [List.isEmpty_eq_false_iff] at hdates
    simp [hdates, dateImport]

theorem dateImport_mem_interface_iff (context : Context) :
    dateImport.line ∈ (Interface.ofContext context).file.code ↔ dateFields context ≠ [] := by
  rw [line_mem_interface_iff, ← line_mem_dateImports_iff, List.mem_map, or_iff_left]
  rintro (⟨name, -, hline⟩ | ⟨name, -, hline⟩)
  · exact symbols_line_ne_dateImport _ _ hline
  · exact symbols_line_ne_dateImport _ _ hline

theorem dateImport_mem_service_iff (apiBaseUrl : String) (context : Context) :
    dateImport.line ∈ (Service.ofContext apiBaseUrl context).file.code ↔
      dateFields context ≠ [] := by
  have hbody : (Service.ofContext apiBaseUrl context).file.body.modules = [] := by
    simp [Service.file, Service.requests, Service.conversions, Service.request]
  have hother : ∀ names specifier, dateImport.line ≠ (Import.symbols names specifier).line :=
    fun names specifier => (symbols_line_ne_dateImport names specifier).symm
  rw [SourceFile.line_mem_code_iff hbody, ← line_mem_dateImports_iff]
  simp [Service.file, Service.imports, Service.ofContext, hother]

/-! ## Dates are converted where the interface has them -/

/-- The service of an entity converts what its interface declares as dates, and both files import
dates just if there is something to convert. -/
structure ConvertsDates (apiBaseUrl : String) (context : Context) : Prop where
  sent : (Service.ofContext apiBaseUrl context).sentDates = interfaceDates context
  received : (Service.ofContext apiBaseUrl context).receivedDates = interfaceDates context
  interfaceImport : dateImport.line ∈ (Interface.ofContext context).file.code ↔
    interfaceDates context ≠ []
  serviceImport : dateImport.line ∈ (Service.ofContext apiBaseUrl context).file.code ↔
    interfaceDates context ≠ []

section

variable {context : Context}

theorem HasSolidNames.dates (h : HasSolidNames context) :
    ∀ name ∈ (dateFields context).map Field.name, IsSolid name := by
  intro name hname
  obtain ⟨field, hfield, rfl⟩ := List.mem_map.mp hname
  exact h.field field (List.mem_filter.mp hfield).1

/-- The interface leaves out of the fields of dates the one that is called like the number. -/
theorem interfaceDates_eq_filter (hsolid : HasSolidNames context) (htypes : HasTypes context) :
    interfaceDates context =
      ((dateFields context).map Field.name).filter fun name => name ≠ idName := by
  rw [interfaceDates_eq hsolid htypes, listedFields, dateFields, List.filter_map,
    List.filter_filter, List.filter_filter]
  congr 2
  funext field
  exact Bool.and_comm _ _

theorem sentDates_ofContext (h : HasSolidNames context) (apiBaseUrl : String) :
    (Service.ofContext apiBaseUrl context).sentDates = (dateFields context).map Field.name :=
  Service.sentDates_eq h.dates

theorem receivedDates_ofContext (h : HasSolidNames context) (apiBaseUrl : String) :
    (Service.ofContext apiBaseUrl context).receivedDates = (dateFields context).map Field.name :=
  Service.receivedDates_eq h.dates

/-- Nothing is left out just if no field of dates is called like the number. -/
theorem filter_dateFields_iff (context : Context) :
    (((dateFields context).map Field.name).filter fun name => name ≠ idName) =
        (dateFields context).map Field.name ↔
      ∀ field ∈ context.fields, field.name = idName → isDate field.type = false := by
  rw [List.filter_eq_self]
  constructor
  · intro h field hfield hid
    rw [Bool.eq_false_iff]
    intro hdate
    have hmem : field.name ∈ (dateFields context).map Field.name :=
      List.mem_map.mpr ⟨field, List.mem_filter.mpr ⟨hfield, hdate⟩, rfl⟩
    exact of_decide_eq_true (h _ hmem) hid
  · intro h name hname
    obtain ⟨field, hfield, rfl⟩ := List.mem_map.mp hname
    obtain ⟨hmem, hdate⟩ := List.mem_filter.mp hfield
    refine decide_eq_true fun hid => ?_
    rw [h field hmem hid] at hdate
    cases hdate

/-- The service converts what the interface declares as dates just if no field of dates is called
like the number. -/
theorem convertsDates_iff_of_hasSolidNames (hsolid : HasSolidNames context)
    (htypes : HasTypes context) (apiBaseUrl : String) :
    ConvertsDates apiBaseUrl context ↔
      ∀ field ∈ context.fields, field.name = idName → isDate field.type = false := by
  have hsent := sentDates_ofContext hsolid apiBaseUrl
  have hreceived := receivedDates_ofContext hsolid apiBaseUrl
  rw [← filter_dateFields_iff, ← interfaceDates_eq_filter hsolid htypes]
  constructor
  · intro h
    rw [← h.sent, hsent]
  · intro h
    have himport : dateFields context ≠ [] ↔ interfaceDates context ≠ [] := by
      rw [h, ne_eq, ne_eq, List.map_eq_nil_iff]
    exact ⟨hsent.trans h.symm, hreceived.trans h.symm,
      (dateImport_mem_interface_iff context).trans himport,
      (dateImport_mem_service_iff apiBaseUrl context).trans himport⟩

end

/-- **Dates.** Whatever a document declares, the service of an entity converts the visible fields
that are declared with a type of dates, in order and the same ones both ways, and its file and that
of the interface import dates just if there are such fields. The interface declares them as dates
except one that is called like the number. So all this agrees with the interface just if no visible
field of that name has a type of dates. -/
theorem convertsDates_iff {strict : Bool} {text : String} {model : Model}
    (hparse : (parse strict text).outcome = .ok model) {style : PluralStyle} {strictEnds : Bool}
    {contexts : List Context}
    (hcontexts : (entityContexts style strictEnds model).outcome = .ok contexts)
    {context : Context} (hcontext : context ∈ contexts) (apiBaseUrl : String) :
    let service := Service.ofContext apiBaseUrl context
    let dates := (context.fields.filter fun field => isDate field.type).map Field.name
    service.sentDates = dates ∧ service.receivedDates = dates ∧
      (interfaceDates context = dates.filter fun name => name ≠ "id") ∧
      (dateImport.line ∈ (Interface.ofContext context).file.code ↔ dates ≠ []) ∧
      (dateImport.line ∈ service.file.code ↔ dates ≠ []) ∧
      (ConvertsDates apiBaseUrl context ↔
        ∀ field ∈ context.fields, field.name = "id" → isDate field.type = false) := by
  intro service dates
  rw [contexts_eq_of_outcome hcontexts] at hcontext
  obtain ⟨entity, hentity, rfl⟩ := List.mem_map.mp hcontext
  have hsolid : HasSolidNames (.of style model.relationships entity) :=
    hasSolidNames_of_parse hparse hentity
  have htypes : HasTypes (.of style model.relationships entity) :=
    hasTypes_of_parse hparse hentity
  have hdates : dates ≠ [] ↔ dateFields (.of style model.relationships entity) ≠ [] :=
    not_congr List.map_eq_nil_iff
  refine ⟨sentDates_ofContext hsolid apiBaseUrl, receivedDates_ofContext hsolid apiBaseUrl,
    interfaceDates_eq_filter hsolid htypes, ?_, ?_,
    convertsDates_iff_of_hasSolidNames hsolid htypes apiBaseUrl⟩
  · rw [hdates, dateImport_mem_interface_iff]
  · rw [hdates, dateImport_mem_service_iff]

/-- An audited entity with dates, one of them shadowed, and a number of its own. -/
theorem convertsDates_of_shadowed_date :
    let text := "@EnableAudit\nentity A \x7b\n  id Long\n  due LocalDate // soon\n" ++
      "  b Instant\n\x7d\nrelationship OneToOne \x7b A(b) to A \x7d"
    ∃ model contexts, (parse true text).outcome = .ok model ∧
      (entityContexts .english true model).outcome = .ok contexts ∧
      ∃ context ∈ contexts,
        interfaceDates context = ["due", "createdDate", "lastModifiedDate"] ∧
        ConvertsDates "/api" context := by
  intro text
  have hparts : ((parse true text).value?.bind fun model =>
      (entityContexts .english true model).value?.map fun contexts =>
        contexts.head?.map Context.fields) =
      some (some (attachTypes ⟨"A", [.plain "id" "Long",
        ⟨"due", "LocalDate", false, [], some "soon", none⟩] ++ Entity.auditFields,
        .enabled⟩).fields) := by
    decide +kernel
  obtain ⟨model, hmodel, hparts⟩ := Option.bind_eq_some_iff.mp hparts
  obtain ⟨contexts, hcontexts, hparts⟩ := Option.map_eq_some_iff.mp hparts
  obtain ⟨context, hcontext, hfields⟩ := Option.map_eq_some_iff.mp hparts
  rw [Report.value?_eq_some_iff] at hmodel hcontexts
  have hmem : context ∈ contexts := List.mem_of_head? hcontext
  obtain ⟨-, -, hinterface, -, -, hiff⟩ := convertsDates_iff hmodel hcontexts hmem "/api"
  rw [hfields] at hinterface hiff
  refine ⟨model, contexts, hmodel, hcontexts, context, hmem, ?_, hiff.mpr (by decide)⟩
  rw [hinterface]
  decide

/-- A number that is declared as a date is none in the interface, and yet it is converted. -/
theorem not_convertsDates_of_id :
    ∃ model contexts, (parse true "entity A \x7b\n  id Instant\n\x7d").outcome = .ok model ∧
      (entityContexts .english true model).outcome = .ok contexts ∧
      ∃ context ∈ contexts, interfaceDates context = [] ∧
        (Service.ofContext "/api" context).sentDates = ["id"] ∧
        (Service.ofContext "/api" context).receivedDates = ["id"] ∧
        dateImport.line ∈ (Interface.ofContext context).file.code ∧
        dateImport.line ∈ (Service.ofContext "/api" context).file.code ∧
        ¬ConvertsDates "/api" context := by
  let a : Entity := ⟨"A", [.plain "id" "Instant"], .none⟩
  have hparts : ((parse true "entity A \x7b\n  id Instant\n\x7d").value?.bind fun model =>
      (entityContexts .english true model).value?) = some [.of .english [] a] := by
    decide +kernel
  obtain ⟨model, hmodel, hcontexts⟩ := Option.bind_eq_some_iff.mp hparts
  rw [Report.value?_eq_some_iff] at hmodel hcontexts
  have hsolid : HasSolidNames (.of .english [] a) := by
    constructor
    · intro field hfield
      obtain rfl : field = attachType (.plain "id" "Instant") := List.mem_singleton.mp hfield
      exact .of_isName ⟨by decide, by decide⟩
    · exact fun view hview => absurd hview List.not_mem_nil
    · exact fun view hview => absurd hview List.not_mem_nil
  have hdates : (dateFields (.of .english [] a)).map Field.name = ["id"] := by decide
  have hsent : (Service.ofContext "/api" (.of .english [] a)).sentDates = ["id"] := by
    rw [sentDates_ofContext hsolid, hdates]
  have hinterface : interfaceDates (.of .english [] a) = [] := by decide +kernel
  refine ⟨model, _, hmodel, hcontexts, _, List.mem_cons_self, hinterface, hsent, ?_,
    by decide +kernel, by decide +kernel, ?_⟩
  · rw [receivedDates_ofContext hsolid, hdates]
  · intro h
    have hsame := h.sent
    rw [hsent, hinterface] at hsame
    cases hsame

end EntityScaffold.Angular
