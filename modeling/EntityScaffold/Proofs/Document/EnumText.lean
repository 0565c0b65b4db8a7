import EntityScaffold.Proofs.Document.SingleBlock

/-!
# What comments and literals do to an enumeration

The body of an enumeration is cut at its commas, and of each piece what stands before the first
opening parenthesis is the value. Lines, comment signs and quotes mean nothing in it. So a comment
line is not passed over: the piece it begins in has the comment sign in its value
(`exists_value_of_sign`), and values are read back from lines exactly if none of these is a comment
(`enum_lines_read_back_iff`). And a literal goes on after the parenthesis only as far as the next
comma: what follows the comma is a piece of its own, which names a value unless it has nothing
before a comma or an opening parenthesis (`enum_members_read_back_iff`).
-/

namespace EntityScaffold.Document

open Text

/-! ## Enumerations as written -/

/-- One enumeration, and no other, is found in a text as it is written. -/
def DeclaresEnum (text : List Char) (declared : Enumeration) : Prop :=
  ∃ registry : Registry Enumeration,
    (readEnums (.asWritten text) : Report Fault (Registry Enumeration)).outcome = .ok registry ∧
      registry.items = [declared]

/-- An enumeration is found as what its body names, if there is a body. -/
theorem declaresEnum_iff {name body : List Char} (hname : IsName name) (hclosed : '}' ∉ body)
    {declared : Enumeration} :
    DeclaresEnum (blockText [] "enum".toList name body) declared ↔
      body ≠ [] ∧ Block.enumeration ⟨name, body⟩ = declared := by
  have hlive := liveDeclarations_blockText readsDeclarations_readEnum hasBody_enum isPrelude_nil
    isName_enum hname fun hne => blockText_isText hname hne hclosed "enum"
  simp only [DeclaresEnum, ← Report.value?_eq_some_iff, value?_readEnums, Source.asWritten, hlive,
    Option.some.injEq, exists_eq_left']
  by_cases hbody : body = []
  · simp [hbody, Registry.ofList, Registry.empty]
  · have hitems : (Registry.ofList [Block.enumeration ⟨name, body⟩]).items =
        [Block.enumeration ⟨name, body⟩] := rfl
    rw [if_neg hbody, List.map_singleton, hitems]
    simp [hbody]

/-- The values are those that the body names. -/
theorem declaresEnum_values_iff {name body : List Char} (hname : IsName name)
    (hclosed : '}' ∉ body) {values : List (List Char)} :
    DeclaresEnum (blockText [] "enum".toList name body)
        ⟨String.ofList name, values.map String.ofList⟩ ↔
      body ≠ [] ∧ valuesOf body = values := by
  have hinj : Function.Injective String.ofList := fun _ _ h => String.ofList_inj.mp h
  rw [declaresEnum_iff hname hclosed, Block.enumeration, Enumeration.mk.injEq,
    (List.map_injective_iff.mpr hinj).eq_iff]
  simp

/-! ## Comment lines -/

/-- Does a line begin, blanks aside, with a comment sign? -/
def beginsComment (line : List Char) : Bool := startsComment (trim line)

/-- A body of lines, after the line of the opening brace and before that of the closing one. -/
def bodyOfLines (lines : List (List Char)) : List Char :=
  lines.flatMap (fun line => '\n' :: line) ++ ['\n']

/-- Lines with one value each, which ends with a comma. The last one may be without. -/
inductive ListsValues : List (List Char) → List (List Char) → Prop
  | nil : ListsValues [] []
  | last {value line : List Char} (hvalue : IsName value) (hline : trim line = value) :
      ListsValues [line] [value]
  | cons {value line : List Char} {values lines : List (List Char)} (hvalue : IsName value)
      (hline : trim line = value ++ [',']) (hlater : ListsValues lines values) :
      ListsValues (line :: lines) (value :: values)

theorem bodyOfLines_cons (line : List Char) (later : List (List Char)) :
    bodyOfLines (line :: later) = '\n' :: line ++ bodyOfLines later := by
  rw [bodyOfLines, List.flatMap_cons, List.append_assoc, bodyOfLines]

/-- Values are read back from lines that list them. -/
theorem ListsValues.valuesOf_eq {lines values : List (List Char)} (h : ListsValues lines values) :
    valuesOf (bodyOfLines lines) = values := by
  have hfeed : ∀ c ∈ ['\n'], isBlank c = true := by decide
  induction h with
  | nil => rfl
  | @last value line hvalue hline =>
    have htrim : trim ('\n' :: line ++ ['\n']) = value := by
      rw [← hline, ← trim_append_of_blank hfeed hfeed line]
      rfl
    rw [bodyOfLines_cons]
    exact hvalue.valuesOf_eq htrim
  | @cons value line values lines hvalue hline _ ih =>
    obtain ⟨gap, gap', hgap, hgap', hsplit⟩ := exists_trim line
    have htrim : trim (['\n'] ++ (gap ++ value)) = value := by
      rw [trim_append_of_blank_left hfeed, trim_append_of_blank_left hgap, hvalue.trim_eq]
    have hbody : bodyOfLines (line :: lines) =
        (['\n'] ++ (gap ++ value)) ++ ',' :: (gap' ++ bodyOfLines lines) := by
      rw [bodyOfLines_cons, hsplit, hline]
      simp
    rw [hbody, valuesOf_append_comma, hvalue.valuesOf_eq htrim,
      valuesOf_append_of_blank_left hgap', ih]
    rfl

theorem ListsValues.isName {lines values : List (List Char)} (h : ListsValues lines values) :
    ∀ value ∈ values, IsName value := by
  induction h with
  | nil => exact fun value hmem => absurd hmem List.not_mem_nil
  | last hvalue _ => exact fun value hmem => List.mem_singleton.mp hmem ▸ hvalue
  | cons hvalue _ _ ih => exact List.forall_mem_cons.mpr ⟨hvalue, ih⟩

/-- No line that lists a value has a parenthesis. -/
theorem ListsValues.not_mem {lines values : List (List Char)} (h : ListsValues lines values) :
    ∀ line ∈ lines, '(' ∉ line := by
  have hpart : ∀ {line part : List Char}, trim line = part → '(' ∉ part → '(' ∉ line := by
    intro line part hline hpart hmem
    obtain ⟨gap, gap', hgap, hgap', hsplit⟩ := exists_trim line
    have hsolid : isBlank '(' = false := by decide
    rw [hsplit, hline, List.mem_append, List.mem_append] at hmem
    rcases hmem with (hmem | hmem) | hmem
    · exact not_mem_of_isBlank hgap hsolid hmem
    · exact hpart hmem
    · exact not_mem_of_isBlank hgap' hsolid hmem
  have hword : isWord '(' = false := by decide
  induction h with
  | nil => exact fun line hline => absurd hline List.not_mem_nil
  | last hvalue hline =>
    intro line hmem
    obtain rfl := List.mem_singleton.mp hmem
    exact hpart hline (hvalue.not_mem hword)
  | cons hvalue hline _ ih =>
    intro line hmem
    rcases List.mem_cons.mp hmem with rfl | hlater
    · exact hpart hline (by simp [hvalue.not_mem hword])
    · exact ih line hlater

/-- The value of the piece that a comment sign stands in has the sign, if no parenthesis stands
before it. -/
theorem sign_infix_valueOf {before : List Char} (h : '(' ∉ before) (rest : List Char) :
    commentSign <:+: valueOf (before ++ (commentSign ++ rest)) := by
  have hslash : isBlank '/' = false := by decide
  have hrun : (before ++ (commentSign ++ rest)).takeWhile (· != '(') =
      before ++ '/' :: '/' :: rest.takeWhile (· != '(') := by
    rw [List.takeWhile_append_of_pos (bne_of_not_mem h)]
    rfl
  have hend : trimEnd ('/' :: rest.takeWhile (· != '(')) =
      '/' :: trimEnd (rest.takeWhile (· != '(')) := by
    have hstops : Stops isBlank ['/'].reverse := stops_cons.mpr hslash
    exact trimEnd_append hstops _
  rw [valueOf_eq, hrun, trim_append_cons hslash, hend]
  exact ⟨trimStart before, trimEnd (rest.takeWhile (· != '(')), by simp [commentSign]⟩

/-- **Signs.** A comment sign is part of a value if no parenthesis stands before it. -/
theorem exists_value_of_sign {before : List Char} (h : '(' ∉ before) (rest : List Char) :
    ∃ value ∈ valuesOf (before ++ (commentSign ++ rest)), commentSign <:+: value := by
  induction hlength : before.length using Nat.strong_induction_on generalizing before with
  | _ length ih =>
    by_cases hmem : ',' ∈ before
    · -- what stands before a comma is other pieces
      obtain ⟨piece, later, rfl, -⟩ := List.eq_append_cons_of_mem hmem
      have hlater : '(' ∉ later := fun hmem => h (by simp [hmem])
      have hshorter : later.length < length := by
        rw [← hlength, List.length_append, List.length_cons]
        omega
      obtain ⟨value, hvalue, hsign⟩ := ih later.length hshorter hlater rfl
      refine ⟨value, ?_, hsign⟩
      rw [List.append_assoc, List.cons_append, valuesOf_append_comma]
      exact List.mem_append_right _ hvalue
    · have hpiece : ∀ {part : List Char}, ',' ∉ part →
          valueOf (before ++ (commentSign ++ part)) ∈
            valuesOf (before ++ (commentSign ++ part)) := by
        intro part hpart
        have hcomma : ',' ∉ before ++ (commentSign ++ part) := by simp [hmem, hpart, commentSign]
        have hvalue := sign_infix_valueOf h part
        rw [valuesOf_eq_of_not_mem hcomma, List.mem_filter]
        refine ⟨List.mem_singleton_self _, ?_⟩
        cases hnil : valueOf (before ++ (commentSign ++ part)) with
        | nil =>
          rw [hnil] at hvalue
          exact absurd (List.infix_nil.mp hvalue) (by decide)
        | cons c value => rfl
      by_cases hrest : ',' ∈ rest
      · -- and so is what stands after the next one
        obtain ⟨part, later, rfl, hpart⟩ := List.eq_append_cons_of_mem hrest
        refine ⟨_, ?_, sign_infix_valueOf h part⟩
        rw [← List.append_assoc commentSign, ← List.append_assoc before, valuesOf_append_comma]
        exact List.mem_append_left _ (hpiece hpart)
      · exact ⟨_, hpiece hrest, sign_infix_valueOf h rest⟩

/-- The first line that is a comment puts a comment sign into a value, whatever the lines after it
are. -/
theorem exists_value_of_comment {lines : List (List Char)}
    (hopen : ∀ line ∈ lines, beginsComment line = false → '(' ∉ line) {comment : List Char}
    (hmem : comment ∈ lines) (hcomment : beginsComment comment = true) {before : List Char}
    (hbefore : '(' ∉ before) :
    ∃ value ∈ valuesOf (before ++ bodyOfLines lines), commentSign <:+: value := by
  induction lines generalizing before with
  | nil => exact absurd hmem List.not_mem_nil
  | cons line later ih =>
    rw [bodyOfLines_cons]
    cases hline : beginsComment line with
    | true =>
      obtain ⟨gap, gap', hgap, -, hsplit⟩ := exists_trim line
      obtain ⟨rest, hrest⟩ := List.isPrefixOf_iff_prefix.mp hline
      have hsolid : isBlank '(' = false := by decide
      have hhead : '(' ∉ before ++ '\n' :: gap := by
        simp [hbefore, not_mem_of_isBlank hgap hsolid]
      have hsign := exists_value_of_sign hhead (rest ++ (gap' ++ bodyOfLines later))
      rw [hsplit, ← hrest]
      simpa only [List.append_assoc, List.cons_append] using hsign
    | false =>
      have hhead : '(' ∉ before ++ '\n' :: line := by
        simp [hbefore, hopen line List.mem_cons_self hline]
      have hlater : comment ∈ later := by
        rcases List.mem_cons.mp hmem with rfl | hlater
        · rw [hcomment] at hline
          exact absurd hline (by simp)
        · exact hlater
      have hothers : ∀ other ∈ later, beginsComment other = false → '(' ∉ other :=
        fun other hother => hopen other (List.mem_cons_of_mem _ hother)
      have hsign := ih hothers hlater hhead
      rw [← List.append_assoc]
      exact hsign

/-- **Lines.** Values that lines list, with comments between them, are read back exactly if none of
the lines is a comment. If one is, the enumeration has a value with a comment sign in it. -/
theorem enum_lines_read_back_iff {name : List Char} (hname : IsName name)
    {lines values : List (List Char)} (hclosed : ∀ line ∈ lines, '}' ∉ line)
    (hlists : ListsValues (lines.filter fun line => !beginsComment line) values) :
    (DeclaresEnum (blockText [] "enum".toList name (bodyOfLines lines))
        ⟨String.ofList name, values.map String.ofList⟩ ↔
      ∀ line ∈ lines, beginsComment line = false) ∧
    ((∃ line ∈ lines, beginsComment line = true) → ∃ declared,
      DeclaresEnum (blockText [] "enum".toList name (bodyOfLines lines)) declared ∧
        declared.name = String.ofList name ∧
        ∃ value ∈ declared.values, commentSign <:+: value.toList) := by
  have hbody : bodyOfLines lines ≠ [] := by simp [bodyOfLines]
  have hbodyClosed : '}' ∉ bodyOfLines lines := by
    intro hmem
    rw [bodyOfLines, List.mem_append, List.mem_flatMap] at hmem
    rcases hmem with ⟨line, hline, hmem⟩ | hmem
    · exact hclosed line hline (by simpa using hmem)
    · exact absurd hmem (by decide)
  have hopen : ∀ line ∈ lines, beginsComment line = false → '(' ∉ line :=
    fun line hline hvalue => hlists.not_mem line (List.mem_filter.mpr ⟨hline, by simp [hvalue]⟩)
  have hsign : ∀ line ∈ lines, beginsComment line = true →
      ∃ value ∈ valuesOf (bodyOfLines lines), commentSign <:+: value := by
    intro line hline hcomment
    have hnil : '(' ∉ ([] : List Char) := List.not_mem_nil
    exact exists_value_of_comment hopen hline hcomment hnil
  constructor
  · rw [declaresEnum_values_iff hname hbodyClosed]
    constructor
    · intro hread line hline
      rw [Bool.eq_false_iff]
      intro hcomment
      obtain ⟨value, hvalue, hinfix⟩ := hsign line hline hcomment
      rw [hread.2] at hvalue
      -- but no word has a slash
      have hslash : '/' ∈ value := hinfix.subset (by simp [commentSign])
      exact (hlists.isName value hvalue).not_mem (by decide) hslash
    · intro hnone
      have hall : (lines.filter fun line => !beginsComment line) = lines :=
        List.filter_eq_self.mpr fun line hline => by simp [hnone line hline]
      rw [hall] at hlists
      exact ⟨hbody, hlists.valuesOf_eq⟩
  · intro hsome
    obtain ⟨line, hline, hcomment⟩ := hsome
    obtain ⟨value, hvalue, hinfix⟩ := hsign line hline hcomment
    refine ⟨_, (declaresEnum_iff hname hbodyClosed).mpr ⟨hbody, rfl⟩, rfl, String.ofList value,
      List.mem_map_of_mem hvalue, ?_⟩
    rw [String.toList_ofList]
    exact hinfix

/-- Values on lines of their own, the last one without a comma. -/
theorem enum_lines_read_back_of_values :
    let lines := ["  A,".toList, "  B".toList]
    IsName "E".toList ∧ (∀ line ∈ lines, '}' ∉ line) ∧
      ListsValues (lines.filter fun line => !beginsComment line) ["A".toList, "B".toList] ∧
      DeclaresEnum (blockText [] "enum".toList "E".toList (bodyOfLines lines))
        ⟨"E", ["A", "B"]⟩ := by
  intro lines
  have hname : IsName "E".toList := by decide
  have hclosed : ∀ line ∈ lines, '}' ∉ line := by decide
  have hlists : ListsValues (lines.filter fun line => !beginsComment line)
      ["A".toList, "B".toList] :=
    .cons (by decide) (by decide) (.last (by decide) (by decide))
  have hnone : ∀ line ∈ lines, beginsComment line = false := by decide
  exact ⟨hname, hclosed, hlists, (enum_lines_read_back_iff hname hclosed hlists).1.mpr hnone⟩

/-- A comment before the last value becomes part of it, line feed and all. -/
theorem enum_value_with_comment :
    let lines := ["  A,".toList, "// note".toList, "  B".toList]
    let read := fun lines : List (List Char) =>
      (readEnums (.asWritten (blockText [] "enum".toList "E".toList (bodyOfLines lines))) :
        Report Fault (Registry Enumeration)).value?.map Registry.items
    String.ofList (blockText [] "enum".toList "E".toList (bodyOfLines lines)) =
        "enum E \x7b\n  A,\n// note\n  B\n\x7d" ∧
      lines.filter (fun line => !beginsComment line) = ["  A,".toList, "  B".toList] ∧
      read ["  A,".toList, "  B".toList] = some [⟨"E", ["A", "B"]⟩] ∧
      read lines = some [⟨"E", ["A", "// note\n  B"]⟩] := by
  decide +kernel

/-! ## Literals -/

/-- A value as it stands in an enumeration, with blanks around it. -/
structure EnumMember where
  before : List Char
  word : List Char
  /-- The blanks before a literal and the text between its quotes, if there is one. -/
  literal : Option (List Char × List Char)
  after : List Char
deriving DecidableEq, Repr

/-- What stands after the word and before the blanks at the end. -/
def EnumMember.literalText (member : EnumMember) : List Char :=
  match member.literal with
  | some (gap, quoted) => gap ++ '(' :: '"' :: (quoted ++ ['"', ')'])
  | none => []

def EnumMember.text (member : EnumMember) : List Char :=
  member.before ++ (member.word ++ (member.literalText ++ member.after))

/-- A member is a word with blanks around it and perhaps a literal. Anything may stand in the
literal but a closing brace. -/
structure EnumMember.WellFormed (member : EnumMember) : Prop where
  before : IsSpace member.before
  word : IsName member.word
  literal : ∀ literal ∈ member.literal, IsSpace literal.1 ∧ '}' ∉ literal.2
  after : IsSpace member.after

/-- Blanks aside, a comma or an opening parenthesis comes first. -/
def BeginsIdle (s : List Char) : Prop :=
  (trimStart s).head? = some ',' ∨ (trimStart s).head? = some '('

/-- Nothing stands after any comma before another comma or an opening parenthesis. -/
def AddsNothing (quoted : List Char) : Prop :=
  ∀ rest, ',' :: rest <:+ quoted → BeginsIdle rest

instance (member : EnumMember) : Decidable member.WellFormed :=
  decidable_of_iff (IsSpace member.before ∧ IsName member.word ∧
    (∀ literal ∈ member.literal, IsSpace literal.1 ∧ '}' ∉ literal.2) ∧ IsSpace member.after)
    ⟨fun ⟨hbefore, hword, hliteral, hafter⟩ => ⟨hbefore, hword, hliteral, hafter⟩,
      fun ⟨hbefore, hword, hliteral, hafter⟩ => ⟨hbefore, hword, hliteral, hafter⟩⟩

instance (s : List Char) : Decidable (BeginsIdle s) :=
  inferInstanceAs (Decidable (_ ∨ _))

instance (quoted : List Char) : Decidable (AddsNothing quoted) :=
  decidable_of_iff (∀ t ∈ quoted.tails, t.head? = some ',' → BeginsIdle t.tail)
    ⟨fun h rest hrest => h _ ((List.mem_tails _ _).mpr hrest) rfl, fun h t ht hhead => by
      obtain ⟨rest, rfl⟩ := List.head?_eq_some_iff.mp hhead
      exact h rest ((List.mem_tails _ _).mp ht)⟩

/-- The body that members make. -/
def bodyOfMembers (members : List EnumMember) : List Char :=
  [','].intercalate (members.map EnumMember.text)

theorem suffix_comma_iff {a b rest : List Char} (ha : ',' ∉ a) :
    ',' :: rest <:+ a ++ ',' :: b ↔ rest = b ∨ ',' :: rest <:+ b := by
  induction a with
  | nil => rw [List.nil_append, List.suffix_cons_iff, List.cons.injEq, and_iff_right rfl]
  | cons c a ih =>
    rw [List.mem_cons, not_or] at ha
    rw [List.cons_append, List.suffix_cons_iff, ih ha.2, List.cons.injEq]
    simp [ha.1]

/-- The first comma is one of those that matter. -/
theorem addsNothing_append_comma {a b : List Char} (ha : ',' ∉ a) :
    AddsNothing (a ++ ',' :: b) ↔ BeginsIdle b ∧ AddsNothing b := by
  simp only [AddsNothing, suffix_comma_iff ha, or_imp, forall_and, forall_eq]

theorem addsNothing_of_not_mem {quoted : List Char} (h : ',' ∉ quoted) : AddsNothing quoted :=
  fun _ hrest => absurd (hrest.subset List.mem_cons_self) h

theorem head?_trimStart_ne {s : List Char} {c : Char} (h : c ∉ s) :
    (trimStart s).head? ≠ some c :=
  fun hhead => h ((List.dropWhile_sublist _).subset (List.mem_of_head? hhead))

/-- A text begins idle if the piece before its first comma names nothing. -/
theorem beginsIdle_append_comma {a : List Char} (ha : ',' ∉ a) (b : List Char) :
    BeginsIdle (a ++ ',' :: b) ↔ valueOf a = [] := by
  have hcomma : isBlank ',' = false := by decide
  have hhead := head?_trimStart_ne ha
  rw [BeginsIdle, trimStart_append_cons hcomma, valueOf_eq_nil_iff]
  cases htrim : trimStart a with
  | nil => simp
  | cons c rest =>
    have hc : c ≠ ',' := by simpa [htrim] using hhead
    simp [hc]

/-- A text without commas begins idle if it names nothing even when it goes on to a quote. -/
theorem beginsIdle_iff_of_not_mem {s : List Char} (hs : ',' ∉ s) (more : List Char) :
    BeginsIdle s ↔ valueOf (s ++ '"' :: more) = [] := by
  have hquote : isBlank '"' = false := by decide
  have hhead := head?_trimStart_ne hs
  rw [BeginsIdle, valueOf_eq_nil_iff, trimStart_append_cons hquote]
  cases htrim : trimStart s with
  | nil => simp
  | cons c rest =>
    have hc : c ≠ ',' := by simpa [htrim] using hhead
    simp [hc]

/-- What stands between a comma and the quote that ends a literal names nothing just if it begins
idle and adds nothing. -/
theorem valuesOf_append_quote_eq_nil_iff {s more : List Char} (hmore : ',' ∉ more) :
    valuesOf (s ++ '"' :: more) = [] ↔ BeginsIdle s ∧ AddsNothing s := by
  induction hlength : s.length using Nat.strong_induction_on generalizing s with
  | _ length ih =>
    by_cases hmem : ',' ∈ s
    · obtain ⟨a, b, rfl, ha⟩ := List.eq_append_cons_of_mem hmem
      have hshorter : b.length < length := by
        rw [← hlength, List.length_append, List.length_cons]
        omega
      rw [List.append_assoc, List.cons_append, valuesOf_append_comma, List.append_eq_nil_iff,
        valuesOf_eq_nil_iff_of_not_mem ha, ih b.length hshorter rfl, beginsIdle_append_comma ha,
        addsNothing_append_comma ha]
    · have hcomma : ',' ∉ s ++ '"' :: more := by simp [hmem, hmore]
      rw [valuesOf_eq_nil_iff_of_not_mem hcomma, ← beginsIdle_iff_of_not_mem hmem more,
        and_iff_left (addsNothing_of_not_mem hmem)]

/-! ## Members -/

/-- A word and what comes after it from a parenthesis on name the word. -/
theorem valuesOf_word_open {before word gap more : List Char} (hbefore : IsSpace before)
    (hword : IsName word) (hgap : IsSpace gap) (hmore : ',' ∉ more) :
    valuesOf (before ++ (word ++ (gap ++ '(' :: more))) = [word] := by
  have hopen : '(' ∉ before ++ (word ++ gap) := by
    have hsolid : isBlank '(' = false := by decide
    simp [not_mem_of_isBlank hbefore hsolid, not_mem_of_isBlank hgap hsolid,
      hword.not_mem (show isWord '(' = false by decide)]
  have hcomma : ',' ∉ before ++ (word ++ (gap ++ '(' :: more)) := by
    have hsolid : isBlank ',' = false := by decide
    simp [not_mem_of_isBlank hbefore hsolid, not_mem_of_isBlank hgap hsolid,
      hword.not_mem (show isWord ',' = false by decide), hmore]
  have hstop : Stops (· != '(') ('(' :: more) := stops_cons.mpr (by simp)
  have hrun := takeWhile_append_stops (bne_of_not_mem hopen) hstop
  have hvalue : valueOf (before ++ (word ++ (gap ++ '(' :: more))) = word := by
    rw [valueOf_eq, ← List.append_assoc word, ← List.append_assoc before, hrun,
      ← List.append_assoc, trim_append_of_blank hbefore hgap, hword.trim_eq]
  rw [valuesOf_eq_of_not_mem hcomma, hvalue]
  simp [hword.1]

/-- **Members.** A member names its word first, and nothing else just if its literal adds
nothing. -/
theorem EnumMember.WellFormed.valuesOf_text {member : EnumMember} (h : member.WellFormed) :
    ∃ extra, valuesOf member.text = member.word :: extra ∧
      (extra = [] ↔ ∀ literal ∈ member.literal, AddsNothing literal.2) := by
  have hafter : ',' ∉ ')' :: member.after := by
    simp [not_mem_of_isBlank h.after (show isBlank ',' = false by decide)]
  cases hliteral : member.literal with
  | none =>
    have htrim : trim (member.before ++ (member.word ++ member.after)) = member.word := by
      rw [← List.append_assoc, trim_append_of_blank h.before h.after, h.word.trim_eq]
    refine ⟨[], ?_, by simp⟩
    rw [EnumMember.text, EnumMember.literalText, hliteral]
    exact h.word.valuesOf_eq htrim
  | some literal =>
    obtain ⟨gap, quoted⟩ := literal
    obtain ⟨hgap, -⟩ := h.literal _ hliteral
    have htext : member.text = member.before ++ (member.word ++
        (gap ++ '(' :: '"' :: (quoted ++ '"' :: ')' :: member.after))) := by
      simp only [EnumMember.text, EnumMember.literalText, hliteral, List.append_assoc,
        List.cons_append, List.nil_append]
    by_cases hmem : ',' ∈ quoted
    · -- the literal is cut at its first comma
      obtain ⟨a, b, rfl, ha⟩ := List.eq_append_cons_of_mem hmem
      have hfirst : ',' ∉ '"' :: a := by simp [ha]
      have hcut : member.text = (member.before ++ (member.word ++ (gap ++ '(' :: '"' :: a))) ++
          ',' :: (b ++ '"' :: ')' :: member.after) := by
        rw [htext]
        simp only [List.append_assoc, List.cons_append]
      refine ⟨valuesOf (b ++ '"' :: ')' :: member.after), ?_, ?_⟩
      · rw [hcut, valuesOf_append_comma, valuesOf_word_open h.before h.word hgap hfirst]
        rfl
      · rw [valuesOf_append_quote_eq_nil_iff hafter]
        simp [addsNothing_append_comma ha]
    · have hmore : ',' ∉ '"' :: (quoted ++ '"' :: ')' :: member.after) := by
        simpa [hmem] using hafter
      refine ⟨[], ?_, by simp [addsNothing_of_not_mem hmem]⟩
      rw [htext, valuesOf_word_open h.before h.word hgap hmore]

section

variable {members : List EnumMember} (hmembers : ∀ member ∈ members, member.WellFormed)

include hmembers

/-- No word of a member is lost. -/
theorem words_sublist_valuesOf :
    (members.map EnumMember.word).Sublist (valuesOf (bodyOfMembers members)) := by
  rw [bodyOfMembers, valuesOf_intercalate, List.flatMap_map]
  induction members with
  | nil => exact List.Sublist.slnil
  | cons member later ih =>
    obtain ⟨extra, hvalues, -⟩ := (hmembers member List.mem_cons_self).valuesOf_text
    have hlater := ih fun other hother => hmembers other (List.mem_cons_of_mem _ hother)
    rw [List.map_cons, List.flatMap_cons, hvalues, List.cons_append]
    exact (hlater.trans (List.sublist_append_right _ _)).cons_cons _

/-- The words are all that members name just if their literals add nothing. -/
theorem valuesOf_bodyOfMembers_iff :
    valuesOf (bodyOfMembers members) = members.map EnumMember.word ↔
      ∀ member ∈ members, ∀ literal ∈ member.literal, AddsNothing literal.2 := by
  rw [bodyOfMembers, valuesOf_intercalate, List.flatMap_map]
  induction members with
  | nil => simp
  | cons member later ih =>
    obtain ⟨extra, hvalues, hextra⟩ := (hmembers member List.mem_cons_self).valuesOf_text
    have hformed : ∀ other ∈ later, other.WellFormed :=
      fun other hother => hmembers other (List.mem_cons_of_mem _ hother)
    have hwords := (words_sublist_valuesOf hformed).length_le
    rw [bodyOfMembers, valuesOf_intercalate, List.flatMap_map] at hwords
    rw [List.flatMap_cons, hvalues, List.map_cons, List.forall_mem_cons, ← hextra, ← ih hformed,
      List.cons_append, List.cons.injEq, and_iff_right rfl]
    constructor
    · intro hsame
      -- the later members alone are long enough
      have hlength := congrArg List.length hsame
      rw [List.length_append] at hlength
      have hnil : extra = [] := List.length_eq_zero_iff.mp (by omega)
      exact ⟨hnil, by rw [hnil, List.nil_append] at hsame; exact hsame⟩
    · intro hboth
      obtain ⟨hnil, hsame⟩ := hboth
      rw [hnil, List.nil_append, hsame]

theorem closing_not_mem_bodyOfMembers : '}' ∉ bodyOfMembers members := by
  have hsolid : isBlank '}' = false := by decide
  have hword : isWord '}' = false := by decide
  intro hmem
  rcases mem_intercalate hmem with hcomma | ⟨_, hpart, hmem⟩
  · exact absurd hcomma (by decide)
  · obtain ⟨member, hmember, rfl⟩ := List.mem_map.mp hpart
    have h := hmembers member hmember
    have hliteral : '}' ∉ member.literalText := by
      unfold EnumMember.literalText
      cases hsome : member.literal with
      | none => exact List.not_mem_nil
      | some literal =>
        obtain ⟨hgap, hquoted⟩ := h.literal literal hsome
        simp [not_mem_of_isBlank hgap hsolid, hquoted]
    simp only [EnumMember.text, List.mem_append] at hmem
    rcases hmem with hmem | hmem | hmem | hmem
    · exact not_mem_of_isBlank h.before hsolid hmem
    · exact h.word.not_mem hword hmem
    · exact hliteral hmem
    · exact not_mem_of_isBlank h.after hsolid hmem

/-- Only no members make no body. -/
theorem bodyOfMembers_eq_nil_iff : bodyOfMembers members = [] ↔ members = [] := by
  constructor
  · intro hnil
    have hwords := words_sublist_valuesOf hmembers
    rw [hnil] at hwords
    exact List.map_eq_nil_iff.mp (List.sublist_nil.mp hwords)
  · intro hnil
    rw [hnil]
    rfl

end

/-- **Literals.** The words of members with literals are read back exactly if there are any members
and after each comma in a literal comes, blanks aside, another comma or an opening parenthesis. No
word is lost in any case. -/
theorem enum_members_read_back_iff {name : List Char} (hname : IsName name)
    {members : List EnumMember} (hmembers : ∀ member ∈ members, member.WellFormed) :
    (DeclaresEnum (blockText [] "enum".toList name (bodyOfMembers members))
        ⟨String.ofList name, (members.map EnumMember.word).map String.ofList⟩ ↔
      members ≠ [] ∧ ∀ member ∈ members, ∀ literal ∈ member.literal, AddsNothing literal.2) ∧
    (members ≠ [] → ∃ declared,
      DeclaresEnum (blockText [] "enum".toList name (bodyOfMembers members)) declared ∧
        declared.name = String.ofList name ∧
        ((members.map EnumMember.word).map String.ofList).Sublist declared.values) := by
  have hclosed := closing_not_mem_bodyOfMembers hmembers
  have hbody := bodyOfMembers_eq_nil_iff hmembers
  constructor
  · rw [declaresEnum_values_iff hname hclosed, valuesOf_bodyOfMembers_iff hmembers, ne_eq, hbody]
  · intro hne
    have hfound := (declaresEnum_iff hname hclosed).mpr ⟨hbody.not.mpr hne, rfl⟩
    exact ⟨_, hfound, rfl, (words_sublist_valuesOf hmembers).map String.ofList⟩

/-- Parentheses, slashes and even a comma in a literal can do no harm. -/
theorem enum_members_read_back_of_idle :
    let members : List EnumMember :=
      [⟨[], "A".toList, some ([' '], "x), (y // z".toList), []⟩, ⟨[' '], "B".toList, none, []⟩]
    IsName "E".toList ∧ (∀ member ∈ members, member.WellFormed) ∧
      DeclaresEnum (blockText [] "enum".toList "E".toList (bodyOfMembers members))
        ⟨"E", ["A", "B"]⟩ := by
  intro members
  have hname : IsName "E".toList := by decide
  have hmembers : ∀ member ∈ members, member.WellFormed := by decide
  have hidle : ∀ member ∈ members, ∀ literal ∈ member.literal, AddsNothing literal.2 := by decide
  exact ⟨hname, hmembers, (enum_members_read_back_iff hname hmembers).1.mpr ⟨by simp, hidle⟩⟩

/-- What comes after the comma of a literal becomes a value, quote and parenthesis included. -/
theorem enum_literal_with_comma :
    let members : List EnumMember := [⟨[' '], "A".toList, some ([' '], "x, y".toList), [' ']⟩]
    IsName "E".toList ∧ (∀ member ∈ members, member.WellFormed) ∧
      String.ofList (blockText [] "enum".toList "E".toList (bodyOfMembers members)) =
        "enum E \x7b A (\"x, y\") \x7d" ∧
      (readEnums (.asWritten (blockText [] "enum".toList "E".toList (bodyOfMembers members))) :
        Report Fault (Registry Enumeration)).value?.map Registry.items =
          some [⟨"E", ["A", "y\")"]⟩] := by
  decide +kernel

end EntityScaffold.Document
