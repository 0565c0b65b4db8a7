import EntityScaffold.Proofs.Run.Overview
import EntityScaffold.Proofs.Run.Prediction

/-!
# What the commands show of a document

The inspecting command shows the values of enumerations and the checking one, if it is strict, the
line of a malformed field. Both are taken as markup. So the commands end as they should, and show
what stands in the document, just if these texts can be shown, and are shown as they are
(`shows_document_iff`). A tag in them is lost, and one that ends a style that is not set is an end
that no command provides for (`console_loses_tags`).
-/

namespace EntityScaffold.Run

open CommandLine Console Document

variable {world : World}

/-! ## Inspecting -/

section Inspect

variable {file text : String} {strict : Bool} {model : Model}

/-- The text of a path holds the characters of what spells it, slashes and dots. -/
theorem inert_text_ofString (h : Inert file.toList) : Inert (Path.ofString file).text.toList := by
  intro c hc
  rcases Path.mem_of_mem_text_ofString hc with rfl | rfl | hmem
  · decide
  · decide
  · exact h c hmem

theorem presentable_modelFrom (hparse : (parse strict text).outcome = .ok model) {path : Path}
    (hpath : Inert path.text.toList) : Presentable (modelFrom path model) := by
  have hentities : ∀ entity ∈ (modelFrom path model).entities.items,
      ∃ declared ∈ model.entities.items, entity = Generation.attachTypes declared := by
    intro entity hentity
    obtain ⟨declared, hdeclared, rfl⟩ := List.mem_map.mp hentity
    exact ⟨declared, hdeclared, rfl⟩
  constructor
  case title =>
    show Inert (((some path.text).filter (· ≠ "")).getD "JDL model").toList
    by_cases hempty : path.text = ""
    · simp only [hempty]
      decide
    · simpa [Option.filter, hempty] using hpath
  case enums => exact fun enumeration hmem => isName_of_mem_enums hparse hmem
  case entities =>
    intro entity hentity
    obtain ⟨declared, hdeclared, rfl⟩ := hentities entity hentity
    have hname := isName_of_mem_entities hparse hdeclared
    exact hname
  case fields =>
    intro entity hentity field hfield
    obtain ⟨declared, hdeclared, rfl⟩ := hentities entity hentity
    obtain ⟨own, hown, rfl⟩ := List.mem_map.mp hfield
    have hname := isName_of_mem_fields hparse hdeclared hown
    have htype := isDeclaredType_of_mem_fields hparse hdeclared hown
    exact ⟨hname, htype, rfl⟩

/-- An inspection prints the overview. -/
theorem does_inspect (hholds : HoldsDocument world.tree (.ofString file) text)
    (hparse : (parse false text).outcome = .ok model) {lines : List String}
    (h : (overview (modelFrom (.ofString file) model)).lines = .ok lines) :
    Does (inspect world file) lines (.ok ()) := by
  have haccepts : Accepts false text model := ⟨hparse, by simp⟩
  refine (does_readWithContexts "Inspect" hholds haccepts).after ?_
  rw [h]
  exact does_print_ok lines

theorem does_inspect_unshown (hholds : HoldsDocument world.tree (.ofString file) text)
    (hparse : (parse false text).outcome = .ok model) {fault : MarkupFault}
    (h : (overview (modelFrom (.ofString file) model)).lines = .error fault) :
    Does (inspect world file) [] (.error ⟨1, some (.badMarkup fault)⟩) := by
  have haccepts : Accepts false text model := ⟨hparse, by simp⟩
  refine (does_readWithContexts "Inspect" hholds haccepts).after ?_
  rw [h]
  exact does_print_error fault

/-- An inspection ends well, and the entry of each enumeration that has values is its name with the
values as they are. -/
structure InspectsAsIs (seen : Model) (outcome : Outcome) : Prop where
  exitCode : outcome.exitCode = 0
  crash : outcome.crash = none
  entries : ∃ entries, SeenIn seen outcome.printed entries ∧
    List.Forall₂ (fun enumeration entry =>
      enumeration.values ≠ [] → entry = linesAsIs (inWords enumeration)) seen.enums.items entries

/-- Things that correspond one to one have a property each just if their counterparts do. -/
theorem forall₂_iff_of_forall₂ {α β : Type} {R S : α → β → Prop} {P : α → Prop} {xs : List α}
    {ys : List β} (h : List.Forall₂ R xs ys) (hiff : ∀ x ∈ xs, ∀ y, R x y → (S x y ↔ P x)) :
    List.Forall₂ S xs ys ↔ ∀ x ∈ xs, P x := by
  induction h with
  | nil => simp
  | cons hfirst _ ih =>
    obtain ⟨hhead, htail⟩ := List.forall_mem_cons.mp hiff
    rw [List.forall₂_cons, List.forall_mem_cons, hhead _ hfirst, ih htail]

/-- The entries of the enumerations that have values are as they should be just if the values are
shown as they are. -/
theorem entries_asIs_iff (hparse : (parse strict text).outcome = .ok model)
    {entries : List (List String)}
    (h : List.Forall₂ (fun enumeration entry => shownLines (enumLabel enumeration) = .ok entry)
      model.enums.items entries) :
    List.Forall₂ (fun enumeration entry =>
        enumeration.values ≠ [] → entry = linesAsIs (inWords enumeration))
        model.enums.items entries ↔
      ∀ enumeration ∈ model.enums.items, enumeration.values ≠ [] →
        ShowsAsIs (listed enumeration).toList := by
  refine forall₂_iff_of_forall₂ h fun enumeration hmem entry hentry => ?_
  refine forall_congr' fun hvalues => ?_
  have hlisted := listed_ne_empty hvalues fun value hvalue =>
    ne_empty_of_mem_values hparse hmem hvalue
  rw [← shownLines_enumLabel_iff (isName_of_mem_enums hparse hmem) hlisted, hentry,
    Except.ok.injEq]

/-- **Inspecting.** An inspection ends well just if the values of all enumerations can be shown. It
shows the enumerations as they are declared just if their values are shown as they are. -/
theorem inspect_iff (hholds : HoldsDocument world.tree (.ofString file) text)
    (hfile : Inert file.toList) (hparse : (parse false text).outcome = .ok model)
    (log : Log.Setup) :
    let outcome := outcomeOf world log (inspect world file)
    (outcome.exitCode = 0 ∧ outcome.crash = none ↔
      ∀ enumeration ∈ model.enums.items, CanShow (listed enumeration)) ∧
    (InspectsAsIs (modelFrom (.ofString file) model) outcome ↔
      ∀ enumeration ∈ model.enums.items, enumeration.values ≠ [] →
        ShowsAsIs (listed enumeration).toList) := by
  intro outcome
  have hpresentable := presentable_modelFrom hparse (inert_text_ofString hfile)
  have hshown := exists_overview_iff hpresentable
  cases hlines : (overview (modelFrom (.ofString file) model)).lines with
  | ok lines =>
    obtain ⟨hprinted, hexit, hcrash⟩ := (does_inspect hholds hparse hlines).outcomeOf world log
    refine ⟨iff_of_true ⟨hexit, hcrash⟩ (hshown.mp ⟨lines, hlines⟩), ?_⟩
    constructor
    · rintro ⟨-, -, entries, hentries, hasIs⟩
      exact (entries_asIs_iff hparse hentries.shown).mp hasIs
    · intro hall
      obtain ⟨entries, hentries⟩ := exists_seenIn hpresentable hlines
      exact ⟨hexit, hcrash, entries, hprinted ▸ hentries,
        (entries_asIs_iff hparse hentries.shown).mpr hall⟩
  | error fault =>
    -- then there are values that cannot be shown, and even less as they are
    obtain ⟨hprinted, hexit, hcrash⟩ :=
      (does_inspect_unshown hholds hparse hlines).outcomeOf world log
    have hne : outcome.exitCode ≠ 0 := ne_of_eq_of_ne hexit Nat.one_ne_zero
    have hnone : ¬∀ enumeration ∈ model.enums.items, CanShow (listed enumeration) := by
      intro hall
      obtain ⟨lines, hok⟩ := hshown.mpr hall
      rw [hlines] at hok
      exact absurd hok (by simp)
    refine ⟨iff_of_false (fun h => ?_) hnone, iff_of_false (fun h => ?_) fun hall => hnone ?_⟩
    · exact hne h.1
    · exact hne h.exitCode
    · intro enumeration hmem
      by_cases hvalues : enumeration.values = []
      · rw [listed, hvalues]
        exact canShow_of_no_tags (liveTags_eq_nil (by decide))
      · exact (hall enumeration hmem hvalues).canShow

end Inspect

/-! ## Checking strictly -/

section Validate

variable {file text : String}

/-- What the checking command says of a fault. -/
def complaint (world : World) (file : String) (fault : Fault) : String :=
  stamped world (failureLine "Validation" (.document (fault.inFile (Path.ofString file).text)))

theorem inert_intercalate {parts : List String} (h : ∀ part ∈ parts, Inert part.toList) :
    Inert (String.intercalate ", " parts).toList := by
  intro c hc
  rw [String.toList_intercalate] at hc
  rcases Text.mem_intercalate hc with hseparator | ⟨piece, hpiece, hmem⟩
  · have hinert : Inert ", ".toList := by decide
    exact hinert c hseparator
  · obtain ⟨part, hpart, rfl⟩ := List.mem_map.mp hpiece
    exact h part hpart c hmem

/-- The place of a fault in a file is written in inert characters. -/
theorem inert_parts {path : String} (hpath : Inert path.toList) (line column : Nat) :
    ∀ part ∈ (⟨some path, some line, some column⟩ : Place).parts, Inert part.toList := by
  have hnumber : ∀ (word : String) (n : Nat), Inert word.toList →
      Inert (word ++ toString ((n : Nat) : Int)).toList := by
    intro word n hword
    rw [String.toList_append]
    exact inert_append.mpr ⟨hword, inert_toString n⟩
  intro part hpart
  simp only [Place.parts, List.mem_append, Option.mem_toList, Option.map_some,
    Option.some.injEq] at hpart
  rcases hpart with (hpart | rfl) | rfl
  · obtain ⟨hsome, -⟩ := Option.filter_eq_some_iff.mp hpart
    obtain rfl := Option.some.inj hsome
    exact hpath
  · exact hnumber "line " line (by decide)
  · exact hnumber "col " column (by decide)

/-- What is said of a misfit is its line between inert texts. -/
theorem exists_back_of_misfit {misfit : Misfit} (hname : IsName misfit.entity.toList)
    {path : String} (hpath : Inert path.toList) (source : Source) :
    ∃ back, Inert back ∧
      (failureLine "Validation"
        (.document ((misfit.fault source.placeAt).inFile path))).toList =
        "Validation failed with error(s): Malformed field '".toList ++ (misfit.line ++ back) := by
  let place : Place :=
    ⟨some path, some (source.lineNumber misfit.offset), some (source.columnNumber misfit.offset)⟩
  have hparts : place.parts.isEmpty = false := by simp [place, Place.parts]
  refine ⟨"' in entity '".toList ++ (misfit.entity.toList ++ ("'. (".toList ++
    ((String.intercalate ", " place.parts).toList ++ ")".toList))), ?_, ?_⟩
  · have hplace : Inert (String.intercalate ", " place.parts).toList :=
      inert_intercalate (inert_parts hpath _ _)
    have hentity := inert_of_isName hname
    exact inert_append.mpr ⟨by decide, inert_append.mpr ⟨hentity, inert_append.mpr
      ⟨by decide, inert_append.mpr ⟨hplace, by decide⟩⟩⟩⟩
  · have hmessage : ((misfit.fault source.placeAt).inFile path).message =
        s!"Malformed field '{String.ofList misfit.line}' in entity '{misfit.entity}'." ++ " (" ++
          String.intercalate ", " place.parts ++ ")" := by
      show place.annotate _ = _
      rw [Place.annotate, hparts]
      rfl
    rw [failureLine, Failure.message, hmessage]
    simp [toString]

/-- **Checking strictly.** A strict check of a document with a malformed field has the code 1. It
ends as it should just if the line of the field can be shown, and it shows what it says as it is
just if the line is shown as it is. -/
theorem validate_iff (hday : IsDay world.day)
    (hholds : HoldsDocument world.tree (.ofString file) text) (hfile : Inert file.toList)
    {fault : Fault} (hparse : (parse true text).outcome = .error fault) (log : Log.Setup) :
    ∃ entity line, fault.cause = .malformedField entity line ∧
      let outcome := outcomeOf world log (validate world file true)
      outcome.exitCode = 1 ∧ (outcome.crash = none ↔ CanShow line) ∧
        (outcome.printed = linesAsIs (complaint world file fault) ↔ ShowsAsIs line.toList) := by
  obtain ⟨misfit, hfirst, rfl⟩ := exists_misfit_of_fault hparse
  have hname := Source.isName_of_mem_misfits (List.mem_of_mem_head? hfirst)
  obtain ⟨back, hback, hline⟩ :=
    exists_back_of_misfit hname (inert_text_ofString hfile) (Source.strip text.toList)
  -- what stands around the line is inert, so both questions are about the line alone
  have hcan : CanShow (complaint world file (misfit.fault (Source.strip text.toList).placeAt)) ↔
      CanShow (String.ofList misfit.line) := by
    refine canShow_congr ?_
    rw [complaint, liveTags_stamped hday, hline, liveTags_append_of_inert_left (by decide),
      liveTags_append_inert hback, String.toList_ofList]
  have hasIs : ShowsAsIs (complaint world file
      (misfit.fault (Source.strip text.toList).placeAt)).toList ↔
      ShowsAsIs (String.ofList misfit.line).toList := by
    rw [complaint, showsAsIs_stamped hday, hline, showsAsIs_append_of_inert (by decide),
      showsAsIs_append_inert hback, String.toList_ofList]
  have hread := outcome_readModel_of_error hholds hparse
  refine ⟨misfit.entity, String.ofList misfit.line, rfl, ?_⟩
  rw [← hcan, ← hasIs, ← shownLines_eq_iff, ← exists_shownLines_iff]
  cases hshown : shownLines
      (complaint world file (misfit.fault (Source.strip text.toList).placeAt)) with
  | ok lines =>
    have hdoes : Does (validate world file true) lines (.error ⟨1, none⟩) :=
      ((does_succeed_error hread (by simp) hshown).bind_error _).bind_error _
    obtain ⟨hprinted, hexit, hcrash⟩ := hdoes.outcomeOf world log
    refine ⟨hexit, iff_of_true hcrash ⟨lines, rfl⟩, ?_⟩
    rw [hprinted, Except.ok.injEq]
  | error shownFault =>
    have hdoes : Does (validate world file true) [] (.error ⟨1, some (.badMarkup shownFault)⟩) :=
      ((does_succeed_unshown hread (by simp) hshown).bind_error _).bind_error _
    obtain ⟨hprinted, hexit, hcrash⟩ := hdoes.outcomeOf world log
    refine ⟨hexit, iff_of_false ?_ (by simp), iff_of_false ?_ (by simp)⟩
    · rw [hcrash]
      simp [endingOf]
    · rw [hprinted, linesAsIs]
      simp [Text.lines]

end Validate

/-! ## Both commands -/

/-- **What is shown.** Let a file hold any text. An inspection ends well just if the values of all
enumerations can be shown, and shows each enumeration that has values by its name and its values
just if these are shown as they are. A strict check that meets a malformed field has the code 1; it
ends as it should just if the line of the field can be shown, and tells the line just if it is shown
as it is. -/
theorem shows_document_iff {world : World} {file text : String} (hday : IsDay world.day)
    (hfile : Inert file.toList) (hholds : HoldsDocument world.tree (.ofString file) text) :
    (∃ model inspected, (parse false text).outcome = .ok model ∧
      start world (.inspect file) = .finished inspected ∧
      (inspected.exitCode = 0 ∧ inspected.crash = none ↔
        ∀ enumeration ∈ model.enums.items, CanShow (listed enumeration)) ∧
      (InspectsAsIs (modelFrom (.ofString file) model) inspected ↔
        ∀ enumeration ∈ model.enums.items, enumeration.values ≠ [] →
          ShowsAsIs (listed enumeration).toList)) ∧
    ∀ fault, (parse true text).outcome = .error fault →
      ∃ entity line validated, fault.cause = .malformedField entity line ∧
        start world (.validate file true) = .finished validated ∧
        validated.exitCode = 1 ∧ (validated.crash = none ↔ CanShow line) ∧
        (validated.printed = linesAsIs (complaint world file fault) ↔ ShowsAsIs line.toList) := by
  obtain ⟨⟨model, hmodel⟩, -⟩ := parse_agreement text
  refine ⟨⟨model, _, hmodel, rfl, inspect_iff hholds hfile hmodel _⟩, fun fault hfault => ?_⟩
  obtain ⟨entity, line, hcause, hrun⟩ := validate_iff hday hholds hfile hfault (logFor false true)
  exact ⟨entity, line, _, hcause, rfl, hrun⟩

/-- Brackets that are no tags, in a value and in a malformed field: both are shown. -/
theorem shows_document_of_capitals :
    let text := "enum Level \x7b LOW, HIGH[A] \x7d\nentity Pet \x7b\n  name[0]\n\x7d\n"
    let world : World :=
      ⟨FileTree.empty.set (.ofString "pets.jdl") (.file text.toUTF8), [], "2024-01-02"⟩
    (∃ model inspected, (parse false text).outcome = .ok model ∧
      model.enums.items = [⟨"Level", ["LOW", "HIGH[A]"]⟩] ∧
      start world (.inspect "pets.jdl") = .finished inspected ∧
      InspectsAsIs (modelFrom (.ofString "pets.jdl") model) inspected) ∧
    ∃ fault validated, (parse true text).outcome = .error fault ∧
      fault.cause = .malformedField "Pet" "name[0]" ∧
      start world (.validate "pets.jdl" true) = .finished validated ∧
      validated.exitCode = 1 ∧ validated.crash = none ∧
      validated.printed = linesAsIs (complaint world "pets.jdl" fault) := by
  intro text world
  have hholds : HoldsDocument world.tree (.ofString "pets.jdl") text :=
    holdsDocument_toUTF8 (by rfl) (by decide +kernel)
  obtain ⟨⟨model, inspected, hmodel, hinspected, -, hasIs⟩, hstrict⟩ :=
    @shows_document_iff world "pets.jdl" text (by decide) (by decide) hholds
  have hparts : (parse false text).value?.map (fun model => model.enums.items) =
      some [⟨"Level", ["LOW", "HIGH[A]"]⟩] := by
    decide +kernel
  have hmisfit : (Source.strip text.toList).misfits.head?.map (fun misfit =>
      (misfit.entity, misfit.line)) = some ("Pet", "name[0]".toList) := by
    decide +kernel
  have henums : model.enums.items = [⟨"Level", ["LOW", "HIGH[A]"]⟩] := by
    rw [Report.value?_eq_some_iff.mpr hmodel] at hparts
    exact Option.some.inj hparts
  refine ⟨⟨model, inspected, hmodel, henums, hinspected, hasIs.mpr ?_⟩, ?_⟩
  · rw [henums]
    decide
  · obtain ⟨misfit, hfirst, hnamed⟩ := Option.map_eq_some_iff.mp hmisfit
    obtain ⟨hentity, hline⟩ := Prod.mk.inj hnamed
    have hcause : Fault.Cause.malformedField misfit.entity (String.ofList misfit.line) =
        .malformedField "Pet" "name[0]" := by
      rw [hentity, hline]
      rfl
    obtain ⟨entity, line, validated, hsame, hvalidated, hexit, hcrash, hprinted⟩ :=
      hstrict _ (parse_of_misfit hfirst)
    obtain ⟨-, rfl⟩ := Fault.Cause.malformedField.inj (hsame.symm.trans hcause)
    have hplain : ShowsAsIs "name[0]".toList := by decide
    exact ⟨_, validated, parse_of_misfit hfirst, hcause, hvalidated, hexit,
      hcrash.mpr hplain.canShow, hprinted.mpr hplain⟩

/-- A tag in a value and in a malformed field is lost, and where a value or a malformed field begins
with the end of a style that is not set, both commands crash. -/
theorem console_loses_tags :
    let run := fun (text : String) (command : Command) =>
      start ⟨FileTree.empty.set (.ofString "m.jdl") (.file text.toUTF8), [], "2024-01-02"⟩ command
    let tagged := "enum E \x7b A[b] \x7d\nentity P \x7b\n  x[b]\n\x7d\n"
    let ended := "enum E \x7b [/x] \x7d\nentity P \x7b\n  [/x]\n\x7d\n"
    (parse false tagged).value?.map (fun model => model.enums.items) =
      some [⟨"E", ["A[b]"]⟩] ∧
    (∃ inspected, run tagged (.inspect "m.jdl") = .finished inspected ∧
      inspected.printed = ["m.jdl", "├── Enums (1)", "│   └── E: A", "├── Entities (1)",
        "│   └── P", "└── Relationships (0)"]) ∧
    (Source.strip tagged.toList).misfits.map Misfit.line = ["x[b]".toList] ∧
    (∃ validated, run tagged (.validate "m.jdl" true) = .finished validated ∧
      validated.printed = ["[2024-01-02] Validation failed with error(s): " ++
        "Malformed field 'x' in entity 'P'. (m.jdl, line 3, col 3)"]) ∧
    (∃ inspected, run ended (.inspect "m.jdl") = .finished inspected ∧
      inspected.exitCode = 1 ∧ inspected.crash = some (.badMarkup (.nothingToEnd "/x".toList))) ∧
    ∃ validated, run ended (.validate "m.jdl" true) = .finished validated ∧
      validated.crash = some (.badMarkup (.nothingToEnd "/x".toList)) := by
  intro run tagged ended
  refine ⟨?_, ⟨_, rfl, ?_⟩, ?_, ⟨_, rfl, ?_⟩, ⟨_, rfl, ?_⟩, ⟨_, rfl, ?_⟩⟩
  · decide +kernel
  · decide +kernel
  · decide +kernel
  · decide +kernel
  · decide +kernel
  · decide +kernel

end EntityScaffold.Run
