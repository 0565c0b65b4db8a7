import EntityScaffold.Proofs.Angular.Output
import EntityScaffold.Proofs.Path
import EntityScaffold.Proofs.Run.Generate
import EntityScaffold.Proofs.Run.Result
import EntityScaffold.Proofs.Run.Stamp
import EntityScaffold.Proofs.Settings

/-!
# Checking a document tells whether files can be generated

The checking command and the generating one take different ways to the same questions: can the
document be parsed, and does a strict run find both ends of every relationship (`Accepts`)? A part
of a run either passes or fails, with the code 1; what is printed on the way makes no difference to
that, if it holds no opening bracket but that of the day, and a failure that cannot be shown is one
with the code 1 too. The generating command asks for an entity besides. So if it has valid settings
and can write its files, it ends as the check of its document foretells (`generate_iff_validate`).
-/

namespace EntityScaffold.Run

open CommandLine Console Document

variable {α β : Type} {world : World}

/-! ## Passing and failing -/

/-- A part of a run goes on with a value. -/
def Passes (step : Step α) (value : α) : Prop := ∃ lines, Does step lines (.ok value)

/-- A part of a run ends it, with the code 1. -/
def Fails (step : Step α) : Prop :=
  ∃ lines ending, Does step lines (.error ending) ∧ ending.exitCode = 1

theorem Passes.bind {step : Step α} {next : α → Step β} {value : α} {result : β}
    (hstep : Passes step value) (hnext : Passes (next value) result) :
    Passes (step >>= next) result := by
  obtain ⟨lines, hlines⟩ := hstep
  obtain ⟨later, hlater⟩ := hnext
  exact ⟨_, hlines.bind hlater⟩

theorem Passes.bind_fails {step : Step α} {next : α → Step β} {value : α}
    (hstep : Passes step value) (hnext : Fails (next value)) : Fails (step >>= next) := by
  obtain ⟨lines, hlines⟩ := hstep
  obtain ⟨later, ending, hlater, hcode⟩ := hnext
  exact ⟨_, ending, hlines.bind hlater, hcode⟩

theorem Fails.bind {step : Step α} (h : Fails step) (next : α → Step β) :
    Fails (step >>= next) := by
  obtain ⟨lines, ending, hlines, hcode⟩ := h
  exact ⟨lines, ending, hlines.bind_error next, hcode⟩

theorem fails_stop : Fails (stop 1 : Step α) := ⟨[], _, does_stop 1, rfl⟩

theorem passes_modify {change : Transcript → Transcript}
    (h : ∀ transcript, (change transcript).printed = transcript.printed) :
    Passes (modify change) () :=
  ⟨[], does_modify h⟩

/-- A line without an opening bracket can be said. -/
theorem passes_say (hday : IsDay world.day) {line : String} (h : '[' ∉ line.toList) :
    Passes (say world line) () := by
  have hshown : CanShow (stamped world line) :=
    canShow_of_no_tags ((liveTags_stamped hday line).trans (liveTags_eq_nil h))
  obtain ⟨lines, hlines⟩ := exists_shownLines_iff.mpr hshown
  exact ⟨lines, does_say hlines⟩

theorem passes_succeed (activity : String) {report : Report Failure α} {value : α}
    (h : report.outcome = .ok value) : Passes (succeed world activity report) value :=
  ⟨[], does_succeed h⟩

/-- A fault of the document ends the run, whether it can be shown or not. -/
theorem fails_succeed (activity : String) {report : Report Failure α} {fault : Fault}
    (h : report.outcome = .error (.document fault)) : Fails (succeed world activity report) :=
  exists_does_succeed_error h (by simp)

theorem Passes.outcomeOf {step : Step Unit} (h : Passes step ()) (log : Log.Setup) :
    (outcomeOf world log step).exitCode = 0 := by
  obtain ⟨lines, hlines⟩ := h
  exact (hlines.outcomeOf world log).2.1

theorem Fails.outcomeOf {step : Step Unit} (h : Fails step) (log : Log.Setup) :
    (outcomeOf world log step).exitCode = 1 := by
  obtain ⟨lines, ending, hlines, hcode⟩ := h
  exact (hlines.outcomeOf world log).2.1.trans hcode

/-! ## Documents that are accepted -/

/-- A document can be parsed to a model, in which a strict run finds both ends of every
relationship. -/
structure Accepts (strict : Bool) (text : String) (model : Model) : Prop where
  parsed : (parse strict text).outcome = .ok model
  declared : strict = true → Generation.EndsDeclared model

/-- A document that is not accepted has a fault that keeps it from being parsed, or a model with an
end that a strict run misses. -/
theorem refused_cases {strict : Bool} {text : String} (h : ¬∃ model, Accepts strict text model) :
    (∃ fault, (parse strict text).outcome = .error fault) ∨
      strict = true ∧ ∃ model, (parse strict text).outcome = .ok model ∧
        ¬Generation.EndsDeclared model := by
  cases hparse : (parse strict text).outcome with
  | error fault => exact .inl ⟨fault, rfl⟩
  | ok model =>
    by_cases hends : strict = true → Generation.EndsDeclared model
    · exact absurd ⟨model, hparse, hends⟩ h
    · obtain ⟨hstrict, hmissing⟩ := Classical.not_imp.mp hends
      exact .inr ⟨hstrict, model, rfl, hmissing⟩

section Reading

variable {file : Path} {strict : Bool} {text : String} {model : Model}

/-- A document is read to the model it is parsed to. -/
theorem outcome_readModel_of_ok (hholds : HoldsDocument world.tree file text)
    (h : (parse strict text).outcome = .ok model) :
    (readModel world.tree file strict).outcome = .ok { model with filename := some file.text } := by
  rw [outcome_readModel hholds, h]

theorem outcome_readModel_of_error (hholds : HoldsDocument world.tree file text) {fault : Fault}
    (h : (parse strict text).outcome = .error fault) :
    (readModel world.tree file strict).outcome = .error (.document (fault.inFile file.text)) := by
  rw [outcome_readModel hholds, h]

/-- Contexts that a strict run cannot make for want of an end. -/
theorem exists_fault_of_missing (style : Naming.PluralStyle)
    (h : ¬Generation.EndsDeclared model) :
    ∃ fault, (Generation.entityContexts style true model).outcome = .error fault := by
  cases hcontexts : (Generation.entityContexts style true model).outcome with
  | ok contexts => exact absurd (Generation.ends_declared_of_strict hcontexts) h
  | error fault => exact ⟨fault, rfl⟩

end Reading

/-! ## The checking command -/

section Validate

variable {file : String} {strict : Bool} {text : String}

/-- A model as a command reads it from a file. -/
def modelFrom (file : Path) (model : Model) : Model :=
  Generation.prepare { model with filename := some file.text }

/-- An accepted document is read, with its contexts, and nothing is said about it. -/
theorem does_readWithContexts (activity : String)
    (hholds : HoldsDocument world.tree (.ofString file) text) {model : Model}
    (h : Accepts strict text model) :
    Does (readWithContexts world activity file strict) []
      (.ok (modelFrom (.ofString file) model)) := by
  refine (does_succeed (outcome_readModel_of_ok hholds h.parsed)).after ?_
  have hends : strict = true →
      Generation.EndsDeclared { model with filename := some (Path.ofString file).text } :=
    h.declared
  have hcontexts := Generation.outcome_entityContexts .naive hends
  have hreport := congrArg (Except.mapError Failure.document) hcontexts
  exact (does_succeed hreport).after (does_pure _)

/-- What is not accepted is told before it is used. -/
theorem fails_readWithContexts (activity : String)
    (hholds : HoldsDocument world.tree (.ofString file) text)
    (h : ¬∃ model, Accepts strict text model) :
    Fails (readWithContexts world activity file strict) := by
  rcases refused_cases h with ⟨fault, hparse⟩ | ⟨rfl, model, hparse, hends⟩
  · exact (fails_succeed activity (outcome_readModel_of_error hholds hparse)).bind _
  · refine (passes_succeed activity (outcome_readModel_of_ok hholds hparse)).bind_fails ?_
    have hmissing : ¬Generation.EndsDeclared
        { model with filename := some (Path.ofString file).text } := hends
    obtain ⟨fault, hfault⟩ := exists_fault_of_missing .naive hmissing
    have hreport := congrArg (Except.mapError Failure.document) hfault
    exact (fails_succeed activity hreport).bind _

/-- What is said of a good document holds no bracket. -/
theorem passes_say_success (hday : IsDay world.day) (entities enums relationships : Nat) :
    Passes (say world (s!"Model validation success! {entities} entities, " ++
      s!"{enums} enums, {relationships} relationships.")) () := by
  have hnumber : ∀ n : Nat, '[' ∉ (toString n).toList := fun n =>
    (inert_toString n).not_mem (by decide)
  refine passes_say hday ?_
  simp only [String.toList_append, List.mem_append, hnumber, or_false, false_or]
  decide

theorem passes_validate (hday : IsDay world.day)
    (hholds : HoldsDocument world.tree (.ofString file) text) {model : Model}
    (h : Accepts strict text model) : Passes (validate world file strict) () :=
  Passes.bind ⟨[], does_readWithContexts _ hholds h⟩ (passes_say_success hday _ _ _)

theorem fails_validate (hholds : HoldsDocument world.tree (.ofString file) text)
    (h : ¬∃ model, Accepts strict text model) : Fails (validate world file strict) :=
  (fails_readWithContexts _ hholds h).bind _

end Validate

/-! ## The generating command -/

/-- The text of a path that starts from a folder holds no character that neither holds. -/
theorem not_mem_text_target {path folder : Path} {c : Char} (hslash : c ≠ '/') (hdot : c ≠ '.')
    (hpath : ∀ step ∈ path.steps, c ∉ step.toList) (hfolder : c ∉ folder.text.toList) :
    c ∉ (path.within folder).collapse.text.toList := by
  intro h
  rcases Path.exists_step_of_mem_text h with heq | heq | ⟨step, hstep, hc⟩
  · exact hslash heq
  · exact hdot heq
  · rcases Path.mem_steps_within (Path.mem_steps_collapse hstep) with hstep | hstep
    · exact hfolder (Path.mem_text_of_mem_step hstep hc)
    · exact hpath step hstep hc

/-- A spelled path holds no character that its text does not hold. -/
theorem not_mem_steps_ofString {text : String} {c : Char} (h : c ∉ text.toList) :
    ∀ step ∈ (Path.ofString text).steps, c ∉ step.toList :=
  fun _ hstep hc => h (Path.mem_of_mem_stepsOf hstep hc)

theorem not_mem_text_ofString {text : String} {c : Char} (hslash : c ≠ '/') (hdot : c ≠ '.')
    (h : c ∉ text.toList) : c ∉ (Path.ofString text).text.toList := by
  intro hmem
  rcases Path.mem_of_mem_text_ofString hmem with heq | heq | hc
  · exact hslash heq
  · exact hdot heq
  · exact h hc

section Generate

variable {settings : Settings} {text : String}

/-- What the generating command says of its paths holds no bracket. -/
structure PathsFree (world : World) (settings : Settings) : Prop where
  modelFile : '[' ∉ settings.modelFile.text.toList
  target : '[' ∉ (settings.outputFolder.within world.tree.folder).collapse.text.toList

/-- The words with which the generating command begins. -/
theorem passes_say_parsing (hday : IsDay world.day) (hfree : PathsFree world settings) :
    Passes (say world s!"Parsing JDL file: {settings.modelFile.text}") () := by
  refine passes_say hday ?_
  simpa [toString] using hfree.modelFile

theorem passes_say_target (hday : IsDay world.day) (hfree : PathsFree world settings) :
    Passes (say world
      s!"Generating Angular app in '{(settings.outputFolder.within
        world.tree.folder).collapse.text}'...") () := by
  refine passes_say hday ?_
  simpa [toString] using hfree.target

theorem passes_say_written (hday : IsDay world.day) (files : Nat) :
    Passes (say world s!"Angular structure generated successfully! ({files} files)") () := by
  have hnumber : ∀ n : Nat, '[' ∉ (toString n).toList := fun n =>
    (inert_toString n).not_mem (by decide)
  refine passes_say hday ?_
  simp only [String.toList_append, List.mem_append, hnumber, or_false]
  decide

variable {model : Model}

/-- A model without entities is not generated from. -/
theorem fails_generate_of_isEmpty (hday : IsDay world.day) (hfree : PathsFree world settings)
    (hread : (readModel world.tree settings.modelFile settings.strict).outcome = .ok model)
    (hempty : model.isEmpty = true) : Fails (generate world settings) := by
  unfold generate
  refine (passes_say_parsing hday hfree).bind_fails ?_
  refine (passes_succeed _ hread).bind_fails ?_
  rw [if_pos hempty]
  exact (passes_say hday (by decide)).bind_fails (fails_stop.bind _)

/-- A model that is refused ends the generating command. -/
theorem fails_generate_of_fault (hday : IsDay world.day) (hfree : PathsFree world settings)
    (hread : (readModel world.tree settings.modelFile settings.strict).outcome = .ok model)
    (hempty : ¬model.isEmpty = true) {fault : Fault}
    (hfault : (Angular.generate settings world.tree model).2.outcome = .error (.document fault)) :
    Fails (generate world settings) := by
  unfold generate
  refine (passes_say_parsing hday hfree).bind_fails ?_
  refine (passes_succeed _ hread).bind_fails ?_
  rw [if_neg hempty]
  refine (passes_say_target hday hfree).bind_fails ?_
  generalize Angular.generate settings world.tree model = run at hfault ⊢
  obtain ⟨progress, report⟩ := run
  refine Passes.bind_fails (passes_modify fun _ => rfl) ?_
  exact (fails_succeed _ hfault).bind _

/-- A model whose files are generated lets the command come to its end. -/
theorem passes_generate_of_ok (hday : IsDay world.day) (hfree : PathsFree world settings)
    (hread : (readModel world.tree settings.modelFile settings.strict).outcome = .ok model)
    (hempty : ¬model.isEmpty = true)
    (hdone : (Angular.generate settings world.tree model).2.outcome = .ok ()) :
    Passes (generate world settings) () := by
  unfold generate
  refine (passes_say_parsing hday hfree).bind ?_
  refine (passes_succeed _ hread).bind ?_
  rw [if_neg hempty]
  refine (passes_say_target hday hfree).bind ?_
  generalize Angular.generate settings world.tree model = run at hdone ⊢
  obtain ⟨progress, report⟩ := run
  refine Passes.bind (passes_modify fun _ => rfl) ?_
  exact (passes_succeed _ hdone).bind (passes_say_written hday _)

/-- An accepted document with an entity is generated from, if the files can be written. -/
theorem passes_generate (hday : IsDay world.day) (hfree : PathsFree world settings)
    (hholds : HoldsDocument world.tree settings.modelFile text)
    (h : Accepts settings.strict text model) (hentities : model.entities.items ≠ [])
    {later : FileTree} (hwrites : Angular.CanWrite settings model world.tree later) :
    Passes (generate world settings) () := by
  refine passes_generate_of_ok hday hfree (outcome_readModel_of_ok hholds h.parsed) ?_ ?_
  · exact fun hempty => hentities (List.isEmpty_iff.mp hempty)
  · exact Angular.outcome_generate_iff.mpr ⟨h.declared, later, hwrites⟩

/-- Without an accepted document with an entity nothing is generated. -/
theorem fails_generate (hday : IsDay world.day) (hfree : PathsFree world settings)
    (hholds : HoldsDocument world.tree settings.modelFile text)
    (h : ¬∃ model, Accepts settings.strict text model ∧ model.entities.items ≠ []) :
    Fails (generate world settings) := by
  cases hparse : (parse settings.strict text).outcome with
  | error fault =>
    unfold generate
    refine (passes_say_parsing hday hfree).bind_fails ?_
    exact (fails_succeed _ (outcome_readModel_of_error hholds hparse)).bind _
  | ok model =>
    have hread := outcome_readModel_of_ok hholds hparse
    by_cases hentities : model.entities.items = []
    · exact fails_generate_of_isEmpty hday hfree hread (List.isEmpty_iff.mpr hentities)
    · -- an entity is there, so it is an end that a strict run misses
      have hrefused : ¬∃ model, Accepts settings.strict text model := by
        rintro ⟨other, haccepts⟩
        obtain rfl := Except.ok.inj (hparse.symm.trans haccepts.parsed)
        exact h ⟨model, haccepts, hentities⟩
      rcases refused_cases hrefused with ⟨fault, hfault⟩ | ⟨hstrict, other, hother, hends⟩
      · exact absurd (hparse.symm.trans hfault) (by simp)
      · obtain rfl := Except.ok.inj (hparse.symm.trans hother)
        have hmissing : ¬Generation.EndsDeclared
            { model with filename := some settings.modelFile.text } := hends
        obtain ⟨fault, hfault⟩ := Angular.generate_of_dangling hstrict hmissing world.tree
        exact fails_generate_of_fault hday hfree hread
          (fun hempty => hentities (List.isEmpty_iff.mp hempty)) hfault

end Generate

/-! ## Both commands -/

section Given

variable {request : GenerateRequest} {environment : List (String × String)}

/-- A request makes a run strict or does not say. -/
theorem lookup_strict_givenBy :
    (givenBy request).lookup "strict" = if request.strict then some (.boolean true) else none := by
  obtain ⟨file, output, microservice, apiHost, pluralStyle, strict, verbose, quiet⟩ := request
  cases microservice <;> cases apiHost <;> cases pluralStyle <;> cases strict <;> rfl

/-- Where the environment does not make it strict, a run is as strict as its request. -/
theorem readSwitch_strict
    (henvironment : ∀ entry ∈ environment, Text.lower entry.1 ≠ "jdl_strict") :
    Settings.readSwitch (Settings.Origin.value? ⟨givenBy request, environment⟩ "strict") =
      .ok request.strict := by
  have hmatching : (environment.filter fun entry => Text.lower entry.1 = "jdl_strict") = [] :=
    List.filter_eq_nil_iff.mpr fun entry hentry => by simpa using henvironment entry hentry
  rw [Settings.Origin.value?, lookup_strict_givenBy]
  cases request.strict with
  | true => rfl
  | false =>
    show Settings.readSwitch (((environment.filter fun entry =>
      Text.lower entry.1 = "jdl_strict").getLast?).map fun entry => .text entry.2) = _
    rw [hmatching]
    rfl

/-- The settings of a run whose request alone says whether it is strict. -/
theorem eq_of_readFrom {settings : Settings}
    (h : Settings.ReadFrom ⟨givenBy request, environment⟩ settings)
    (henvironment : ∀ entry ∈ environment, Text.lower entry.1 ≠ "jdl_strict") :
    settings.modelFile = .ofString request.file ∧
      settings.outputFolder = .ofString request.output ∧ settings.strict = request.strict := by
  refine ⟨?_, ?_, ?_⟩
  · exact Settings.eq_ofString_of_readPath h.modelFile
  · exact Settings.eq_ofString_of_readPath h.outputFolder
  · exact Except.ok.inj (h.strict.symm.trans (readSwitch_strict henvironment))

end Given

/-- **Prediction.** Let a file hold any text, let the settings be valid with a host given, and let
the planned files be writable. If only the request can make the run strict and no path holds an
opening bracket, both commands end without a question; the generating one with the code 0 just if
the checking one does and the document has an entity, and else with the code 1. -/
theorem generate_iff_validate {world : World} {request : GenerateRequest} {settings : Settings}
    {text : String} (hday : IsDay world.day)
    (hholds : HoldsDocument world.tree (.ofString request.file) text)
    (hfile : '[' ∉ request.file.toList) (houtput : '[' ∉ request.output.toList)
    (hfolder : '[' ∉ world.tree.folder.text.toList)
    (henvironment : ∀ entry ∈ world.environment, Text.lower entry.1 ≠ "jdl_strict")
    (hsettings : Settings.ofOrigin ⟨givenBy request, world.environment⟩ = .ok settings)
    {host : String} (hhost : settings.apiHost = some host)
    (hwrites : ∀ model, (parse request.strict text).outcome = .ok model →
      ∃ later, Angular.CanWrite settings model world.tree later) :
    ∃ validated generated : Outcome,
      start world (.validate request.file request.strict) = .finished validated ∧
      start world (.generate request) = .finished generated ∧
      (generated.exitCode = 0 ↔ validated.exitCode = 0 ∧
        ∃ model, (parse request.strict text).outcome = .ok model ∧
          model.entities.items ≠ []) ∧
      (generated.exitCode ≠ 0 → generated.exitCode = 1) := by
  obtain ⟨hmodelFile, houtputFolder, hstrict⟩ :=
    eq_of_readFrom (Settings.readFrom_of_ofOrigin hsettings) henvironment
  have hfree : PathsFree world settings := by
    constructor
    · rw [hmodelFile]
      exact not_mem_text_ofString (by decide) (by decide) hfile
    · rw [houtputFolder]
      exact not_mem_text_target (by decide) (by decide) (not_mem_steps_ofString houtput) hfolder
  have hholds' : HoldsDocument world.tree settings.modelFile text := by rwa [hmodelFile]
  rw [← hstrict] at hwrites
  have hgenerated : start world (.generate request) =
      .finished (outcomeOf world (logFor request.verbose request.quiet)
        (generate world settings)) := by
    simp only [start, hsettings, hhost]
  refine ⟨_, _, rfl, hgenerated, ?_⟩
  rw [← hstrict]
  by_cases h : ∃ model, Accepts settings.strict text model ∧ model.entities.items ≠ []
  · obtain ⟨model, haccepts, hentities⟩ := h
    obtain ⟨later, hlater⟩ := hwrites model haccepts.parsed
    rw [(passes_generate hday hfree hholds' haccepts hentities hlater).outcomeOf,
      (passes_validate hday hholds haccepts).outcomeOf]
    exact ⟨⟨fun _ => ⟨rfl, model, haccepts.parsed, hentities⟩, fun _ => rfl⟩,
      fun hne => absurd rfl hne⟩
  · rw [(fails_generate hday hfree hholds' h).outcomeOf]
    refine ⟨⟨fun hzero => absurd hzero (by decide), ?_⟩, fun _ => rfl⟩
    rintro ⟨hvalidated, model, hparsed, hentities⟩
    by_cases haccepts : ∃ model, Accepts settings.strict text model
    · obtain ⟨other, haccepts⟩ := haccepts
      obtain rfl := Except.ok.inj (hparsed.symm.trans haccepts.parsed)
      exact absurd ⟨model, haccepts, hentities⟩ h
    · rw [(fails_validate hholds haccepts).outcomeOf] at hvalidated
      exact absurd hvalidated (by decide)

/-- A strict run on a document with brackets in it. -/
theorem generate_iff_validate_of_pets :
    let text := "/** [/bold] */\nentity Pet \x7b\n  name String pattern(/[a-z]/)\n\x7d\n" ++
      "relationship ManyToOne \x7b Pet to Pet \x7d\n"
    let world : World :=
      ⟨FileTree.empty.set (.ofString "pets.jdl") (.file text.toUTF8), [("HOME", "/")],
        "2024-01-02"⟩
    let request : GenerateRequest :=
      ⟨"pets.jdl", "out", some "pets", some "", none, true, false, false⟩
    ∃ validated generated : Outcome,
      start world (.validate request.file request.strict) = .finished validated ∧
      start world (.generate request) = .finished generated ∧
      (generated.exitCode = 0 ↔ validated.exitCode = 0 ∧
        ∃ model, (parse request.strict text).outcome = .ok model ∧
          model.entities.items ≠ []) ∧
      (generated.exitCode ≠ 0 → generated.exitCode = 1) := by
  intro text world request
  let settings : Settings :=
    ⟨.ofString "pets.jdl", .ofString "out", "pets", some "", .naive, true⟩
  have hsettings : Settings.ofOrigin ⟨givenBy request, world.environment⟩ = .ok settings := by
    decide +kernel
  have hholds : HoldsDocument world.tree settings.modelFile text :=
    holdsDocument_toUTF8 (by rfl) (by decide +kernel)
  have hrun : ((parse request.strict text).value?.bind fun model =>
      (Angular.generate settings world.tree model).2.value?) = some () := by
    decide +kernel
  obtain ⟨model, hmodel, hdone⟩ := Option.bind_eq_some_iff.mp hrun
  rw [Report.value?_eq_some_iff] at hmodel hdone
  have hwrites : ∀ other, (parse request.strict text).outcome = .ok other →
      ∃ later, Angular.CanWrite settings other world.tree later := by
    intro other hother
    obtain rfl := Except.ok.inj (hmodel.symm.trans hother)
    exact (Angular.outcome_generate_iff.mp hdone).2
  exact generate_iff_validate (by decide) hholds (by decide) (by decide) (by decide) (by decide)
    hsettings rfl hwrites

end EntityScaffold.Run
