import EntityScaffold.Angular.Session
import EntityScaffold.Proofs.Document.FaultPlace
import EntityScaffold.Proofs.Generation.Assembly
import EntityScaffold.Proofs.Run.Step

/-!
# Generating all or nothing

The generating command can give up for six reasons before a file is written: its settings are wrong,
the file of the document cannot be read or holds no text, a strict run meets a malformed field or a
relationship with an end that is not declared, or there is no entity. Whichever it is, the command
ends with a code other than 0, and the files are what they were (`givesUp_of_hopeless`).
-/

namespace EntityScaffold

/-! ## Documents in files -/

namespace Document

/-- A file holds a document: its bytes are a text, and this is the text with its line ends
unified. -/
def HoldsDocument (tree : FileTree) (file : Path) (text : String) : Prop :=
  ∃ bytes raw, tree.read file = .ok bytes ∧ String.fromUTF8? bytes = some raw ∧
    text = String.ofList (Text.unifyLineEnds raw.toList)

/-- A file whose bytes are those of a text holds that text. -/
theorem holdsDocument_toUTF8 {tree : FileTree} {file : Path} {text : String}
    (h : tree.read file = .ok text.toUTF8)
    (hunified : Text.unifyLineEnds text.toList = text.toList) : HoldsDocument tree file text := by
  refine ⟨_, text, h, ?_, by rw [hunified, String.ofList_toList]⟩
  exact dif_pos text.isValidUTF8

/-- The model of a file is that of the document that it holds. -/
theorem outcome_readModel {tree : FileTree} {file : Path} {text : String}
    (h : HoldsDocument tree file text) (strict : Bool) :
    (readModel tree file strict).outcome =
      match (parse strict text).outcome with
      | .ok model => .ok { model with filename := some file.text }
      | .error fault => .error (.document (fault.inFile file.text)) := by
  obtain ⟨bytes, raw, hbytes, hraw, rfl⟩ := h
  rw [readModel, hbytes]
  dsimp only
  rw [hraw]
  dsimp only
  rw [parseFile, Report.bind_eq_andThen]
  cases hparse : (parse strict (String.ofList (Text.unifyLineEnds raw.toList))).outcome with
  | ok model => simp [Report.mapError, Report.andThen, hparse, Except.mapError, Report.ok]
  | error fault => simp [Report.mapError, Report.andThen, hparse, Except.mapError]

/-- Why no files can be generated from the document of a file. -/
inductive Hopeless (tree : FileTree) (file : Path) (strict : Bool) : Prop
  /-- The file cannot be read. -/
  | unreadable {fault : FileFault} (h : tree.read file = .error fault)
  /-- It holds no text. -/
  | notAText {bytes : ByteArray} (h : tree.read file = .ok bytes)
      (hbytes : String.fromUTF8? bytes = none)
  /-- A line of an entity is no field, in a strict run. -/
  | malformedField {text : String} (h : HoldsDocument tree file text) (hstrict : strict = true)
      (hmisfits : (Source.strip text.toList).misfits ≠ [])
  /-- A relationship has an end that is not declared, in a strict run. -/
  | danglingReference {text : String} {model : Model} (h : HoldsDocument tree file text)
      (hparse : (parse strict text).outcome = .ok model) (hstrict : strict = true)
      (hends : ¬Generation.EndsDeclared model)
  /-- There is no entity. -/
  | noEntity {text : String} {model : Model} (h : HoldsDocument tree file text)
      (hparse : (parse strict text).outcome = .ok model) (hempty : model.entities.items = [])

/-- If a hopeless document can be read at all, then to a model without entities or, in a strict run,
to one with an end that is not declared. -/
theorem Hopeless.of_readModel {tree : FileTree} {file : Path} {strict : Bool}
    (hopeless : Hopeless tree file strict) {model : Model}
    (h : (readModel tree file strict).outcome = .ok model) :
    model.isEmpty = true ∨ strict = true ∧ ¬Generation.EndsDeclared model := by
  cases hopeless with
  | unreadable hread => simp [readModel, hread, Report.fail] at h
  | notAText hread hbytes => simp [readModel, hread, hbytes, Report.fail] at h
  | malformedField hholds hstrict hmisfits =>
    obtain ⟨misfit, later, hfirst⟩ := List.exists_cons_of_ne_nil hmisfits
    rw [outcome_readModel hholds, hstrict, parse_of_misfit (by rw [hfirst, List.head?_cons])] at h
    cases h
  | danglingReference hholds hparse hstrict hends =>
    rw [outcome_readModel hholds, hparse] at h
    obtain rfl := Except.ok.inj h
    exact .inr ⟨hstrict, hends⟩
  | noEntity hholds hparse hempty =>
    rw [outcome_readModel hholds, hparse] at h
    obtain rfl := Except.ok.inj h
    exact .inl (List.isEmpty_iff.mpr hempty)

end Document

/-! ## Generating from a model -/

namespace Angular

open Generation

/-- Only what is wrong with its contexts makes a run refuse a model, and then it has done
nothing. -/
theorem generate_of_document_fault {settings : Settings} {tree : FileTree} {model : Model}
    {fault : Fault} (h : (generate settings tree model).2.outcome = .error (.document fault)) :
    (entityContexts settings.pluralStyle settings.strict model).outcome = .error fault ∧
      (generate settings tree model).1 = ⟨tree, []⟩ := by
  cases hcontexts : (entityContexts settings.pluralStyle settings.strict model).outcome with
  | error other =>
    obtain rfl : other = fault := by simpa [generate, hcontexts] using h
    exact ⟨rfl, by simp [generate, hcontexts]⟩
  | ok contexts =>
    cases hperform :
      (perform ⟨tree, []⟩ (jobs settings contexts model.enums.items)).2.outcome with
    | ok done => simp [generate, hcontexts, hperform, Except.mapError] at h
    | error other => simp [generate, hcontexts, hperform, Except.mapError] at h

/-- A strict run refuses a model with an end that is not declared. -/
theorem generate_of_dangling {settings : Settings} {model : Model}
    (hstrict : settings.strict = true) (hends : ¬EndsDeclared model) (tree : FileTree) :
    ∃ fault, (generate settings tree model).2.outcome = .error (.document fault) := by
  cases hcontexts : (entityContexts settings.pluralStyle settings.strict model).outcome with
  | error fault => exact ⟨fault, by simp [generate, hcontexts]⟩
  | ok contexts =>
    rw [hstrict] at hcontexts
    exact absurd (ends_declared_of_strict hcontexts) hends

/-- A call that refuses a model leaves the model and the tree as they were. -/
theorem run_of_document_fault {settings : Settings} {session : Session} {fault : Fault}
    (h : (generate settings session.tree session.model).2.outcome = .error (.document fault)) :
    (Call.run session (.generate settings)).2 = session := by
  obtain ⟨hcontexts, hprogress⟩ := generate_of_document_fault h
  show Session.mk (assemble settings.pluralStyle settings.strict session.model).2
    (generate settings session.tree session.model).1.tree = session
  rw [assemble_eq, hprogress, afterContexts, hcontexts]

end Angular

/-! ## Runs of the command -/

namespace Run

open CommandLine Document

variable {world : World}

/-- The part of a run that finds no entity. -/
theorem givesUpAt_noEntity (line : String) (next : Unit → Step Unit) :
    GivesUpAt world (do say world line; let done ← stop 1; next done) :=
  (writesNothing_say line).bind fun _ _ => GivesUpAt.bind (writesNothing_stop Nat.one_ne_zero _) _ _

theorem givesUpAt_generate {settings : Settings}
    (h : Hopeless world.tree settings.modelFile settings.strict) :
    GivesUpAt world (generate world settings) := by
  unfold generate
  refine (writesNothing_say _).bind fun _ _ => ?_
  refine (writesNothing_succeed _ _).bind fun model hmodel => ?_
  by_cases hempty : model.isEmpty = true
  · rw [if_pos hempty]
    exact givesUpAt_noEntity _ _
  · obtain ⟨hstrict, hends⟩ := (h.of_readModel hmodel).resolve_left hempty
    obtain ⟨fault, hfault⟩ := Angular.generate_of_dangling hstrict hends world.tree
    obtain ⟨-, hprogress⟩ := Angular.generate_of_document_fault hfault
    rw [if_neg hempty]
    refine (writesNothing_say _).bind fun _ _ => ?_
    generalize Angular.generate settings world.tree model = refused at hfault hprogress ⊢
    obtain ⟨progress, report⟩ := refused
    dsimp only at hfault hprogress ⊢
    refine WritesNothing.bind (writesNothing_modify ?_) fun _ _ => ?_
    · intro transcript hbefore
      rw [hprogress]
      exact ⟨rfl, rfl⟩
    · -- the report of the refused model has no value to go on with
      refine (writesNothing_succeed _ _).bind fun done hdone => ?_
      rw [hfault] at hdone
      cases hdone

theorem givesUpAt_refuse (problems : List Settings.Problem) :
    GivesUpAt world (refuse world problems) :=
  (writesNothing_say _).bind fun _ _ => writesNothing_stop (by decide) _

/-- An outcome that a run may come to, if it was asked for and whatever it was answered. -/
def Interaction.MayEnd : Interaction → Outcome → Prop
  | finished outcome, other => other = outcome
  | asking _ answered, other => ∃ answer, other = answered answer

/-- Why a run that generates files must give up. -/
inductive IsHopeless (world : World) (request : GenerateRequest) : Prop
  /-- The settings are wrong. -/
  | settings {problems : List Settings.Problem}
      (h : Settings.ofOrigin ⟨givenBy request, world.environment⟩ = .error problems)
  /-- The settings are right, and nothing can be done with the document. -/
  | document {settings : Settings}
      (h : Settings.ofOrigin ⟨givenBy request, world.environment⟩ = .ok settings)
      (hopeless : Hopeless world.tree settings.modelFile settings.strict)

/-- **Giving up.** If the settings of a run are wrong, its document cannot be read, or it is refused
or without entities, the run ends with a code other than 0 and has written nothing, wherever it is
told to write and whatever it is answered. And whoever generates from a model that is refused finds
the model and the files as they were. -/
theorem givesUp_of_hopeless :
    (∀ (world : World) (request : GenerateRequest) (outcome : Outcome), IsHopeless world request →
      (start world (.generate request)).MayEnd outcome → GivesUp world outcome) ∧
    ∀ (settings : Settings) (session : Angular.Session) (fault : Fault),
      (Angular.generate settings session.tree session.model).2.outcome = .error (.document fault) →
        (Angular.generate settings session.tree session.model).1 = ⟨session.tree, []⟩ ∧
        (Angular.Call.run session (.generate settings)).2 = session := by
  refine ⟨fun world request outcome hopeless hend => ?_, fun settings session fault hfault =>
    ⟨(Angular.generate_of_document_fault hfault).2, Angular.run_of_document_fault hfault⟩⟩
  unfold start at hend
  cases hopeless with
  | settings hsettings =>
    simp only [hsettings, Interaction.MayEnd] at hend
    rw [hend]
    exact givesUp_outcomeOf (givesUpAt_refuse _) _
  | @document settings hsettings hopeless =>
    cases hhost : settings.apiHost with
    | some host =>
      simp only [hsettings, hhost, Interaction.MayEnd] at hend
      rw [hend]
      exact givesUp_outcomeOf (givesUpAt_generate hopeless) _
    | none =>
      simp only [hsettings, hhost, Interaction.MayEnd] at hend
      obtain ⟨answer, hanswer⟩ := hend
      rw [hanswer]
      cases answer with
      | some host =>
        refine givesUp_outcomeOf (givesUpAt_generate ?_) _
        exact hopeless
      | none => exact givesUp_outcomeOf (writesNothing_stop Nat.one_ne_zero _) _

/-- A pet whose owner is not declared, in a run that the environment makes strict: no answer to the
question for the host saves it. -/
theorem givesUp_of_undeclared_owner :
    let text := "entity Pet \x7b\n  name String\n\x7d\n" ++
      "relationship ManyToOne \x7b Pet to Owner \x7d\n"
    let world : World :=
      ⟨FileTree.empty.set (.ofString "pets.jdl") (.file text.toUTF8),
        [("JDL_STRICT", "yes"), ("JDL_MICROSERVICE", "pets")], "2024-01-02"⟩
    let request : GenerateRequest := ⟨"pets.jdl", "out", none, none, none, false, false, false⟩
    ∃ answered, start world (.generate request) = .asking hostQuestion answered ∧
      ∀ answer, GivesUp world (answered answer) := by
  intro text world request
  let settings : Settings := ⟨.ofString "pets.jdl", .ofString "out", "pets", none, .naive, true⟩
  have hsettings : Settings.ofOrigin ⟨givenBy request, world.environment⟩ = .ok settings := by
    decide +kernel
  have hholds : HoldsDocument world.tree settings.modelFile text :=
    holdsDocument_toUTF8 (by rfl) (by decide +kernel)
  have hparts : (parse true text).value?.map (fun model => (model.relationships,
      model.entities.names)) =
      some ([⟨.manyToOne, ⟨"Pet", none⟩, ⟨"Owner", none⟩⟩], ["Pet"]) := by
    decide +kernel
  obtain ⟨model, hmodel, hparts⟩ := Option.map_eq_some_iff.mp hparts
  obtain ⟨hrelationships, hnames⟩ := Prod.mk.inj hparts
  have hends : ¬Generation.EndsDeclared model := by
    intro hends
    have howner := hends ⟨.manyToOne, ⟨"Pet", none⟩, ⟨"Owner", none⟩⟩ (by simp [hrelationships])
      ⟨"Owner", none⟩ (by simp [Relationship.ends])
    simp [hnames] at howner
  have hopeless : IsHopeless world request :=
    .document hsettings
      (.danglingReference hholds (Report.value?_eq_some_iff.mp hmodel) rfl hends)
  have hstart : ∃ answered, start world (.generate request) = .asking hostQuestion answered := by
    simp only [start, hsettings]
    exact ⟨_, rfl⟩
  obtain ⟨answered, hanswered⟩ := hstart
  refine ⟨answered, hanswered, fun answer => givesUp_of_hopeless.1 world request _ hopeless ?_⟩
  rw [hanswered]
  exact ⟨answer, rfl⟩

end Run

end EntityScaffold
