import EntityScaffold.Run.Commands

/-!
# Parts of a run that write nothing

A part of a run either goes on with a value or ends the run. `WritesNothing` says of a part that no
file has been written after it if none had been before, and which values it goes on with; if it ends
the run then not with the code 0. There is one rule for each way a part is put together.
-/

namespace EntityScaffold.Run

variable {α β : Type} {world : World}

/-- How a part of a run ends, and the transcript afterwards. -/
def resultOf (step : Step α) (transcript : Transcript) : Except Ending α × Transcript :=
  (step.run).run transcript

/-- No file has been written. -/
structure Untouched (world : World) (transcript : Transcript) : Prop where
  tree : transcript.tree = world.tree
  written : transcript.written = []

/-- A value that a part of a run may go on with, or an end with a code other than 0. -/
def GoesOn (post : α → Prop) : Except Ending α → Prop
  | .ok value => post value
  | .error ending => ending.exitCode ≠ 0

/-- A part of a run that writes no file and goes on with some values only, if it goes on. -/
def WritesNothing (world : World) (step : Step α) (post : α → Prop) : Prop :=
  ∀ transcript, Untouched world transcript →
    Untouched world (resultOf step transcript).2 ∧ GoesOn post (resultOf step transcript).1

/-- A part of a run that writes no file and ends the run. -/
abbrev GivesUpAt (world : World) (step : Step α) : Prop := WritesNothing world step fun _ => False

/-! ## Parts one after the other -/

/-- The second of two parts goes on from the first one, unless that one ended the run. -/
theorem resultOf_bind (step : Step α) (next : α → Step β) (transcript : Transcript) :
    resultOf (step >>= next) transcript =
      match (resultOf step transcript).1 with
      | .ok value => resultOf (next value) (resultOf step transcript).2
      | .error ending => (.error ending, (resultOf step transcript).2) := by
  unfold resultOf
  rw [ExceptT.run_bind, StateT.run_bind]
  generalize (step.run).run transcript = first
  obtain ⟨result, after⟩ := first
  cases result <;> rfl

theorem WritesNothing.bind {step : Step α} {next : α → Step β} {post : α → Prop}
    {post' : β → Prop} (hstep : WritesNothing world step post)
    (hnext : ∀ value, post value → WritesNothing world (next value) post') :
    WritesNothing world (step >>= next) post' := by
  intro transcript hbefore
  obtain ⟨hafter, hend⟩ := hstep transcript hbefore
  rw [resultOf_bind]
  cases hresult : (resultOf step transcript).1 with
  | ok value =>
    rw [hresult] at hend
    exact hnext value hend _ hafter
  | error ending =>
    rw [hresult] at hend
    exact ⟨hafter, hend⟩

/-- What comes after a part that ends the run does not matter. -/
theorem GivesUpAt.bind {step : Step α} (h : GivesUpAt world step) (next : α → Step β)
    (post : β → Prop) : WritesNothing world (step >>= next) post :=
  WritesNothing.bind h fun _ hnever => hnever.elim

theorem writesNothing_pure {post : α → Prop} {value : α} (h : post value) :
    WritesNothing world (pure value) post :=
  fun _ hbefore => ⟨hbefore, h⟩

/-! ## Single parts -/

theorem writesNothing_stop {exitCode : Nat} (h : exitCode ≠ 0) (post : α → Prop) :
    WritesNothing world (stop exitCode) post :=
  fun _ hbefore => ⟨hbefore, h⟩

theorem writesNothing_crash (cause : Crash) (post : α → Prop) :
    WritesNothing world (crash cause) post :=
  fun _ hbefore => ⟨hbefore, Nat.one_ne_zero⟩

/-- A change of the transcript that is not to the files. -/
theorem writesNothing_modify {change : Transcript → Transcript}
    (h : ∀ transcript, Untouched world transcript → Untouched world (change transcript)) :
    WritesNothing world (modify change) fun _ => True :=
  fun transcript hbefore => ⟨h transcript hbefore, trivial⟩

theorem writesNothing_say (line : String) :
    WritesNothing world (say world line) fun _ => True := by
  unfold say print
  cases Console.shownLines s!"[{world.day}] {line}" with
  | ok lines => exact writesNothing_modify fun _ hbefore => ⟨hbefore.tree, hbefore.written⟩
  | error fault => exact writesNothing_crash _ _

/-- A part that reports goes on with the value of the report, if it has one. -/
theorem writesNothing_succeed (activity : String) (report : Report Failure α) :
    WritesNothing world (succeed world activity report) fun value =>
      report.outcome = .ok value := by
  unfold succeed
  refine WritesNothing.bind (writesNothing_modify ?_) fun _ _ => ?_
  · exact fun _ hbefore => ⟨hbefore.tree, hbefore.written⟩
  have hstop : ∀ failure : Failure, WritesNothing world (do
      say world s!"{activity} failed with error(s): {failure.message}"
      stop 1) fun value => report.outcome = .ok value :=
    fun failure => (writesNothing_say _).bind fun _ _ => writesNothing_stop Nat.one_ne_zero _
  cases houtcome : report.outcome with
  | ok value => exact writesNothing_pure rfl
  | error failure =>
    rw [houtcome] at hstop
    cases failure with
    | notAText => exact writesNothing_crash _ _
    | document fault => exact hstop _
    | file fault => exact hstop _

/-! ## Whole runs -/

/-- How a run ends: with the code 0 if all its parts go on. -/
def endingOf : Except Ending Unit → Ending
  | .ok () => ⟨0, none⟩
  | .error ending => ending

theorem outcomeOf_eq (world : World) (log : Log.Setup) (step : Step Unit) :
    outcomeOf world log step =
      let ran := resultOf step ⟨[], [], [], world.tree⟩
      ⟨(endingOf ran.1).exitCode, (endingOf ran.1).crash, ran.2.printed, ran.2.notes, log,
        ran.2.written, ran.2.tree⟩ := by
  unfold outcomeOf resultOf endingOf
  rfl

/-- A run that gives up before anything is written. -/
structure GivesUp (world : World) (outcome : Outcome) : Prop where
  exitCode : outcome.exitCode ≠ 0
  tree : outcome.tree = world.tree
  written : outcome.written = []

theorem givesUp_outcomeOf {step : Step Unit} (h : GivesUpAt world step) (log : Log.Setup) :
    GivesUp world (outcomeOf world log step) := by
  obtain ⟨hafter, hend⟩ := h ⟨[], [], [], world.tree⟩ ⟨rfl, rfl⟩
  rw [outcomeOf_eq]
  cases hresult : (resultOf step ⟨[], [], [], world.tree⟩).1 with
  | ok value =>
    rw [hresult] at hend
    exact hend.elim
  | error ending =>
    rw [hresult] at hend
    have hcode : ending.exitCode ≠ 0 := hend
    exact ⟨by simpa [hresult, endingOf] using hcode, hafter.tree, hafter.written⟩

end EntityScaffold.Run
