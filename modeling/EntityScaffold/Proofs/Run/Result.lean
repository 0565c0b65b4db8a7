import EntityScaffold.Proofs.Console.Markup
import EntityScaffold.Proofs.Run.Step

/-!
# What a part of a run prints and how it ends

What a part of a run prints and whether it goes on does not depend on what has been done before it.
`Does` says both of a part, with one rule for each way a part is put together, so that the lines and
the end of a whole command are put together from those of its parts (`Does.outcomeOf`).
-/

namespace EntityScaffold.Run

open Console

variable {α β : Type} {world : World}

/-- A part of a run that prints some lines and ends in some way, whatever was done before. -/
def Does (step : Step α) (lines : List String) (result : Except Ending α) : Prop :=
  ∀ transcript, (resultOf step transcript).1 = result ∧
    (resultOf step transcript).2.printed = transcript.printed ++ lines

/-! ## Parts one after the other -/

theorem Does.bind {step : Step α} {next : α → Step β} {lines later : List String} {value : α}
    {result : Except Ending β} (hstep : Does step lines (.ok value))
    (hnext : Does (next value) later result) : Does (step >>= next) (lines ++ later) result := by
  intro transcript
  obtain ⟨hresult, hprinted⟩ := hstep transcript
  obtain ⟨hresult', hprinted'⟩ := hnext (resultOf step transcript).2
  rw [resultOf_bind, hresult]
  exact ⟨hresult', by rw [hprinted', hprinted, List.append_assoc]⟩

/-- A first part that prints nothing. -/
theorem Does.after {step : Step α} {next : α → Step β} {lines : List String} {value : α}
    {result : Except Ending β} (hstep : Does step [] (.ok value))
    (hnext : Does (next value) lines result) : Does (step >>= next) lines result :=
  hstep.bind hnext

/-- What comes after a part that ends the run is not done. -/
theorem Does.bind_error {step : Step α} {lines : List String} {ending : Ending}
    (hstep : Does step lines (.error ending)) (next : α → Step β) :
    Does (step >>= next) lines (.error ending) := by
  intro transcript
  obtain ⟨hresult, hprinted⟩ := hstep transcript
  rw [resultOf_bind, hresult]
  exact ⟨rfl, hprinted⟩

theorem does_pure (value : α) : Does (pure value) [] (.ok value) :=
  fun transcript => ⟨rfl, (List.append_nil transcript.printed).symm⟩

/-! ## Single parts -/

theorem does_stop (exitCode : Nat) : Does (stop exitCode : Step α) [] (.error ⟨exitCode, none⟩) :=
  fun transcript => ⟨rfl, (List.append_nil transcript.printed).symm⟩

theorem does_crash (cause : Crash) : Does (crash cause : Step α) [] (.error ⟨1, some cause⟩) :=
  fun transcript => ⟨rfl, (List.append_nil transcript.printed).symm⟩

/-- A change of the transcript that is not to the lines printed. -/
theorem does_modify {change : Transcript → Transcript}
    (h : ∀ transcript, (change transcript).printed = transcript.printed) :
    Does (modify change) [] (.ok ()) :=
  fun transcript => ⟨rfl, (h transcript).trans (List.append_nil transcript.printed).symm⟩

theorem does_print_ok (lines : List String) : Does (print (.ok lines)) lines (.ok ()) :=
  fun _ => ⟨rfl, rfl⟩

theorem does_print_error (fault : MarkupFault) :
    Does (print (.error fault)) [] (.error ⟨1, some (.badMarkup fault)⟩) :=
  does_crash _

/-- A line with the day before it. -/
def stamped (world : World) (line : String) : String := s!"[{world.day}] {line}"

/-- A line that can be shown is shown. -/
theorem does_say {line : String} {lines : List String}
    (h : shownLines (stamped world line) = .ok lines) : Does (say world line) lines (.ok ()) := by
  have hsay : say world line = print (.ok lines) := congrArg print h
  rw [hsay]
  exact does_print_ok lines

theorem does_say_error {line : String} {fault : MarkupFault}
    (h : shownLines (stamped world line) = .error fault) :
    Does (say world line) [] (.error ⟨1, some (.badMarkup fault)⟩) := by
  have hsay : say world line = print (.error fault) := congrArg print h
  rw [hsay]
  exact does_print_error fault

/-- A part that reports goes on with the value of the report. -/
theorem does_succeed {activity : String} {report : Report Failure α} {value : α}
    (h : report.outcome = .ok value) : Does (succeed world activity report) [] (.ok value) := by
  unfold succeed
  rw [h]
  refine Does.after (does_modify ?_) (does_pure value)
  exact fun _ => rfl

/-- The words for a failed activity. -/
def failureLine (activity : String) (failure : Failure) : String :=
  s!"{activity} failed with error(s): {failure.message}"

theorem succeed_eq_of_error {activity : String} {report : Report Failure α} {failure : Failure}
    (h : report.outcome = .error failure) (hfailure : failure ≠ .notAText) :
    succeed world activity report = (do
      modify fun transcript => { transcript with notes := transcript.notes ++ report.notes }
      say world (failureLine activity failure)
      stop 1) := by
  unfold succeed
  rw [h]
  cases failure with
  | notAText => exact absurd rfl hfailure
  | document fault => rfl
  | file fault => rfl

/-- A part that reports a failure says so and ends the run. -/
theorem does_succeed_error {activity : String} {report : Report Failure α} {failure : Failure}
    (h : report.outcome = .error failure) (hfailure : failure ≠ .notAText) {lines : List String}
    (hlines : shownLines (stamped world (failureLine activity failure)) = .ok lines) :
    Does (succeed world activity report) lines (.error ⟨1, none⟩) := by
  rw [succeed_eq_of_error h hfailure, ← List.append_nil lines]
  refine Does.after (does_modify ?_) ((does_say hlines).bind (does_stop 1))
  exact fun _ => rfl

/-- If the failure cannot be shown, the run ends all the same. -/
theorem does_succeed_unshown {activity : String} {report : Report Failure α} {failure : Failure}
    (h : report.outcome = .error failure) (hfailure : failure ≠ .notAText) {fault : MarkupFault}
    (hlines : shownLines (stamped world (failureLine activity failure)) = .error fault) :
    Does (succeed world activity report) [] (.error ⟨1, some (.badMarkup fault)⟩) := by
  rw [succeed_eq_of_error h hfailure]
  refine Does.after (does_modify ?_) ((does_say_error hlines).bind_error _)
  exact fun _ => rfl

/-- Whichever it is, a failure ends the run with the code 1. -/
theorem exists_does_succeed_error {activity : String} {report : Report Failure α}
    {failure : Failure} (h : report.outcome = .error failure) (hfailure : failure ≠ .notAText) :
    ∃ lines ending, Does (succeed world activity report) lines (.error ending) ∧
      ending.exitCode = 1 := by
  cases hlines : shownLines (stamped world (failureLine activity failure)) with
  | ok lines => exact ⟨lines, _, does_succeed_error h hfailure hlines, rfl⟩
  | error fault => exact ⟨[], _, does_succeed_unshown h hfailure hlines, rfl⟩

/-! ## Whole runs -/

/-- The outcome of a run that does what its step does. -/
theorem Does.outcomeOf {step : Step Unit} {lines : List String} {result : Except Ending Unit}
    (h : Does step lines result) (world : World) (log : Log.Setup) :
    (outcomeOf world log step).printed = lines ∧
      (outcomeOf world log step).exitCode = (endingOf result).exitCode ∧
      (outcomeOf world log step).crash = (endingOf result).crash := by
  obtain ⟨hresult, hprinted⟩ := h ⟨[], [], [], world.tree⟩
  simp only [outcomeOf_eq, hresult, hprinted, List.nil_append, and_self]

end EntityScaffold.Run
