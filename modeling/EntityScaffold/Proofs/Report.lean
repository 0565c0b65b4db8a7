import EntityScaffold.Report

/-!
# How reports in sequence end

A sequence of reports ends with a value just if each of them does. Which value that is (`value?`)
does not depend on what is said on the way.
-/

namespace EntityScaffold.Report

variable {ε α β : Type} {report : Report ε α} {next : α → Report ε β}

theorem outcome_andThen_of_ok {value : α} (h : report.outcome = .ok value) :
    (report.andThen next).outcome = (next value).outcome := by
  rw [andThen, h]

theorem notes_andThen_of_ok {value : α} (h : report.outcome = .ok value) :
    (report.andThen next).notes = report.notes ++ (next value).notes := by
  rw [andThen, h]

theorem exists_of_andThen_ok {result : β} (h : (report.andThen next).outcome = .ok result) :
    ∃ value, report.outcome = .ok value ∧ (next value).outcome = .ok result := by
  cases hvalue : report.outcome with
  | error error =>
    rw [andThen, hvalue] at h
    exact absurd h (by simp)
  | ok value =>
    rw [outcome_andThen_of_ok hvalue] at h
    exact ⟨value, rfl, h⟩

/-- The value that a report ends with, if it ends with one. -/
def value? (report : Report ε α) : Option α := report.outcome.toOption

theorem value?_eq_some_iff {value : α} :
    report.value? = some value ↔ report.outcome = .ok value := by
  unfold value?
  cases report.outcome with
  | error error => simp [Except.toOption]
  | ok other => simp [Except.toOption]

@[simp] theorem value?_ok (value : α) : (ok value : Report ε α).value? = some value := rfl

@[simp] theorem value?_fail (error : ε) : (fail error : Report ε α).value? = none := rfl

@[simp] theorem value?_andThen (report : Report ε α) (next : α → Report ε β) :
    (report.andThen next).value? = report.value?.bind fun value => (next value).value? := by
  unfold andThen value?
  cases report.outcome with
  | error error => rfl
  | ok value => rfl

/-- What is said does not matter to the value. -/
@[simp] theorem value?_mk_outcome (notes : List Note) (report : Report ε α) :
    (⟨notes, report.outcome⟩ : Report ε α).value? = report.value? := rfl

/-! ## Changing the value -/

theorem map_eq_andThen {f : α → β} (report : Report ε α) :
    f <$> report = report.andThen fun value => ok (f value) := rfl

theorem notes_map {f : α → β} (report : Report ε α) : (f <$> report).notes = report.notes := by
  cases report with
  | mk notes outcome =>
    cases outcome with
    | error error => rfl
    | ok value => exact List.append_nil notes

theorem outcome_map {f : α → β} (report : Report ε α) :
    (f <$> report).outcome = report.outcome.map f := by
  cases report with
  | mk notes outcome =>
    cases outcome with
    | error error => rfl
    | ok value => rfl

end EntityScaffold.Report
