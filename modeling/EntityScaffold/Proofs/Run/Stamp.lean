import EntityScaffold.Proofs.Console.Shown
import EntityScaffold.Proofs.Run.Result

/-!
# Lines with the day before them

The day stands between brackets, but it begins with no character that a tag may begin with. So a
line with the day before it has the tags of the line, and is shown as it is just if the line is.
-/

namespace EntityScaffold.Run

open Console

variable {world : World}

/-- A day is written in digits and hyphens. -/
def IsDay (day : String) : Prop := ∀ c ∈ day.toList, c.isDigit = true ∨ c = '-'

instance (day : String) : Decidable (IsDay day) :=
  inferInstanceAs (Decidable (∀ c ∈ day.toList, _))

theorem startsTag_of_isDigit {c : Char} (h : c.isDigit = true) : startsTag c = false := by
  have hne : ∀ d : Char, d.isDigit = false → c ≠ d := by
    rintro d hd rfl
    rw [h] at hd
    exact absurd hd (by simp)
  have hletter : ¬('a' ≤ c) := by
    simp only [Char.isDigit, Bool.and_eq_true, decide_eq_true_eq] at h
    simp only [Char.le_def]
    exact fun hle => absurd (UInt32.le_trans hle h.2) (by decide)
  simp [startsTag, hletter, hne '#' (by decide), hne '/' (by decide), hne '@' (by decide)]

theorem IsDay.inert {day : String} (h : IsDay day) : Inert day.toList := by
  have hclass : ∀ c ∈ day.toList, (c.isDigit || c == '-') = true := fun c hc => by
    simpa using h c hc
  exact inert_of_class (by decide) hclass

theorem toList_stamped (world : World) (line : String) : (stamped world line).toList =
    '[' :: (world.day.toList ++ (']' :: ' ' :: line.toList)) := by
  simp [stamped, toString]

/-- After its bracket the stamp begins with a character that begins no tag. -/
theorem exists_head_of_isDay (h : IsDay world.day) (line : String) :
    ∃ c rest, world.day.toList ++ (']' :: ' ' :: line.toList) = c :: rest ∧
      startsTag c = false := by
  cases hfirst : world.day.toList with
  | nil => exact ⟨']', _, rfl, by decide⟩
  | cons c later =>
    refine ⟨c, _, rfl, ?_⟩
    rcases h c (by simp [hfirst]) with hdigit | rfl
    · exact startsTag_of_isDigit hdigit
    · decide

/-- The day before a line is no tag and adds none. -/
theorem liveTags_stamped (h : IsDay world.day) (line : String) :
    liveTags (stamped world line).toList = liveTags line.toList := by
  obtain ⟨c, rest, hrest, hc⟩ := exists_head_of_isDay h line
  rw [toList_stamped, hrest, liveTags_open_of_ne hc, ← hrest, liveTags_append_of_inert_left h.inert,
    liveTags_cons_of_ne (by decide) (by decide), liveTags_cons_of_ne (by decide) (by decide)]

/-- The day before a line is shown as it is. -/
theorem showsAsIs_stamped (h : IsDay world.day) (line : String) :
    ShowsAsIs (stamped world line).toList ↔ ShowsAsIs line.toList := by
  obtain ⟨c, rest, hrest, hc⟩ := exists_head_of_isDay h line
  rw [toList_stamped, hrest, showsAsIs_open_of_ne hc, ← hrest, showsAsIs_append_of_inert h.inert,
    showsAsIs_cons (by decide) (by decide) (by decide) (by decide),
    showsAsIs_cons (by decide) (by decide) (by decide) (by decide)]

end EntityScaffold.Run
