import EntityScaffold.FileTree
import EntityScaffold.Proofs.Text.Pattern

/-!
# Going along paths

The steps of a text in which a slash joins two texts are those of the first, then those of the
second, so entering a text is entering its parts one after the other. A text without slashes that
is neither empty nor a dot is one step. Going from a folder along a text with steps to the parent
(`Path.follow`) is entering the text where it has none, and a step to the parent undoes the last
step that was entered. But for slashes and dots, the text of a path holds only characters that its
steps were spelled with (`exists_step_of_mem_text`).
-/

namespace EntityScaffold.Path

open Text (mem_intercalate mem_intercalate_of_mem mem_of_mem_splitOn)

/-! ## Steps of a text -/

theorem stepsOf_append_slash (first second : String) :
    stepsOf (first ++ "/" ++ second) = stepsOf first ++ stepsOf second := by
  simp only [stepsOf, String.toList_append]
  rw [List.append_assoc]
  show List.filter _ (List.map _ (List.splitOn '/' (first.toList ++ '/' :: second.toList))) = _
  rw [List.splitOn_append_cons_self, List.map_append, List.filter_append]

/-- A text that is one step by itself and does not lead to a parent. -/
structure IsStep (text : String) : Prop where
  slashFree : '/' ∉ text.toList
  ne_empty : text ≠ ""
  ne_dot : text ≠ "."
  ne_parent : text ≠ ".."

instance (text : String) : Decidable (IsStep text) :=
  decidable_of_iff ('/' ∉ text.toList ∧ text ≠ "" ∧ text ≠ "." ∧ text ≠ "..")
    ⟨fun ⟨h, h', h'', h'''⟩ => ⟨h, h', h'', h'''⟩, fun h => ⟨h.1, h.2, h.3, h.4⟩⟩

theorem IsStep.stepsOf_eq {text : String} (h : IsStep text) : stepsOf text = [text] := by
  simp [stepsOf, List.splitOn_eq_singleton h.slashFree, h.ne_empty, h.ne_dot]

/-- What has no slash and is longer than a step to the parent is a step. -/
theorem IsStep.of_length {text : String} (h : '/' ∉ text.toList) (hlong : 2 < text.toList.length) :
    IsStep text := by
  refine ⟨h, ?_, ?_, ?_⟩ <;> rintro rfl <;> simp at hlong

/-! ## Entering -/

theorem enter_slash (path : Path) (first second : String) :
    path.enter (first ++ "/" ++ second) = (path.enter first).enter second := by
  simp only [enter, stepsOf_append_slash, List.append_assoc]

/-! ## Going on below -/

/-- The path that goes on from a path by some steps. -/
def below (path : Path) (steps : List String) : Path := { path with steps := path.steps ++ steps }

theorem below_inj {path : Path} {steps steps' : List String} :
    path.below steps = path.below steps' ↔ steps = steps' := by
  simp [below]

theorem within_below (path folder : Path) (steps : List String) :
    (path.below steps).within folder = (path.within folder).below steps := by
  obtain ⟨origin, own⟩ := path
  cases origin <;> simp [within, below]

/-! ## Following -/

/-- Where one comes from a folder along the steps of a text, some of which may lead to a parent. -/
def follow (folder : Path) (text : String) : Path :=
  (stepsOf text).foldl FileTree.stepFrom folder

theorem follow_slash (folder : Path) (first second : String) :
    folder.follow (first ++ "/" ++ second) = (folder.follow first).follow second := by
  simp only [follow, stepsOf_append_slash, List.foldl_append]

theorem follow_step (folder : Path) {text : String} (h : IsStep text) :
    folder.follow text = folder.enter text := by
  simp [follow, enter, h.stepsOf_eq, FileTree.stepFrom, h.ne_parent]

theorem follow_dot (folder : Path) : folder.follow "." = folder := rfl

theorem follow_parent (folder : Path) : folder.follow ".." = folder.parent := rfl

/-! ## Characters -/

section Characters

variable {c : Char} {path folder : Path} {step text : String}

/-- But for slashes and the dot that stands for no step, the text of a path holds what its steps
hold. -/
theorem exists_step_of_mem_text (h : c ∈ path.text.toList) :
    c = '/' ∨ c = '.' ∨ ∃ step ∈ path.steps, c ∈ step.toList := by
  unfold Path.text at h
  split at h
  · exact .inr (.inl (by simpa using h))
  · rw [String.toList_append, List.mem_append] at h
    rcases h with horigin | hsteps
    · refine .inl ?_
      cases horigin' : path.origin with
      | relative => simp [horigin', Origin.text] at horigin
      | root => simpa [horigin', Origin.text] using horigin
      | doubleRoot => simpa [horigin', Origin.text] using horigin
    · rw [String.toList_intercalate] at hsteps
      rcases mem_intercalate hsteps with hslash | ⟨piece, hpiece, hc⟩
      · exact .inl (by simpa using hslash)
      · obtain ⟨step, hstep, rfl⟩ := List.mem_map.mp hpiece
        exact .inr (.inr ⟨step, hstep, hc⟩)

theorem mem_text_of_mem_step (h : step ∈ path.steps) (hc : c ∈ step.toList) :
    c ∈ path.text.toList := by
  have hne : path ≠ here := by
    rintro rfl
    exact absurd h List.not_mem_nil
  rw [Path.text, if_neg hne, String.toList_append, List.mem_append, String.toList_intercalate]
  exact .inr (mem_intercalate_of_mem _ (List.mem_map_of_mem h) hc)

/-- The steps that a text spells hold what it holds. -/
theorem mem_of_mem_stepsOf (h : step ∈ stepsOf text) (hc : c ∈ step.toList) : c ∈ text.toList := by
  obtain ⟨piece, hpiece, rfl⟩ := List.mem_map.mp (List.mem_filter.mp h).1
  rw [String.toList_ofList] at hc
  exact mem_of_mem_splitOn hpiece hc

/-- But for slashes and dots, the text of a path holds what the text that spells it holds. -/
theorem mem_of_mem_text_ofString (h : c ∈ (ofString text).text.toList) :
    c = '/' ∨ c = '.' ∨ c ∈ text.toList := by
  rcases exists_step_of_mem_text h with hslash | hdot | ⟨step, hstep, hc⟩
  · exact .inl hslash
  · exact .inr (.inl hdot)
  · exact .inr (.inr (mem_of_mem_stepsOf hstep hc))

/-- Going from a folder adds its steps. -/
theorem mem_steps_within (h : step ∈ (path.within folder).steps) :
    step ∈ folder.steps ∨ step ∈ path.steps := by
  unfold within at h
  split at h
  · exact List.mem_append.mp h
  · exact .inr h

/-- Without its steps to a parent a path has some of its steps left. -/
theorem mem_steps_collapse (h : step ∈ path.collapse.steps) : step ∈ path.steps := by
  have hfold : ∀ (steps taken : List String),
      step ∈ steps.foldl (fun taken step => if step = ".." then taken.tail else step :: taken)
        taken → step ∈ taken ∨ step ∈ steps := by
    intro steps
    induction steps with
    | nil => exact fun taken h => .inl h
    | cons first later ih =>
      intro taken h
      rcases ih _ h with htaken | hlater
      · dsimp only at htaken
        split at htaken
        · exact .inl (List.mem_of_mem_tail htaken)
        · rcases List.mem_cons.mp htaken with rfl | htaken
          · exact .inr List.mem_cons_self
          · exact .inl htaken
      · exact .inr (List.mem_cons_of_mem _ hlater)
  have h := hfold path.steps [] (List.mem_reverse.mp h)
  exact h.resolve_left List.not_mem_nil

end Characters

end EntityScaffold.Path
