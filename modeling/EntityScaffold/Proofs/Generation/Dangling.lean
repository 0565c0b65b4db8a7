import EntityScaffold.Generation.Context

/-!
# What a check of references finds

A relationship dangles if one of its ends is not known. Both kinds of check go by the list of the
relationships that dangle, repeats included: a lenient one returns it and gives one warning for each
of its members (`danglingReferences_lenient`), a strict one fails at its first member and has said
nothing before (`danglingReferences_strict`). So the two agree on whether there is anything to find,
on what comes first and on which end of it is missed.
-/

namespace EntityScaffold.Generation

/-- One of the ends of a relationship is not known. -/
def Dangles (known : List String) (relationship : Relationship) : Prop :=
  relationship.source.entity ∉ known ∨ relationship.target.entity ∉ known

instance (known : List String) (relationship : Relationship) :
    Decidable (Dangles known relationship) :=
  inferInstanceAs (Decidable (_ ∨ _))

/-- The end that is missed where a relationship dangles: the source if it is not known, else the
target. -/
def missedEnd (known : List String) (relationship : Relationship) : String :=
  if relationship.source.entity ∈ known then relationship.target.entity
  else relationship.source.entity

theorem missingEnd?_eq (known : List String) (relationship : Relationship) :
    missingEnd? known relationship =
      if Dangles known relationship then some (missedEnd known relationship) else none := by
  unfold missingEnd? missedEnd Dangles
  by_cases hsource : relationship.source.entity ∈ known
  · by_cases htarget : relationship.target.entity ∈ known
    · simp [Relationship.ends, hsource, htarget]
    · simp [Relationship.ends, hsource, htarget]
  · simp [Relationship.ends, hsource]

theorem not_dangles_iff {known : List String} {relationship : Relationship} :
    ¬Dangles known relationship ↔ ∀ endpoint ∈ relationship.ends, endpoint.entity ∈ known := by
  simp [Dangles, Relationship.ends]

/-! ## Checks -/

/-- What is noted of a relationship that dangles. -/
def danglingNote (known : List String) (relationship : Relationship) : Note :=
  .danglingReference relationship (missedEnd known relationship)

/-- The relationships that dangle, in order. -/
def danglingAmong (known : List String) (relationships : List Relationship) : List Relationship :=
  relationships.filter fun relationship => Dangles known relationship

section

variable {known : List String} {relationship : Relationship}

theorem danglingAmong_cons_of_dangles (h : Dangles known relationship)
    (later : List Relationship) :
    danglingAmong known (relationship :: later) = relationship :: danglingAmong known later :=
  List.filter_cons_of_pos (by simpa using h)

theorem danglingAmong_cons_of_not (h : ¬Dangles known relationship) (later : List Relationship) :
    danglingAmong known (relationship :: later) = danglingAmong known later :=
  List.filter_cons_of_neg (by simpa using h)

end

variable (known : List String) (relationships : List Relationship)

theorem danglingAmong_eq_nil_iff :
    danglingAmong known relationships = [] ↔
      ∀ relationship ∈ relationships, ∀ endpoint ∈ relationship.ends, endpoint.entity ∈ known := by
  simp only [danglingAmong, List.filter_eq_nil_iff, decide_eq_true_eq, not_dangles_iff]

/-- A lenient check finds all relationships that dangle and notes each of them once. -/
theorem danglingReferences_lenient :
    danglingReferences known false relationships =
      ⟨(danglingAmong known relationships).map (danglingNote known),
        .ok (danglingAmong known relationships)⟩ := by
  induction relationships with
  | nil => rfl
  | cons relationship later ih =>
    rw [danglingReferences, missingEnd?_eq]
    by_cases h : Dangles known relationship
    · rw [if_pos h, danglingAmong_cons_of_dangles h]
      simp only [Bool.false_eq_true, if_false, Report.bind_eq_andThen, Report.say_andThen, ih]
      simp [Report.andThen, Report.ok, danglingNote]
    · rw [if_neg h, danglingAmong_cons_of_not h]
      exact ih

/-- A strict check fails at the first relationship that dangles and notes nothing. -/
theorem danglingReferences_strict :
    danglingReferences known true relationships =
      match danglingAmong known relationships with
      | [] => .ok []
      | first :: _ => .fail ⟨.danglingReference first (missedEnd known first), .unknown⟩ := by
  induction relationships with
  | nil => rfl
  | cons relationship later ih =>
    rw [danglingReferences, missingEnd?_eq]
    by_cases h : Dangles known relationship
    · rw [if_pos h, danglingAmong_cons_of_dangles h]
      rfl
    · rw [if_neg h, danglingAmong_cons_of_not h]
      exact ih

/-- A strict check ends with a value just if there is nothing to find. -/
theorem outcome_danglingReferences_strict_iff (value : List Relationship) :
    (danglingReferences known true relationships).outcome = .ok value ↔
      danglingAmong known relationships = [] ∧ value = [] := by
  rw [danglingReferences_strict]
  cases danglingAmong known relationships with
  | nil => simp [Report.ok, eq_comm]
  | cons first later => simp [Report.fail]

/-! ## Agreement -/

/-- The words for a relationship that dangles. -/
def danglingText (relationship : Relationship) : String :=
  s!"Relationship {relationship.text} references unknown entity '{missedEnd known relationship}'"

/-- What the two kinds of check do with relationships of which some dangle. -/
structure ChecksExactly (dangling : List Relationship) : Prop where
  /-- A lenient check returns those that dangle. -/
  found : (danglingReferences known false relationships).outcome = .ok dangling
  /-- It logs each of them once, in order. -/
  logged : (danglingReferences known false relationships).notes.map Note.record =
    dangling.map fun relationship =>
      ⟨.warning, "jdl.gen.context_builders", "  [WARN] " ++ danglingText known relationship⟩
  /-- It gives the calling program one warning for each of them, in the same words. -/
  warned : (danglingReferences known false relationships).notes.map Note.warning? =
    dangling.map fun relationship => some (danglingText known relationship)
  /-- A strict check fails just if there are any: at the first, for the same end. -/
  refused : ∀ fault, (danglingReferences known true relationships).outcome = .error fault ↔
    ∃ first ∈ dangling.head?, fault = ⟨.danglingReference first (missedEnd known first), .unknown⟩
  /-- It ends with nothing found if there are none. -/
  accepted : ∀ value, (danglingReferences known true relationships).outcome = .ok value ↔
    dangling = [] ∧ value = []
  /-- It never says anything. -/
  silent : (danglingReferences known true relationships).notes = []

/-- What is logged of a relationship that dangles. -/
theorem record_danglingNote (relationship : Relationship) :
    (danglingNote known relationship).record =
      ⟨.warning, "jdl.gen.context_builders", "  [WARN] " ++ danglingText known relationship⟩ := by
  have htext : Log.Kind.warn.shape (danglingText known relationship) =
      "  [WARN] " ++ danglingText known relationship := by
    rw [← String.toList_inj]
    simp [Log.Kind.shape, Log.tag, toString]
  rw [← htext]
  rfl

/-- **References.** For all relationships and all known names, a lenient check returns exactly the
relationships with an end that is not known, in order and as often as they are declared, with one
warning for each, and a strict check fails exactly if there are any: at the first of them, for the
same end, before anything is said. -/
theorem references_checked_exactly :
    ChecksExactly known relationships (danglingAmong known relationships) := by
  have hlenient := danglingReferences_lenient known relationships
  have hstrict := danglingReferences_strict known relationships
  refine ⟨by rw [hlenient], ?_, ?_, ?_, ?_, ?_⟩
  · rw [hlenient, List.map_map]
    exact List.map_congr_left fun relationship _ => record_danglingNote known relationship
  · rw [hlenient, List.map_map]
    exact List.map_congr_left fun _ _ => rfl
  · intro fault
    rw [hstrict]
    cases danglingAmong known relationships with
    | nil => simp [Report.ok]
    | cons first later => simp [Report.fail, eq_comm]
  · exact outcome_danglingReferences_strict_iff known relationships
  · rw [hstrict]
    cases danglingAmong known relationships with
    | nil => rfl
    | cons first later => rfl

/-- A relationship of which both ends are unknown is noted once each time it is declared, for its
source. -/
example :
    let loop : Relationship := ⟨.oneToOne, ⟨"B", none⟩, ⟨"B", none⟩⟩
    let half : Relationship := ⟨.manyToOne, ⟨"A", none⟩, ⟨"C", some "a"⟩⟩
    (danglingReferences ["A"] false [loop, half, loop]).notes =
      [.danglingReference loop "B", .danglingReference half "C", .danglingReference loop "B"] := by
  decide

end EntityScaffold.Generation
