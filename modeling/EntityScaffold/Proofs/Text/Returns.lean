import EntityScaffold.Proofs.Text.Blank
import EntityScaffold.Proofs.Text.Position
import Mathlib.Order.Interval.Set.Defs
import Mathlib.Order.Monotone.Basic

/-!
# Carriage returns before the line feeds

A text whose lines end with a carriage return and a line feed is one whose lines end with a line
feed, each of them with a return put before it (`withReturns`). The return is a blank as the line
feed is, so whatever treats the two alike sees no difference: a maximal run ends at the same
character (`takeWhile_withReturns`), trimming takes the same ends off (`trim_withReturns`), and what
stands on the last line is the same (`lastLine_withReturns`). Offsets do differ: an offset moves on
by the line feeds before it (`moved`).
-/

namespace EntityScaffold.Text

/-- A character, a line feed with a return before it. -/
def withReturn (c : Char) : List Char := if c = '\n' then ['\r', '\n'] else [c]

/-- A text with a return before each line feed. -/
def withReturns (s : List Char) : List Char := s.flatMap withReturn

@[simp] theorem withReturns_nil : withReturns [] = [] := rfl

@[simp] theorem withReturns_append (a b : List Char) :
    withReturns (a ++ b) = withReturns a ++ withReturns b :=
  List.flatMap_append

@[simp] theorem withReturns_lineFeed (s : List Char) :
    withReturns ('\n' :: s) = '\r' :: '\n' :: withReturns s := rfl

theorem withReturns_cons {c : Char} (h : c ≠ '\n') (s : List Char) :
    withReturns (c :: s) = c :: withReturns s := by
  rw [withReturns, List.flatMap_cons, withReturn, if_neg h]
  rfl

/-- Nothing changes on a line. -/
theorem withReturns_eq_self {s : List Char} (h : '\n' ∉ s) : withReturns s = s := by
  induction s with
  | nil => rfl
  | cons c s ih =>
    rw [List.mem_cons, not_or] at h
    rw [withReturns_cons (Ne.symm h.1), ih h.2]

@[simp] theorem withReturns_eq_nil_iff {s : List Char} : withReturns s = [] ↔ s = [] := by
  constructor
  · intro h
    cases s with
    | nil => rfl
    | cons c s =>
      by_cases hc : c = '\n'
      · subst hc
        exact absurd h (by simp)
      · rw [withReturns_cons hc] at h
        exact absurd h (by simp)
  · rintro rfl
    rfl

/-- A text begins with the same character, a line end apart. -/
theorem head?_withReturns {c : Char} (hreturn : c ≠ '\r') (hfeed : c ≠ '\n') {s : List Char} :
    (withReturns s).head? = some c ↔ s.head? = some c := by
  cases s with
  | nil => exact Iff.rfl
  | cons d s =>
    by_cases hd : d = '\n'
    · subst hd
      simp [Ne.symm hreturn, Ne.symm hfeed]
    · rw [withReturns_cons hd, List.head?_cons, List.head?_cons]

/-- No line end is added or lost. -/
@[simp] theorem count_withReturns (s : List Char) :
    (withReturns s).count '\n' = s.count '\n' := by
  induction s with
  | nil => rfl
  | cons c s ih =>
    by_cases hc : c = '\n'
    · subst hc
      simp [ih]
    · rw [withReturns_cons hc, List.count_cons_of_ne hc, List.count_cons_of_ne hc, ih]

/-! ## Runs -/

section Runs

variable {p : Char → Bool}

/-- What holds of all characters goes on to hold if it holds of both line ends or of neither. -/
theorem forall_mem_withReturns (hp : p '\r' = p '\n') {s : List Char} :
    (∀ c ∈ withReturns s, p c = true) ↔ ∀ c ∈ s, p c = true := by
  induction s with
  | nil => exact Iff.rfl
  | cons c s ih =>
    by_cases hc : c = '\n'
    · subst hc
      rw [withReturns_lineFeed, List.forall_mem_cons, List.forall_mem_cons, List.forall_mem_cons,
        ih, hp, and_self_left]
    · rw [withReturns_cons hc, List.forall_mem_cons, List.forall_mem_cons, ih]

theorem stops_withReturns (hp : p '\r' = p '\n') {s : List Char} :
    Stops p (withReturns s) ↔ Stops p s := by
  cases s with
  | nil => exact Iff.rfl
  | cons c s =>
    by_cases hc : c = '\n'
    · subst hc
      rw [withReturns_lineFeed, stops_cons, stops_cons, hp]
    · rw [withReturns_cons hc, stops_cons, stops_cons]

/-- The last character stays the last one. -/
theorem head?_reverse_withReturns (s : List Char) :
    (withReturns s).reverse.head? = s.reverse.head? := by
  rcases List.eq_nil_or_concat s with rfl | ⟨before, c, rfl⟩
  · rfl
  · rw [List.concat_eq_append, withReturns_append]
    by_cases hc : c = '\n'
    · subst hc
      simp
    · simp [withReturns_cons hc]

theorem stops_reverse_withReturns {s : List Char} :
    Stops p (withReturns s).reverse ↔ Stops p s.reverse := by
  unfold Stops
  rw [head?_reverse_withReturns]

/-- A run of a class that has both line ends or neither ends at the same character. -/
theorem takeWhile_dropWhile_withReturns (hp : p '\r' = p '\n') (s : List Char) :
    (withReturns s).takeWhile p = withReturns (s.takeWhile p) ∧
      (withReturns s).dropWhile p = withReturns (s.dropWhile p) := by
  have hsplit : withReturns s = withReturns (s.takeWhile p) ++ withReturns (s.dropWhile p) := by
    rw [← withReturns_append, List.takeWhile_append_dropWhile]
  have hrun : ∀ c ∈ withReturns (s.takeWhile p), p c = true :=
    (forall_mem_withReturns hp).mpr fun _ h => List.mem_takeWhile_imp h
  have hrest : Stops p (withReturns (s.dropWhile p)) :=
    (stops_withReturns hp).mpr (stops_dropWhile p s)
  constructor
  · rw [hsplit, takeWhile_append_stops hrun hrest]
  · rw [hsplit, dropWhile_append_stops hrun hrest]

theorem takeWhile_withReturns (hp : p '\r' = p '\n') (s : List Char) :
    (withReturns s).takeWhile p = withReturns (s.takeWhile p) :=
  (takeWhile_dropWhile_withReturns hp s).1

theorem dropWhile_withReturns (hp : p '\r' = p '\n') (s : List Char) :
    (withReturns s).dropWhile p = withReturns (s.dropWhile p) :=
  (takeWhile_dropWhile_withReturns hp s).2

end Runs

/-! ## Trimming -/

/-- Both line ends are blanks. -/
theorem isBlank_return : isBlank '\r' = isBlank '\n' := by decide

theorem trimStart_withReturns (s : List Char) :
    trimStart (withReturns s) = withReturns (trimStart s) :=
  dropWhile_withReturns isBlank_return s

/-- What trimming leaves ends with a character that is no line end, so nothing is put before it. -/
theorem trimEnd_withReturns (s : List Char) :
    trimEnd (withReturns s) = withReturns (trimEnd s) := by
  obtain ⟨gap, hgap, hs⟩ := exists_trimEnd s
  have hstops : Stops isBlank (trimEnd s).reverse := by
    rw [trimEnd, List.reverse_reverse]
    exact stops_dropWhile _ _
  calc trimEnd (withReturns s)
    _ = trimEnd (withReturns (trimEnd s) ++ withReturns gap) := by
        rw [← withReturns_append, ← hs]
    _ = trimEnd (withReturns (trimEnd s)) :=
        trimEnd_append_of_blank ((forall_mem_withReturns isBlank_return).mpr hgap) _
    _ = withReturns (trimEnd s) := trimEnd_eq_self (stops_reverse_withReturns.mpr hstops)

theorem trim_withReturns (s : List Char) : trim (withReturns s) = withReturns (trim s) := by
  rw [trim, trimStart_withReturns, trimEnd_withReturns, trim]

/-! ## Pieces and lines -/

/-- The pieces between the places of a character that is no line end. -/
theorem splitOn_withReturns {c : Char} (hreturn : c ≠ '\r') (hfeed : c ≠ '\n') (s : List Char) :
    (withReturns s).splitOn c = (s.splitOn c).map withReturns := by
  have hmem : ∀ piece, c ∉ piece → c ∉ withReturns piece := by
    intro piece hpiece hfound
    obtain ⟨d, hd, hcd⟩ := List.mem_flatMap.mp hfound
    rw [withReturn] at hcd
    split at hcd
    · simp [hreturn, hfeed] at hcd
    · obtain rfl := List.mem_singleton.mp hcd
      exact hpiece hd
  induction hlength : s.length using Nat.strong_induction_on generalizing s with
  | _ length ih =>
    by_cases hc : c ∈ s
    · obtain ⟨piece, later, rfl, hpiece⟩ := List.eq_append_cons_of_mem hc
      have hshorter : later.length < length := by
        rw [← hlength, List.length_append, List.length_cons]
        omega
      rw [withReturns_append, withReturns_cons hfeed,
        List.splitOn_append_cons_self_of_not_mem hpiece,
        List.splitOn_append_cons_self_of_not_mem (hmem piece hpiece), List.map_cons,
        ih later.length hshorter later rfl]
    · rw [List.splitOn_eq_singleton hc, List.splitOn_eq_singleton (hmem s hc), List.map_singleton]

/-- The first line gets a return at its end if another line comes after it. -/
theorem lines_withReturns {line : List Char} (h : '\n' ∉ line) (later : List Char) :
    lines (withReturns (line ++ '\n' :: later)) =
      (line ++ ['\r']) :: lines (withReturns later) := by
  have hline : '\n' ∉ line ++ ['\r'] := by simpa using h
  rw [withReturns_append, withReturns_eq_self h, withReturns_lineFeed, lines, List.append_cons,
    List.splitOn_append_cons_self_of_not_mem hline, ← lines]

/-! ## Places -/

theorem lastLine_withReturns (s : List Char) : lastLine (withReturns s) = lastLine s := by
  by_cases hmem : '\n' ∈ s
  · obtain ⟨line, before, hsplit, hline⟩ :=
      List.eq_append_cons_of_mem (List.mem_reverse.mpr hmem)
    have hs : s = before.reverse ++ ['\n'] ++ line.reverse := by
      rw [← List.reverse_reverse s, hsplit]
      simp
    have hline : '\n' ∉ line.reverse := by simpa using hline
    have hfeed : withReturns ['\n'] = ['\r'] ++ ['\n'] := rfl
    rw [hs, withReturns_append, withReturns_append, withReturns_eq_self hline, hfeed,
      lastLine_append hline, lastLine_append hline, ← List.append_assoc, lastLine_append_lineFeed,
      lastLine_append_lineFeed]
  · rw [withReturns_eq_self hmem]

/-- Where an offset of a text is when returns are put before its line feeds. -/
def moved (text : List Char) (offset : Nat) : Nat := (withReturns (text.take offset)).length

@[simp] theorem moved_zero (text : List Char) : moved text 0 = 0 := rfl

/-- What stands before an offset has returns put before its line feeds. -/
theorem take_moved (text : List Char) (offset : Nat) :
    (withReturns text).take (moved text offset) = withReturns (text.take offset) := by
  have hsplit : withReturns text =
      withReturns (text.take offset) ++ withReturns (text.drop offset) := by
    rw [← withReturns_append, List.take_append_drop]
  rw [hsplit, moved, List.take_left]

/-- The offset of what comes after some text. -/
theorem moved_append (before after : List Char) (offset : Nat) :
    moved (before ++ after) (before.length + offset) =
      (withReturns before).length + moved after offset := by
  rw [moved, List.take_length_add_append, withReturns_append, List.length_append, moved]

theorem moved_append_length (before after : List Char) :
    moved (before ++ after) before.length = (withReturns before).length :=
  moved_append before after 0

theorem moved_append_of_le {before : List Char} {offset : Nat} (h : offset ≤ before.length)
    (after : List Char) : moved (before ++ after) offset = moved before offset := by
  rw [moved, List.take_append_of_le_length h, moved]

theorem moved_le_length (text : List Char) (offset : Nat) :
    moved text offset ≤ (withReturns text).length := by
  have h := congrArg List.length (take_moved text offset)
  rw [List.length_take] at h
  unfold moved at h ⊢
  omega

/-- Offsets keep their order. -/
theorem strictMonoOn_moved (text : List Char) :
    StrictMonoOn (moved text) (Set.Iic text.length) := by
  intro a _ b hb hlt
  have hsplit : text.take b = text.take a ++ (text.take b).drop a := by
    have h := List.take_append_drop a (text.take b)
    rw [List.take_take, Nat.min_eq_left hlt.le] at h
    exact h.symm
  have hlength : (text.take b).length = b := List.length_take_of_le hb
  have hne : (text.take b).drop a ≠ [] := by
    rw [ne_eq, List.drop_eq_nil_iff, hlength]
    omega
  have hpos := List.length_pos_iff.mpr (mt withReturns_eq_nil_iff.mp hne)
  have hmoved : moved text b = moved text a + (withReturns ((text.take b).drop a)).length := by
    rw [moved, moved, ← List.length_append, ← withReturns_append, ← hsplit]
  omega

theorem lineBefore_moved (text : List Char) (offset : Nat) :
    lineBefore (withReturns text) (moved text offset) = lineBefore text offset := by
  rw [lineBefore, take_moved, lastLine_withReturns, lineBefore]

theorem lineNumber_moved (text : List Char) (offset : Nat) :
    lineNumber (withReturns text) (moved text offset) = lineNumber text offset := by
  rw [lineNumber, take_moved, count_withReturns, lineNumber]

/-- The column stays as what is before an offset on its line does. -/
theorem columnNumber_moved {text : List Char} {offset : Nat} (h : offset ≤ text.length) :
    columnNumber (withReturns text) (moved text offset) = columnNumber text offset := by
  rw [columnNumber_eq (moved_le_length text offset), columnNumber_eq h, lineBefore_moved]

end EntityScaffold.Text
