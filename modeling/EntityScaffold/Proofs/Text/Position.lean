import EntityScaffold.Proofs.Text.Pattern
import EntityScaffold.Text.Position
import Mathlib.Data.List.TakeWhile

/-!
# Lines and columns

The column of an offset is one more than what stands before it on its line, and the last line of a
text grows by what is added to it until a line feed is.
-/

namespace EntityScaffold.Text

theorem not_mem_lastLine (s : List Char) : '\n' ∉ lastLine s := by
  intro h
  have hc := List.mem_takeWhile_imp (List.mem_reverse.mp h)
  exact absurd hc (by simp)

/-- Characters after the last line feed are added to the last line. -/
theorem lastLine_append {line : List Char} (h : '\n' ∉ line) (s : List Char) :
    lastLine (s ++ line) = lastLine s ++ line := by
  have hline : ∀ c ∈ line.reverse, (c != '\n') = true :=
    bne_of_not_mem fun hmem => h (List.mem_reverse.mp hmem)
  rw [lastLine, List.reverse_append, List.takeWhile_append_of_pos hline, List.reverse_append,
    List.reverse_reverse]
  rfl

/-- What is added to whole lines is alone on the last line. -/
theorem lastLine_append_of_lines {part : List Char} (h : lastLine part = []) (s : List Char) :
    lastLine (part ++ s) = lastLine s := by
  have hpart : part.reverse.takeWhile (· != '\n') = [] := List.reverse_eq_nil_iff.mp h
  rw [lastLine, List.reverse_append, List.takeWhile_append, hpart, List.append_nil]
  split
  · rename_i hall
    rw [lastLine, (List.takeWhile_prefix _).eq_of_length hall]
  · rfl

/-- A line feed starts a new line. -/
@[simp] theorem lastLine_append_lineFeed (s : List Char) : lastLine (s ++ ['\n']) = [] := by
  simp [lastLine]

theorem length_lastLine_le (s : List Char) : (lastLine s).length ≤ s.length := by
  have h := (List.takeWhile_sublist (· != '\n') (l := s.reverse)).length_le
  simpa [lastLine] using h

/-- The column counts what stands before an offset on its line. -/
theorem columnNumber_eq {text : List Char} {offset : Nat} (h : offset ≤ text.length) :
    columnNumber text offset = (lineBefore text offset).length + 1 := by
  have hlength : (text.take offset).length = offset := List.length_take_of_le h
  have hle : (lineBefore text offset).length ≤ (text.take offset).length := length_lastLine_le _
  unfold columnNumber lineStart
  omega

end EntityScaffold.Text
