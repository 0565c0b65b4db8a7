/-!
# Places in a text

Offsets count characters from zero, lines and columns from one. A line ends at a line feed. An
offset beyond the end of the text lies on its last line.
-/

namespace EntityScaffold.Text

/-- What stands after the last line feed. -/
def lastLine (s : List Char) : List Char := (s.reverse.takeWhile (· != '\n')).reverse

/-- What stands before an offset on the same line. -/
def lineBefore (text : List Char) (offset : Nat) : List Char := lastLine (text.take offset)

/-- The line of an offset. -/
def lineNumber (text : List Char) (offset : Nat) : Nat := (text.take offset).count '\n' + 1

/-- The offset at which the line of an offset starts. -/
def lineStart (text : List Char) (offset : Nat) : Nat :=
  (text.take offset).length - (lineBefore text offset).length

/-- The column of an offset. -/
def columnNumber (text : List Char) (offset : Nat) : Nat := offset + 1 - lineStart text offset

/-- A text as it is read from a file: a carriage return ends a line too, alone or before a line
feed, and each line end becomes one line feed. -/
def unifyLineEnds : List Char → List Char
  | [] => []
  | '\r' :: '\n' :: rest => '\n' :: unifyLineEnds rest
  | c :: rest => (if c = '\r' then '\n' else c) :: unifyLineEnds rest

end EntityScaffold.Text
