import EntityScaffold.Text.CodePoints

/-!
# Blanks, lines and fields

One set of blanks serves the whole library: it separates the words of a declaration, is trimmed
from lines and separates the rules of a field. The zero-width space and the byte order mark are not
blanks.
-/

namespace EntityScaffold.Text

/-- The code points that count as blank. -/
def blankRanges : CodePoints :=
  [(0x09, 0x0d), (0x1c, 0x20), (0x85, 0x85), (0xa0, 0xa0), (0x1680, 0x1680), (0x2000, 0x200a),
    (0x2028, 0x2029), (0x202f, 0x202f), (0x205f, 0x205f), (0x3000, 0x3000)]

/-- Blank characters: the line ends, the separators and the spaces. -/
def isBlank (c : Char) : Bool := blankRanges.has c.toNat

/-- The text without the blanks it starts with. -/
def trimStart (s : List Char) : List Char := s.dropWhile isBlank

/-- The text without the blanks it ends with. -/
def trimEnd (s : List Char) : List Char := (s.reverse.dropWhile isBlank).reverse

/-- The text without the blanks at either end. -/
def trim (s : List Char) : List Char := trimEnd (trimStart s)

/-- The lines of a text. Only the line feed ends a line. -/
def lines (s : List Char) : List (List Char) := s.splitOn '\n'

/-- The maximal runs of characters that are not blank. -/
def fields (s : List Char) : List (List Char) :=
  (s.splitOnP isBlank).filter fun piece => !piece.isEmpty

end EntityScaffold.Text
