import EntityScaffold.Console.ColumnTable

/-!
# Columns

A console is divided into columns, and a character takes none, one or two of them. What a joiner
joins to the character before it takes no further column, and a variation selector may widen the
character it follows. Tabulators lead to columns that are multiples of eight.
-/

namespace EntityScaffold.Console

/-- How many columns a character takes by itself. -/
def columnsOf (c : Char) : Nat :=
  let n := c.toNat
  if n < 0x20 then 0
  else if n < 0x7f then 1
  else if n < 0xa0 then 0
  else if wideRanges.has n then 2
  else if columnlessRanges.has n then 0
  else 1

/-- How many columns a text takes after a character that could still be widened. -/
def columnsAfter (last : Option Char) : List Char → Nat
  | [] => 0
  | ['\u200d'] => 0
  | '\u200d' :: _ :: later => columnsAfter last later
  | '\ufe0f' :: later =>
    (if last.any fun c => widenedRanges.has c.toNat then 1 else 0) + columnsAfter none later
  | c :: later =>
    let own := columnsOf c
    own + columnsAfter (if own = 0 then last else some c) later

/-- How many columns a text takes. -/
def columns (s : List Char) : Nat := columnsAfter none s

/-- How many columns from the tabulator's column on are skipped to reach the next multiple of
eight. -/
def tabFill (column : Nat) : Nat := (8 - column % 8) % 8

/-- The pieces of a line between tabulators, put together with spaces for these. The first piece
starts at a column. -/
def joinTabbed (column : Nat) : List (List Char) → List Char
  | [] => []
  | [piece] => piece
  | piece :: later =>
    let spaced := piece ++ [' ']
    let reached := column + columns spaced
    spaced ++ List.replicate (tabFill reached) ' ' ++ joinTabbed (reached + tabFill reached) later

/-- A line with spaces for its tabulators, each of which stands for one space at least. -/
def expandTabs (line : List Char) : List Char := joinTabbed 0 (line.splitOn '\t')

end EntityScaffold.Console
