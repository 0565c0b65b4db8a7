import EntityScaffold.Document.Comment

/-!
# Line maps

A line map is made once, when the comments of a text have been taken out, and then tells the line of
any offset without going through all removals again. It keeps the offsets of the removals and beside
each how many line ends it and those before it have taken out; the removals at or before an offset
are found by halving, so the last total among them is all that has to be looked up.
-/

namespace EntityScaffold.Document

/-- What a kept text and the removals from it are told by when lines are asked for. -/
structure LineMap where
  plain : List Char
  /-- The offsets of the removals, in order. -/
  offsets : List Nat
  /-- How many line ends each removal and those before it have taken out. -/
  totals : List Nat
deriving DecidableEq, Repr

/-- The line ends that removals have taken out, added up as one goes through them. -/
def runningTotals (total : Nat) : List Removal → List Nat
  | [] => []
  | removal :: later =>
    let total := total + removal.lineEnds
    total :: runningTotals total later

/-- Halve the stretch from `low` to `high`, in which the entries up to an offset end. Where several
entries are the offset, they end after the last of these. -/
def halve (offsets : List Nat) (offset low high : Nat) : Nat :=
  if low < high then
    let middle := (low + high) / 2
    if offset < offsets.getD middle 0 then halve offsets offset low middle
    else halve offsets offset (middle + 1) high
  else low
termination_by high - low

/-- How many entries of a sorted list are at most an offset. -/
def countUpTo (offsets : List Nat) (offset : Nat) : Nat := halve offsets offset 0 offsets.length

namespace LineMap

def ofRemovals (plain : List Char) (removals : List Removal) : LineMap :=
  ⟨plain, removals.map Removal.offset, runningTotals 0 removals⟩

/-- How many line ends the removals at or before an offset of the kept text have taken out. -/
def hidden (lineMap : LineMap) (offset : Nat) : Nat :=
  match countUpTo lineMap.offsets offset with
  | 0 => 0
  | last + 1 => lineMap.totals.getD last 0

/-- The line, in the text as written, of an offset of the kept text. -/
def line (lineMap : LineMap) (offset : Nat) : Nat :=
  Text.lineNumber lineMap.plain offset + lineMap.hidden offset

end LineMap

/-- The line map of a text out of which comments were taken. -/
def Source.lineMap (source : Source) : LineMap := .ofRemovals source.plain source.removals

end EntityScaffold.Document
