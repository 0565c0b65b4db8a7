import EntityScaffold.Text.WordTable

/-!
# Word characters and decimal digits

Names in a model document are runs of word characters. Both classes have a short rule on ASCII, so
a statement about an ASCII character never has to look into the tables.
-/

namespace EntityScaffold.Text

/-- A character that may stand in a name: a letter, a character with a numeric value, or the low
line. -/
def isWord (c : Char) : Bool :=
  if c.toNat < 128 then c.isAlphanum || c == '_' else letterOrNumeralRanges.has c.toNat

/-- A decimal digit of any script. -/
def isDecimal (c : Char) : Bool :=
  if c.toNat < 128 then c.isDigit
  else decimalZeros.any fun first => first ≤ c.toNat && c.toNat ≤ first + 9

/-- The value of a decimal digit of any script. -/
def decimalValue (c : Char) : Nat :=
  if c.toNat < 128 then c.toNat - '0'.toNat
  else match decimalZeros.find? fun first => first ≤ c.toNat && c.toNat ≤ first + 9 with
    | some first => c.toNat - first
    | none => 0

/-- The number that decimal digits write. -/
def decimalsValue (digits : List Char) : Nat :=
  digits.foldl (fun n c => 10 * n + decimalValue c) 0

end EntityScaffold.Text
