import EntityScaffold.Text.LowerTable

/-!
# Full lower-casing

Lower-casing maps each character by itself, with two exceptions: a capital I with a dot above
becomes two characters, and a capital sigma becomes a final sigma at the end of a word. A sigma
ends a word if, skipping marks and word-internal punctuation, a cased character stands before it
and none stands after it.
-/

namespace EntityScaffold.Text

/-- The lower-case form of a character that has a single one, whatever stands around it. -/
def lowerChar (c : Char) : Char :=
  if c.toNat < 128 then c.toLower
  else
    let run := lowerRuns.find? fun run =>
      run.first ≤ c.toNat && c.toNat ≤ run.last && (c.toNat - run.first) % run.step == 0
    match run with
    | some run => Char.ofNat (c.toNat + run.shift).toNat
    | none => c

/-- A character that has case. -/
def isCased (c : Char) : Bool :=
  if c.toNat < 128 then c.isAlpha else casedRanges.has c.toNat

/-- A character that a sigma skips when it looks for its neighbours. -/
def isCaseIgnorable (c : Char) : Bool :=
  if c.toNat < 128 then ['\'', '.', ':', '^', '`'].contains c else caseIgnorableRanges.has c.toNat

/-- Does a cased character come first, once the ignorable ones are skipped? -/
def casedFirst (s : List Char) : Bool :=
  match s.dropWhile isCaseIgnorable with
  | c :: _ => isCased c
  | [] => false

/-- The lower-case form of `c` between `before`, read backwards, and `after`. -/
def lowerAt (before : List Char) (c : Char) (after : List Char) : List Char :=
  if c = 'Σ' then
    if casedFirst before && !casedFirst after then ['ς'] else ['σ']
  else if c = 'İ' then ['i', '\u0307']
  else [lowerChar c]

/-- Lower-case a text that follows `before`, read backwards. -/
def lowerAfter (before : List Char) : List Char → List Char
  | [] => []
  | c :: rest => lowerAt before c rest ++ lowerAfter (c :: before) rest

def lower (s : String) : String := String.ofList (lowerAfter [] s.toList)

end EntityScaffold.Text
