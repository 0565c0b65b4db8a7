import EntityScaffold.Console.Literal.Token

/-!
# Literal values

A literal value is a number, a text, a constant, or a tuple, set or mapping of values. A number may
have a sign and may be the sum of a real and an imaginary part. What is in a set and what a mapping
maps must be fixed: neither a set nor a mapping nor a tuple that holds one. Only whether a text
writes a value is asked, so reading gives no more than the shape of a value.
-/

namespace EntityScaffold.Console.Literal

/-- As much of a value as decides what may stand around it. -/
inductive Shape
  | number (imaginary : Bool)
  | signedReal
  /-- A value that may be in a set. -/
  | fixed
  /-- A value that may not. -/
  | changeable
deriving DecidableEq, Repr

/-- May a value of this shape be in a set? -/
def Shape.isFixed (shape : Shape) : Bool := shape != .changeable

/-- The shape of a tuple. -/
def Shape.tuple (shapes : List Shape) : Shape :=
  if shapes.all isFixed then .fixed else .changeable

/-- A value between commas, or what a mapping maps together with what to. -/
structure Item where
  shape : Shape
  isMapped : Bool
deriving DecidableEq, Repr

/-- Items between commas, and whether there is a comma at all. -/
structure Row where
  items : List Item
  hasComma : Bool
deriving DecidableEq, Repr

namespace Row

/-- Nothing is mapped: the row is one of values. -/
def isPlain (row : Row) : Bool := row.items.all fun item => !item.isMapped

/-- The shape of what parentheses hold: a single value without a comma is in no tuple. -/
def inParentheses (row : Row) : Option Shape :=
  if row.isPlain then
    match row.items, row.hasComma with
    | [item], false => some item.shape
    | items, _ => some (.tuple (items.map Item.shape))
  else none

/-- The shape of what braces hold: a set if nothing is mapped, a mapping if everything is. -/
def inBraces (row : Row) : Option Shape :=
  if (row.isPlain || row.items.all Item.isMapped) && row.items.all (fun item => item.shape.isFixed)
  then some .changeable
  else none

end Row

/-- Does a row end here, after a comma? -/
def endsRow : List Token → Bool
  | [] => true
  | .closing _ :: _ => true
  | _ => false

mutual

/-- Take a value without a sign off the front of tokens. -/
def readUnsigned : Nat → List Token → Option (Shape × List Token)
  | 0, _ => none
  | steps + 1, tokens =>
    match tokens with
    | .number imaginary :: rest => some (.number imaginary, rest)
    | .text bytes :: rest =>
      match rest.dropWhile (· == .text bytes) with
      | .text _ :: _ => none
      | later => some (.fixed, later)
    | .constant :: rest => some (.fixed, rest)
    | .setName :: .opening .round :: .closing .round :: rest => some (.changeable, rest)
    | .opening bracket :: .closing closing :: rest =>
      if bracket = closing then
        some (if bracket = .round then .fixed else .changeable, rest)
      else none
    | .opening bracket :: rest => do
      let (row, rest) ← readRow steps rest
      match bracket, rest with
      | .round, .closing .round :: later => row.inParentheses.map (·, later)
      | .curly, .closing .curly :: later => row.inBraces.map (·, later)
      | _, _ => none
    | _ => none

/-- Take a value off the front of tokens. -/
def readValue : Nat → List Token → Option (Shape × List Token)
  | 0, _ => none
  | steps + 1, tokens => do
    let (shape, rest) ← match tokens with
      | .sign :: rest =>
        match readUnsigned steps rest with
        | some (.number false, rest) => some (.signedReal, rest)
        | some (.number true, rest) => some (.fixed, rest)
        | _ => none
      | rest => readUnsigned steps rest
    match rest with
    | .sign :: later =>
      match shape, readUnsigned steps later with
      | .number false, some (.number true, later) => return (.fixed, later)
      | .signedReal, some (.number true, later) => return (.fixed, later)
      | _, _ => none
    | _ => return (shape, rest)

/-- Take items between commas off the front of tokens. -/
def readRow : Nat → List Token → Option (Row × List Token)
  | 0, _ => none
  | steps + 1, tokens => do
    let (shape, rest) ← readValue steps tokens
    let (item, rest) : Item × List Token ← match rest with
      | .colon :: later => (readValue steps later).map fun (_, rest) => (⟨shape, true⟩, rest)
      | _ => some (⟨shape, false⟩, rest)
    match rest with
    | .comma :: later =>
      if endsRow later then return (⟨[item], true⟩, later)
      else
        let (row, later) ← readRow steps later
        return (⟨item :: row.items, true⟩, later)
    | _ => return (⟨[item], false⟩, rest)

end

/-- Does a text write a value, or values between commas? Every token takes at most three steps, one
for a row, one for a value and one for what follows its sign. -/
def isLiteral (s : List Char) : Bool :=
  !s.contains '\x00' &&
    match tokens s with
    | some tokens =>
      match readRow (3 * tokens.length + 3) tokens with
      | some (row, []) => row.isPlain
      | _ => false
    | none => false

end EntityScaffold.Console.Literal
