/-!
# Tokens of literal values

A literal value is written with brackets, commas, colons, signs, numbers, texts and a few names.
Only what decides whether a value is well formed is kept of a token: of a number whether it is
imaginary, of a text whether it is one of bytes. The end of a line is a token unless it is between
brackets or after a backslash; a hash sign and what follows it on its line is left out.
-/

namespace EntityScaffold.Console.Literal

/-- Parentheses or braces. -/
inductive Bracket
  | round
  | curly
deriving DecidableEq, Repr

/-- A token of a literal value. -/
inductive Token
  | opening (bracket : Bracket)
  | closing (bracket : Bracket)
  | comma
  | colon
  | sign
  | number (imaginary : Bool)
  | text (bytes : Bool)
  /-- The truth values, the missing value and the ellipsis. -/
  | constant
  /-- The name of the function that makes the empty set. -/
  | setName
  | lineEnd
deriving DecidableEq, Repr

/-- A character that goes on with a name or number. -/
def continuesWord (c : Char) : Bool := c.isAlphanum || c == '_' || 128 ≤ c.toNat

/-! ## Numbers -/

/-- A digit of base sixteen. -/
def isHex (c : Char) : Bool := c.isDigit || ('a' ≤ c && c ≤ 'f') || ('A' ≤ c && c ≤ 'F')

/-- What follows further digits, which may have single low lines between them. -/
def afterMoreDigits (isDigit : Char → Bool) : List Char → List Char
  | '_' :: c :: rest => if isDigit c then afterMoreDigits isDigit rest else '_' :: c :: rest
  | c :: rest => if isDigit c then afterMoreDigits isDigit rest else c :: rest
  | [] => []

/-- What follows one digit or more. -/
def afterDigits (isDigit : Char → Bool) : List Char → Option (List Char)
  | c :: rest => if isDigit c then some (afterMoreDigits isDigit rest) else none
  | [] => none

/-- The digits of the base that a letter stands for. -/
def baseOf? (c : Char) : Option (Char → Bool) :=
  if c == 'x' || c == 'X' then some isHex
  else if c == 'o' || c == 'O' then some fun d => '0' ≤ d && d ≤ '7'
  else if c == 'b' || c == 'B' then some fun d => d == '0' || d == '1'
  else none

/-- What follows a whole number in another base. -/
def afterBased : List Char → Option (List Char)
  | '0' :: c :: rest =>
    (baseOf? c).bind fun isDigit =>
      match rest with
      | '_' :: digits => afterDigits isDigit digits
      | digits => afterDigits isDigit digits
  | _ => none

/-- What follows an exponent, if there is any. -/
def afterExponent : List Char → Option (List Char)
  | c :: rest =>
    if c == 'e' || c == 'E' then
      match rest with
      | '+' :: digits => afterDigits Char.isDigit digits
      | '-' :: digits => afterDigits Char.isDigit digits
      | digits => afterDigits Char.isDigit digits
    else some (c :: rest)
  | [] => some []

/-- Digits that start with a zero but do not write zero. -/
def hasLeadingZero (digits : List Char) : Bool :=
  digits.head? == some '0' && digits.any fun c => c != '0' && c != '_'

/-- Take a decimal number off the front of a text. Only a whole real number must not start with a
zero. -/
def readDecimal (s : List Char) : Option (Token × List Char) := do
  let whole := afterDigits Char.isDigit s
  let fraction := whole.getD s
  let exponent ← match fraction with
    | '.' :: rest => afterDigits Char.isDigit rest <|> whole.map fun _ => rest
    | _ => whole
  let rest ← afterExponent exponent
  match rest with
  | 'j' :: later => return (.number true, later)
  | 'J' :: later => return (.number true, later)
  | _ =>
    if rest.length = fraction.length ∧ hasLeadingZero (s.take (s.length - rest.length)) then none
    else return (.number false, rest)

/-- Take a number off the front of a text. Nothing that goes on with it may follow. -/
def readNumber (s : List Char) : Option (Token × List Char) := do
  let (token, rest) ← match afterBased s with
    | some rest => some (.number false, rest)
    | none => readDecimal s
  if rest.head?.any continuesWord then none else return (token, rest)

/-! ## Texts -/

/-- How a text is written: are backslashes plain characters, and are only bytes allowed? -/
structure TextForm where
  raw : Bool
  bytes : Bool
deriving DecidableEq, Repr

/-- The form that letters before the quotation mark ask for. -/
def TextForm.ofLetters (letters : List Char) : Option TextForm :=
  match letters.map Char.toLower with
  | [] => some ⟨false, false⟩
  | ['u'] => some ⟨false, false⟩
  | ['r'] => some ⟨true, false⟩
  | ['b'] => some ⟨false, true⟩
  | ['b', 'r'] => some ⟨true, true⟩
  | ['r', 'b'] => some ⟨true, true⟩
  | _ => none

/-- The value of a digit of base sixteen. -/
def hexDigitValue (c : Char) : Nat :=
  if c.isDigit then c.toNat - '0'.toNat else c.toLower.toNat - 'a'.toNat + 10

/-- Does a text start with so many digits of base sixteen, whose number is a code point? -/
def startsWithHex (count : Nat) (s : List Char) : Bool :=
  let digits := s.take count
  digits.length == count && digits.all isHex &&
    digits.foldl (fun n c => 16 * n + hexDigitValue c) 0 ≤ 0x10ffff

/-- Does a text start with a name between braces? -/
def startsWithName : List Char → Bool
  | '\x7b' :: c :: rest => c != '\x7d' && rest.contains '\x7d'
  | _ => false

/-- May a backslash and a character stand before a text? -/
def TextForm.allowsEscape (form : TextForm) (c : Char) (rest : List Char) : Bool :=
  form.raw ||
    match c with
    | 'x' => startsWithHex 2 rest
    | 'u' => form.bytes || startsWithHex 4 rest
    | 'U' => form.bytes || startsWithHex 8 rest
    | 'N' => form.bytes || startsWithName rest
    | _ => true

/-- May a character stand in a text? -/
def TextForm.allows (form : TextForm) (c : Char) : Bool := !form.bytes || c.toNat < 128

/-- What follows the end of a text, which one or three quotation marks make. Only three let lines
end in it. -/
def TextForm.afterText (form : TextForm) (closing : List Char) : List Char → Option (List Char)
  | [] => none
  | '\\' :: c :: rest =>
    if form.allows c && form.allowsEscape c rest then form.afterText closing rest else none
  | c :: rest =>
    if closing.isPrefixOf (c :: rest) then some ((c :: rest).drop closing.length)
    else if !form.allows c || (c == '\n' && closing.length == 1) then none
    else form.afterText closing rest

/-- What follows a text that is told by its quotation mark. -/
def TextForm.afterQuoted (form : TextForm) (mark : Char) (rest : List Char) : Option (List Char) :=
  if [mark, mark].isPrefixOf rest then
    form.afterText [mark, mark, mark] (rest.drop 2)
  else form.afterText [mark] rest

/-! ## Tokens -/

def Token.ofName (name : String) : Option Token :=
  match name with
  | "True" => some .constant
  | "False" => some .constant
  | "None" => some .constant
  | "set" => some .setName
  | _ => none

/-- Take a name or a text off the front of a text. -/
def readNameOrText (s : List Char) : Option (Token × List Char) :=
  let letters := s.takeWhile continuesWord
  match s.drop letters.length with
  | mark :: rest =>
    if mark == '\'' || mark == '"' then do
      let form ← TextForm.ofLetters letters
      let later ← form.afterQuoted mark rest
      return (.text form.bytes, later)
    else (Token.ofName (String.ofList letters)).map (·, mark :: rest)
  | [] => (Token.ofName (String.ofList letters)).map (·, [])

/-- Take a token off the front of a text. -/
def readToken : List Char → Option (Token × List Char)
  | '(' :: rest => some (.opening .round, rest)
  | ')' :: rest => some (.closing .round, rest)
  | '\x7b' :: rest => some (.opening .curly, rest)
  | '\x7d' :: rest => some (.closing .curly, rest)
  | ',' :: rest => some (.comma, rest)
  | ':' :: rest => some (.colon, rest)
  | '+' :: rest => some (.sign, rest)
  | '-' :: rest => some (.sign, rest)
  | '\n' :: rest => some (.lineEnd, rest)
  | '.' :: '.' :: '.' :: rest => some (.constant, rest)
  | c :: rest =>
    if c.isDigit || c == '.' then readNumber (c :: rest) else readNameOrText (c :: rest)
  | [] => none

/-- How deep in brackets the text after a token is. -/
def Token.depthAfter (depth : Nat) : Token → Nat
  | opening _ => depth + 1
  | closing _ => depth - 1
  | _ => depth

/-- The tokens of a text that is so deep in brackets; none if something in it is no token. Each of
so many steps goes on by a character at least. -/
def tokensFrom : Nat → Nat → List Char → Option (List Token)
  | _, _, [] => some []
  | 0, _, _ => none
  | steps + 1, depth, '\\' :: '\n' :: rest => tokensFrom steps depth rest
  | steps + 1, depth, c :: rest =>
    if c == ' ' || c == '\t' || c == '\x0c' || (c == '\n' && depth != 0) then
      tokensFrom steps depth rest
    else if c == '#' then tokensFrom steps depth (rest.dropWhile (· != '\n'))
    else do
      let (token, later) ← readToken (c :: rest)
      let tokens ← tokensFrom steps (token.depthAfter depth) later
      return token :: tokens

/-- The tokens of a text, without the ends of lines before the first and after the last. -/
def tokens (s : List Char) : Option (List Token) :=
  (tokensFrom s.length 0 s).map fun tokens =>
    let started := tokens.dropWhile (· == .lineEnd)
    (started.reverse.dropWhile (· == .lineEnd)).reverse

end EntityScaffold.Console.Literal
