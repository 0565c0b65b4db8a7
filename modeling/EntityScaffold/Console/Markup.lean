import EntityScaffold.Console.Literal.Value
import EntityScaffold.Console.Style

/-!
# Console markup

What is printed may hold tags between brackets. A tag sets a style from there on, a tag that starts
with a slash ends the innermost style of its name, or the innermost of all if it names none. Only
brackets whose inside begins with a small letter or one of a few signs, and holds no opening
bracket, are tags; an odd number of backslashes before a tag makes it text. A style whose name
begins with an at sign is an action, and may be given parameters. The console shows no colours, so
of a tag nothing is left. Ending a style that was never set is a fault, and so are an action that
ends with parameters that are none and a colour that is incomplete.
-/

namespace EntityScaffold.Console

/-- A character that a tag may begin with. -/
def startsTag (c : Char) : Bool := ('a' ≤ c && c ≤ 'z') || c == '#' || c == '/' || c == '@'

/-- A tag: how many backslashes stand before it, and what stands between its brackets. -/
structure Tag where
  backslashes : Nat
  inside : List Char
deriving DecidableEq, Repr

namespace Tag

/-- A tag between its brackets. -/
def bracketed (tag : Tag) : List Char := '[' :: tag.inside ++ [']']

/-- Neither bracket. -/
def noBracket (c : Char) : Bool := c != '[' && c != ']'

/-- Take a tag off the front of a text, with the backslashes before it. -/
def read (s : List Char) : Option (Tag × List Char) :=
  let backslashes := (s.takeWhile (· == '\\')).length
  match s.drop backslashes with
  | '[' :: c :: rest =>
    match rest.dropWhile noBracket with
    | ']' :: after =>
      if startsTag c then some (⟨backslashes, c :: rest.takeWhile noBracket⟩, after) else none
    | _ => none
  | _ => none

theorem read_shorter {s after : List Char} {tag : Tag} (h : read s = some (tag, after)) :
    after.length < s.length := by
  unfold read at h
  simp only at h
  split at h
  · next c rest found =>
    split at h
    · next after' found' =>
      split at h
      · simp only [Option.some.injEq, Prod.mk.injEq] at h
        obtain ⟨_, rfl⟩ := h
        have outer := congrArg List.length found
        have inner := congrArg List.length found'
        have fewer := (List.dropWhile_suffix (l := rest) noBracket).length_le
        simp only [List.length_drop, List.length_cons] at outer inner
        omega
      · simp at h
    · simp at h
  · simp at h

end Tag

/-- A stretch of text without tags, or a tag. -/
inductive Segment
  | text (run : List Char)
  | tag (tag : Tag)
deriving DecidableEq, Repr

/-- Put a character in front of segments. -/
def Segment.cons (c : Char) : List Segment → List Segment
  | .text run :: later => .text (c :: run) :: later
  | segments => .text [c] :: segments

/-- A text cut into tags and what is between them. -/
def segments : List Char → List Segment
  | [] => []
  | c :: rest =>
    match _found : Tag.read (c :: rest) with
    | some (tag, after) => .tag tag :: segments after
    | none => Segment.cons c (segments rest)
termination_by s => s.length
decreasing_by
  · exact Tag.read_shorter ‹_›
  · simp

/-! ## Escaping -/

/-- A segment as it has to be written to be shown as it is. -/
def Segment.escaped : Segment → List Char
  | .text run => run
  | .tag given => List.replicate (2 * given.backslashes + 1) '\\' ++ given.bracketed

/-- A text as it has to be written to be shown as it is. A single backslash at the end is doubled,
for a tag may come after it. -/
def escape (s : List Char) : List Char :=
  let escaped := (segments s).flatMap Segment.escaped
  match escaped.reverse with
  | '\\' :: '\\' :: _ => escaped
  | '\\' :: _ => escaped ++ ['\\']
  | _ => escaped

/-! ## Faults -/

/-- Why a text with markup cannot be shown. -/
inductive MarkupFault
  /-- A tag ends a style that is not set. -/
  | nothingToEnd (inside : List Char)
  /-- An action ends whose parameters are none. -/
  | badParameters (parameters : List Char)
  /-- A style has a colour of which an amount is left out. -/
  | incompleteColour (colour : IncompleteColour)
deriving DecidableEq, Repr

def MarkupFault.message : MarkupFault → String
  | nothingToEnd inside =>
    "The tag '" ++ String.ofList inside ++ "' ends a style that is not set."
  | badParameters parameters =>
    "The text '" ++ String.ofList parameters ++ "' is no list of parameters."
  | incompleteColour colour => s!"The colour '{colour.word}' lacks an amount."

/-! ## What tags do -/

/-- What a tag does. -/
inductive Effect
  /-- A style is set, with what stands after an equals sign, if there is one. -/
  | sets (written : List Char) (parameters : Option (List Char))
  /-- The style of a name is ended, the innermost one for an empty name. -/
  | ends (written : List Char)
deriving DecidableEq, Repr

/-- What a tag does. What stands after an equals sign is not part of a name. -/
def Tag.effect (tag : Tag) : Effect :=
  match tag.inside.takeWhile (· != '=') with
  | '/' :: ended => .ends (Text.trim ended)
  | written =>
    match tag.inside.drop written.length with
    | '=' :: parameters => .sets written (some parameters)
    | _ => .sets written none

/-- A tag that an odd number of backslashes makes text. -/
def Tag.isEscaped (tag : Tag) : Bool := tag.backslashes % 2 == 1

/-- The parameters of an action: the name of a function, a literal value in parentheses, both, or a
literal value. -/
def areParameters (written : List Char) : Bool :=
  let trimmed := Text.trim written
  match trimmed.dropWhile fun c => Text.isWord c || c == '.' with
  | [] => true
  | list =>
    if list.head? == some '(' && list.getLast? == some ')' && !list.contains '\n' then
      Literal.isLiteral list
    else Literal.isLiteral trimmed

/-- The name of a style, or the fault in it. -/
def styleName (written : List Char) : Except MarkupFault String :=
  (Style.name written).mapError .incompleteColour

/-- A style that is set, by its name, and what it was given. -/
structure SetStyle where
  name : String
  parameters : List Char
deriving DecidableEq, Repr

def SetStyle.isAction (style : SetStyle) : Bool := style.name.toList.head? == some '@'

/-- Check a style that ends. -/
def SetStyle.finish (style : SetStyle) : Except MarkupFault Unit :=
  if style.isAction && !areParameters style.parameters then
    .error (.badParameters style.parameters)
  else .ok ()

/-- The styles that are set after a tag, innermost first. -/
def afterTag (styles : List SetStyle) (tag : Tag) : Except MarkupFault (List SetStyle) :=
  match tag.effect with
  | .sets written parameters => do
    return ⟨← styleName written, parameters.getD []⟩ :: styles
  | .ends [] =>
    match styles with
    | [] => .error (.nothingToEnd tag.inside)
    | innermost :: outer => do
      innermost.finish
      return outer
  | .ends written => do
    let name ← styleName written
    match styles.find? fun style => style.name == name with
    | none => throw (.nothingToEnd tag.inside)
    | some ended =>
      ended.finish
      return styles.eraseP fun style => style.name == name

/-- Look up the style that a tag sets. Here what it was given is read as further words of the style;
words that mean nothing do no harm. -/
def Tag.lookUp (tag : Tag) : Except MarkupFault Unit :=
  match tag.effect with
  | .ends _ => .ok ()
  | .sets written parameters => do
    let name ← styleName written
    let further := (parameters.map (' ' :: ·)).getD []
    match Style.read (name.toList ++ further) with
    | .error (.incompleteColour colour) => throw (.incompleteColour colour)
    | _ => return

/-! ## Rendering -/

/-- Brackets after a backslash are shown without it. -/
def dropBackslashes : List Char → List Char
  | '\\' :: '[' :: rest => '[' :: dropBackslashes rest
  | c :: rest => c :: dropBackslashes rest
  | [] => []

/-- A control character that a console does not print. -/
def isUnprinted (c : Char) : Bool :=
  [0x07, 0x08, 0x0b, 0x0c, 0x0d].contains c.toNat

/-- What is shown of segments while styles are set. -/
def renderFrom : List SetStyle → List Segment → Except MarkupFault (List Char)
  | _, [] => .ok []
  | styles, .text run :: later => do
    let rest ← renderFrom styles later
    return dropBackslashes run ++ rest
  | styles, .tag tag :: later => do
    let backslashes := List.replicate (tag.backslashes / 2) '\\'
    if tag.isEscaped then
      let rest ← renderFrom styles later
      return backslashes ++ tag.bracketed ++ rest
    else
      let styles ← afterTag styles tag
      let rest ← renderFrom styles later
      return backslashes ++ rest

/-- Look up the style that a segment sets, if it sets one. -/
def Segment.lookUp : Segment → Except MarkupFault Unit
  | .text _ => .ok ()
  | .tag given => if given.isEscaped then .ok () else given.lookUp

/-- What is shown of a text with markup. Styles are looked up once all tags are known to match. -/
def render (markup : String) : Except MarkupFault (List Char) := do
  let parts := segments markup.toList
  let shown ← renderFrom [] parts
  parts.forM Segment.lookUp
  return shown.filter fun c => !isUnprinted c

end EntityScaffold.Console
