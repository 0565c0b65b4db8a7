import EntityScaffold.Console.Colour
import EntityScaffold.Text.Lower

/-!
# Styles

A style switches properties of the text on or off, sets its colour and that of its background, and
may link it to an address. It is written in words: a property, `not` and a property, a colour, `on`
and a colour, `link` and an address. Capitals do not matter, except in an address and after `not`.
Of words that set the same thing the last one counts, so one style has many spellings but only one
text.
-/

namespace EntityScaffold.Console

/-- The properties that can be switched, in the order in which they are listed, each with the words
for it. -/
def properties : List (String × List String) :=
  [("bold", ["bold", "b"]), ("dim", ["dim", "d"]), ("italic", ["italic", "i"]),
    ("underline", ["underline", "u"]), ("blink", ["blink"]), ("blink2", ["blink2"]),
    ("reverse", ["reverse", "r"]), ("conceal", ["conceal", "c"]), ("strike", ["strike", "s"]),
    ("underline2", ["underline2", "uu"]), ("frame", ["frame"]), ("encircle", ["encircle"]),
    ("overline", ["overline", "o"])]

def property? (word : String) : Option String :=
  (properties.find? fun (_, words) => words.contains word).map Prod.fst

/-- What a text is to look like. What is not set stays as it is. -/
structure Style where
  /-- The properties that are switched on or off, the last switched first. -/
  switches : List (String × Bool)
  colour : Option String
  background : Option String
  link : Option String
deriving DecidableEq, Repr

namespace Style

def plain : Style := ⟨[], none, none, none⟩

/-- One setting of a style, as it is written. -/
inductive Setting
  | without (word : String)
  | background (word : String)
  | link (address : String)
  | word (word : String)
deriving DecidableEq, Repr

/-- Why words are no style. -/
inductive Misreading
  /-- A word means nothing. -/
  | unknownWord (word : String)
  | incompleteColour (colour : IncompleteColour)
deriving DecidableEq, Repr

/-- The settings that words write. One that lacks its second word is left as a word. -/
def settings : List String → List Setting
  | [] => []
  | [word] => [.word word]
  | word :: next :: later =>
    match Text.lower word with
    | "not" => .without next :: settings later
    | "on" => .background next :: settings later
    | "link" => .link next :: settings later
    | _ => .word word :: settings (next :: later)

def readColour (word : String) : Except Misreading String := do
  let small := Text.lower word
  if ← (isColour small).mapError .incompleteColour then return small
  else throw (.unknownWord word)

/-- A style with a further setting. -/
def add (style : Style) : Setting → Except Misreading Style
  | .without word =>
    match property? word with
    | some property => .ok { style with switches := (property, false) :: style.switches }
    | none => .error (.unknownWord word)
  | .background word => do return { style with background := some (← readColour word) }
  | .link address => .ok { style with link := some address }
  | .word word =>
    match property? (Text.lower word) with
    | some property => .ok { style with switches := (property, true) :: style.switches }
    | none => do return { style with colour := some (← readColour word) }

def read (text : List Char) : Except Misreading Style :=
  (settings ((Text.fields text).map String.ofList)).foldlM add plain

/-- How a property is switched, in words. -/
def switchText (style : Style) (property : String) : Option String :=
  (style.switches.lookup property).map fun on => if on then property else s!"not {property}"

/-- The one text of a style: the properties in their order, the colour, the background, the link. -/
def text (style : Style) : String :=
  let parts := (properties.map Prod.fst).filterMap style.switchText ++ style.colour.toList ++
    (style.background.map fun colour => s!"on {colour}").toList ++
    (style.link.map fun address => s!"link {address}").toList
  if parts.isEmpty then "none" else String.intercalate " " parts

/-- The name by which a style is set and ended: its one text if it is a style, and otherwise what
is written, without capitals. -/
def name (written : List Char) : Except IncompleteColour String :=
  match read written with
  | .ok style => .ok style.text
  | .error (.incompleteColour colour) => .error colour
  | .error (.unknownWord _) => .ok (Text.lower (String.ofList (Text.trim written)))

end Style

end EntityScaffold.Console
