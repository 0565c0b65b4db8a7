/-!
# Arguments

Options may stand anywhere among the other arguments, up to two hyphens that end them. An option
has a long name and perhaps a letter; letters may be run together. An option that takes a value
takes what follows it directly, after an equals sign if the long name is used, else the next
argument, whatever it is. Of values given twice the later one counts.
-/

namespace EntityScaffold.CommandLine

/-- An option of a command. -/
structure OptionSpec where
  name : String
  letter : Option Char
  takesValue : Bool
deriving DecidableEq, Repr

/-- An option that is there or not. -/
def switch (name : String) (letter : Option Char) : OptionSpec := ⟨name, letter, false⟩

/-- An option with a value. -/
def valued (name : String) (letter : Option Char) : OptionSpec := ⟨name, letter, true⟩

/-- Arguments taken apart. -/
structure Arguments where
  /-- The options without a value that are there. -/
  switches : List String
  /-- The options with a value that are there, the last one first. -/
  values : List (String × String)
  /-- The other arguments, in order. -/
  positional : List String
deriving DecidableEq, Repr

namespace Arguments

def empty : Arguments := ⟨[], [], []⟩

/-- Is an option without a value there? -/
def has (arguments : Arguments) (name : String) : Bool := arguments.switches.contains name

def value? (arguments : Arguments) (name : String) : Option String := arguments.values.lookup name

def addSwitch (arguments : Arguments) (name : String) : Arguments :=
  { arguments with switches := name :: arguments.switches }

def addValue (arguments : Arguments) (name value : String) : Arguments :=
  { arguments with values := (name, value) :: arguments.values }

def addPositional (arguments : Arguments) (others : List String) : Arguments :=
  { arguments with positional := arguments.positional ++ others }

end Arguments

/-- How an argument is to be read. -/
inductive Shape
  /-- No option. -/
  | other
  /-- Two hyphens and nothing else. -/
  | endOfOptions
  /-- The long name of an option, and a value after an equals sign. -/
  | long (name : String) (value : Option String)
  /-- Letters of options after one hyphen. -/
  | letters (letters : List Char)
deriving DecidableEq, Repr

/-- How an argument is to be read. A hyphen alone is no option. -/
def Shape.of (argument : String) : Shape :=
  match argument.toList with
  | ['-', '-'] => .endOfOptions
  | '-' :: '-' :: rest =>
    let name := String.ofList (rest.takeWhile (· != '='))
    match rest.dropWhile (· != '=') with
    | _ :: value => .long name (some (String.ofList value))
    | [] => .long name none
  | '-' :: c :: rest => .letters (c :: rest)
  | _ => .other

/-- What letters run together ask for: more options, and perhaps one whose value is the next
argument. -/
def readLetters (specs : List OptionSpec) : List Char → Arguments →
    Option (Arguments × Option OptionSpec)
  | [], arguments => some (arguments, none)
  | letter :: later, arguments =>
    (specs.find? fun spec => spec.letter = some letter).bind fun spec =>
      if !spec.takesValue then readLetters specs later (arguments.addSwitch spec.name)
      else if later.isEmpty then some (arguments, some spec)
      else some (arguments.addValue spec.name (String.ofList later), none)

/-- What a long name asks for. -/
def readLong (specs : List OptionSpec) (name : String) (value : Option String)
    (arguments : Arguments) : Option (Arguments × Option OptionSpec) :=
  (specs.find? fun spec => spec.name = name).bind fun spec =>
    match spec.takesValue, value with
    | true, some value => some (arguments.addValue spec.name value, none)
    | true, none => some (arguments, some spec)
    | false, none => some (arguments.addSwitch spec.name, none)
    | false, some _ => none

/-- Take arguments apart, given the options there are. There is no result if an option is unknown,
lacks its value or has one that it does not take. -/
def readArguments (specs : List OptionSpec) : List String → Arguments → Option Arguments
  | [], arguments => some arguments
  | argument :: later, arguments =>
    let option := match Shape.of argument with
      | .long name value => some (readLong specs name value arguments)
      | .letters letters => some (readLetters specs letters arguments)
      | _ => none
    match option with
    | none =>
      if Shape.of argument = .endOfOptions then some (arguments.addPositional later)
      else readArguments specs later (arguments.addPositional [argument])
    | some none => none
    | some (some (arguments, none)) => readArguments specs later arguments
    | some (some (arguments, some spec)) =>
      match later with
      | [] => none
      | value :: later => readArguments specs later (arguments.addValue spec.name value)

end EntityScaffold.CommandLine
