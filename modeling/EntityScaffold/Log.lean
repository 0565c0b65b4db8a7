/-!
# The log

A run reports what it skips, what is suspicious, how far it has come and what it has written. Each
kind of report has one level and one shape, so all lines of a log look alike. How much of the log
is shown is set once by the two flags of the command line; the wish for more wins over the wish
for less.
-/

namespace EntityScaffold.Log

/-- How much a line matters. -/
inductive Level
  | debug
  | info
  | warning
deriving DecidableEq, Repr

namespace Level

def name : Level → String
  | debug => "DEBUG"
  | info => "INFO"
  | warning => "WARNING"

/-- The rank of a level: a higher one matters more. -/
def severity : Level → Nat
  | debug => 10
  | info => 20
  | warning => 30

/-- The least level that is shown. -/
def ofFlags (verbose quiet : Bool) : Level :=
  if verbose then debug else if quiet then warning else info

end Level

/-- A message after a label in brackets, indented by some columns. A negative indent is none. -/
def tag (label message : String) (indent : Int) : String :=
  String.ofList (List.replicate indent.toNat ' ') ++ s!"[{label}] {message}"

/-- What a line reports. -/
inductive Kind
  /-- Something in the document was ignored. -/
  | skip
  /-- Something is suspicious, but the run goes on. -/
  | warn
  /-- The run has come to a new step. -/
  | step
  /-- A file was written. -/
  | generated
deriving DecidableEq, Repr

namespace Kind

def level : Kind → Level
  | skip | generated => .debug
  | step => .info
  | warn => .warning

/-- A message in the shape of its kind. -/
def shape (kind : Kind) (message : String) : String :=
  match kind with
  | skip => tag "SKIP" message 2
  | warn => tag "WARN" message 2
  | step => s!"  -> {message}"
  | generated => tag "GENERATED" message 0

end Kind

/-- The logger above all others. -/
def rootLogger : String := "jdl.gen"

/-- The logger of a part of the library: below the root, under the last part of a dotted name. -/
def loggerName : Option String → String
  | none => rootLogger
  | some name =>
    if name = rootLogger then rootLogger
    else
      let last := (name.toList.reverse.takeWhile (· != '.')).reverse
      s!"{rootLogger}." ++ String.ofList last

/-- One line of the log. -/
structure Record where
  level : Level
  logger : String
  text : String
deriving DecidableEq, Repr

/-- Where the log goes: the least level that is taken, the outputs with the least level of each,
and whether lines go on to the surroundings. -/
structure Setup where
  level : Level
  outputs : List Level
  propagates : Bool
deriving DecidableEq, Repr

namespace Setup

/-- Before anything is set up there is no output of the log's own, and the surroundings show
warnings only. -/
def initial : Setup := ⟨.warning, [], true⟩

/-- Set the level by the two flags and see to it that there is one output. A second call changes
the level only. -/
def configure (setup : Setup) (verbose quiet : Bool) : Setup :=
  let level := Level.ofFlags verbose quiet
  if setup.outputs.isEmpty then ⟨level, [level], false⟩
  else { setup with level := level, outputs := setup.outputs.map fun _ => level }

/-- Is a line of this level shown? -/
def shows (setup : Setup) (level : Level) : Bool := setup.level.severity ≤ level.severity

/-- What is shown of some lines of the log. -/
def render (setup : Setup) (records : List Record) : String :=
  String.join ((records.filter fun record => setup.shows record.level).map (·.text ++ "\n"))

end Setup

end EntityScaffold.Log
