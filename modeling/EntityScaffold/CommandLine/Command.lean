import EntityScaffold.CommandLine.Arguments
import EntityScaffold.FileTree
import EntityScaffold.Naming.Plural
import EntityScaffold.Text.Lower

/-!
# Commands

There are three commands: check a document, show what it declares, and generate files from it. Each
names the file of the document, which must be there; the last one also names a folder to generate
into, which must not be a file.
-/

namespace EntityScaffold.CommandLine

/-- What the generating command is asked for. What is not given is left to the environment. -/
structure GenerateRequest where
  file : String
  output : String
  microservice : Option String
  apiHost : Option String
  pluralStyle : Option Naming.PluralStyle
  strict : Bool
  verbose : Bool
  quiet : Bool
deriving DecidableEq, Repr

/-- A command with what it is asked for. -/
inductive Command
  | validate (file : String) (strict : Bool)
  | inspect (file : String)
  | generate (request : GenerateRequest)
deriving DecidableEq, Repr

/-- What a command line asks for. -/
inductive Demand
  | run (command : Command)
  /-- Information on the program itself. -/
  | information
  /-- The command line makes no sense. -/
  | misuse
deriving DecidableEq, Repr

namespace Command

/-- The option that asks for information on a command. -/
def help : OptionSpec := switch "help" none

/-- The option that makes a run strict. -/
def strict : OptionSpec := switch "strict" none

/-- The options of the generating command. -/
def generateOptions : List OptionSpec :=
  [valued "microservice" (some 'm'), valued "api-host" (some 'h'), valued "plural-style" none,
    strict, switch "verbose" (some 'v'), switch "quiet" (some 'q'), help]

/-- The style of plurals that a word chooses, in any case. -/
def chosenStyle? (word : String) : Option Naming.PluralStyle :=
  let folded := (Text.lower word).toList.map fun c => if c = 'ſ' then 's' else c
  Naming.PluralStyle.ofName? (String.ofList folded)

/-- The generating command with some arguments. -/
def ofGenerateArguments (arguments : Arguments) : Option Command :=
  match arguments.positional with
  | [file, output] =>
    let request : GenerateRequest := {
      file, output
      microservice := arguments.value? "microservice"
      apiHost := arguments.value? "api-host"
      pluralStyle := (arguments.value? "plural-style").bind chosenStyle?
      strict := arguments.has "strict"
      verbose := arguments.has "verbose"
      quiet := arguments.has "quiet" }
    match arguments.value? "plural-style", request.pluralStyle with
    | some _, none => none
    | _, _ => some (generate request)
  | _ => none

/-- A command that takes one file, with some arguments. -/
def ofFileArguments (make : String → Arguments → Command) (arguments : Arguments) :
    Option Command :=
  match arguments.positional with
  | [file] => some (make file arguments)
  | _ => none

def demandOf (specs : List OptionSpec) (make : Arguments → Option Command)
    (arguments : List String) : Demand :=
  match readArguments specs arguments .empty with
  | none => .misuse
  | some arguments =>
    if arguments.has "help" then .information
    else match make arguments with
      | some command => .run command
      | none => .misuse

/-- Read the name of a command and its arguments. -/
def named : List String → Demand
  | "validate" :: arguments =>
    demandOf [strict, help] (ofFileArguments fun file given => validate file (given.has "strict"))
      arguments
  | "inspect" :: arguments => demandOf [help] (ofFileArguments fun file _ => inspect file) arguments
  | "generate" :: arguments => demandOf generateOptions ofGenerateArguments arguments
  | _ => .misuse

/-- Read a command line of which the options before the name of the command have been read so far.
`asked` tells whether one of them asks for information. -/
def demandFrom (asked : Bool) : List String → Demand
  | [] => if asked then .information else .misuse
  | argument :: later =>
    match Shape.of argument with
    | .long "help" none | .long "version" none => demandFrom true later
    | .long .. | .letters .. => .misuse
    | .endOfOptions => if asked then .information else named later
    | .other => if asked then .information else named (argument :: later)

def demand (arguments : List String) : Demand := demandFrom false arguments

/-- Can a path only be that of a folder? It can if it ends with a slash or a step that stays in
place. -/
def namesFolder (path : String) : Bool :=
  match path.toList.reverse with
  | '/' :: _ | '.' :: '/' :: _ => true
  | _ => false

/-- Is there a file at a path? An empty text is no path. -/
def isFile (tree : FileTree) (path : String) : Bool :=
  if path = "" ∨ namesFolder path then false
  else match tree.find? (.ofString path) with
    | some (.file _) => true
    | _ => false

def paths : Command → List String
  | validate file _ | inspect file => [file]
  | generate request => [request.file, request.output]

/-- Are the paths of a command as they have to be? -/
def pathsFit (tree : FileTree) : Command → Bool
  | validate file _ | inspect file => isFile tree file
  | generate request => isFile tree request.file && !isFile tree request.output

end Command

end EntityScaffold.CommandLine
