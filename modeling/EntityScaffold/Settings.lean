import EntityScaffold.Naming.Plural
import EntityScaffold.Path
import EntityScaffold.Text.Blank
import EntityScaffold.Text.Lower

/-!
# Settings of a run

A setting is given outright or by an environment variable; what is given outright wins, even if it
is null. Every setting is checked by itself, so all that is wrong with a configuration is told at
once, in the order of the settings.
-/

namespace EntityScaffold

/-- The settings of a run that generates files. -/
structure Settings where
  /-- The file that holds the document. -/
  modelFile : Path
  /-- The folder that files are generated into. -/
  outputFolder : Path
  /-- The service that the generated code talks to. -/
  microservice : String
  /-- Where the service is. Without a host its address is relative. -/
  apiHost : Option String
  pluralStyle : Naming.PluralStyle
  /-- Are malformed fields and dangling references refused? -/
  strict : Bool
deriving DecidableEq, Repr

namespace Settings

/-- The address of the service: host, name and a fixed end. Slashes at the end of the host are
dropped. -/
def apiBaseUrl (settings : Settings) : String :=
  let host := (settings.apiHost.getD "").toList
  String.ofList (host.reverse.dropWhile (· == '/')).reverse ++
    s!"/services/{settings.microservice}/api"

/-! ## Reading settings -/

/-- A value as it is given, before it is checked. -/
inductive Given
  | null
  | boolean (value : Bool)
  | number (value : Int)
  | text (value : String)
  /-- A compound value. -/
  | compound
deriving DecidableEq, Repr

/-- What is wrong with a setting. -/
structure Problem where
  setting : String
  message : String
deriving DecidableEq, Repr

/-- All that is wrong with a configuration, in words. -/
def describe (problems : List Problem) : String :=
  String.intercalate "; " (problems.map fun problem => s!"{problem.setting}: {problem.message}")

def names : List String :=
  ["jdl_file", "output_folder", "microservice", "api_host", "plural_style", "strict"]

/-- Where settings come from: what is given outright, and the environment. -/
structure Origin where
  given : List (String × Given)
  environment : List (String × String)

/-- The value given for a setting. The name of an environment variable may be in any case; of two
that differ in case only the later one counts. -/
def Origin.value? (origin : Origin) (setting : String) : Option Given :=
  match origin.given.lookup setting with
  | some value => some value
  | none =>
    let matching := origin.environment.filter fun (name, _) => Text.lower name = s!"jdl_{setting}"
    matching.getLast?.map fun (_, value) => .text value

/-- The message about a setting that must be given and is not. -/
def required : String := "Field required"

/-- The message about a value that should be a text and is not. -/
def notAText : String := "Input should be a valid string"

/-- A setting that is a path. -/
def readPath : Option Given → Except String Path
  | none => .error required
  | some (.text text) => .ok (.ofString text)
  | some _ => .error "Input is not a valid path"

/-- The name of the service, without blanks at its ends. -/
def readMicroservice : Option Given → Except String String
  | none => .error required
  | some (.text text) =>
    let name := Text.trim text.toList
    if name.isEmpty then .error "Value error, microservice name must not be empty"
    else .ok (String.ofList name)
  | some _ => .error notAText

/-- The host of the service, if it has one. -/
def readApiHost : Option Given → Except String (Option String)
  | none | some .null => .ok none
  | some (.text text) => .ok (some text)
  | some _ => .error notAText

/-- The style of plurals, by its exact name. -/
def readPluralStyle (value : Option Given) : Except String Naming.PluralStyle :=
  let refused := .error "Input should be 'naive' or 'english'"
  match value with
  | none => .ok .naive
  | some (.text text) => ((Naming.PluralStyle.ofName? text).map .ok).getD refused
  | some _ => refused

/-- The words for yes, in small letters. -/
def yesWords : List String := ["1", "true", "t", "yes", "y", "on"]

/-- The words for no, in small letters. -/
def noWords : List String := ["0", "false", "f", "no", "n", "off"]

/-- A setting that is on or off, and off unless it is given. Words for yes and no are read in any
case, but without blanks around them. -/
def readSwitch : Option Given → Except String Bool
  | none => .ok false
  | some (.boolean value) => .ok value
  | some (.number 1) => .ok true
  | some (.number 0) => .ok false
  | some (.number _) => .error unclear
  | some (.text text) =>
    let word := String.ofList (text.toList.map Char.toLower)
    if word ∈ yesWords then .ok true else if word ∈ noWords then .ok false else .error unclear
  | some .null | some .compound => .error "Input should be a valid boolean"
where
  unclear := "Input should be a valid boolean, unable to interpret input"

/-- What is wrong with a setting, if anything is. -/
def problemOf {α : Type} (setting : String) : Except String α → List Problem
  | .ok _ => []
  | .error message => [⟨setting, message⟩]

/-- The settings that come from somewhere, or all that is wrong with them. -/
def ofOrigin (origin : Origin) : Except (List Problem) Settings :=
  let modelFile := readPath (origin.value? "jdl_file")
  let outputFolder := readPath (origin.value? "output_folder")
  let microservice := readMicroservice (origin.value? "microservice")
  let apiHost := readApiHost (origin.value? "api_host")
  let pluralStyle := readPluralStyle (origin.value? "plural_style")
  let strict := readSwitch (origin.value? "strict")
  match modelFile, outputFolder, microservice, apiHost, pluralStyle, strict with
  | .ok modelFile, .ok outputFolder, .ok microservice, .ok apiHost, .ok pluralStyle, .ok strict =>
    .ok ⟨modelFile, outputFolder, microservice, apiHost, pluralStyle, strict⟩
  | modelFile, outputFolder, microservice, apiHost, pluralStyle, strict =>
    .error (problemOf "jdl_file" modelFile ++ problemOf "output_folder" outputFolder ++
      problemOf "microservice" microservice ++ problemOf "api_host" apiHost ++
      problemOf "plural_style" pluralStyle ++ problemOf "strict" strict)

end Settings

end EntityScaffold
