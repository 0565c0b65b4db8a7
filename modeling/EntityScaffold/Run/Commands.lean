import EntityScaffold.Angular.Application
import EntityScaffold.CommandLine.Command
import EntityScaffold.Document.File
import EntityScaffold.Run.Overview

/-!
# Running commands

A command is run on a world: the files there are, the environment and the day. What it does is a
value too: the lines it prints, the notes it logs, the files there are afterwards and the code it
ends with. Only the question for the host of the service needs an answer from outside; a run that
comes to it is a function of the answer.
-/

namespace EntityScaffold.Run

open CommandLine Console Document

/-- What a command is run on. -/
structure World where
  tree : FileTree
  environment : List (String × String)
  /-- The day, as it stands before each line of print. -/
  day : String

/-- An end that no command provides for. -/
inductive Crash
  /-- The file of the document does not hold a text. -/
  | notAText
  /-- What is to be printed cannot be shown. -/
  | badMarkup (fault : MarkupFault)
deriving DecidableEq, Repr

/-- How a run ends. -/
structure Ending where
  exitCode : Nat
  crash : Option Crash
deriving DecidableEq, Repr

/-- What a run has done so far. -/
structure Transcript where
  /-- The lines printed. -/
  printed : List String
  notes : List Note
  /-- The paths written to, in order. -/
  written : List Path
  tree : FileTree

/-- A part of a run. It ends the run if it fails. -/
abbrev Step := ExceptT Ending (StateM Transcript)

def stop {α : Type} (exitCode : Nat) : Step α := throw ⟨exitCode, none⟩

/-- End the run in a way that no command provides for. -/
def crash {α : Type} (cause : Crash) : Step α := throw ⟨1, some cause⟩

/-- Print lines, unless they could not be made. -/
def print (lines : Except MarkupFault (List String)) : Step Unit :=
  match lines with
  | .ok lines => modify fun transcript =>
      { transcript with printed := transcript.printed ++ lines }
  | .error fault => crash (.badMarkup fault)

/-- Print a line with the day before it. -/
def say (world : World) (line : String) : Step Unit :=
  print (shownLines s!"[{world.day}] {line}")

/-- Log what a part of the run reports, and go on with its value. If it failed, say that the
activity did and end the run. -/
def succeed {α : Type} (world : World) (activity : String) (report : Report Failure α) :
    Step α := do
  modify fun transcript => { transcript with notes := transcript.notes ++ report.notes }
  match report.outcome with
  | .ok value => return value
  | .error .notAText => crash .notAText
  | .error failure =>
    say world s!"{activity} failed with error(s): {failure.message}"
    stop 1

/-! ## The commands -/

/-- Read the document of a file and make its contexts. -/
def readWithContexts (world : World) (activity file : String) (strict : Bool) : Step Model := do
  let model ← succeed world activity (readModel world.tree (.ofString file) strict)
  let contexts := Generation.entityContexts .naive strict model
  let _ ← succeed world activity (contexts.mapError .document)
  return Generation.prepare model

/-- Check a document. -/
def validate (world : World) (file : String) (strict : Bool) : Step Unit := do
  let model ← readWithContexts world "Validation" file strict
  say world (s!"Model validation success! {model.entities.items.length} entities, " ++
    s!"{model.enums.items.length} enums, {model.relationships.length} relationships.")

/-- Show what a document declares. -/
def inspect (world : World) (file : String) : Step Unit := do
  let model ← readWithContexts world "Inspect" file false
  print (overview model).lines

/-- Generate files, with settings. -/
def generate (world : World) (settings : Settings) : Step Unit := do
  say world s!"Parsing JDL file: {settings.modelFile.text}"
  let model ← succeed world "Generate"
    (readModel world.tree settings.modelFile settings.strict)
  if model.isEmpty then
    say world "No entities found in the JDL file. Exiting."
    stop 1
  let target := (settings.outputFolder.within world.tree.folder).collapse
  say world s!"Generating Angular app in '{target.text}'..."
  let (progress, report) := Angular.generate settings world.tree model
  modify fun transcript => { transcript with tree := progress.tree, written := progress.written }
  succeed world "Generate" report
  say world s!"Angular structure generated successfully! ({progress.written.length} files)"

/-- Say what is wrong with the settings. -/
def refuse (world : World) (problems : List Settings.Problem) : Step Unit := do
  say world s!"Invalid configuration: {Settings.describe problems}"
  stop 2

/-! ## Runs -/

/-- What a run has done and how it ended. -/
structure Outcome where
  exitCode : Nat
  crash : Option Crash
  printed : List String
  notes : List Note
  /-- How much of the log is shown. -/
  log : Log.Setup
  written : List Path
  tree : FileTree

namespace Outcome

/-- What was printed. -/
def stdout (outcome : Outcome) : String := String.join (outcome.printed.map (· ++ "\n"))

/-- What is shown of the log. -/
def stderr (outcome : Outcome) : String := outcome.log.render (outcome.notes.map Note.record)

/-- The files that were not there before. -/
def created (outcome : Outcome) (before : FileTree) : List (Path × ByteArray) :=
  let old := before.files.map Prod.fst
  outcome.tree.files.filter fun (path, _) => !old.contains path

end Outcome

/-- Run a step from the start. -/
def outcomeOf (world : World) (log : Log.Setup) (step : Step Unit) : Outcome :=
  let (result, transcript) := (step.run).run ⟨[], [], [], world.tree⟩
  let ending : Ending := match result with
    | .ok () => ⟨0, none⟩
    | .error ending => ending
  ⟨ending.exitCode, ending.crash, transcript.printed, transcript.notes, log,
    transcript.written, transcript.tree⟩

/-- A run that has ended, or that waits for the answer to a question. Without an answer it cannot
go on. -/
inductive Interaction
  | finished (outcome : Outcome)
  | asking (question : String) (answered : Option String → Outcome)

/-- The log of a run that was asked for more or less. -/
def logFor (verbose quiet : Bool) : Log.Setup := Log.Setup.initial.configure verbose quiet

/-- The settings that a request gives outright. -/
def givenBy (request : GenerateRequest) : List (String × Settings.Given) :=
  [("jdl_file", .text request.file), ("output_folder", .text request.output)] ++
    (request.microservice.map fun name => ("microservice", .text name)).toList ++
    (request.apiHost.map fun host => ("api_host", .text host)).toList ++
    (request.pluralStyle.map fun style => ("plural_style", .text style.name)).toList ++
    (if request.strict then [("strict", .boolean true)] else [])

/-- The question for the host of the service. -/
def hostQuestion : String :=
  "Enter API host (optional, leave blank for relative paths from /): "

def start (world : World) : Command → Interaction
  | .validate file strict =>
    .finished (outcomeOf world (logFor false true) (validate world file strict))
  | .inspect file => .finished (outcomeOf world (logFor false true) (inspect world file))
  | .generate request =>
    let log := logFor request.verbose request.quiet
    match Settings.ofOrigin ⟨givenBy request, world.environment⟩ with
    | .error problems => .finished (outcomeOf world log (refuse world problems))
    | .ok settings =>
      match settings.apiHost with
      | some _ => .finished (outcomeOf world log (generate world settings))
      | none => .asking hostQuestion fun
        | some host =>
          outcomeOf world log (generate world { settings with apiHost := some host })
        | none => outcomeOf world log (stop 1)

/-- The first line of an input, if there is any. -/
def firstLine (input : String) : Option String :=
  match Text.unifyLineEnds input.toList with
  | [] => none
  | unified => some (String.ofList (unified.takeWhile (· != '\n')))

/-- What is printed and how the run ends if the input is given beforehand. A question is printed
with the answer to it. -/
def Interaction.scripted (input : String) : Interaction → String × Outcome
  | finished outcome => (outcome.stdout, outcome)
  | asking question answered =>
    let answer := firstLine input
    let outcome := answered answer
    let typed := match answer with
      | some answer => answer ++ "\n"
      | none => ""
    (question ++ typed ++ outcome.stdout, outcome)

/-- What comes of a command line. -/
inductive Response
  | started (interaction : Interaction)
  | information
  | misuse

/-- Read a command line and run its command. -/
def respond (world : World) (arguments : List String) : Response :=
  match Command.demand arguments with
  | .information => .information
  | .misuse => .misuse
  | .run command =>
    if command.pathsFit world.tree then .started (start world command) else .misuse

end EntityScaffold.Run
