import EntityScaffold.CommandLine.Usage
import EntityScaffold.Run.Commands
import Std.Time.Format
import Std.Time.Zoned

/-!
# The program

The program looks up what a run needs to know, runs the command and carries out what came of it. A
run is a function of a file tree, so the tree holds what is on disk at the paths that the command
names and at those that it would write to; they are known from a trial run on the first part.
-/

namespace EntityScaffold.Program

open CommandLine Run

/-- A tree with what is on disk at a path and on the way to it. -/
def lookUp (tree : FileTree) (path : Path) : IO FileTree :=
  (path.within tree.folder).stages.foldlM (fun tree stage => do
    let place := System.mkFilePath [stage.text]
    if ← place.isDir then return tree.set stage.collapse .folder
    else if ← place.pathExists then
      return tree.set stage.collapse (.file (← IO.FS.readBinFile place))
    else return tree) tree

/-- A tree with what is on disk at some paths and on the way to them. -/
def lookUpAll (tree : FileTree) (paths : List Path) : IO FileTree := paths.foldlM lookUp tree

/-- The environment variables that may hold settings, in the two usual spellings. -/
def environment : IO (List (String × String)) := do
  let names := Settings.names.flatMap fun name => [s!"jdl_{name}", (s!"jdl_{name}").toUpper]
  names.filterMapM fun name => do return (← IO.getEnv name).map fun value => (name, value)

/-- The day, as year, month and day of the month. -/
def today : IO String := do return (← Std.Time.PlainDate.now).toSQLDateString

/-- Run a command, asking what it asks for. -/
def converse : Interaction → IO Outcome
  | .finished outcome => return outcome
  | .asking question answered => do
    let output ← IO.getStdout
    output.putStr question
    output.flush
    return answered (firstLine (← (← IO.getStdin).getLine))

/-- Write to disk what a run has written. -/
def carryOut (outcome : Outcome) : IO Unit :=
  outcome.written.eraseDups.forM fun path =>
    match outcome.tree.read path with
    | .ok bytes => do
      IO.FS.createDirAll path.parent.text
      IO.FS.writeBinFile path.text bytes
    | .error _ => return

/-- The words for an end that no command provides for. -/
def crashText : Crash → String
  | .notAText => "The file does not hold a text."
  | .badMarkup fault => fault.message

/-- Tell what a run has to say. -/
def tell (outcome : Outcome) : IO Unit := do
  IO.eprint outcome.stderr
  IO.print outcome.stdout
  match outcome.crash with
  | some crash => IO.eprintln (crashText crash)
  | none => return

/-- What a run would write to if it was given no answers. -/
def trialPaths : Interaction → List Path
  | .finished outcome => outcome.written
  | .asking _ answered => (answered (some "")).written

/-- Run the program and give the code that it ends with. -/
def run (arguments : List String) : IO UInt32 := do
  let here := Path.ofString (← IO.FS.realPath ".").toString
  let paths := match Command.demand arguments with
    | .run command => command.paths.map Path.ofString
    | _ => []
  let tree ← lookUpAll (.startingAt here) paths
  let world : World := ⟨tree, ← environment, ← today⟩
  match respond world arguments with
  | .information =>
    IO.println usage
    return 0
  | .misuse =>
    IO.eprintln usage
    return 2
  | .started trial =>
    let world := { world with tree := ← lookUpAll tree (trialPaths trial) }
    match respond world arguments with
    | .started interaction =>
      let outcome ← converse interaction
      carryOut outcome
      tell outcome
      return outcome.exitCode.toUInt32
    | _ => return 2

end EntityScaffold.Program

def main (arguments : List String) : IO UInt32 := EntityScaffold.Program.run arguments
