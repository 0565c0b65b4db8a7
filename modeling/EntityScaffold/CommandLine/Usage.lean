import EntityScaffold.CommandLine.Command

/-!
# Usage

How the program is called, as it is told to those who ask and to those who call it otherwise.
-/

namespace EntityScaffold.CommandLine

/-- An option with all its spellings. -/
def OptionSpec.usage (spec : OptionSpec) : String :=
  let letter := (spec.letter.map fun c => String.ofList ['-', c, '|']).getD ""
  let value := if spec.takesValue then " VALUE" else ""
  s!"[{letter}--{spec.name}{value}]"

/-- A command with its options and its other arguments. -/
def usageOf (name : String) (specs : List OptionSpec) (others : List String) : String :=
  String.intercalate " " (name :: specs.map OptionSpec.usage ++ others)

def usage : String :=
  String.intercalate "\n"
    ["Usage:",
      "  " ++ usageOf "validate" [Command.strict, Command.help] ["FILE"],
      "  " ++ usageOf "inspect" [Command.help] ["FILE"],
      "  " ++ usageOf "generate" Command.generateOptions ["FILE", "FOLDER"]]

end EntityScaffold.CommandLine
