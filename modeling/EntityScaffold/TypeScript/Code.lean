/-!
# TypeScript code

Generated code is a list of lines. A line is text in which the names of other files stand out as
pieces of their own, so that what a file refers to can be read off its code. Blocks and imports are
put together by the functions below; one function prints them all.
-/

namespace EntityScaffold.TypeScript

/-- A piece of a line. -/
inductive Piece
  /-- Code as it is. -/
  | plain (text : String)
  /-- The module that an import names. -/
  | module (specifier : String)
  /-- The template that a component names. -/
  | template (file : String)
deriving DecidableEq, Repr

abbrev Line := List Piece

abbrev Code := List Line

namespace Piece

/-- A piece as it is printed: names of files stand between single quotes. -/
def text : Piece → String
  | plain text => text
  | module file | template file => s!"'{file}'"

def module? : Piece → Option String
  | module specifier => some specifier
  | _ => none

def template? : Piece → Option String
  | template file => some file
  | _ => none

end Piece

def Line.text (line : Line) : String := String.join (line.map Piece.text)

namespace Code

/-- Lines as they are printed, each with its line feed. -/
def text (code : Code) : String := String.join (code.map fun line => Line.text line ++ "\n")

/-- The modules that lines of code import, in order. -/
def modules (code : Code) : List String := code.flatMap fun line => line.filterMap Piece.module?

/-- The templates that lines of code name, in order. -/
def templates (code : Code) : List String := code.flatMap fun line => line.filterMap Piece.template?

/-- Lines of plain code, each given by its text. -/
def lines (texts : List String) : Code :=
  texts.map fun text => if text = "" then [] else [.plain text]

/-- Lines moved to the right by two columns. An empty line stays empty. -/
def indent (code : Code) : Code :=
  code.map fun line => if line.isEmpty then line else .plain "  " :: line

/-- Lines between braces: `opening` before the opening brace, `closing` after the closing one. -/
def block (opening : String) (body : Code) (closing : String) : Code :=
  lines [opening ++ "\x7b"] ++ indent body ++ lines ["\x7d" ++ closing]

end Code

/-- An expression between braces on one line. -/
def braced (inside : String) : String := "\x7b " ++ inside ++ " \x7d"

/-- An expression set into a template literal. -/
def spliced (expression : String) : String := "$\x7b" ++ expression ++ "\x7d"

/-- An import of symbols, or of a module's default under a name. -/
inductive Import
  | symbols (names : List String) (specifier : String)
  | default (name : String) (specifier : String)
deriving DecidableEq, Repr

namespace Import

def specifier : Import → String
  | symbols _ specifier | default _ specifier => specifier

def names : Import → List String
  | symbols names _ => names
  | default name _ => [name]

def line : Import → Line
  | symbols names specifier =>
    [.plain ("import " ++ braced (String.intercalate ", " names) ++ " from "), .module specifier,
      .plain ";"]
  | default name specifier => [.plain s!"import {name} from ", .module specifier, .plain ";"]

end Import

/-- A source file: groups of imports, each followed by an empty line, and the code after them. -/
structure SourceFile where
  imports : List (List Import)
  body : Code

namespace SourceFile

def code (file : SourceFile) : Code :=
  file.imports.flatMap (fun group => group.map Import.line ++ [[]]) ++ file.body

def text (file : SourceFile) : String := file.code.text

end SourceFile

end EntityScaffold.TypeScript
