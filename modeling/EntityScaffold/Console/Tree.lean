import EntityScaffold.Console.Columns
import EntityScaffold.Console.Markup

/-!
# What a console shows

Text is shown line by line. A tree is drawn with a branch before the first line of each child and a
guide before its other lines. Its labels are markup, and of several faults in them the one that
would be met first on the console is told.
-/

namespace EntityScaffold.Console

/-- The lines that are shown of a text with markup. -/
def shownLines (markup : String) : Except MarkupFault (List String) := do
  let shown ← render markup
  return (Text.lines shown).map fun line => String.ofList (expandTabs line)

/-- A tree with labels in markup. -/
inductive Tree
  | node (label : String) (children : List Tree)

/-- Put `first` before the first line and `other` before the others. -/
def hang (first other : String) : List String → List String
  | [] => []
  | line :: later => (first ++ line) :: later.map (other ++ ·)

mutual

/-- The lines that are shown of a tree. -/
def Tree.lines : Tree → Except MarkupFault (List String)
  | .node label children => do
    let shown ← shownLines label
    return shown ++ (← linesOfChildren children)

/-- The lines that are shown of the children of a node. -/
def linesOfChildren : List Tree → Except MarkupFault (List String)
  | [] => .ok []
  | [child] => do return hang "└── " "    " (← child.lines)
  | child :: later => do
    let shown ← child.lines
    return hang "├── " "│   " shown ++ (← linesOfChildren later)

end

end EntityScaffold.Console
