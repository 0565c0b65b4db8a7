/-!
# Paths

A path is normal by construction: it holds no empty step and no step that stays in place, so two
spellings of one path are equal. A step to the parent is kept, since what it means depends on the
tree. Two leading slashes, and no more, are told apart from one.
-/

namespace EntityScaffold

/-- Where a path starts. -/
inductive Path.Origin
  | relative
  | root
  | doubleRoot
deriving DecidableEq, Repr

/-- A normal path: an origin and the steps from it. -/
structure Path where
  origin : Path.Origin
  steps : List String
deriving DecidableEq, Repr

namespace Path

/-- The folder that relative paths start from. -/
def here : Path := ⟨.relative, []⟩

/-- The steps that a text spells between slashes. -/
def stepsOf (text : String) : List String :=
  ((text.toList.splitOn '/').map String.ofList).filter fun step => step ≠ "" ∧ step ≠ "."

/-- The origin that the leading slashes of a text spell. -/
def originOf (text : String) : Origin :=
  match (text.toList.takeWhile (· == '/')).length with
  | 0 => .relative
  | 2 => .doubleRoot
  | _ => .root

/-- The path that a text spells. -/
def ofString (text : String) : Path := ⟨originOf text, stepsOf text⟩

/-- The text of an origin, before the first step. -/
def Origin.text : Origin → String
  | .relative => ""
  | .root => "/"
  | .doubleRoot => "//"

/-- The text of a path. The folder that relative paths start from is a dot. -/
def text (path : Path) : String :=
  if path = here then "." else path.origin.text ++ String.intercalate "/" path.steps

/-- Go on from a path by the steps of a relative text. An empty text leads nowhere else. -/
def enter (path : Path) (rest : String) : Path := { path with steps := path.steps ++ stepsOf rest }

/-- The folder that holds a path. -/
def parent (path : Path) : Path := { path with steps := path.steps.dropLast }

/-- The path that a relative path spells when it starts from a folder. Absolute paths do not depend
on it. -/
def within (path folder : Path) : Path :=
  match path.origin with
  | .relative => { folder with steps := folder.steps ++ path.steps }
  | _ => path

/-- A path below a folder as a relative path that starts from there. Other paths stay as they
are. -/
def seenFrom (path folder : Path) : Path :=
  if path.origin = folder.origin ∧ folder.steps.isPrefixOf path.steps then
    ⟨.relative, path.steps.drop folder.steps.length⟩
  else path

/-- The stages of a path: where one is after each of its steps. -/
def stages (path : Path) : List Path :=
  (List.range path.steps.length).map fun n => { path with steps := path.steps.take (n + 1) }

/-- The path without steps to a parent: each undoes the step before it, and at the origin it stays
there. -/
def collapse (path : Path) : Path :=
  { path with steps := (path.steps.foldl
      (fun taken step => if step = ".." then taken.tail else step :: taken) []).reverse }

end Path

end EntityScaffold
