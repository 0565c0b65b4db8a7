import EntityScaffold.Path
import EntityScaffold.Text.Quoted

/-!
# File trees

A file tree says what is at each path: a file with its bytes, a folder, or nothing; and it says
from which folder relative paths start. The paths of its entries hold no step to a parent; where a
path with such steps leads is found by walking it, so every folder on the way has to be there.
Nothing happens to a tree but that folders are made and files written, and a file that is written
replaces what was in it.
-/

namespace EntityScaffold

/-- What is at a path. -/
inductive FileTree.Entry
  | file (bytes : ByteArray)
  | folder

/-- What is at which path. -/
structure FileTree where
  /-- The folder that relative paths start from, without steps to a parent. -/
  folder : Path
  /-- The entries, the latest change first. -/
  entries : List (Path × FileTree.Entry)

/-- Why a file could not be read or written. -/
inductive FileFault.Cause
  | notFound
  | alreadyThere
  | notAFolder
  | isAFolder
deriving DecidableEq, Repr

/-- A path at which reading or writing failed, and why. -/
structure FileFault where
  cause : FileFault.Cause
  path : Path
deriving DecidableEq, Repr

namespace FileFault

/-- The number of a cause among the errors of the system. -/
def Cause.number : Cause → Nat
  | notFound => 2
  | alreadyThere => 17
  | notAFolder => 20
  | isAFolder => 21

/-- The words for a cause. -/
def Cause.text : Cause → String
  | notFound => "No such file or directory"
  | alreadyThere => "File exists"
  | notAFolder => "Not a directory"
  | isAFolder => "Is a directory"

def message (fault : FileFault) : String :=
  s!"[Errno {fault.cause.number}] {fault.cause.text}: " ++ Text.quoted fault.path.text

end FileFault

namespace FileTree

/-- The tree in which there is a folder, from which relative paths start, and nothing else. -/
def startingAt (folder : Path) : FileTree :=
  ⟨folder, folder.stages.map fun stage => (stage, .folder)⟩

/-- The tree without files, of which all paths are relative. -/
def empty : FileTree := startingAt .here

/-- What is at a path without steps to a parent. Origins are always there. -/
def stored? (tree : FileTree) (path : Path) : Option Entry :=
  if path.steps.isEmpty then some .folder else tree.entries.lookup path

/-- Set what is at a path without steps to a parent. -/
def set (tree : FileTree) (path : Path) (entry : Entry) : FileTree :=
  { tree with entries := (path, entry) :: tree.entries }

/-- Where a path leads by a further step. -/
def stepFrom (place : Path) (step : String) : Path :=
  if step = ".." then place.parent else { place with steps := place.steps ++ [step] }

/-- Where steps from a place lead, or why they lead nowhere. There need not be anything at the
end. -/
def walk (tree : FileTree) (place : Path) : List String → Except FileFault.Cause Path
  | [] => .ok place
  | step :: later =>
    match tree.stored? place with
    | some .folder => tree.walk (stepFrom place step) later
    | some (.file _) => .error .notAFolder
    | none => .error .notFound

/-- Where a path leads. -/
def locate (tree : FileTree) (path : Path) : Except FileFault Path :=
  let whole := path.within tree.folder
  match tree.walk { whole with steps := [] } whole.steps with
  | .ok place => .ok place
  | .error cause => .error ⟨cause, path⟩

/-- Is there nothing, a file or a folder where a path leads? -/
def find? (tree : FileTree) (path : Path) : Option Entry :=
  match tree.locate path with
  | .ok place => tree.stored? place
  | .error _ => none

/-- The bytes of a file. -/
def read (tree : FileTree) (path : Path) : Except FileFault ByteArray := do
  let place ← tree.locate path
  match tree.stored? place with
  | some (.file bytes) => .ok bytes
  | some .folder => .error ⟨.isAFolder, path⟩
  | none => .error ⟨.notFound, path⟩

/-- Make the one folder that a path leads to, if it is not there yet. -/
def makeLast (tree : FileTree) (path : Path) : Except FileFault FileTree := do
  let place ← tree.locate path
  match tree.stored? place with
  | some .folder => .ok tree
  | some (.file _) => .error ⟨.alreadyThere, path⟩
  | none => .ok (tree.set place .folder)

/-- Make a folder and those that hold it, as far as they are not there yet. Whatever keeps it from
being made, if it is not that the way to it is missing, is told of the path it was met at. -/
def makeFolder (tree : FileTree) (path : Path) : Except FileFault FileTree :=
  match tree.makeLast path with
  | .error ⟨.notFound, missing⟩ =>
    if path.steps = [] then .error ⟨.notFound, missing⟩
    else do
      let tree ← tree.makeFolder path.parent
      tree.makeLast path
  | made => made
termination_by path.steps.length
decreasing_by
  have := List.length_pos_iff.mpr ‹_›
  simp [Path.parent]
  omega

/-- Write a file into a folder that is there. -/
def writeFile (tree : FileTree) (path : Path) (bytes : ByteArray) : Except FileFault FileTree := do
  let place ← tree.locate path
  match tree.stored? place with
  | some .folder => .error ⟨.isAFolder, path⟩
  | _ => .ok (tree.set place (.file bytes))

/-- Write a file, making the folders that hold it. -/
def write (tree : FileTree) (path : Path) (bytes : ByteArray) : Except FileFault FileTree := do
  let tree ← tree.makeFolder path.parent
  tree.writeFile path bytes

/-- The files of a tree, each once and with its latest bytes, by their paths as they are seen from
the folder of the tree, in the order of the texts of those. -/
def files (tree : FileTree) : List (Path × ByteArray) :=
  let paths := (tree.entries.map Prod.fst).eraseDups
  let found := paths.filterMap fun path =>
    match tree.stored? path with
    | some (.file bytes) => some (path.seenFrom tree.folder, bytes)
    | _ => none
  found.mergeSort fun a b => a.1.text ≤ b.1.text

end FileTree

end EntityScaffold
