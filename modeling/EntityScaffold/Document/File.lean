import EntityScaffold.Document.Parse
import EntityScaffold.Failure

/-!
# Documents in files

A document in a file is a text: the bytes of the file are read as UTF-8 and line ends are unified
before it is parsed.
-/

namespace EntityScaffold.Document

/-- The model that the text of a file declares. What is wrong with it is a fault of that file. -/
def parseFile (strict : Bool) (file : String) (text : String) : Report Fault Model := do
  let unified := String.ofList (Text.unifyLineEnds text.toList)
  let model ← (parse strict unified).mapError (·.inFile file)
  return { model with filename := some file }

/-- The model that the file at a path declares. -/
def readModel (tree : FileTree) (path : Path) (strict : Bool) : Report Failure Model :=
  match tree.read path with
  | .error fault => .fail (.file fault)
  | .ok bytes =>
    match String.fromUTF8? bytes with
    | none => .fail .notAText
    | some text => (parseFile strict path.text text).mapError .document

end EntityScaffold.Document
