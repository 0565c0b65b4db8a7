import EntityScaffold.FileTree
import EntityScaffold.Model.Fault

/-!
# Failures

A run reads a document from a file and may write files. It can fail because of the document, of the
files, or because a file holds bytes that are no text.
-/

namespace EntityScaffold

/-- Why a run could not be finished. -/
inductive Failure
  /-- The document is refused. -/
  | document (fault : Fault)
  /-- A file could not be read or written. -/
  | file (fault : FileFault)
  /-- A file does not hold a text. -/
  | notAText
deriving DecidableEq, Repr

/-- The words for a failure. Bytes that are no text have none. -/
def Failure.message : Failure → String
  | document fault => fault.message
  | file fault => fault.message
  | notAText => ""

end EntityScaffold
