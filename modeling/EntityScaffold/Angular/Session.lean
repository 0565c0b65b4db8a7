import EntityScaffold.Angular.Application
import EntityScaffold.Generation.Assembly

/-!
# Calls on a model that is kept

A caller may keep a model and ask more than once for its contexts or for its files. Each call may
change the model, and files are written into the tree that the calls before have left.
-/

namespace EntityScaffold.Angular

open Generation Naming

/-- What a caller keeps between calls. -/
structure Session where
  model : Model
  /-- The tree that files are written into. -/
  tree : FileTree

/-- A call on a model. -/
inductive Call
  /-- Make the contexts. -/
  | contexts (style : PluralStyle) (strict : Bool)
  /-- Generate the files. -/
  | generate (settings : Settings)

/-- What a call gives back. -/
inductive Answer
  /-- The contexts of the entities, and the enumerations. -/
  | contexts (report : Report Fault (List Context × List Enumeration))
  /-- The paths that were written. -/
  | paths (report : Report Failure (List Path))

/-- What a call gives back, and what it leaves. -/
def Call.run (session : Session) : Call → Answer × Session
  | contexts style strict =>
    let (report, model) := assemble style strict session.model
    (.contexts (do return (← report, model.enums.items)), { session with model := model })
  | generate settings =>
    let (_, model) := assemble settings.pluralStyle settings.strict session.model
    let (progress, report) := Angular.generate settings session.tree session.model
    (.paths (do report; return progress.written), ⟨model, progress.tree⟩)

/-- What a row of calls leaves. -/
def Session.after (session : Session) (calls : List Call) : Session :=
  calls.foldl (fun session call => (call.run session).2) session

end EntityScaffold.Angular
