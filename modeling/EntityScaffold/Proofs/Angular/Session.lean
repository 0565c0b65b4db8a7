import EntityScaffold.Angular.Session
import EntityScaffold.Proofs.Angular.Output
import EntityScaffold.Proofs.Generation.Assembly

/-!
# Calls leave no trace

Calls on a model that is kept change it, as they give its fields their types. But they give every
field the type before they look at it, so no call can tell that there were others before: what it
makes of a model it makes of the model without types (`entityContexts_untyped`,
`generate_untyped`), and without types the model stays what it was. From one call this carries over
to any row of calls (`untyped_after`).
-/

namespace EntityScaffold

namespace Generation

open Naming

/-! ## Types that are there already are not looked at -/

theorem contextOf_untyped {ε : Type} (style : PluralStyle) (relationships : List Relationship)
    (entity : Entity) :
    (contextOf style relationships entity.untyped : Report ε Context) =
      contextOf style relationships entity := by
  rw [contextOf, contextOf, attachTypes_untyped]

theorem contextsOf_map_untyped {ε : Type} (style : PluralStyle)
    (relationships : List Relationship) (entities : List Entity) :
    (contextsOf style relationships (entities.map Entity.untyped) : Report ε (List Context)) =
      contextsOf style relationships entities := by
  induction entities with
  | nil => rfl
  | cons entity later ih => rw [List.map_cons, contextsOf, contextsOf, contextOf_untyped, ih]

theorem names_untyped (model : Model) : model.untyped.entities.names = model.entities.names := by
  show (model.entities.items.map Entity.untyped).map Named.name =
    model.entities.items.map Named.name
  rw [List.map_map]
  rfl

theorem entityContexts_untyped (style : PluralStyle) (strict : Bool) (model : Model) :
    entityContexts style strict model.untyped = entityContexts style strict model := by
  show (do
    let _ ← danglingReferences model.untyped.entities.names strict model.relationships
    contextsOf style model.relationships (model.entities.items.map Entity.untyped)) = _
  rw [names_untyped, contextsOf_map_untyped]
  rfl

theorem entityContexts_congr (style : PluralStyle) (strict : Bool) {model other : Model}
    (h : model.untyped = other.untyped) :
    entityContexts style strict model = entityContexts style strict other := by
  rw [← entityContexts_untyped, h, entityContexts_untyped]

theorem enums_congr {model other : Model} (h : model.untyped = other.untyped) :
    model.enums = other.enums := by
  have henums : model.untyped.enums = other.untyped.enums := by rw [h]
  exact henums

/-- Making contexts changes types of fields only, whether it ends well or not. -/
theorem untyped_assemble (style : PluralStyle) (strict : Bool) (model : Model) :
    (assemble style strict model).2.untyped = model.untyped := by
  rw [assemble_eq, afterContexts]
  cases (entityContexts style strict model).outcome with
  | error fault => rfl
  | ok contexts => exact untyped_prepare model

end Generation

namespace Angular

open Generation Naming

theorem generate_congr (settings : Settings) (tree : FileTree) {model other : Model}
    (h : model.untyped = other.untyped) :
    generate settings tree model = generate settings tree other := by
  unfold generate
  rw [entityContexts_congr _ _ h, enums_congr h]

/-! ## One call -/

theorem Call.untyped_run (call : Call) (session : Session) :
    (call.run session).2.model.untyped = session.model.untyped := by
  cases call with
  | contexts style strict => exact untyped_assemble style strict session.model
  | generate settings =>
    exact untyped_assemble settings.pluralStyle settings.strict session.model

/-- A call cannot tell models apart that differ in the types of fields only. -/
theorem Call.run_congr (call : Call) {model other : Model} (h : model.untyped = other.untyped)
    (tree : FileTree) :
    (call.run ⟨model, tree⟩).1 = (call.run ⟨other, tree⟩).1 ∧
      (call.run ⟨model, tree⟩).2.tree = (call.run ⟨other, tree⟩).2.tree := by
  cases call with
  | contexts style strict =>
    have hafter : (assemble style strict model).2.untyped =
        (assemble style strict other).2.untyped := by
      rw [untyped_assemble, untyped_assemble, h]
    have henums := enums_congr hafter
    have hreport : (assemble style strict model).1 = (assemble style strict other).1 := by
      rw [assemble_eq, assemble_eq]
      exact entityContexts_congr style strict h
    simp only [Call.run, henums, hreport, and_self]
  | generate settings => simp only [Call.run, generate_congr settings tree h, and_self]

/-! ## A row of calls -/

theorem Session.after_concat (session : Session) (calls : List Call) (call : Call) :
    session.after (calls ++ [call]) = (call.run (session.after calls)).2 := by
  rw [Session.after, List.foldl_append]
  rfl

theorem Session.after_append (session : Session) (calls later : List Call) :
    session.after (calls ++ later) = (session.after calls).after later :=
  List.foldl_append

theorem Session.untyped_after (session : Session) (calls : List Call) :
    (session.after calls).model.untyped = session.model.untyped := by
  induction calls generalizing session with
  | nil => rfl
  | cons call later ih => exact (ih (call.run session).2).trans (call.untyped_run session)

/-! ## What was handed out -/

/-- A model whose fields have their types stays as it is when contexts are made in it. -/
theorem assemble_prepared (style : PluralStyle) (strict : Bool) {model : Model}
    (h : prepare model = model) : (assemble style strict model).2 = model := by
  rw [assemble_eq, afterContexts]
  cases (entityContexts style strict model).outcome with
  | error fault => rfl
  | ok contexts => exact h

theorem Call.run_prepared (call : Call) {session : Session}
    (h : prepare session.model = session.model) : (call.run session).2.model = session.model := by
  cases call with
  | contexts style strict => exact assemble_prepared style strict h
  | generate settings => exact assemble_prepared settings.pluralStyle settings.strict h

/-- Such a model stays as it is through any row of calls. -/
theorem Session.after_prepared {session : Session} (h : prepare session.model = session.model)
    (calls : List Call) : (session.after calls).model = session.model := by
  induction calls generalizing session with
  | nil => rfl
  | cons call later ih =>
    have hcall := call.run_prepared h
    have hprepared : prepare (call.run session).2.model = (call.run session).2.model := by
      rw [hcall, h]
    exact (ih hprepared).trans hcall

/-! ## Files -/

/-- Where files can be written at all, into whichever tree, the same are written. -/
theorem written_generate_congr {settings : Settings} {model : Model} {tree other : FileTree}
    (h : (generate settings tree model).2.outcome = .ok ())
    (hother : (generate settings other model).2.outcome = .ok ()) :
    (generate settings tree model).1.written = (generate settings other model).1.written ∧
      ∀ path ∈ (generate settings tree model).1.written,
        (generate settings tree model).1.tree.read path =
          (generate settings other model).1.tree.read path := by
  obtain ⟨hends, later, hwrites⟩ := outcome_generate_iff.mp h
  obtain ⟨-, later', hwrites'⟩ := outcome_generate_iff.mp hother
  rw [progress_generate hends hwrites, progress_generate hends hwrites']
  refine ⟨rfl, fun path hpath => ?_⟩
  obtain ⟨file, hlast⟩ := exists_lastPlanned? hpath
  exact (read_of_mem_pathsOf hwrites hpath hlast).trans
    (read_of_mem_pathsOf hwrites' hpath hlast).symm

/-! ## Calls have no memory -/

/-- The contexts that a call has handed out. -/
def Answer.contexts? : Answer → Option (List Context)
  | contexts report => report.value?.map Prod.fst
  | paths _ => none

/-- The paths that a call has written. -/
def Answer.written? : Answer → Option (List Path)
  | contexts _ => none
  | paths report => report.value?

/-- A call after others is as good as a first one. -/
structure NoMemory (session : Session) (earlier : List Call) (call : Call) : Prop where
  /-- It gives back what it would have given back on the model as it was at first. -/
  answer : (call.run (session.after earlier)).1 =
    (call.run { session with tree := (session.after earlier).tree }).1
  /-- It leaves the files that it would have left there. -/
  tree : (call.run (session.after earlier)).2.tree =
    (call.run { session with tree := (session.after earlier).tree }).2.tree
  /-- They are those that it would have written into the tree as it was at first, if it can write
  into both. -/
  files : ∀ written first, (call.run (session.after earlier)).1.written? = some written →
    (call.run session).1.written? = some first →
      written = first ∧ ∀ path ∈ written,
        (call.run (session.after earlier)).2.tree.read path = (call.run session).2.tree.read path
  /-- The model has changed in the types of fields only. -/
  frame : (session.after (earlier ++ [call])).model.untyped = session.model.untyped
  /-- Contexts that it hands out hold the entities as they stand in the model ever after. -/
  shared : ∀ contexts, (call.run (session.after earlier)).1.contexts? = some contexts →
    ∀ later, contexts.map Context.entity =
      (session.after (earlier ++ call :: later)).model.entities.items

theorem written?_generate {settings : Settings} {session : Session} {written : List Path}
    (h : (Call.run session (.generate settings)).1.written? = some written) :
    (generate settings session.tree session.model).2.outcome = .ok () ∧
      (generate settings session.tree session.model).1.written = written := by
  simp only [Call.run, Answer.written?, Report.bind_eq_andThen, Report.value?_andThen] at h
  obtain ⟨done, hdone, hwritten⟩ := Option.bind_eq_some_iff.mp h
  exact ⟨Report.value?_eq_some_iff.mp hdone, Option.some.inj hwritten⟩

theorem contexts?_contexts {style : PluralStyle} {strict : Bool} {session : Session}
    {contexts : List Context}
    (h : (Call.run session (.contexts style strict)).1.contexts? = some contexts) :
    (assemble style strict session.model).1.outcome = .ok contexts := by
  simp only [Call.run, Answer.contexts?, Report.bind_eq_andThen, Report.value?_andThen] at h
  obtain ⟨given, hgiven, rfl⟩ := Option.map_eq_some_iff.mp h
  obtain ⟨contexts, hcontexts, hpair⟩ := Option.bind_eq_some_iff.mp hgiven
  rw [← Option.some.inj hpair]
  exact Report.value?_eq_some_iff.mp hcontexts

/-- A call that generates on two models that differ in types only, and into two trees, writes the
same files if it can write into both. -/
theorem written_run_congr {call : Call} {session other : Session}
    (h : session.model.untyped = other.model.untyped) {written written' : List Path}
    (hwritten : (call.run session).1.written? = some written)
    (hwritten' : (call.run other).1.written? = some written') :
    written = written' ∧ ∀ path ∈ written,
      (call.run session).2.tree.read path = (call.run other).2.tree.read path := by
  cases call with
  | contexts style strict => exact absurd hwritten (by simp [Call.run, Answer.written?])
  | generate settings =>
    obtain ⟨hdone, rfl⟩ := written?_generate hwritten
    obtain ⟨hdone', rfl⟩ := written?_generate hwritten'
    rw [← generate_congr settings other.tree h] at hdone' ⊢
    show _ ∧ ∀ path ∈ _, (generate settings session.tree session.model).1.tree.read path =
      (generate settings other.tree other.model).1.tree.read path
    rw [← generate_congr settings other.tree h]
    exact written_generate_congr hdone hdone'

/-- Contexts that are handed out hold the entities of the prepared model. -/
theorem contexts?_run {call : Call} {session : Session} {contexts : List Context}
    (h : (call.run session).1.contexts? = some contexts) :
    contexts.map Context.entity = (call.run session).2.model.entities.items ∧
      prepare (call.run session).2.model = (call.run session).2.model := by
  cases call with
  | generate settings => exact absurd h (by simp [Call.run, Answer.contexts?])
  | contexts style strict =>
    have houtcome := contexts?_contexts h
    rw [assemble_eq] at houtcome
    have hafter : (Call.run session (.contexts style strict)).2.model = prepare session.model := by
      show (assemble style strict session.model).2 = prepare session.model
      rw [assemble_eq]
      exact afterContexts_of_ok houtcome
    rw [hafter, prepare_prepare]
    exact ⟨map_entity_contexts houtcome, rfl⟩

/-- **Memory.** Whatever calls were made on a model before, a call gives back the contexts, the
paths or the error that it would have given back as the first one, and leaves the same files. The
model differs in the types of its fields only, and contexts that were handed out before still hold
what stands in the model. -/
theorem noMemory (session : Session) (earlier : List Call) (call : Call) :
    NoMemory session earlier call := by
  have hframe := session.untyped_after earlier
  obtain ⟨hanswer, htree⟩ := call.run_congr hframe (session.after earlier).tree
  constructor
  case answer => exact hanswer
  case tree => exact htree
  case files => exact fun written first => written_run_congr hframe
  case frame => rw [session.after_concat, call.untyped_run, hframe]
  case shared =>
    intro contexts hcontexts later
    obtain ⟨hentities, hprepared⟩ := contexts?_run hcontexts
    have hlater := Session.after_prepared hprepared later
    rw [List.append_cons, session.after_append, session.after_concat, hlater, hentities]

end Angular

end EntityScaffold
