import EntityScaffold.Generation.Assembly
import EntityScaffold.Proofs.Generation.Context
import EntityScaffold.Proofs.Model.Registry

/-!
# Making contexts loses nothing

Contexts that are made in a model are those that are made of its value (`assemble_eq`): an entity is
touched before its context is made and never again. What they hold is then told for all of them at
once (`Assembled`): every relationship with a declared source is seen by one context as often as it
is declared, every field is in its context or was said to be left out, and the model has got the
types of its fields and is otherwise what it was.
-/

namespace EntityScaffold

/-! ## A model without the types of its fields -/

/-- A field that is not prepared for generation. -/
def Field.untyped (field : Field) : Field := { field with tsType := none }

/-- An entity that is not prepared for generation. -/
def Entity.untyped (entity : Entity) : Entity :=
  { entity with fields := entity.fields.map Field.untyped }

/-- A model that is not prepared for generation. -/
def Model.untyped (model : Model) : Model :=
  { model with entities := model.entities.update Entity.untyped fun _ => rfl }

namespace Generation

open Naming

theorem attachTypes_untyped (entity : Entity) :
    attachTypes entity.untyped = attachTypes entity := by
  simp [attachTypes, Entity.untyped, attachType, Field.untyped]

theorem untyped_attachTypes (entity : Entity) : (attachTypes entity).untyped = entity.untyped := by
  simp [attachTypes, Entity.untyped, attachType, Field.untyped]

theorem attachTypes_attachTypes (entity : Entity) :
    attachTypes (attachTypes entity) = attachTypes entity := by
  simp [attachTypes, attachType]

theorem untyped_prepare (model : Model) : (prepare model).untyped = model.untyped := by
  have hentities : (prepare model).untyped.entities = model.untyped.entities :=
    model.entities.update_update untyped_attachTypes (fun _ => rfl) (fun _ => rfl) fun _ => rfl
  show { model with entities := (prepare model).untyped.entities } = model.untyped
  rw [hentities]
  rfl

/-- Fields that have their types get the same ones again. -/
theorem prepare_prepare (model : Model) : prepare (prepare model) = prepare model := by
  have hentities : (prepare (prepare model)).entities = (prepare model).entities :=
    model.entities.update_update attachTypes_attachTypes (fun _ => rfl) (fun _ => rfl) fun _ => rfl
  show { model with entities := (prepare (prepare model)).entities } = prepare model
  rw [hentities]
  rfl

/-! ## In the model and of its value -/

theorem fst_assembleEntities {ε : Type} (style : PluralStyle) (entities : List Entity)
    (model : Model) :
    (assembleEntities style entities model : Report ε (List Context) × Model).1 =
      contextsOf style model.relationships entities := by
  induction entities generalizing model with
  | nil => rfl
  | cons entity later ih =>
    rw [assembleEntities, contextsOf]
    dsimp only
    rw [ih]
    rfl

/-- Entities at the end of a model get the types of their fields where they stand. -/
theorem snd_assembleEntities {ε : Type} (style : PluralStyle) {before later : List Entity}
    {model : Model} (h : model.entities.items = before ++ later) :
    ∃ entities : Registry Entity, entities.items = before ++ later.map attachTypes ∧
      (assembleEntities style later model : Report ε (List Context) × Model).2 =
        { model with entities := entities } := by
  induction later generalizing before model with
  | nil => exact ⟨model.entities, h, rfl⟩
  | cons entity later ih =>
    have hput : (model.putEntity (attachTypes entity)).entities.items =
        before ++ attachTypes entity :: later := by
      have htaken : Named.name (attachTypes entity) ∈ model.entities.items.map Named.name := by
        rw [h]
        exact List.mem_map.mpr ⟨entity, by simp, rfl⟩
      have hdistinct := model.entities.distinct
      rw [h] at hdistinct
      rw [Model.putEntity, Registry.items_put, if_pos htaken, h]
      exact replaceIn_append_cons rfl hdistinct
    have hdone : (model.putEntity (attachTypes entity)).entities.items =
        (before ++ [attachTypes entity]) ++ later := by
      rw [hput, List.append_assoc, List.singleton_append]
    obtain ⟨entities, hitems, hafter⟩ := ih hdone
    refine ⟨entities, by rw [hitems]; simp, ?_⟩
    rw [assembleEntities]
    exact hafter

/-- With all its entities in a row a model is prepared. -/
theorem snd_assembleEntities_items {ε : Type} (style : PluralStyle) (model : Model) :
    (assembleEntities style model.entities.items model : Report ε (List Context) × Model).2 =
      prepare model := by
  obtain ⟨entities, hitems, hafter⟩ : ∃ entities : Registry Entity,
      entities.items = [] ++ model.entities.items.map attachTypes ∧
        (assembleEntities style model.entities.items model : Report ε (List Context) × Model).2 =
          { model with entities := entities } := snd_assembleEntities style rfl
  have hentities : entities = (prepare model).entities := Registry.eq_of_items hitems
  rw [hafter, hentities]
  rfl

/-- Contexts that are made in a model are those of its value, and so is what is said. -/
theorem assemble_eq (style : PluralStyle) (strict : Bool) (model : Model) :
    assemble style strict model = (entityContexts style strict model,
      afterContexts (entityContexts style strict model) model) := by
  unfold assemble entityContexts
  rw [Report.bind_eq_andThen]
  cases hdangling :
      (danglingReferences model.entities.names strict model.relationships).outcome with
  | error fault => simp [Report.andThen, hdangling, afterContexts]
  | ok dangling =>
    have houtcome : ((danglingReferences model.entities.names strict model.relationships).andThen
        fun _ => contextsOf style model.relationships model.entities.items).outcome =
        .ok (model.entities.items.map (.of style model.relationships)) :=
      (Report.outcome_andThen_of_ok hdangling).trans (outcome_contextsOf _ _ _)
    dsimp only
    rw [fst_assembleEntities, snd_assembleEntities_items, hdangling, afterContexts, houtcome]
    rfl

section

variable {style : PluralStyle} {strict : Bool} {model : Model} {contexts : List Context}

theorem afterContexts_of_ok (h : (entityContexts style strict model).outcome = .ok contexts) :
    afterContexts (entityContexts style strict model) model = prepare model := by
  rw [afterContexts, h]

/-- A context holds the entity that stands in the prepared model. -/
theorem map_entity_contexts (h : (entityContexts style strict model).outcome = .ok contexts) :
    contexts.map Context.entity = (prepare model).entities.items := by
  rw [contexts_eq_of_outcome h, List.map_map]
  rfl

end

/-! ## What is said -/

/-- What is said of a context: which fields of its entity give way to a relationship property. -/
def shadowedNotes (context : Context) : List Note :=
  (context.entity.fields.filter fun field =>
    field.name ∈ context.views.map View.property).map fun field =>
      .shadowedField context.entity.name field.name

/-- What is said of the relationships of a model: which of them have an end that is not declared. -/
def danglingNotes (model : Model) : List Note :=
  model.relationships.filterMap fun relationship =>
    (missingEnd? model.entities.names relationship).map (.danglingReference relationship)

theorem any_property_iff (views : List View) (name : String) :
    (views.any fun view => view.property = name) = true ↔ name ∈ views.map View.property := by
  simp

theorem notes_visibleFields {ε : Type} (entity : String) (views : List View)
    (fields : List Field) :
    (visibleFields entity views fields : Report ε (List Field)).notes =
      (fields.filter fun field => field.name ∈ views.map View.property).map fun field =>
        .shadowedField entity field.name := by
  induction fields with
  | nil => rfl
  | cons field later ih =>
    have htaken := any_property_iff views field.name
    rw [visibleFields]
    by_cases h : field.name ∈ views.map View.property
    · rw [if_pos (htaken.mpr h), List.filter_cons_of_pos (by simpa using h), List.map_cons, ← ih]
      rfl
    · rw [if_neg (mt htaken.mp h), List.filter_cons_of_neg (by simpa using h), ← ih,
        Report.bind_eq_andThen, Report.notes_andThen_of_ok (outcome_visibleFields _ _ _)]
      exact List.append_nil _

theorem notes_contextOf {ε : Type} (style : PluralStyle) (relationships : List Relationship)
    (entity : Entity) :
    (contextOf style relationships entity : Report ε Context).notes =
      shadowedNotes (.of style relationships entity) := by
  rw [contextOf, Report.bind_eq_andThen, Report.notes_andThen_of_ok (outcome_visibleFields _ _ _),
    notes_visibleFields]
  exact List.append_nil _

theorem notes_contextsOf {ε : Type} (style : PluralStyle) (relationships : List Relationship)
    (entities : List Entity) :
    (contextsOf style relationships entities : Report ε (List Context)).notes =
      (entities.map (.of style relationships)).flatMap shadowedNotes := by
  induction entities with
  | nil => rfl
  | cons entity later ih =>
    rw [contextsOf, Report.bind_eq_andThen, Report.notes_andThen_of_ok (outcome_contextOf _ _ _),
      Report.bind_eq_andThen, Report.notes_andThen_of_ok (outcome_contextsOf _ _ _),
      notes_contextOf, ih, List.map_cons, List.flatMap_cons]
    exact congrArg (_ ++ ·) (List.append_nil _)

theorem map_danglingNote (known : List String) (relationships : List Relationship) :
    (danglingAmong known relationships).map (danglingNote known) =
      relationships.filterMap fun relationship =>
        (missingEnd? known relationship).map (.danglingReference relationship) := by
  induction relationships with
  | nil => rfl
  | cons relationship later ih =>
    by_cases h : Dangles known relationship
    · rw [danglingAmong_cons_of_dangles h, List.map_cons, ih]
      simp [missingEnd?_eq, h, danglingNote]
    · rw [danglingAmong_cons_of_not h, ih]
      simp [missingEnd?_eq, h]

/-- A check of relationships that ends with a value has noted each one with a missing end. -/
theorem notes_danglingReferences {known : List String} {strict : Bool}
    {relationships dangling : List Relationship}
    (h : (danglingReferences known strict relationships).outcome = .ok dangling) :
    (danglingReferences known strict relationships).notes =
      relationships.filterMap fun relationship =>
        (missingEnd? known relationship).map (.danglingReference relationship) := by
  rw [← map_danglingNote]
  cases strict with
  | false => rw [danglingReferences_lenient]
  | true =>
    obtain ⟨hnone, -⟩ := (outcome_danglingReferences_strict_iff _ _ _).mp h
    rw [danglingReferences_strict, hnone]
    rfl

/-! ## What contexts hold -/

/-- The relationships that contexts see, each as often as a view shows it. -/
def seenRelationships (contexts : List Context) : List Relationship :=
  contexts.flatMap fun context => context.views.map View.relationship

theorem map_relationship_viewsFrom (style : PluralStyle) (entity : String)
    (relationships : List Relationship) :
    (viewsFrom style entity relationships).map View.relationship =
      relationships.filter fun relationship => relationship.source.entity = entity := by
  rw [viewsFrom, List.map_map]
  exact List.map_id _

/-- A relationship is among those that start at an entity as often as it is declared, or not at
all. -/
theorem count_filter_source (relationship : Relationship) (entity : String)
    (relationships : List Relationship) :
    (relationships.filter fun other => other.source.entity = entity).count relationship =
      if relationship.source.entity = entity then relationships.count relationship else 0 := by
  by_cases h : relationship.source.entity = entity
  · rw [if_pos h, List.count_filter (by simpa using h)]
  · rw [if_neg h, List.count_eq_zero]
    intro hmem
    exact h (of_decide_eq_true (List.mem_filter.mp hmem).2)

/-- Among distinct entities one at most is where a relationship starts, so it is seen as often as it
is declared. -/
theorem count_seenRelationships (style : PluralStyle) (relationships : List Relationship)
    {entities : List Entity} (h : (entities.map Entity.name).Nodup) (relationship : Relationship) :
    (seenRelationships (entities.map (.of style relationships))).count relationship =
      if relationship.source.entity ∈ entities.map Entity.name
        then relationships.count relationship else 0 := by
  induction entities with
  | nil => rfl
  | cons entity later ih =>
    rw [List.map_cons, List.nodup_cons] at h
    obtain ⟨hnew, hlater⟩ := h
    have hfirst : (Context.of style relationships entity).views.map View.relationship =
        relationships.filter fun relationship => relationship.source.entity = entity.name :=
      map_relationship_viewsFrom style entity.name relationships
    rw [seenRelationships] at ih ⊢
    rw [List.map_cons, List.flatMap_cons, List.count_append, ih hlater, hfirst,
      count_filter_source]
    by_cases hsource : relationship.source.entity = entity.name
    · rw [if_pos hsource, if_neg (by rwa [hsource]), if_pos (by simp [hsource]), Nat.add_zero]
    · simp [hsource]

/-- What is left when contexts have been made: the contexts, what was said, and the model
afterwards. -/
structure Assembled (style : PluralStyle) (model : Model) (contexts : List Context)
    (notes : List Note) (after : Model) : Prop where
  /-- There is one context for each entity, in order. -/
  names : contexts.map (fun context => context.entity.name) = model.entities.names
  /-- It holds the entity that stands in the model afterwards. -/
  entities : contexts.map Context.entity = after.entities.items
  /-- It sees the relationships that start at its entity, in order. -/
  views : ∀ context ∈ contexts, context.views =
    (model.relationships.filter fun relationship =>
      relationship.source.entity = context.entity.name).map (.ofRelationship style)
  /-- A relationship is seen as often as it is declared, if its source is declared. -/
  seen : ∀ relationship, (seenRelationships contexts).count relationship =
    if relationship.source.entity ∈ model.entities.names
      then model.relationships.count relationship else 0
  /-- The fields are those that no relationship property takes the place of. -/
  fields : ∀ context ∈ contexts, context.fields =
    context.entity.fields.filter fun field => field.name ∉ context.views.map View.property
  /-- The others were noted, after the relationships with ends that are not declared. -/
  said : notes = danglingNotes model ++ contexts.flatMap shadowedNotes
  /-- All of that are warnings. -/
  warnings : ∀ note ∈ notes, note.record.level = .warning
  /-- Every field has the type that its declared type stands for. -/
  typed : ∀ entity ∈ after.entities.items, ∀ field ∈ entity.fields,
    field.tsType = some (TypeScript.typeOf field.type)
  /-- Nothing else has changed. -/
  frame : after.untyped = model.untyped

theorem level_danglingNotes {model : Model} {note : Note} (h : note ∈ danglingNotes model) :
    note.record.level = .warning := by
  obtain ⟨relationship, -, hnote⟩ := List.mem_filterMap.mp h
  obtain ⟨missing, -, rfl⟩ := Option.map_eq_some_iff.mp hnote
  rfl

theorem level_shadowedNotes {context : Context} {note : Note} (h : note ∈ shadowedNotes context) :
    note.record.level = .warning := by
  obtain ⟨field, -, rfl⟩ := List.mem_map.mp h
  rfl

/-- **Assembly.** Contexts that are made in a model lose nothing and double nothing: each entity has
one, each relationship with a declared source is seen as often as it is declared and no other is,
each field is listed or was said to be left out, and the model has got the types of its fields and
is otherwise the same. -/
theorem assembled_of_outcome {style : PluralStyle} {strict : Bool} {model : Model}
    {contexts : List Context} (h : (assemble style strict model).1.outcome = .ok contexts) :
    Assembled style model contexts (assemble style strict model).1.notes
      (assemble style strict model).2 := by
  rw [assemble_eq] at h ⊢
  dsimp only at h ⊢
  have hcontexts := contexts_eq_of_outcome h
  obtain ⟨dangling, hdangling, -⟩ := Report.exists_of_andThen_ok h
  have hnotes : (entityContexts style strict model).notes =
      danglingNotes model ++ contexts.flatMap shadowedNotes := by
    rw [entityContexts, Report.bind_eq_andThen, Report.notes_andThen_of_ok hdangling,
      notes_danglingReferences hdangling, notes_contextsOf, hcontexts, danglingNotes]
  have hof : ∀ context ∈ contexts, ∃ entity, .of style model.relationships entity = context := by
    intro context hcontext
    rw [hcontexts] at hcontext
    obtain ⟨entity, -, hof⟩ := List.mem_map.mp hcontext
    exact ⟨entity, hof⟩
  rw [afterContexts_of_ok h]
  constructor
  case names =>
    rw [hcontexts, List.map_map]
    rfl
  case entities => exact map_entity_contexts h
  case views =>
    intro context hcontext
    obtain ⟨entity, rfl⟩ := hof context hcontext
    rfl
  case seen =>
    intro relationship
    rw [hcontexts]
    exact count_seenRelationships style model.relationships model.entities.distinct relationship
  case fields =>
    intro context hcontext
    obtain ⟨entity, rfl⟩ := hof context hcontext
    apply List.filter_congr
    intro field _
    rw [Bool.eq_iff_iff, Bool.not_eq_true', ← Bool.not_eq_true, any_property_iff,
      decide_eq_true_iff]
    rfl
  case said => exact hnotes
  case warnings =>
    intro note hnote
    rw [hnotes] at hnote
    rcases List.mem_append.mp hnote with hnote | hnote
    · exact level_danglingNotes hnote
    · obtain ⟨context, -, hnote⟩ := List.mem_flatMap.mp hnote
      exact level_shadowedNotes hnote
  case typed =>
    intro entity hentity field hfield
    obtain ⟨declared, -, rfl⟩ := List.mem_map.mp hentity
    obtain ⟨before, -, rfl⟩ := List.mem_map.mp hfield
    rfl
  case frame => exact untyped_prepare model

/-- A person whose spouse is declared twice, the second time under the name of a field, and a
relationship whose source is not declared. -/
theorem assembled_of_spouses :
    let person : Entity := ⟨"Person", [.plain "name" "String", .plain "spouse" "UUID"], .none⟩
    let spouse : Relationship := ⟨.oneToOne, ⟨"Person", some "spouse"⟩, ⟨"Person", none⟩⟩
    let owner : Relationship := ⟨.manyToOne, ⟨"Pet", none⟩, ⟨"Person", none⟩⟩
    let model : Model := ⟨.ofList [person], .empty, [spouse, owner, spouse], none⟩
    ∃ contexts, (assemble .naive false model).1.outcome = .ok contexts ∧
      (seenRelationships contexts).count spouse = 2 ∧
      (seenRelationships contexts).count owner = 0 ∧
      (assemble .naive false model).1.notes =
        [.danglingReference owner "Pet", .shadowedField "Person" "spouse"] ∧
      (assemble .naive false model).2.untyped = model.untyped := by
  intro person spouse owner model
  have houtcome : (assemble .naive false model).1.outcome =
      .ok [.of .naive [spouse, owner, spouse] person] := by
    rfl
  have hassembled := assembled_of_outcome houtcome
  refine ⟨_, houtcome, ?_, ?_, ?_, hassembled.frame⟩
  · rw [hassembled.seen]
    decide
  · rw [hassembled.seen]
    decide
  · rw [hassembled.said]
    decide

end Generation

end EntityScaffold
