import EntityScaffold.Angular.Application
import EntityScaffold.Document.Parse
import EntityScaffold.Proofs.Angular.Symbols
import EntityScaffold.Proofs.Generation.Context
import EntityScaffold.Proofs.TypeScript.Code

/-!
# What the file of an interface imports

The types that an interface file imports are collected with each kept once, and the collecting does
not tell names apart that differ in case only: of these the first stays. So the enumeration of a
field is imported just if it is the first of the enumerations of fields that are spelled like it up
to case. An entity at the other end of a relationship is imported just if an entity with its kebab
case is the first of the other ends spelled like that; both then have one symbol and one module.
-/

namespace EntityScaffold.Angular

open Document Generation Naming TypeScript

/-! ## Imports of an interface -/

/-- The import of an enumeration. -/
def enumImport (name : String) : Import := .symbols [name] (enumModule name)

/-- The import of the interface of an entity. -/
def entityImport (name : String) : Import := .symbols ["I" ++ pascal name] (entityModule name)

/-- The types of fields that are told to be of an enumeration, in order. -/
def flaggedTypes (context : Context) : List String :=
  (context.fields.filter Field.isEnum).map Field.type

/-- The entities, other than it, at the other ends of the relationships of an entity, in order. -/
def otherEnds (relationships : List Relationship) (entity : String) : List String :=
  ((relationships.filter fun relationship => relationship.source.entity = entity).map
    fun relationship => relationship.target.entity).filter fun other => other ≠ entity

theorem relatedEntities_of (style : PluralStyle) (relationships : List Relationship)
    (entity : Entity) :
    Interface.relatedEntities (.of style relationships entity) =
      distinctBy id [] (otherEnds relationships entity.name) := by
  rw [Interface.relatedEntities, Context.of, otherEnds]
  congr 1
  simp only [viewsFrom, List.filter_map, List.map_map]
  rfl

/-- A line that imports is in the file of an interface if it imports dates, an enumeration of the
fields or an entity at another end. -/
theorem line_mem_interface_iff (context : Context) (imported : Import) :
    imported.line ∈ (Interface.ofContext context).file.code ↔
      (∃ dates ∈ dateImports context, dates.line = imported.line) ∨
      (∃ name ∈ enumTypes context, (enumImport name).line = imported.line) ∨
      ∃ name ∈ Interface.relatedEntities context, (entityImport name).line = imported.line := by
  have hbody : (Interface.ofContext context).file.body.modules = [] := by
    have hmembers : Code.modules ((Interface.ofContext context).members.map Member.line) = [] := by
      simp [Code.modules, Member.line, Piece.module?]
    simp [Interface.file, hmembers]
  rw [SourceFile.line_mem_code_iff hbody]
  simp [Interface.file, Interface.ofContext, enumImports, enumImport, entityImport,
    List.flatten]

theorem dateImports_line_ne {context : Context} {dates imported : Import}
    (hdates : dates ∈ dateImports context) (himported : imported.specifier ≠ "dayjs/esm") :
    dates.line ≠ imported.line := by
  intro hline
  rw [← Import.specifier_eq_of_line_eq hline] at himported
  unfold dateImports at hdates
  split at hdates
  · exact absurd hdates List.not_mem_nil
  · rw [List.mem_singleton.mp hdates] at himported
    exact himported rfl

theorem enumImport_mem_iff (context : Context) (name : String) :
    (enumImport name).line ∈ (Interface.ofContext context).file.code ↔
      IsFirstSpelling (flaggedTypes context) name := by
  rw [line_mem_interface_iff, ← mem_distinctBy_id]
  constructor
  · rintro (⟨dates, hdates, hline⟩ | ⟨other, hother, hline⟩ | ⟨other, -, hline⟩)
    · exact absurd hline (dateImports_line_ne hdates
        (by simp [enumImport, Import.specifier, enumModule_eq, ← String.toList_inj]))
    · obtain ⟨rfl, -⟩ := Import.symbols_line_inj.mp hline
      exact hother
    · exact absurd (Import.specifier_eq_of_line_eq hline) (enumModule_ne_entityModule _ _).symm
  · intro hname
    exact .inr (.inl ⟨name, hname, rfl⟩)

theorem entityImport_mem_iff (style : PluralStyle) (relationships : List Relationship)
    (entity : Entity) (name : String) :
    (entityImport name).line ∈
        (Interface.ofContext (.of style relationships entity)).file.code ↔
      ∃ other, IsFirstSpelling (otherEnds relationships entity.name) other ∧
        kebab other = kebab name := by
  rw [line_mem_interface_iff, relatedEntities_of]
  simp only [mem_distinctBy_id]
  constructor
  · rintro (⟨dates, hdates, hline⟩ | ⟨other, -, hline⟩ | ⟨other, hother, hline⟩)
    · exact absurd hline (dateImports_line_ne hdates
        (by simp [entityImport, Import.specifier, entityModule_eq, ← String.toList_inj]))
    · exact absurd (Import.specifier_eq_of_line_eq hline) (enumModule_ne_entityModule _ _)
    · exact ⟨other, hother, entityModule_inj.mp (Import.specifier_eq_of_line_eq hline)⟩
  · rintro ⟨other, hother, hkebab⟩
    refine .inr (.inr ⟨other, hother, ?_⟩)
    exact Import.symbols_line_inj.mpr
      ⟨by rw [pascal_eq_of_kebab_eq hkebab], entityModule_inj.mpr hkebab⟩

/-- **Imports.** In the file of the interface that is written for a context, the enumeration of a
listed field is imported just if no enumeration of a field before is spelled like it up to case. An
entity at another end is imported just if one with its kebab case is the first of the other ends
that are spelled like that. -/
theorem interface_imports_iff {style : PluralStyle} {strict : Bool} {model : Model}
    {contexts : List Context} (h : (entityContexts style strict model).outcome = .ok contexts)
    {context : Context} (hcontext : context ∈ contexts) (output : Path) (apiBaseUrl : String) :
    ∃ file, ⟨(entityFolder output context.entity.name).enter
        s!"{kebab context.entity.name}.model.ts", .source file⟩ ∈
          entityFiles output apiBaseUrl context ∧
      (∀ field ∈ listedFields context, field.isEnum = true →
        ((enumImport field.type).line ∈ file.code ↔
          IsFirstSpelling (flaggedTypes context) field.type)) ∧
      ∀ relationship ∈ model.relationships, relationship.source.entity = context.entity.name →
        relationship.target.entity ≠ context.entity.name →
        ((entityImport relationship.target.entity).line ∈ file.code ↔
          ∃ other, IsFirstSpelling (otherEnds model.relationships context.entity.name) other ∧
            kebab other = kebab relationship.target.entity) := by
  rw [contexts_eq_of_outcome h] at hcontext
  obtain ⟨entity, -, rfl⟩ := List.mem_map.mp hcontext
  refine ⟨_, List.mem_cons_self, ?_, ?_⟩
  · intro field _ _
    exact enumImport_mem_iff _ field.type
  · intro relationship _ _ _
    exact entityImport_mem_iff _ _ _ _

/-- An order with a status and a customer imports the types of both. -/
theorem interface_imports_of_order :
    let text := "enum Status \x7b OPEN \x7d\nentity Order \x7b\n  status Status\n\x7d\n" ++
      "entity Customer \x7b\n  name String\n\x7d\n" ++
      "relationship ManyToOne \x7b Order to Customer \x7d"
    ∃ model contexts, (parse true text).outcome = .ok model ∧
      (entityContexts .naive true model).outcome = .ok contexts ∧
      ∃ context ∈ contexts, context.entity.name = "Order" ∧ ∃ file,
        ⟨(entityFolder (.ofString "out") context.entity.name).enter
          s!"{kebab context.entity.name}.model.ts", .source file⟩ ∈
            entityFiles (.ofString "out") "/api/" context ∧
        (enumImport "Status").line ∈ file.code ∧ (entityImport "Customer").line ∈ file.code := by
  intro text
  let status : Field := ⟨"status", "Status", true, [], none, none⟩
  let order : Entity := ⟨"Order", [status], .none⟩
  let customer : Entity := ⟨"Customer", [.plain "name" "String"], .none⟩
  let buyer : Relationship := ⟨.manyToOne, ⟨"Order", none⟩, ⟨"Customer", none⟩⟩
  have hparts : ((parse true text).value?.bind fun model =>
      (entityContexts .naive true model).value?.map fun contexts =>
        (model.relationships, contexts)) =
      some ([buyer], [order, customer].map (.of .naive [buyer])) := by
    decide +kernel
  obtain ⟨model, hmodel, hparts⟩ := Option.bind_eq_some_iff.mp hparts
  obtain ⟨contexts, hcontexts, hparts⟩ := Option.map_eq_some_iff.mp hparts
  obtain ⟨hrelationships, rfl⟩ := Prod.mk.inj hparts
  rw [Report.value?_eq_some_iff] at hmodel hcontexts
  obtain ⟨file, hfile, henum, hentity⟩ :=
    interface_imports_iff hcontexts List.mem_cons_self (.ofString "out") "/api/"
  rw [hrelationships] at hentity
  refine ⟨model, _, hmodel, hcontexts, _, List.mem_cons_self, rfl, file, hfile, ?_, ?_⟩
  · exact (henum (attachType status) (by decide +kernel) rfl).mpr (by decide +kernel)
  · exact (hentity buyer (List.mem_singleton_self _) rfl (by decide)).mpr
      ⟨"Customer", by decide +kernel, rfl⟩

/-- Of two entities at other ends whose names differ in case only, one is not imported, although
their interfaces have different names and stand in different files. -/
theorem interface_imports_of_spellings :
    ∃ model contexts, (parse true ("entity A \x7b\n  x String\n\x7d\n" ++
        "entity orderItem \x7b\n  x String\n\x7d\nentity Orderitem \x7b\n  x String\n\x7d\n" ++
        "relationship OneToMany \x7b A(p) to orderItem \x7d\n" ++
        "relationship OneToMany \x7b A(q) to Orderitem \x7d")).outcome = .ok model ∧
      (entityContexts .naive true model).outcome = .ok contexts ∧
      ∃ context ∈ contexts, ∃ relationship ∈ model.relationships,
        relationship.source.entity = context.entity.name ∧
        relationship.target.entity ≠ context.entity.name ∧
        (entityImport relationship.target.entity).line ∉
          (Interface.ofContext context).file.code := by
  let first : Relationship := ⟨.oneToMany, ⟨"A", some "p"⟩, ⟨"orderItem", none⟩⟩
  let second : Relationship := ⟨.oneToMany, ⟨"A", some "q"⟩, ⟨"Orderitem", none⟩⟩
  let entity (name : String) : Entity := ⟨name, [.plain "x" "String"], .none⟩
  have hparts : ((parse true ("entity A \x7b\n  x String\n\x7d\n" ++
        "entity orderItem \x7b\n  x String\n\x7d\nentity Orderitem \x7b\n  x String\n\x7d\n" ++
        "relationship OneToMany \x7b A(p) to orderItem \x7d\n" ++
        "relationship OneToMany \x7b A(q) to Orderitem \x7d")).value?.bind fun model =>
      (entityContexts .naive true model).value?.map fun contexts =>
        (model.relationships, contexts)) =
      some ([first, second], ["A", "orderItem", "Orderitem"].map fun name =>
        .of .naive [first, second] (entity name)) := by
    decide +kernel
  obtain ⟨model, hmodel, hparts⟩ := Option.bind_eq_some_iff.mp hparts
  obtain ⟨contexts, hcontexts, hparts⟩ := Option.map_eq_some_iff.mp hparts
  obtain ⟨hrelationships, rfl⟩ := Prod.mk.inj hparts
  rw [Report.value?_eq_some_iff] at hmodel hcontexts
  refine ⟨model, _, hmodel, hcontexts, _, List.mem_cons_self, second, ?_, rfl, by decide,
    by decide +kernel⟩
  rw [hrelationships]
  exact List.mem_cons_of_mem _ (List.mem_singleton_self _)

end EntityScaffold.Angular
