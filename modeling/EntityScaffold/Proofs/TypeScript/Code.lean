import EntityScaffold.TypeScript.Code

/-!
# The files that code refers to

Modules and templates stand out in code as pieces of their own. Lines, blocks and indentation add
none, so the modules of a source file are those of its imports and those in its body, and a line
that imports something is in the file just if it is an import of the file or a line of the body.
-/

namespace EntityScaffold.TypeScript

attribute [simp] Piece.module? Piece.template?

namespace Code

/-! ## Pieces of a kind -/

/-- The files in code that a kind of piece names. -/
def named (kind : Piece → Option String) (code : Code) : List String :=
  code.flatMap fun line => line.filterMap kind

section

variable {kind : Piece → Option String}

theorem named_append (code later : Code) :
    (code ++ later : Code).named kind = code.named kind ++ later.named kind :=
  List.flatMap_append

variable (plain : ∀ text, kind (.plain text) = none)
include plain

theorem named_lines (texts : List String) : (lines texts).named kind = [] := by
  rw [named, List.flatMap_eq_nil_iff]
  intro line hline
  obtain ⟨text, -, rfl⟩ := List.mem_map.mp hline
  by_cases hempty : text = ""
  · simp [hempty]
  · simp [hempty, plain]

theorem named_indent (code : Code) : (indent code).named kind = code.named kind := by
  induction code with
  | nil => rfl
  | cons line later ih =>
    have hline : (if line.isEmpty then line else .plain "  " :: line).filterMap kind =
        line.filterMap kind := by
      split
      · rfl
      · rw [List.filterMap_cons_none (plain _)]
    simp only [named, indent, List.map_cons, List.flatMap_cons, hline] at ih ⊢
    rw [ih]

theorem named_block (opening : String) (body : Code) (closing : String) :
    (block opening body closing).named kind = body.named kind := by
  rw [block, named_append, named_append, named_lines plain, named_lines plain, named_indent plain,
    List.nil_append, List.append_nil]

end

/-! ## Modules and templates -/

@[simp] theorem modules_nil : modules [] = [] := rfl

@[simp] theorem modules_cons (line : Line) (later : Code) :
    modules (line :: later) = line.filterMap Piece.module? ++ modules later :=
  List.flatMap_cons

@[simp] theorem templates_nil : templates [] = [] := rfl

@[simp] theorem templates_cons (line : Line) (later : Code) :
    templates (line :: later) = line.filterMap Piece.template? ++ templates later :=
  List.flatMap_cons

@[simp] theorem modules_append (code later : Code) :
    (code ++ later : Code).modules = code.modules ++ later.modules := named_append code later

@[simp] theorem modules_lines (texts : List String) : (lines texts).modules = [] :=
  named_lines (fun _ => rfl) texts

@[simp] theorem modules_indent (code : Code) : (indent code).modules = code.modules :=
  named_indent (fun _ => rfl) code

@[simp] theorem modules_block (opening : String) (body : Code) (closing : String) :
    (block opening body closing).modules = body.modules :=
  named_block (fun _ => rfl) opening body closing

@[simp] theorem templates_append (code later : Code) :
    (code ++ later : Code).templates = code.templates ++ later.templates := named_append code later

@[simp] theorem templates_lines (texts : List String) : (lines texts).templates = [] :=
  named_lines (fun _ => rfl) texts

@[simp] theorem templates_indent (code : Code) : (indent code).templates = code.templates :=
  named_indent (fun _ => rfl) code

@[simp] theorem templates_block (opening : String) (body : Code) (closing : String) :
    (block opening body closing).templates = body.templates :=
  named_block (fun _ => rfl) opening body closing

theorem mem_modules_of_mem {code : Code} {line : Line} {specifier : String} (h : line ∈ code)
    (hpiece : Piece.module specifier ∈ line) : specifier ∈ code.modules :=
  List.mem_flatMap.mpr ⟨line, h, List.mem_filterMap.mpr ⟨_, hpiece, rfl⟩⟩

end Code

/-! ## Imports -/

theorem Import.filterMap_module_line (imported : Import) :
    imported.line.filterMap Piece.module? = [imported.specifier] := by
  cases imported <;> rfl

theorem Import.filterMap_template_line (imported : Import) :
    imported.line.filterMap Piece.template? = [] := by
  cases imported <;> rfl

theorem Import.module_mem_line (imported : Import) :
    Piece.module imported.specifier ∈ imported.line := by
  cases imported <;> simp [Import.line, Import.specifier]

/-- What a line imports can be told from it. -/
theorem Import.specifier_eq_of_line_eq {imported other : Import} (h : imported.line = other.line) :
    imported.specifier = other.specifier := by
  have hmodules := congrArg (List.filterMap Piece.module?) h
  rw [Import.filterMap_module_line, Import.filterMap_module_line] at hmodules
  exact List.singleton_inj.mp hmodules

/-- An import of one symbol can be told from its line. -/
theorem Import.symbols_line_inj {name name' specifier specifier' : String} :
    (Import.symbols [name] specifier).line = (Import.symbols [name'] specifier').line ↔
      name = name' ∧ specifier = specifier' := by
  constructor
  · intro h
    simp only [Import.line, List.cons.injEq, Piece.plain.injEq, Piece.module.injEq] at h
    obtain ⟨hname, hspecifier, -⟩ := h
    refine ⟨?_, hspecifier⟩
    rw [← String.toList_inj] at hname ⊢
    simpa [braced, String.intercalate_singleton] using hname
  · rintro ⟨rfl, rfl⟩
    rfl

namespace SourceFile

/-- The modules of a file: those of its imports, then those in its body. -/
theorem modules_code (file : SourceFile) :
    file.code.modules = file.imports.flatten.map Import.specifier ++ file.body.modules := by
  rw [code, Code.modules_append]
  congr 1
  induction file.imports with
  | nil => rfl
  | cons group later ih =>
    have hgroup : Code.modules (group.map Import.line) = group.map Import.specifier := by
      simp only [Code.modules, List.flatMap_map, Import.filterMap_module_line,
        ← List.map_eq_flatMap]
    rw [List.flatMap_cons, Code.modules_append, ih, Code.modules_append, hgroup, List.flatten_cons,
      List.map_append]
    simp [Code.modules]

/-- Imports name no templates. -/
theorem templates_code (file : SourceFile) : file.code.templates = file.body.templates := by
  have himports : Code.templates
      (file.imports.flatMap fun group => group.map Import.line ++ [[]]) = [] := by
    rw [Code.templates, List.flatMap_eq_nil_iff]
    intro line hline
    obtain ⟨group, -, hline⟩ := List.mem_flatMap.mp hline
    rcases List.mem_append.mp hline with hline | hline
    · obtain ⟨imported, -, rfl⟩ := List.mem_map.mp hline
      exact imported.filterMap_template_line
    · rw [List.mem_singleton.mp hline]
      rfl
  rw [code, Code.templates_append, himports, List.nil_append]

/-- A line that imports is an import of the file, if there is no module in the body. -/
theorem line_mem_code_iff {file : SourceFile} (hbody : file.body.modules = []) (imported : Import) :
    imported.line ∈ file.code ↔ imported.line ∈ file.imports.flatten.map Import.line := by
  have hline := imported.module_mem_line
  have hother : imported.line ∉ file.body := by
    intro hmem
    have hmodule := Code.mem_modules_of_mem hmem hline
    rw [hbody] at hmodule
    exact absurd hmodule List.not_mem_nil
  have hne : imported.line ≠ [] := List.ne_nil_of_mem hline
  simp only [code, List.mem_append, List.mem_flatMap, List.mem_singleton, hother, hne, or_false,
    List.mem_map, List.mem_flatten]
  constructor
  · rintro ⟨group, hgroup, other, hmem, hsame⟩
    exact ⟨other, ⟨group, hgroup, hmem⟩, hsame⟩
  · rintro ⟨other, ⟨group, hgroup, hmem⟩, hsame⟩
    exact ⟨group, hgroup, other, hmem, hsame⟩

end SourceFile

end EntityScaffold.TypeScript
