import EntityScaffold.Proofs.TypeScript.Code

/-!
# Reading blocks off printed lines

What a block holds can be read off lines as they are printed: it starts after the line that opens
the block and goes on as long as lines are empty or moved to the right. The opening line must not
stand before the block; lines of another block are no danger, as they are moved to the right.
-/

namespace EntityScaffold.TypeScript

theorem Line.text_cons (piece : Piece) (later : Line) :
    Line.text (piece :: later) = piece.text ++ Line.text later := by
  simp [Line.text]

namespace Code

/-! ## Lines as they are printed -/

/-- Lines of code as they are printed. -/
def texts (code : Code) : List String := code.map Line.text

@[simp] theorem texts_nil : texts [] = [] := rfl

@[simp] theorem texts_cons (line : Line) (later : Code) :
    texts (line :: later) = line.text :: texts later := rfl

@[simp] theorem texts_append (code later : Code) :
    (code ++ later : Code).texts = code.texts ++ later.texts := List.map_append

@[simp] theorem texts_lines (texts : List String) : (lines texts).texts = texts := by
  rw [Code.texts, lines, List.map_map]
  refine (List.map_congr_left fun text _ => ?_).trans (List.map_id _)
  by_cases hempty : text = ""
  · simp [hempty, Line.text]
  · simp [hempty, Line.text, Piece.text]

/-! ## Lines moved to the right -/

/-- Is a line empty or moved to the right? -/
def isInner (text : String) : Bool := text = "" || [' ', ' '].isPrefixOf text.toList

/-- A line moved back to the left by two columns. -/
def outdent (text : String) : String := String.ofList (text.toList.drop 2)

theorem text_indented (line : Line) :
    isInner (Line.text (if line.isEmpty then line else .plain "  " :: line)) = true ∧
      outdent (Line.text (if line.isEmpty then line else .plain "  " :: line)) = line.text := by
  cases line with
  | nil => exact ⟨rfl, rfl⟩
  | cons piece later =>
    rw [List.isEmpty_cons, if_neg (by simp), Line.text_cons]
    simp [isInner, outdent, Piece.text, List.isPrefixOf]

theorem isInner_of_mem_indent {code : Code} {text : String} (h : text ∈ (indent code).texts) :
    isInner text = true := by
  simp only [texts, indent, List.map_map] at h
  obtain ⟨line, -, rfl⟩ := List.mem_map.mp h
  exact (text_indented line).1

theorem map_outdent_indent (code : Code) : (indent code).texts.map outdent = code.texts := by
  simp only [texts, indent, List.map_map]
  exact List.map_congr_left fun line _ => (text_indented line).2

/-! ## Blocks -/

theorem texts_block (opening : String) (body : Code) (closing : String) :
    (block opening body closing).texts =
      (opening ++ "\x7b") :: ((indent body).texts ++ ["\x7d" ++ closing]) := by
  simp [block]

/-- A line that is not moved to the right is in a block only if it opens or closes it. -/
theorem mem_texts_block_iff {text : String} (h : isInner text = false) {opening : String}
    {body : Code} {closing : String} :
    text ∈ (block opening body closing).texts ↔
      text = opening ++ "\x7b" ∨ text = "\x7d" ++ closing := by
  have hbody : text ∉ (indent body).texts := by
    intro hmem
    rw [isInner_of_mem_indent hmem] at h
    cases h
  simp [texts_block, hbody]

/-- Moved lines are counted like the lines themselves by a test to which it is all the same how far
to the right a line stands. -/
theorem countP_texts_indent {test : String → Bool} (h : ∀ text, test ("  " ++ text) = test text)
    (code : Code) : (indent code).texts.countP test = code.texts.countP test := by
  simp only [texts, indent, List.map_map, List.countP_map]
  congr 1
  funext line
  cases line with
  | nil => rfl
  | cons piece later =>
    show test (Line.text (.plain "  " :: piece :: later)) = test (Line.text (piece :: later))
    rw [Line.text_cons (.plain "  ")]
    exact h _

theorem countP_texts_block {test : String → Bool} (h : ∀ text, test ("  " ++ text) = test text)
    (opening : String) (body : Code) (closing : String) :
    (block opening body closing).texts.countP test =
      [opening ++ "\x7b"].countP test + body.texts.countP test +
        ["\x7d" ++ closing].countP test := by
  rw [texts_block, ← List.singleton_append, List.countP_append, List.countP_append,
    countP_texts_indent h, Nat.add_assoc]

/-- A line without the blanks that it starts with. -/
def bare (text : String) : List Char := text.toList.dropWhile (· = ' ')

theorem bare_indented (text : String) : bare ("  " ++ text) = bare text := by
  simp [bare]

/-- The lines in the first block that a line opens, moved back to the left. -/
def inside (opening : String) (texts : List String) : List String :=
  (((texts.dropWhile (· ≠ opening ++ "\x7b")).drop 1).takeWhile isInner).map outdent

section

variable {opening text : String} {texts : List String}

/-- Lines before a block are passed over if none of them opens it. -/
theorem inside_append (h : opening ++ "\x7b" ∉ texts) (later : List String) :
    inside opening (texts ++ later) = inside opening later := by
  have hbefore : ∀ text ∈ texts, decide (text ≠ opening ++ "\x7b") = true := by
    intro text htext
    simpa using ne_of_mem_of_not_mem htext h
  rw [inside, List.dropWhile_append_of_pos hbefore, inside]

theorem inside_cons (h : opening ++ "\x7b" ≠ text) (later : List String) :
    inside opening (text :: later) = inside opening later := by
  show inside opening ([text] ++ later) = inside opening later
  exact inside_append (by simpa using h) later

/-- A block is read where it starts. -/
theorem inside_block (opening : String) (body : Code) (closing : String) (later : List String) :
    inside opening ((block opening body closing).texts ++ later) = body.texts := by
  have hclosing : isInner ("\x7d" ++ closing) = false := by
    simp [isInner, List.isPrefixOf]
  rw [texts_block, inside, List.cons_append, List.dropWhile_cons_of_neg (by simp), List.drop_one,
    List.tail_cons, List.append_assoc,
    List.takeWhile_append_of_pos fun text htext => isInner_of_mem_indent htext,
    List.singleton_append, List.takeWhile_cons_of_neg (by simp [hclosing]), List.append_nil,
    map_outdent_indent]

/-- A block that is the last thing is read in the same way. -/
theorem inside_last (opening : String) (body : Code) (closing : String) :
    inside opening (block opening body closing).texts = body.texts := by
  rw [← List.append_nil (block opening body closing).texts, inside_block]

/-- Another block is passed over. -/
theorem inside_other {other : String} {body : Code} {closing : String}
    (h : isInner (opening ++ "\x7b") = false ∧ opening ≠ other ∧
      opening ++ "\x7b" ≠ "\x7d" ++ closing) (later : List String) :
    inside opening ((block other body closing).texts ++ later) = inside opening later := by
  obtain ⟨houter, hopening, hclosing⟩ := h
  apply inside_append
  rw [mem_texts_block_iff houter, String.append_left_inj]
  exact not_or.mpr ⟨hopening, hclosing⟩

end

end Code

/-! ## How lines end -/

/-- A text ends in another one. -/
def EndsIn (tail text : String) : Prop := tail.toList <:+ text.toList

instance (tail text : String) : Decidable (EndsIn tail text) :=
  inferInstanceAs (Decidable (tail.toList <:+ text.toList))

theorem EndsIn.append {tail text : String} (h : EndsIn tail text) (before : String) :
    EndsIn tail (before ++ text) := by
  rw [EndsIn, String.toList_append]
  exact h.trans (List.suffix_append _ _)

/-- How a text ends can be told from its last piece, if this is long enough. -/
theorem not_endsIn_append {tail last : String}
    (h : tail.toList.length ≤ last.toList.length ∧ ¬EndsIn tail last) (before : String) :
    ¬EndsIn tail (before ++ last) := by
  rw [EndsIn, String.toList_append]
  intro hends
  exact h.2 (List.suffix_of_suffix_length_le hends (List.suffix_append _ _) h.1)

/-- It plays no part how far to the right a line stands, unless blanks are asked for. -/
theorem endsIn_indented {tail : String} {first : Char} (h : tail.toList.head? = some first)
    (hblank : first ≠ ' ') (text : String) : EndsIn tail ("  " ++ text) ↔ EndsIn tail text := by
  obtain ⟨later, htail⟩ := List.head?_eq_some_iff.mp h
  simp [EndsIn, htail, List.suffix_cons_iff, hblank]

/-! ## Imports -/

/-- The lines before the body of a file are empty or start with the word for an import. -/
theorem SourceFile.mem_texts_imports {imports : List (List Import)} {text : String}
    (h : text ∈ Code.texts (imports.flatMap fun group => group.map Import.line ++ [[]])) :
    text = "" ∨ ∃ rest, text = "import " ++ rest := by
  obtain ⟨line, hline, rfl⟩ := List.mem_map.mp h
  obtain ⟨group, -, hline⟩ := List.mem_flatMap.mp hline
  rcases List.mem_append.mp hline with hline | hline
  · obtain ⟨imported, -, rfl⟩ := List.mem_map.mp hline
    right
    cases imported with
    | symbols names specifier =>
      rw [Import.line, Line.text_cons, Piece.text, String.append_assoc, String.append_assoc]
      exact ⟨_, rfl⟩
    | default name specifier =>
      rw [Import.line, Line.text_cons, Piece.text]
      show ∃ rest, "import " ++ name ++ " from " ++ Line.text [.module specifier, .plain ";"] =
        "import " ++ rest
      rw [String.append_assoc, String.append_assoc]
      exact ⟨_, rfl⟩
  · rw [List.mem_singleton.mp hline]
    exact .inl rfl

/-- A block in the body of a file is read off the file, unless the line that opens it starts like an
import. -/
theorem SourceFile.inside_code {opening : String}
    (h : ∀ rest, opening ++ "\x7b" ≠ "import " ++ rest) (file : SourceFile) :
    Code.inside opening file.code.texts = Code.inside opening file.body.texts := by
  rw [code, Code.texts_append]
  apply Code.inside_append
  intro hmem
  rcases SourceFile.mem_texts_imports hmem with hempty | ⟨rest, hrest⟩
  · exact absurd hempty (by simp)
  · exact h rest hrest

end EntityScaffold.TypeScript
