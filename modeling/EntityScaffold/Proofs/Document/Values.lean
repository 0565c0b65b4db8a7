import EntityScaffold.Document.Body
import EntityScaffold.Proofs.Document.Grammar
import EntityScaffold.Proofs.Text.Pattern

/-!
# What the body of an enumeration names

The values of an enumeration are read piece by piece between the commas, and the blanks around the
body do not matter (`valuesOf_eq`). So parts with commas between them are read one by one
(`valuesOf_append_comma`, `valuesOf_intercalate`). A piece names what stands before its first
opening parenthesis, trimmed (`valueOf_eq`); what can be named in this way is a value (`IsValue`),
and values are read back from a body that has them in a row (`values_compose`).
-/

namespace EntityScaffold.Document

open Text

/-! ## Pieces -/

theorem not_mem_of_isBlank {gap : List Char} (h : ∀ c ∈ gap, isBlank c = true) {c : Char}
    (hc : isBlank c = false) : c ∉ gap := by
  intro hmem
  rw [h c hmem] at hc
  exact absurd hc (by simp)

/-- Blanks around a piece do not matter to its value. -/
theorem valueOf_append_of_blank {gap gap' : List Char} (h : ∀ c ∈ gap, isBlank c = true)
    (h' : ∀ c ∈ gap', isBlank c = true) (piece : List Char) :
    valueOf (gap ++ piece ++ gap') = valueOf piece := by
  unfold valueOf
  rw [trim_append_of_blank h h']

theorem valueOf_append_of_blank_left {gap : List Char} (h : ∀ c ∈ gap, isBlank c = true)
    (piece : List Char) : valueOf (gap ++ piece) = valueOf piece := by
  unfold valueOf
  rw [trim_append_of_blank_left h]

/-- Blanks around a body do not matter to what its pieces name. The first piece takes those before
the body, the last one those after it. -/
theorem map_valueOf_splitOn_append_of_blank {gap gap' : List Char}
    (h : ∀ c ∈ gap, isBlank c = true) (h' : ∀ c ∈ gap', isBlank c = true) (body : List Char) :
    ((gap ++ body ++ gap').splitOn ',').map valueOf = (body.splitOn ',').map valueOf := by
  have hcomma : isBlank ',' = false := by decide
  have hnil : ∀ c ∈ ([] : List Char), isBlank c = true := by simp
  induction hlength : body.length using Nat.strong_induction_on generalizing gap body with
  | _ length ih =>
    by_cases hmem : ',' ∈ body
    · -- the first piece takes the blanks before the body, and the later ones have none before them
      obtain ⟨piece, later, rfl, hpiece⟩ := List.eq_append_cons_of_mem hmem
      have hfirst : ',' ∉ gap ++ piece := by
        rw [List.mem_append, not_or]
        exact ⟨not_mem_of_isBlank h hcomma, hpiece⟩
      have hshorter : later.length < length := by
        rw [← hlength, List.length_append, List.length_cons]
        omega
      have hrest := ih later.length hshorter hnil later rfl
      rw [List.nil_append] at hrest
      rw [← List.append_assoc, List.append_assoc (gap ++ piece), List.cons_append,
        List.splitOn_append_cons_self_of_not_mem hfirst,
        List.splitOn_append_cons_self_of_not_mem hpiece, List.map_cons, List.map_cons,
        valueOf_append_of_blank_left h, hrest]
    · -- the last piece takes the blanks on both sides
      have hnone : ',' ∉ gap ++ body ++ gap' := by
        rw [List.mem_append, List.mem_append, not_or, not_or]
        exact ⟨⟨not_mem_of_isBlank h hcomma, hmem⟩, not_mem_of_isBlank h' hcomma⟩
      rw [List.splitOn_eq_singleton hnone, List.splitOn_eq_singleton hmem, List.map_singleton,
        List.map_singleton, valueOf_append_of_blank h h']

/-- The values of a body are those of its pieces. -/
theorem valuesOf_eq (body : List Char) :
    valuesOf body = ((body.splitOn ',').map valueOf).filter fun value => !value.isEmpty := by
  obtain ⟨gap, gap', h, h', hbody⟩ := exists_trim body
  conv_rhs => rw [hbody]
  rw [map_valueOf_splitOn_append_of_blank h h', valuesOf]

/-- Blanks before a body do not matter to its values. -/
theorem valuesOf_append_of_blank_left {gap : List Char} (h : ∀ c ∈ gap, isBlank c = true)
    (body : List Char) : valuesOf (gap ++ body) = valuesOf body := by
  rw [valuesOf, trim_append_of_blank_left h, valuesOf]

/-- A comma ends one piece and begins the next. -/
theorem valuesOf_append_comma (a b : List Char) :
    valuesOf (a ++ ',' :: b) = valuesOf a ++ valuesOf b := by
  simp only [valuesOf_eq]
  rw [List.splitOn_append_cons_self, List.map_append, List.filter_append]

/-- What stands between commas can be read part by part. -/
theorem valuesOf_intercalate (parts : List (List Char)) :
    valuesOf ([','].intercalate parts) = parts.flatMap valuesOf := by
  induction parts with
  | nil => rfl
  | cons first later ih =>
    cases later with
    | nil => rw [List.intercalate_singleton, List.flatMap_singleton]
    | cons second later =>
      rw [List.intercalate_cons_cons, List.append_assoc, List.singleton_append,
        valuesOf_append_comma, ih]
      rfl

/-- A piece names one value, or none if that is empty. -/
theorem valuesOf_eq_of_not_mem {piece : List Char} (h : ',' ∉ piece) :
    valuesOf piece = [valueOf piece].filter fun value => !value.isEmpty := by
  rw [valuesOf_eq, List.splitOn_eq_singleton h, List.map_singleton]

theorem valuesOf_eq_nil_iff_of_not_mem {piece : List Char} (h : ',' ∉ piece) :
    valuesOf piece = [] ↔ valueOf piece = [] := by
  rw [valuesOf_eq_of_not_mem h, List.filter_eq_nil_iff]
  simp

/-- The value of a piece is what stands before the first opening parenthesis, trimmed. -/
theorem valueOf_eq (piece : List Char) : valueOf piece = trim (piece.takeWhile (· != '(')) := by
  unfold valueOf
  by_cases hmem : '(' ∈ piece
  · obtain ⟨a, b, rfl, ha⟩ := List.eq_append_cons_of_mem hmem
    have hstart : '(' ∉ trimStart a := fun h => ha ((List.dropWhile_sublist _).subset h)
    have hstop : ∀ rest, Stops (· != '(') ('(' :: rest) := fun rest => stops_cons.mpr (by simp)
    have htrim : trim (trimStart a) = trim a := by
      have hstops : Stops isBlank (trimStart a) := stops_dropWhile _ _
      rw [trim, trimStart_eq_self hstops, ← trim]
    rw [trim_append_cons (by decide), takeWhile_append_stops (bne_of_not_mem hstart) (hstop _),
      takeWhile_append_stops (bne_of_not_mem ha) (hstop _), htrim]
  · have htrim : '(' ∉ trim piece := fun h => hmem (trim_subset piece h)
    rw [List.takeWhile_eq_self_iff.mpr (bne_of_not_mem hmem),
      List.takeWhile_eq_self_iff.mpr (bne_of_not_mem htrim), trim_trim]

/-- A piece names nothing if, blanks aside, a parenthesis comes first or nothing at all. -/
theorem valueOf_eq_nil_iff {piece : List Char} :
    valueOf piece = [] ↔ ∀ c ∈ (trimStart piece).head?, c = '(' := by
  obtain ⟨gap, hgap, hsplit⟩ := exists_trimStart piece
  have hstops : Stops isBlank (trimStart piece) := stops_dropWhile _ _
  have hopen : '(' ∉ gap := not_mem_of_isBlank hgap (by decide)
  have hrun : piece.takeWhile (· != '(') = gap ++ (trimStart piece).takeWhile (· != '(') := by
    conv_lhs => rw [hsplit]
    exact List.takeWhile_append_of_pos (bne_of_not_mem hopen)
  rw [valueOf_eq, hrun, trim_eq_nil_iff, List.forall_mem_append, and_iff_right hgap]
  cases htrim : trimStart piece with
  | nil => simp
  | cons c rest =>
    have hc : isBlank c = false := hstops c (by rw [htrim]; rfl)
    by_cases hparen : c = '('
    · simp [hparen]
    · simp [hparen, hc]

/-! ## Values -/

/-- A value as a body names it. -/
structure IsValue (value : List Char) : Prop where
  ne_nil : value ≠ []
  trimmed : trim value = value
  no_comma : ',' ∉ value
  no_opening : '(' ∉ value

instance (value : List Char) : Decidable (IsValue value) :=
  decidable_of_iff (value ≠ [] ∧ trim value = value ∧ ',' ∉ value ∧ '(' ∉ value)
    ⟨fun ⟨hne, htrim, hcomma, hopening⟩ => ⟨hne, htrim, hcomma, hopening⟩,
      fun ⟨hne, htrim, hcomma, hopening⟩ => ⟨hne, htrim, hcomma, hopening⟩⟩

/-- Only values are named. -/
theorem isValue_of_mem_valuesOf {body value : List Char} (h : value ∈ valuesOf body) :
    IsValue value := by
  rw [valuesOf_eq, List.mem_filter] at h
  obtain ⟨hmem, hne⟩ := h
  obtain ⟨piece, hpiece, rfl⟩ := List.mem_map.mp hmem
  have hcomma : ',' ∉ piece := not_mem_of_mem_splitOn hpiece
  refine ⟨by simpa using hne, ?_, ?_, ?_⟩
  · rw [valueOf_eq, trim_trim]
  · rw [valueOf_eq]
    exact fun h => hcomma (List.takeWhile_subset _ (trim_subset _ h))
  · rw [valueOf_eq]
    intro h
    simpa using List.mem_takeWhile_imp (trim_subset _ h)

/-- A value with blanks around it, or none, is read back. -/
theorem IsValue.valuesOf_eq {value part : List Char} (h : IsValue value)
    (htrim : trim part = value) : valuesOf part = [value] := by
  have hvalue : valueOf value = value := by
    rw [valueOf_eq, List.takeWhile_eq_self_iff.mpr (bne_of_not_mem h.no_opening), h.trimmed]
  rw [valuesOf, htrim, List.splitOn_eq_singleton h.no_comma, List.map_singleton, hvalue]
  simp [h.ne_nil]

theorem IsName.isValue {name : List Char} (h : IsName name) : IsValue name :=
  ⟨h.1, h.trim_eq, h.not_mem (by decide), h.not_mem (by decide)⟩

/-- A name with blanks around it, or none, is a value. -/
theorem IsName.valuesOf_eq {name part : List Char} (h : IsName name) (htrim : trim part = name) :
    valuesOf part = [name] :=
  h.isValue.valuesOf_eq htrim

/-- Values that are written in a row are read back. -/
theorem valuesOf_row {values : List (List Char)} (h : ∀ value ∈ values, IsValue value) :
    valuesOf ([',', ' '].intercalate values) = values := by
  have hspace : ∀ c ∈ [' '], isBlank c = true := by decide
  induction values with
  | nil => rfl
  | cons first later ih =>
    rw [List.forall_mem_cons] at h
    have hfirst := h.1.valuesOf_eq h.1.trimmed
    cases later with
    | nil => rw [List.intercalate_singleton, hfirst]
    | cons second later =>
      have hrow : [',', ' '].intercalate (first :: second :: later) =
          first ++ ',' :: ([' '] ++ [',', ' '].intercalate (second :: later)) := by
        rw [List.intercalate_cons_cons, List.append_assoc]
        rfl
      rw [hrow, valuesOf_append_comma, hfirst, valuesOf_append_of_blank_left hspace, ih h.2]
      rfl

/-- **Values.** Bodies with a comma between them name what each of them names, only values are
named, and a row is read back exactly if it is one of values. -/
theorem values_compose (a b : List Char) (row : List (List Char)) :
    valuesOf (a ++ ',' :: b) = valuesOf a ++ valuesOf b ∧
      (∀ value ∈ valuesOf a, IsValue value) ∧
      (valuesOf ([',', ' '].intercalate row) = row ↔ ∀ value ∈ row, IsValue value) := by
  refine ⟨valuesOf_append_comma a b, fun _ => isValue_of_mem_valuesOf, ?_, valuesOf_row⟩
  intro hrow value hvalue
  rw [← hrow] at hvalue
  exact isValue_of_mem_valuesOf hvalue

end EntityScaffold.Document
