import EntityScaffold.Proofs.Document.Live
import EntityScaffold.Proofs.Document.Scan
import EntityScaffold.Proofs.Document.Shape
import EntityScaffold.Proofs.Document.Stripping
import EntityScaffold.Proofs.Text.Position

/-!
# Scanning a text made of parts

A declaration ends with its only closing brace. So a declaration that begins in a part of a text
ends in that part, unless what is left of the part from there on has no closing brace; and if none
that begins in the part goes on after it, the part and the rest are scanned as if each were alone
(`occurrencesFrom_append`). If the part consists of whole lines, the live declarations of the text
are those of the part and then those of the rest (`liveDeclarations_append`).

If on the other hand one declaration reaches to the end of a text, nothing that a scan finds begins
after it (`start_le_of_mem_occurrencesFrom`): what the scan finds before either ends before it
begins or reaches to the same brace.
-/

namespace EntityScaffold.Document

open Text

/-- The keywords of declarations in whose body anything may stand but a closing brace. -/
def blockKeywords : List (List Char) := ["enum".toList, "entity".toList]

/-! ## Readers of declarations -/

/-- A reader takes the texts of declarations off the front. The keyword of one with braces in its
body is a block's. -/
structure ReadsDeclarations {α : Type} (read : List Char → Option (α × List Char))
    (IsText : α → List Char → Prop) : Prop where
  reads : ∀ {s : List Char} {value : α} {rest : List Char},
    read s = some (value, rest) ↔ ∃ text, IsText value text ∧ s = text ++ rest
  declared : ∀ {value : α} {text : List Char}, IsText value text →
    ∃ keyword before head inside, IsDeclared keyword text before head inside ∧
      (keyword ∈ blockKeywords ∨ Unbraced inside)

theorem readsDeclarations_readEnum : ReadsDeclarations readEnum (BlockText "enum") where
  reads := readBlock_eq_some_iff
  declared := by
    intro block text h
    obtain ⟨head, hdeclared⟩ := h.exists_declared isName_enum
    exact ⟨_, _, _, _, hdeclared, .inl (by decide)⟩

theorem readsDeclarations_readEntity : ReadsDeclarations readEntity EntityText where
  reads := readEntity_eq_some_iff
  declared := by
    intro block text h
    obtain ⟨before, head, hdeclared⟩ := h.exists_declared
    exact ⟨_, _, _, _, hdeclared, .inl (by decide)⟩

theorem readsDeclarations_readRelationship :
    ReadsDeclarations readRelationship RelationshipText where
  reads := readRelationship_eq_some_iff
  declared := by
    intro relationship text h
    obtain ⟨head, inside, hdeclared, hinside⟩ := h.exists_declared
    exact ⟨_, _, _, _, hdeclared, .inr hinside⟩

section

variable {α : Type} {read : List Char → Option (α × List Char)}
  {IsText : α → List Char → Prop}

theorem ReadsDeclarations.closed (hreads : ReadsDeclarations read IsText) {value : α}
    {text : List Char} (htext : IsText value text) :
    ∃ whole, text = whole ++ ['}'] ∧ '}' ∉ whole := by
  obtain ⟨keyword, before, head, inside, hdeclared, -⟩ := hreads.declared htext
  exact hdeclared.exists_closed

theorem ReadsDeclarations.ne_nil (hreads : ReadsDeclarations read IsText) {value : α}
    {text : List Char} (h : IsText value text) : text ≠ [] := by
  obtain ⟨whole, rfl, -⟩ := hreads.closed h
  simp

theorem ReadsDeclarations.start (hreads : ReadsDeclarations read IsText) {value : α}
    {text : List Char} (htext : IsText value text) : ∀ c ∈ text.head?, c ≠ '\n' ∧ c ≠ '/' := by
  obtain ⟨keyword, before, head, inside, hdeclared, -⟩ := hreads.declared htext
  exact hdeclared.start

/-- No declaration begins with a line feed. -/
theorem ReadsDeclarations.read_lineFeed (hreads : ReadsDeclarations read IsText) (s : List Char) :
    read ('\n' :: s) = none := by
  cases hread : read ('\n' :: s) with
  | none => rfl
  | some found =>
    obtain ⟨text, htext, hsplit⟩ := hreads.reads.mp hread
    cases text with
    | nil =>
      obtain ⟨whole, hwhole, -⟩ := hreads.closed htext
      exact absurd hwhole (by simp)
    | cons c text =>
      obtain ⟨hc, -⟩ := List.cons.inj hsplit
      exact absurd hc.symm (hreads.start htext c rfl).1

/-! ## Scanning -/

/-- No declaration that begins in a part of a text goes on after the part. -/
def EndsWithin (IsText : α → List Char → Prop) (part rest : List Char) : Prop :=
  ∀ t, t ≠ [] → t <:+ part → ∀ value more after, more ≠ [] → rest = more ++ after →
    ¬IsText value (t ++ more)

theorem EndsWithin.of_suffix {part t rest : List Char} (h : EndsWithin IsText part rest)
    (ht : t <:+ part) : EndsWithin IsText t rest :=
  fun u hne hu => h u hne (hu.trans ht)

/-- What is read at the front of a part that declarations end within is read without the rest
too. -/
theorem ReadsDeclarations.read_append (hreads : ReadsDeclarations read IsText)
    {part rest : List Char} (hne : part ≠ []) (h : EndsWithin IsText part rest) :
    read (part ++ rest) = (read part).map fun (value, after) => (value, after ++ rest) := by
  cases hpart : read part with
  | some found =>
    obtain ⟨value, after⟩ := found
    obtain ⟨text, htext, rfl⟩ := hreads.reads.mp hpart
    exact hreads.reads.mpr ⟨text, htext, by rw [List.append_assoc]⟩
  | none =>
    rw [Option.map_none]
    cases hwhole : read (part ++ rest) with
    | none => rfl
    | some found =>
      exfalso
      obtain ⟨value, after⟩ := found
      obtain ⟨text, htext, hsplit⟩ := hreads.reads.mp hwhole
      have hwithin : ∀ left, part ≠ text ++ left := by
        rintro left rfl
        rw [hreads.reads.mpr ⟨text, htext, rfl⟩] at hpart
        exact absurd hpart (by simp)
      rcases List.append_eq_append_iff.mp hsplit with ⟨more, rfl, hrest⟩ | ⟨left, hleft, -⟩
      · have hmore : more ≠ [] := by
          rintro rfl
          exact hwithin [] (by simp)
        exact h part hne List.suffix_rfl value more after hmore hrest htext
      · exact hwithin left hleft

/-- **Parts.** If no declaration that begins in a part goes on after it, the part and the rest are
scanned one after the other. -/
theorem occurrencesFrom_append (hreads : ReadsDeclarations read IsText)
    {part rest : List Char} (h : EndsWithin IsText part rest) {skip : Nat}
    (hskip : skip ≤ part.length) (offset : Nat) :
    occurrencesFrom read skip offset (part ++ rest) =
      occurrencesFrom read skip offset part ++
        occurrencesFrom read 0 (offset + part.length) rest := by
  induction part generalizing skip offset with
  | nil =>
    obtain rfl : skip = 0 := by simpa using hskip
    rfl
  | cons c part ih =>
    have hlater := h.of_suffix (List.suffix_cons c part)
    have hlength : offset + (c :: part).length = offset + 1 + part.length := by
      rw [List.length_cons]
      omega
    rw [List.cons_append, hlength]
    cases skip with
    | succ skip =>
      rw [occurrencesFrom, occurrencesFrom]
      exact ih hlater (by simpa using hskip) (offset + 1)
    | zero =>
      have hread := hreads.read_append (List.cons_ne_nil c part) h
      rw [List.cons_append] at hread
      cases hpart : read (c :: part) with
      | none =>
        rw [hpart] at hread
        rw [occurrencesFrom_of_none hread, occurrencesFrom_of_none hpart]
        exact ih hlater (Nat.zero_le _) (offset + 1)
      | some found =>
        -- what is read is in the part, so the rest changes neither its length nor its characters
        obtain ⟨value, after⟩ := found
        obtain ⟨text, -, hsplit⟩ := hreads.reads.mp hpart
        rw [hpart] at hread
        have hwhole : c :: (part ++ rest) = text ++ (after ++ rest) := by
          rw [← List.cons_append, hsplit, List.append_assoc]
        have hle : text.length - 1 ≤ part.length := by
          have hsum := congrArg List.length hsplit
          simp only [List.length_cons, List.length_append] at hsum
          omega
        rw [occurrencesFrom_of_read hread hwhole, occurrencesFrom_of_read hpart hsplit,
          ih hlater hle (offset + 1), List.cons_append]

/-- A declaration that goes on into one that reaches to the end of a text reaches there too. -/
theorem ReadsDeclarations.eq_nil_of_overlap (hreads : ReadsDeclarations read IsText)
    {value value' : α} {text text' before after : List Char} (htext : IsText value text)
    (htext' : IsText value' text') (hsplit : before ++ text = text' ++ after)
    (hlong : before.length < text'.length) : after = [] := by
  obtain ⟨more, rfl, hafter⟩ : ∃ more, text' = before ++ more ∧ text = more ++ after := by
    rcases List.append_eq_append_iff.mp hsplit with hmore | ⟨more, rfl, -⟩
    · exact hmore
    · rw [List.length_append] at hlong
      omega
  have hne : more ≠ [] := by
    rintro rfl
    simp at hlong
  obtain ⟨whole, rfl, hopen⟩ := hreads.closed htext
  obtain ⟨whole', hwhole', hopen'⟩ := hreads.closed htext'
  obtain ⟨inner, rfl, rfl⟩ := exists_of_append_eq_concat hne hwhole'
  rw [List.append_assoc] at hafter
  have hclosed : '}' ∉ inner := fun hmem => hopen' (List.mem_append_right _ hmem)
  obtain ⟨-, hend⟩ := run_unique (bne_of_not_mem hopen) (bne_of_not_mem hclosed)
    (stops_cons.mpr (by simp)) (stops_cons.mpr (by simp)) hafter
  simpa using hend

/-- The scan finds nothing that begins after a declaration that reaches to the end of the text. -/
theorem start_le_of_mem_occurrencesFrom (hreads : ReadsDeclarations read IsText) {value : α}
    {text : List Char} (htext : IsText value text) {before : List Char} {skip : Nat}
    (hskip : skip ≤ before.length) (offset : Nat) :
    ∀ occurrence ∈ occurrencesFrom read skip offset (before ++ text),
      occurrence.start ≤ offset + before.length := by
  induction before generalizing skip offset with
  | nil =>
    obtain rfl : skip = 0 := by simpa using hskip
    have hne : text ≠ [] := by
      obtain ⟨whole, rfl, -⟩ := hreads.closed htext
      simp
    have hread : read (text ++ []) = some (value, []) := hreads.reads.mpr ⟨text, htext, rfl⟩
    have hfound := occurrencesFrom_append_of_read hne hread offset
    rw [List.append_nil] at hfound
    rw [List.nil_append, hfound]
    simp [occurrencesFrom]
  | cons c before ih =>
    have hlength : offset + (c :: before).length = offset + 1 + before.length := by
      rw [List.length_cons]
      omega
    rw [List.cons_append, hlength]
    cases skip with
    | succ skip =>
      rw [occurrencesFrom]
      exact ih (by simpa using hskip) (offset + 1)
    | zero =>
      cases hread : read (c :: (before ++ text)) with
      | none =>
        rw [occurrencesFrom_of_none hread]
        exact ih (Nat.zero_le _) (offset + 1)
      | some found =>
        obtain ⟨value', after⟩ := found
        obtain ⟨text', htext', hsplit⟩ := hreads.reads.mp hread
        rw [occurrencesFrom_of_read hread hsplit]
        intro occurrence hoccurrence
        rcases List.mem_cons.mp hoccurrence with rfl | hoccurrence
        · simp only
          omega
        · rcases Nat.lt_or_ge (before.length + 1) text'.length with hlong | hshort
          · -- it goes on into the last declaration, so it reaches to the end
            rw [← List.cons_append] at hsplit
            obtain rfl := hreads.eq_nil_of_overlap htext htext' hsplit hlong
            rw [List.append_nil] at hsplit
            have hskip : text'.length - 1 = (before ++ text).length := by
              rw [← hsplit, List.cons_append, List.length_cons, Nat.add_sub_cancel]
            rw [hskip, occurrencesFrom_length] at hoccurrence
            exact absurd hoccurrence List.not_mem_nil
          · exact ih (by omega) (offset + 1) occurrence hoccurrence

/-! ## Live declarations -/

/-- An occurrence in a text that comes after some characters more. -/
def Occurrence.shift {α : Type} (count : Nat) (occurrence : Occurrence α) : Occurrence α :=
  { occurrence with start := count + occurrence.start }

theorem occurrencesFrom_add (count skip offset : Nat) (s : List Char) :
    occurrencesFrom read skip (count + offset) s =
      (occurrencesFrom read skip offset s).map (Occurrence.shift count) := by
  fun_induction occurrencesFrom read skip offset s with
  | case1 => simp [occurrencesFrom]
  | case2 skip offset c rest ih => rw [occurrencesFrom, ← ih, Nat.add_assoc]
  | case3 offset c rest hnone ih =>
    rw [occurrencesFrom, hnone]
    simp only
    rw [← ih, Nat.add_assoc]
  | case4 offset c rest value after hread length ih =>
    rw [occurrencesFrom, hread]
    simp only
    rw [List.map_cons, ← ih, Nat.add_assoc]
    rfl

/-- After whole lines it does not matter what they are to whether an offset is commented. -/
theorem isCommented_append_of_lines {part : List Char} (hpart : lastLine part = [])
    (rest : List Char) (offset : Nat) :
    isCommented (part ++ rest) (part.length + offset) = isCommented rest offset := by
  unfold isCommented lineBefore
  rw [List.take_length_add_append, lastLine_append_of_lines hpart]

theorem isCommented_append_of_le {part : List Char} {offset : Nat} (h : offset ≤ part.length)
    (rest : List Char) : isCommented (part ++ rest) offset = isCommented part offset := by
  unfold isCommented lineBefore
  rw [List.take_append_of_le_length h]

theorem liveAmong_append_shift {part : List Char} (hpart : lastLine part = []) (rest : List Char)
    (found : List (Occurrence α)) :
    liveAmong (part ++ rest) (found.map (Occurrence.shift part.length)) =
      liveAmong rest found := by
  unfold liveAmong
  rw [List.filter_map, List.map_map]
  simp only [Function.comp_def, Occurrence.shift, isCommented_append_of_lines hpart]
  rfl

theorem ReadsDeclarations.takesFront (hreads : ReadsDeclarations read IsText) :
    TakesFront read := by
  intro s value rest h
  obtain ⟨text, htext, rfl⟩ := hreads.reads.mp h
  obtain ⟨whole, rfl, -⟩ := hreads.closed htext
  exact ⟨_, by simp, rfl⟩

/-- Whether something in a part is commented does not depend on what comes after the part. -/
theorem ReadsDeclarations.liveAmong_append (hreads : ReadsDeclarations read IsText)
    (part rest : List Char) :
    liveAmong (part ++ rest) (occurrences read part) = liveDeclarations read part := by
  unfold liveDeclarations liveAmong
  congr 1
  apply List.filter_congr
  intro occurrence hoccurrence
  obtain ⟨before, after, hpart, hstart, -⟩ := mem_occurrences hreads.takesFront hoccurrence
  have hle : occurrence.start ≤ part.length := by
    rw [hstart, hpart, List.length_append]
    omega
  rw [isCommented_append_of_le hle]

/-- **Live declarations of parts.** If no declaration that begins in the lines of a part goes on
after them, the live declarations of the text are those of the lines and then those of the rest. -/
theorem liveDeclarations_append (hreads : ReadsDeclarations read IsText)
    {part rest : List Char} (h : EndsWithin IsText part rest) (hpart : lastLine part = []) :
    liveDeclarations read (part ++ rest) =
      liveDeclarations read part ++ liveDeclarations read rest := by
  have hfound : occurrences read (part ++ rest) =
      occurrences read part ++ (occurrences read rest).map (Occurrence.shift part.length) := by
    rw [occurrences, occurrencesFrom_append hreads h (Nat.zero_le _) 0, Nat.add_comm 0 part.length,
      occurrencesFrom_add]
    rfl
  calc liveDeclarations read (part ++ rest)
    _ = liveAmong (part ++ rest) (occurrences read part) ++
          liveAmong (part ++ rest)
            ((occurrences read rest).map (Occurrence.shift part.length)) := by
        simp only [liveDeclarations, liveAmong, hfound, List.filter_append, List.map_append]
    _ = liveDeclarations read part ++ liveDeclarations read rest := by
        rw [hreads.liveAmong_append, liveAmong_append_shift hpart]
        rfl

/-- A text off no part of which anything is read declares nothing. -/
theorem liveDeclarations_of_dead {text : List Char}
    (h : ∀ t, t ≠ [] → t <:+ text → read t = none) : liveDeclarations read text = [] := by
  have hdead : ∀ t, t ≠ [] → t <:+ text → read (t ++ []) = none := by
    intro t hne ht
    rw [List.append_nil]
    exact h t hne ht
  have hfound := occurrencesFrom_append_of_dead hdead 0
  rw [List.append_nil] at hfound
  rw [liveDeclarations, occurrences, hfound]
  rfl

/-- A declaration that is a whole text is all that a scan of the text finds. -/
theorem ReadsDeclarations.occurrences_text (hreads : ReadsDeclarations read IsText) {value : α}
    {text : List Char} (htext : IsText value text) :
    occurrences read text = [⟨0, text, value⟩] := by
  have hread : read (text ++ []) = some (value, []) := hreads.reads.mpr ⟨text, htext, rfl⟩
  have hfound := occurrencesFrom_append_of_read (hreads.ne_nil htext) hread 0
  rw [List.append_nil] at hfound
  exact hfound

/-- It is live. -/
theorem ReadsDeclarations.liveDeclarations_text (hreads : ReadsDeclarations read IsText)
    {value : α} {text : List Char} (htext : IsText value text) :
    liveDeclarations read text = [⟨text, value⟩] := by
  rw [liveDeclarations, hreads.occurrences_text htext]
  rfl

/-- A line feed at the end of a text declares nothing. -/
theorem liveDeclarations_append_lineFeed (hreads : ReadsDeclarations read IsText)
    (text : List Char) : liveDeclarations read (text ++ ['\n']) = liveDeclarations read text := by
  have hwithin : EndsWithin IsText text ['\n'] := by
    intro t _ _ value more after hne hmore htext
    obtain ⟨whole, hwhole, -⟩ := hreads.closed htext
    obtain ⟨inner, rfl, -⟩ := exists_of_append_eq_concat hne hwhole
    -- the closing brace would be in the line feed
    have hbrace : '}' ∈ ['\n'] := by simp [hmore]
    exact absurd hbrace (by decide)
  have hfeed : ∀ offset, occurrencesFrom read 0 offset ['\n'] = [] := fun offset =>
    occurrencesFrom_of_none (hreads.read_lineFeed []) offset
  rw [← hreads.liveAmong_append text ['\n'], liveDeclarations, occurrences,
    occurrencesFrom_append hreads hwithin (Nat.zero_le _) 0, hfeed, List.append_nil]
  rfl

/-- Lines that end closed hold whole declarations only. -/
theorem ReadsDeclarations.endsWithin_of_endsClosed (hreads : ReadsDeclarations read IsText)
    {part : List Char} (hpart : EndsClosed part) (rest : List Char) :
    EndsWithin IsText part rest := by
  intro t hne ht value more after hmore _ htext
  obtain ⟨whole, hwhole, hopen⟩ := hreads.closed htext
  obtain ⟨inner, rfl, rfl⟩ := exists_of_append_eq_concat hmore hwhole
  have hclosed : '}' ∉ t := fun hmem => hopen (List.mem_append_left _ hmem)
  obtain ⟨before, rfl⟩ := hpart
  have hlines : before ++ ['}', '\n'] = (before ++ ['}']) ++ ['\n'] := by simp
  rw [hlines] at ht
  rcases List.suffix_concat_iff.mp ht with rfl | ⟨t', rfl, ht'⟩
  · exact hne rfl
  · rcases List.suffix_concat_iff.mp ht' with rfl | ⟨t'', rfl, -⟩
    · exact (hreads.start htext '\n' rfl).1 rfl
    · exact hclosed (by simp)

end

end EntityScaffold.Document
