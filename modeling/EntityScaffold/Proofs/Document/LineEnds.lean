import EntityScaffold.Proofs.Document.Body
import EntityScaffold.Proofs.Document.Parts
import EntityScaffold.Proofs.Document.Returns
import EntityScaffold.Proofs.Model.Registry
import EntityScaffold.Proofs.Report
import Mathlib.Data.List.Forall2

/-!
# Line ends do not matter

A document is read the same whether its lines end with a line feed or with a carriage return and a
line feed. The two readings go side by side: a scan finds the same declarations, each at the moved
offset (`occurrences_withReturns`); the lines of a body are the same once they are trimmed, and each
that is not blank is at the moved offset (`sameLines_bodyLines`); so a step that reads an entity
says the same on both sides and ends alike (`readEntityAt_withReturns`). Only the values of
enumerations may hold line ends, and there they are seen (`parse_withReturns`).
-/

namespace EntityScaffold

/-! ## Models -/

/-- An enumeration, returns put into its values. -/
def Enumeration.withReturns (enumeration : Enumeration) : Enumeration :=
  { enumeration with
    values := enumeration.values.map fun value =>
      String.ofList (Text.withReturns value.toList) }

theorem Enumeration.name_withReturns (enumeration : Enumeration) :
    Named.name enumeration.withReturns = Named.name enumeration := rfl

/-- A model, returns put into the values of its enumerations. -/
def Model.withReturns (model : Model) : Model :=
  { model with
    enums := model.enums.update Enumeration.withReturns Enumeration.name_withReturns }

namespace Document

open Text

/-! ## Scanning -/

section Scanning

variable {α : Type} {read : List Char → Option (α × List Char)}
  {IsText : α → List Char → Prop} {f : α → α}

/-- A reader that commutes with putting returns in, up to a change of what it reads. -/
def ReadsAlike (read : List Char → Option (α × List Char)) (f : α → α) : Prop :=
  ∀ s, read (withReturns s) = (read s).map fun (value, rest) => (f value, withReturns rest)

/-- An occurrence in a text, as it is when returns are put into the text. -/
def Occurrence.withReturns (plain : List Char) (f : α → α) (occurrence : Occurrence α) :
    Occurrence α :=
  ⟨moved plain occurrence.start, Text.withReturns occurrence.text, f occurrence.value⟩

theorem occurrencesFrom_withReturns (hreads : ReadsDeclarations read IsText)
    (halike : ReadsAlike read f) (before s : List Char) :
    occurrencesFrom read 0 (withReturns before).length (withReturns s) =
      (occurrencesFrom read 0 before.length s).map
        (Occurrence.withReturns (before ++ s) f) := by
  induction hlength : s.length using Nat.strong_induction_on generalizing before s with
  | _ length ih =>
    cases s with
    | nil => rfl
    | cons c rest =>
      cases hread : read (c :: rest) with
      | none =>
        have hlater := ih rest.length (by rw [← hlength]; exact Nat.lt_succ_self _)
          (before ++ [c]) rest rfl
        rw [withReturns_append, List.length_append, List.length_append, List.append_assoc,
          List.singleton_append] at hlater
        have hreturn := halike (c :: rest)
        rw [hread, Option.map_none] at hreturn
        rw [occurrencesFrom_of_none hread]
        by_cases hc : c = '\n'
        · subst hc
          rw [withReturns_lineFeed] at hreturn ⊢
          rw [occurrencesFrom_of_none hreturn,
            occurrencesFrom_of_none (hreads.read_lineFeed _)]
          exact hlater
        · rw [withReturns_cons hc] at hreturn hlater ⊢
          rw [occurrencesFrom_of_none hreturn]
          exact hlater
      | some found =>
        obtain ⟨value, after⟩ := found
        obtain ⟨text, hne, hsplit⟩ := hreads.takesFront hread
        rw [hsplit] at hread hlength ⊢
        have hshorter : after.length < length := by
          have := List.length_pos_iff.mpr hne
          rw [← hlength, List.length_append]
          omega
        have hlater := ih after.length hshorter (before ++ text) after rfl
        have hreturn := halike (text ++ after)
        rw [hread, Option.map_some, withReturns_append] at hreturn
        rw [withReturns_append, List.length_append, List.length_append,
          List.append_assoc] at hlater
        rw [withReturns_append, occurrencesFrom_append_of_read (by simpa using hne) hreturn,
          occurrencesFrom_append_of_read hne hread, List.map_cons, hlater, Occurrence.withReturns,
          moved_append_length]

/-- **Scans.** A scan finds the same declarations. -/
theorem occurrences_withReturns (hreads : ReadsDeclarations read IsText)
    (halike : ReadsAlike read f) (plain : List Char) :
    occurrences read (withReturns plain) =
      (occurrences read plain).map (Occurrence.withReturns plain f) :=
  occurrencesFrom_withReturns hreads halike [] plain

/-- Something in a text is commented out or it is not. -/
theorem isCommented_moved (plain : List Char) (offset : Nat) :
    isCommented (withReturns plain) (moved plain offset) = isCommented plain offset := by
  rw [isCommented, lineBefore_moved, isCommented]

end Scanning

/-! ## Lines of a body -/

/-- A line of a body and the same line after returns were put in: both have one text, and the
second is where the first one is moved to. A blank line starts at its end, which a return puts
off. -/
structure SameLine (body : List Char) (line line' : BodyLine) : Prop where
  text : line'.text = line.text
  within : line.offset ≤ body.length
  offset : line.text ≠ [] → line'.offset = moved body line.offset

/-- A line to which blanks are added at its end. -/
theorem sameLine_append (before later : List Char) {line tail : List Char} (hline : '\n' ∉ line)
    (htail : ∀ c ∈ tail, isBlank c = true) :
    SameLine (before ++ (line ++ later))
      ⟨before.length + (line.length - (trimStart line).length), trim line⟩
      ⟨(withReturns before).length +
        ((line ++ tail).length - (trimStart (line ++ tail)).length), trim (line ++ tail)⟩ where
  text := trim_append_of_blank_right htail line
  within := by
    simp only [List.length_append]
    omega
  offset := by
    intro hne
    obtain ⟨gap, hgap, hsplit⟩ := exists_trimStart line
    have hrest : trimStart line ≠ [] := by
      intro hnil
      exact hne (by simp [trim, hnil, trimEnd])
    have hstops : Stops isBlank (trimStart line ++ tail) :=
      (stops_dropWhile isBlank line).append hrest tail
    have htrim : trimStart (line ++ tail) = trimStart line ++ tail := by
      conv_lhs => rw [hsplit, List.append_assoc]
      rw [trimStart_append_of_blank hgap, trimStart_eq_self hstops]
    have hlength : line.length = gap.length + (trimStart line).length := by
      conv_lhs => rw [hsplit]
      exact List.length_append
    have hfeed : '\n' ∉ gap := by
      intro hmem
      exact hline (hsplit ▸ List.mem_append_left _ hmem)
    have hmoved : moved (line ++ later) gap.length = gap.length := by
      rw [hsplit, List.append_assoc, moved_append_length, withReturns_eq_self hfeed]
    simp only [htrim, List.length_append, hlength, Nat.add_sub_cancel, moved_append]
    rw [hmoved]
    omega

theorem sameLines_bodyLinesFrom (before s : List Char) :
    List.Forall₂ (SameLine (before ++ s)) (bodyLinesFrom before.length (lines s))
      (bodyLinesFrom (withReturns before).length (lines (withReturns s))) := by
  induction hlength : s.length using Nat.strong_induction_on generalizing before s with
  | _ length ih =>
    by_cases hfeed : '\n' ∈ s
    · obtain ⟨line, later, rfl, hline⟩ := List.eq_append_cons_of_mem hfeed
      have hshorter : later.length < length := by
        rw [← hlength, List.length_append, List.length_cons]
        omega
      have hlater := ih later.length hshorter (before ++ line ++ ['\n']) later rfl
      have hwhole : before ++ line ++ ['\n'] ++ later = before ++ (line ++ '\n' :: later) := by
        simp only [List.append_assoc, List.singleton_append]
      have hstart : (withReturns (before ++ line ++ ['\n'])).length =
          (withReturns before).length + (line ++ ['\r']).length + 1 := by
        simp [withReturns_eq_self hline, Nat.add_assoc]
      rw [hwhole, hstart, List.length_append, List.length_append, List.length_singleton] at hlater
      rw [lines_withReturns hline, lines, List.splitOn_append_cons_self_of_not_mem hline, ← lines,
        bodyLinesFrom, bodyLinesFrom]
      exact .cons (sameLine_append before _ hline (by decide)) hlater
    · have hsingle : lines s = [s] := List.splitOn_eq_singleton hfeed
      rw [withReturns_eq_self hfeed, hsingle, bodyLinesFrom, bodyLinesFrom, bodyLinesFrom,
        bodyLinesFrom]
      have hnil : ∀ c ∈ ([] : List Char), isBlank c = true := by simp
      have hsame := sameLine_append before [] hfeed hnil
      rw [List.append_nil] at hsame
      exact .cons hsame .nil

/-- **Lines.** The lines of a body are the same ones. -/
theorem sameLines_bodyLines (body : List Char) :
    List.Forall₂ (SameLine body) (bodyLines body) (bodyLines (withReturns body)) :=
  sameLines_bodyLinesFrom [] body

/-- A body is read the same from the same lines, if what is not blank is at the same place. -/
theorem readLines_congr (reading reading' : BodyReading)
    (hentity : reading'.entity = reading.entity)
    (henums : reading'.enumNames = reading.enumNames) (hstrict : reading'.strict = reading.strict)
    {lines lines' : List BodyLine}
    (h : List.Forall₂ (fun line line' => line'.text = line.text ∧
      (line.text ≠ [] → reading'.placeAt line'.offset = reading.placeAt line.offset))
      lines lines') :
    reading'.readLines lines' = reading.readLines lines := by
  induction h with
  | nil => rfl
  | @cons line line' later later' hsame _ ih =>
    obtain ⟨htext, hplace⟩ := hsame
    have hidle : line'.isIdle = line.isIdle := by rw [BodyLine.isIdle, htext, BodyLine.isIdle]
    rw [BodyReading.readLines, BodyReading.readLines, hidle, htext, henums, hentity, hstrict, ih]
    split
    · rfl
    · rename_i hbusy
      have hne : line.text ≠ [] := by
        intro hnil
        exact hbusy (by simp [BodyLine.isIdle, hnil])
      rw [hplace hne]

/-! ## Entities -/

/-- The body of an entity begins where its beginning is moved to, and so do offsets in it. -/
theorem bodyStart_withReturns {plain : List Char} {occurrence : Occurrence Block}
    (h : occurrence ∈ occurrences readEntity plain) {offset : Nat}
    (hoffset : offset ≤ occurrence.value.body.length) :
    occurrence.bodyStart + offset ≤ plain.length ∧
      (occurrence.withReturns plain Block.withReturns).bodyStart +
          moved occurrence.value.body offset =
        moved plain (occurrence.bodyStart + offset) := by
  obtain ⟨before, head, after, hplain, hstart, htext⟩ := exists_head_of_mem_occurrences h
  have hstart' : (occurrence.withReturns plain Block.withReturns).start =
      (withReturns before).length := by
    rw [Occurrence.withReturns, hstart, hplain, moved_append_length]
  have htext' : (occurrence.withReturns plain Block.withReturns).text =
      withReturns head ++ (withReturns occurrence.value.body ++ ['}']) := by
    rw [Occurrence.withReturns, htext, withReturns_append, withReturns_append]
    rfl
  have hbody := Occurrence.bodyStart_eq hstart htext
  have hbody' := Occurrence.bodyStart_eq hstart' htext'
  constructor
  · rw [hbody, hplain]
    simp only [List.length_append]
    omega
  · rw [hbody, hbody', hplain, Nat.add_assoc before.length, moved_append, moved_append,
      moved_append_of_le hoffset, Nat.add_assoc]

theorem isPrefixOf_eq_isSome (literal s : List Char) :
    literal.isPrefixOf s = (readLiteral literal s).isSome := by
  fun_induction readLiteral literal s with
  | case1 s => rfl
  | case2 w ws s ih => simp [ih]
  | case3 w ws c s hne => simp [List.isPrefixOf, hne]
  | case4 w ws => rfl

/-- A declaration asks for auditing before any line end. -/
theorem auditModeOf_withReturns (declaration : List Char) :
    auditModeOf (withReturns declaration) = auditModeOf declaration := by
  have hprefix : auditMark.toList.isPrefixOf (withReturns (trim declaration)) =
      auditMark.toList.isPrefixOf (trim declaration) := by
    rw [isPrefixOf_eq_isSome, readLiteral_withReturns _ (by decide) (by decide), Option.isSome_map,
      isPrefixOf_eq_isSome]
  unfold auditModeOf
  rw [trim_withReturns, hprefix]

/-- **Entities.** An entity that a scan found is read the same. -/
theorem readEntityAt_withReturns {text : List Char} {occurrence : Occurrence Block}
    (h : occurrence ∈ occurrences readEntity (Source.strip text).plain) (enumNames : List String)
    (strict : Bool) :
    readEntityAt (Source.strip text).withReturns enumNames strict
        (occurrence.withReturns (Source.strip text).plain Block.withReturns) =
      readEntityAt (Source.strip text) enumNames strict occurrence := by
  have hlines := readLines_congr
    ⟨String.ofList occurrence.value.name, enumNames, strict,
      fun offset => (Source.strip text).placeAt (occurrence.bodyStart + offset)⟩
    ⟨String.ofList occurrence.value.name, enumNames, strict,
      fun offset => (Source.strip text).withReturns.placeAt
        ((occurrence.withReturns (Source.strip text).plain Block.withReturns).bodyStart + offset)⟩
    rfl rfl rfl ((sameLines_bodyLines occurrence.value.body).imp fun line line' hsame => by
      refine ⟨hsame.text, fun hne => ?_⟩
      obtain ⟨hle, hmoved⟩ := bodyStart_withReturns h hsame.within
      simp only [hsame.offset hne, hmoved, placeAt_withReturns hle])
  have haudit := auditModeOf_withReturns occurrence.text
  unfold readEntityAt BodyReading.read
  simp only [Occurrence.withReturns, Block.withReturns] at hlines haudit ⊢
  rw [hlines, haudit]

/-! ## Passes -/

/-- Occurrences are gone through side by side if the steps go side by side. -/
theorem foldLive_withReturns {ε α β β' : Type} {text : List Char} {f : α → α} {φ : β → β'}
    {step : β → Occurrence α → Report ε β} {step' : β' → Occurrence α → Report ε β'}
    {found : List (Occurrence α)}
    (hstart : ∀ occurrence ∈ found, occurrence.start ≤ (Source.strip text).plain.length)
    (hstep : ∀ value, ∀ occurrence ∈ found,
      step' (φ value) (occurrence.withReturns (Source.strip text).plain f) =
        φ <$> step value occurrence)
    (value : β) :
    foldLive (Source.strip text).withReturns step' (φ value)
        (found.map (Occurrence.withReturns (Source.strip text).plain f)) =
      φ <$> foldLive (Source.strip text) step value found := by
  induction found generalizing value with
  | nil => rfl
  | cons occurrence later ih =>
    have hlater := ih (fun other hother => hstart other (List.mem_cons_of_mem _ hother))
      fun value other hother => hstep value other (List.mem_cons_of_mem _ hother)
    have hdead : isCommented (Source.strip text).withReturns.plain
        (occurrence.withReturns (Source.strip text).plain f).start =
          isCommented (Source.strip text).plain occurrence.start := isCommented_moved _ _
    have hline : (Source.strip text).withReturns.lineNumber
        (occurrence.withReturns (Source.strip text).plain f).start =
          (Source.strip text).lineNumber occurrence.start :=
      lineNumber_withReturns (hstart occurrence List.mem_cons_self)
    simp only [Report.map_eq_andThen, List.map_cons, foldLive, hdead, hline,
      Report.bind_eq_andThen] at hlater ⊢
    split
    · rw [hlater, Report.andThen_assoc]
    · rw [hstep value occurrence List.mem_cons_self, Report.map_eq_andThen, Report.andThen_assoc,
        Report.andThen_assoc]
      simp only [Report.ok_andThen, hlater]

/-- A pass over the declarations of a kind. -/
theorem pass_withReturns {ε α β β' : Type} {read : List Char → Option (α × List Char)}
    {IsText : α → List Char → Prop} (hreads : ReadsDeclarations read IsText) {f : α → α}
    (halike : ReadsAlike read f) {text : List Char} {φ : β → β'}
    (step : β → Occurrence α → Report ε β) (step' : β' → Occurrence α → Report ε β')
    (hstep : ∀ value, ∀ occurrence ∈ occurrences read (Source.strip text).plain,
      step' (φ value) (occurrence.withReturns (Source.strip text).plain f) =
        φ <$> step value occurrence)
    (value : β) :
    foldLive (Source.strip text).withReturns step' (φ value)
        (occurrences read (Source.strip text).withReturns.plain) =
      φ <$> foldLive (Source.strip text) step value
        (occurrences read (Source.strip text).plain) := by
  have hfound := occurrences_withReturns hreads halike (Source.strip text).plain
  rw [Source.withReturns, hfound]
  refine foldLive_withReturns (fun occurrence hoccurrence => ?_) hstep value
  obtain ⟨before, after, hplain, hstart, -⟩ := mem_occurrences hreads.takesFront hoccurrence
  rw [hstart, hplain, List.length_append]
  omega

/-- A pass whose steps are the same ones. -/
theorem pass_same_withReturns {ε α β : Type} {read : List Char → Option (α × List Char)}
    {IsText : α → List Char → Prop} (hreads : ReadsDeclarations read IsText) {f : α → α}
    (halike : ReadsAlike read f) {text : List Char}
    {step step' : β → Occurrence α → Report ε β}
    (hstep : ∀ value, ∀ occurrence ∈ occurrences read (Source.strip text).plain,
      step' value (occurrence.withReturns (Source.strip text).plain f) = step value occurrence)
    (value : β) :
    foldLive (Source.strip text).withReturns step' value
        (occurrences read (Source.strip text).withReturns.plain) =
      foldLive (Source.strip text) step value (occurrences read (Source.strip text).plain) := by
  have hid : ∀ report : Report ε β, id <$> report = report := Report.andThen_ok
  have h := pass_withReturns hreads halike (φ := id) step step'
    (fun value occurrence hoccurrence => by
      rw [hid, id_eq, hstep value occurrence hoccurrence]) value
  rw [hid] at h
  exact h

/-! ## Values of an enumeration -/

theorem valueOf_withReturns (piece : List Char) :
    valueOf (withReturns piece) = withReturns (valueOf piece) := by
  rw [valueOf, trim_withReturns, takeWhile_withReturns (by decide), trim_withReturns, valueOf]

theorem valuesOf_withReturns (body : List Char) :
    valuesOf (withReturns body) = (valuesOf body).map withReturns := by
  have hempty : ((fun value : List Char => !value.isEmpty) ∘ withReturns) =
      fun value => !value.isEmpty := by
    funext value
    cases value with
    | nil => rfl
    | cons c value =>
      have hne : withReturns (c :: value) ≠ [] := by simp
      simp [hne]
  have hpieces : (((trim body).splitOn ',').map withReturns).map valueOf =
      (((trim body).splitOn ',').map valueOf).map withReturns := by
    rw [List.map_map, List.map_map]
    exact List.map_congr_left fun piece _ => valueOf_withReturns piece
  unfold valuesOf
  rw [trim_withReturns, splitOn_withReturns (by decide) (by decide), hpieces, List.filter_map,
    hempty]

theorem enumeration_withReturns (block : Block) :
    block.withReturns.enumeration = block.enumeration.withReturns := by
  have hvalues : ((valuesOf block.body).map withReturns).map String.ofList =
      ((valuesOf block.body).map String.ofList).map fun value =>
        String.ofList (withReturns value.toList) := by
    rw [List.map_map, List.map_map]
    refine List.map_congr_left fun value _ => ?_
    rw [Function.comp_apply, Function.comp_apply, String.toList_ofList]
  rw [Block.enumeration, Block.withReturns, valuesOf_withReturns, hvalues]
  rfl

theorem readEnums_withReturns {ε : Type} (text : List Char) :
    (readEnums (Source.strip text).withReturns : Report ε (Registry Enumeration)) =
      (fun enums => enums.update Enumeration.withReturns Enumeration.name_withReturns) <$>
        readEnums (Source.strip text) := by
  have hstep : ∀ (enums : Registry Enumeration) (occurrence : Occurrence Block),
      ((enums.update Enumeration.withReturns Enumeration.name_withReturns).put
        (occurrence.withReturns (Source.strip text).plain
          Block.withReturns).value.enumeration) =
        (enums.put occurrence.value.enumeration).update Enumeration.withReturns
          Enumeration.name_withReturns := by
    intro enums occurrence
    rw [Registry.update_put, Occurrence.withReturns, enumeration_withReturns]
  exact pass_withReturns (ε := ε) readsDeclarations_readEnum
    (readBlock_withReturns "enum" (by decide) (by decide))
    (φ := fun enums : Registry Enumeration =>
      enums.update Enumeration.withReturns Enumeration.name_withReturns)
    (fun enums occurrence => return enums.put occurrence.value.enumeration)
    (fun enums occurrence => return enums.put occurrence.value.enumeration)
    (fun enums occurrence _ => congrArg Report.ok (hstep enums occurrence)) .empty

theorem readEntities_withReturns (text : List Char) (enumNames : List String) (strict : Bool) :
    readEntities (Source.strip text).withReturns enumNames strict =
      readEntities (Source.strip text) enumNames strict := by
  refine pass_same_withReturns readsDeclarations_readEntity readEntity_withReturns
    (fun entities occurrence hoccurrence => ?_) Registry.empty
  simp only [readEntityAt_withReturns hoccurrence]

theorem readRelationships_withReturns {ε : Type} (text : List Char) :
    (readRelationships (Source.strip text).withReturns : Report ε (List Relationship)) =
      readRelationships (Source.strip text) :=
  pass_same_withReturns (f := id) readsDeclarations_readRelationship readRelationship_withReturns
    (fun _ _ _ => rfl) []

/-- **Line ends.** A document with returns before its line feeds is read as the one without. The
same is said on the way, and a fault is the same fault at the same place. A model has the same
entities, relationships and enumerations, and where a value of an enumeration has line ends they are
those of the document. -/
theorem parse_withReturns (strict : Bool) (text : String) :
    let other := parse strict (String.ofList (withReturns text.toList))
    other.notes = (parse strict text).notes ∧
      other.outcome = (parse strict text).outcome.map Model.withReturns := by
  have hparse : parse strict (String.ofList (withReturns text.toList)) =
      Model.withReturns <$> parse strict text := by
    unfold parse
    simp only [String.toList_ofList, strip_withReturns, readEnums_withReturns,
      readEntities_withReturns, readRelationships_withReturns, Report.map_eq_andThen,
      Report.bind_eq_andThen, Report.pure_eq_ok, Report.andThen_assoc, Report.ok_andThen,
      Registry.names_update, Model.withReturns]
  exact ⟨by rw [hparse, Report.notes_map], by rw [hparse, Report.outcome_map]⟩

end Document

end EntityScaffold
