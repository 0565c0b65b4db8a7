import EntityScaffold.Document.Parse
import EntityScaffold.Proofs.Document.Shape

/-!
# What a scan finds

A scan steps through a text and jumps over what it has read. Two equations describe it on a text
that is put together from parts: it passes over a part at no position of which anything can be read
(`occurrencesFrom_append_of_dead`), and it takes a part that is read as a whole
(`occurrencesFrom_append_of_read`). In the other direction, every occurrence is a slice of the text
at its offset and was read there (`mem_occurrences`).
-/

namespace EntityScaffold.Document

open Text

variable {α : Type} {read : List Char → Option (α × List Char)}

/-- A reader that takes something off the front whenever it reads anything. -/
def TakesFront (read : List Char → Option (α × List Char)) : Prop :=
  ∀ {s : List Char} {value : α} {rest : List Char}, read s = some (value, rest) →
    ∃ taken, taken ≠ [] ∧ s = taken ++ rest

/-! ## Steps of a scan -/

/-- Where nothing can be read a scan goes on at the next character. -/
theorem occurrencesFrom_of_none {c : Char} {rest : List Char} (h : read (c :: rest) = none)
    (offset : Nat) :
    occurrencesFrom read 0 offset (c :: rest) = occurrencesFrom read 0 (offset + 1) rest := by
  rw [occurrencesFrom, h]

/-- Where something is read it is an occurrence, and what has been read is passed over. -/
theorem occurrencesFrom_of_read {c : Char} {rest text after : List Char} {value : α}
    (h : read (c :: rest) = some (value, after)) (hsplit : c :: rest = text ++ after)
    (offset : Nat) :
    occurrencesFrom read 0 offset (c :: rest) =
      ⟨offset, text, value⟩ :: occurrencesFrom read (text.length - 1) (offset + 1) rest := by
  have hlength : rest.length + 1 - after.length = text.length := by
    have hsum := congrArg List.length hsplit
    simp only [List.length_cons, List.length_append] at hsum
    omega
  rw [occurrencesFrom, h]
  simp only [hlength]
  rw [hsplit, List.take_left]

/-! ## Scanning a text made of parts -/

/-- Characters that are to be passed over are passed over. -/
theorem occurrencesFrom_append_of_skip (skipped rest : List Char) (offset : Nat) :
    occurrencesFrom read skipped.length offset (skipped ++ rest) =
      occurrencesFrom read 0 (offset + skipped.length) rest := by
  induction skipped generalizing offset with
  | nil => simp
  | cons c skipped ih =>
    rw [List.cons_append, List.length_cons, occurrencesFrom, ih]
    congr 1
    omega

/-- A text all of which is to be passed over holds nothing. -/
theorem occurrencesFrom_length (s : List Char) (offset : Nat) :
    occurrencesFrom read s.length offset s = [] := by
  induction s generalizing offset with
  | nil => rfl
  | cons c s ih =>
    rw [List.length_cons, occurrencesFrom]
    exact ih (offset + 1)

/-- A part at no position of which anything can be read adds nothing. -/
theorem occurrencesFrom_append_of_dead {part rest : List Char}
    (h : ∀ t, t ≠ [] → t <:+ part → read (t ++ rest) = none) (offset : Nat) :
    occurrencesFrom read 0 offset (part ++ rest) =
      occurrencesFrom read 0 (offset + part.length) rest := by
  induction part generalizing offset with
  | nil => simp
  | cons c part ih =>
    have hnone : read (c :: (part ++ rest)) = none := h (c :: part) (by simp) List.suffix_rfl
    have hlater : ∀ t, t ≠ [] → t <:+ part → read (t ++ rest) = none :=
      fun t hne ht => h t hne (ht.trans (List.suffix_cons c part))
    rw [List.cons_append, occurrencesFrom_of_none hnone, ih hlater, List.length_cons]
    congr 1
    omega

/-- A part that is read as a whole is an occurrence, and the scan goes on after it. -/
theorem occurrencesFrom_append_of_read {part rest : List Char} {value : α} (hne : part ≠ [])
    (h : read (part ++ rest) = some (value, rest)) (offset : Nat) :
    occurrencesFrom read 0 offset (part ++ rest) =
      ⟨offset, part, value⟩ :: occurrencesFrom read 0 (offset + part.length) rest := by
  cases part with
  | nil => exact absurd rfl hne
  | cons c part =>
    rw [List.cons_append] at h ⊢
    rw [occurrencesFrom_of_read h (List.cons_append).symm, List.length_cons, Nat.add_sub_cancel,
      occurrencesFrom_append_of_skip, Nat.add_assoc, Nat.add_comm 1]

/-! ## Where an occurrence stands -/

/-- An occurrence is a slice of the scanned text and was read at its offset. -/
theorem mem_occurrencesFrom (htakes : TakesFront read) {skip offset : Nat} {s : List Char}
    {occurrence : Occurrence α} (h : occurrence ∈ occurrencesFrom read skip offset s) :
    ∃ before after, s = before ++ (occurrence.text ++ after) ∧
      occurrence.start = offset + before.length ∧
      read (occurrence.text ++ after) = some (occurrence.value, after) := by
  fun_induction occurrencesFrom read skip offset s with
  | case1 => simp at h
  | case2 skip offset c rest ih =>
    obtain ⟨before, after, rfl, hstart, hread⟩ := ih h
    exact ⟨c :: before, after, rfl, by rw [hstart, List.length_cons]; omega, hread⟩
  | case3 offset c rest _ ih =>
    obtain ⟨before, after, rfl, hstart, hread⟩ := ih h
    exact ⟨c :: before, after, rfl, by rw [hstart, List.length_cons]; omega, hread⟩
  | case4 offset c rest value after hread length ih =>
    rcases List.mem_cons.mp h with rfl | hlater
    · -- what is read here is as long as the reader says
      obtain ⟨taken, -, htaken⟩ := htakes hread
      have hlength : length = taken.length := by
        have := congrArg List.length htaken
        simp only [List.length_cons, List.length_append] at this
        simp only [length]
        omega
      have htext : (c :: rest).take length = taken := by
        rw [htaken, hlength, List.take_left]
      refine ⟨[], after, ?_, rfl, ?_⟩
      · rw [List.nil_append, htext, htaken]
      · rw [htext, ← htaken, hread]
    · obtain ⟨before, after', rfl, hstart, hread'⟩ := ih hlater
      exact ⟨c :: before, after', rfl, by rw [hstart, List.length_cons]; omega, hread'⟩

theorem mem_occurrences (htakes : TakesFront read) {s : List Char} {occurrence : Occurrence α}
    (h : occurrence ∈ occurrences read s) :
    ∃ before after, s = before ++ (occurrence.text ++ after) ∧
      occurrence.start = before.length ∧
      read (occurrence.text ++ after) = some (occurrence.value, after) := by
  obtain ⟨before, after, hs, hstart, hread⟩ := mem_occurrencesFrom htakes h
  exact ⟨before, after, hs, by simpa using hstart, hread⟩

/-! ## Comment signs -/

/-- The end of a comment is all that trimming may take away. -/
theorem startsComment_trim (s : List Char) : startsComment (trim (commentSign ++ s)) = true := by
  have hstart : Stops isBlank (commentSign ++ s) := by
    rw [commentSign, List.cons_append, stops_cons]
    decide
  have hend : Stops isBlank commentSign.reverse := stops_cons.mpr (by decide)
  rw [trim, trimStart_eq_self hstart, trimEnd_append hend]
  exact List.isPrefixOf_iff_prefix.mpr (List.prefix_append _ _)

/-! ## Entities -/

/-- The body of an entity is the last thing in its text but for the closing brace. -/
theorem EntityText.exists_body {block : Block} {text : List Char} (h : EntityText block text) :
    ∃ head, text = head ++ block.body ++ ['}'] := by
  obtain ⟨before, head, hdeclared⟩ := h.exists_declared
  exact ⟨head ++ ['{'], by rw [hdeclared.eq]; simp⟩

theorem takesFront_readEntity : TakesFront readEntity := by
  intro s block rest h
  obtain ⟨text, htext, rfl⟩ := exists_entityText h
  obtain ⟨head, rfl⟩ := htext.exists_body
  exact ⟨_, by simp, rfl⟩

/-- The offset of the body of an entity, by what comes before it. -/
theorem Occurrence.bodyStart_eq {occurrence : Occurrence Block} {before head : List Char}
    (hstart : occurrence.start = before.length)
    (htext : occurrence.text = head ++ (occurrence.value.body ++ ['}'])) :
    occurrence.bodyStart = before.length + head.length := by
  unfold Occurrence.bodyStart Occurrence.stop
  rw [hstart, htext]
  simp only [List.length_append, List.length_singleton]
  omega

/-- What comes before the body of an entity that a scan found. -/
theorem exists_head_of_mem_occurrences {s : List Char} {occurrence : Occurrence Block}
    (h : occurrence ∈ occurrences readEntity s) :
    ∃ before head after, s = before ++ (head ++ (occurrence.value.body ++ '}' :: after)) ∧
      occurrence.start = before.length ∧
      occurrence.text = head ++ (occurrence.value.body ++ ['}']) := by
  obtain ⟨before, after, rfl, hstart, hread⟩ := mem_occurrences takesFront_readEntity h
  obtain ⟨text, htext, hsame⟩ := exists_entityText hread
  obtain ⟨head, hhead⟩ := htext.exists_body
  have hoccurrence : occurrence.text = head ++ (occurrence.value.body ++ ['}']) := by
    rw [← List.append_assoc, ← hhead]
    exact List.append_cancel_right hsame
  refine ⟨before, head, after, ?_, hstart, hoccurrence⟩
  rw [hoccurrence]
  simp only [List.append_assoc, List.singleton_append]

/-- The body of an entity that a scan finds stands in the text where `bodyStart` says. -/
theorem exists_body_of_mem_occurrences {s : List Char} {occurrence : Occurrence Block}
    (h : occurrence ∈ occurrences readEntity s) :
    ∃ before after, s = before ++ (occurrence.value.body ++ '}' :: after) ∧
      occurrence.bodyStart = before.length := by
  obtain ⟨before, head, after, hs, hstart, htext⟩ := exists_head_of_mem_occurrences h
  refine ⟨before ++ head, after, by rw [hs, List.append_assoc], ?_⟩
  rw [Occurrence.bodyStart_eq hstart htext, List.length_append]

end EntityScaffold.Document
