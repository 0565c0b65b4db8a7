import EntityScaffold.Document.Comment
import EntityScaffold.Proofs.Document.Values

/-!
# What the lines of an entity hold

The offset of a line is that of its first character that is no blank: cut off the blanks around the
line and the offset still points at what is left (`exists_of_mem_bodyLines`). A line that begins
with a name, a gap and a type is a field, whatever follows (`readField_append`), and rules and a
comment written after the type are read back (`rulesAndComment_restText`).
-/

namespace EntityScaffold.Document

open Text

/-! ## Lines -/

/-- Every line of a body is a slice of the body that is made up of the lines, at its offset. -/
theorem exists_of_mem_bodyLinesFrom {start : Nat} {ls : List (List Char)} {line : BodyLine}
    (h : line ∈ bodyLinesFrom start ls) :
    ∃ before after, ['\n'].intercalate ls = before ++ (line.text ++ after) ∧
      line.offset = start + before.length := by
  induction ls generalizing start with
  | nil => exact absurd h List.not_mem_nil
  | cons first later ih =>
    rw [bodyLinesFrom] at h
    rcases List.mem_cons.mp h with rfl | hlater
    · obtain ⟨gap, -, hgap⟩ := exists_trimStart first
      obtain ⟨gap', -, hgap'⟩ := exists_trimEnd (trimStart first)
      have hoffset : first.length - (trimStart first).length = gap.length := by
        have hlength := congrArg List.length hgap
        rw [List.length_append] at hlength
        omega
      have hfirst : first = gap ++ (trim first ++ gap') := by
        rw [trim, ← hgap']
        exact hgap
      cases later with
      | nil =>
        refine ⟨gap, gap', ?_, by rw [hoffset]⟩
        rw [List.intercalate_singleton]
        exact hfirst
      | cons second later =>
        refine ⟨gap, gap' ++ '\n' :: ['\n'].intercalate (second :: later), ?_, by rw [hoffset]⟩
        calc ['\n'].intercalate (first :: second :: later)
            = first ++ ['\n'] ++ ['\n'].intercalate (second :: later) := List.intercalate_cons_cons
          _ = gap ++ (trim first ++ gap') ++ ['\n'] ++ ['\n'].intercalate (second :: later) := by
              rw [← hfirst]
          _ = _ := by simp only [List.append_assoc, List.singleton_append]
    · obtain ⟨before, after, htext, hoffset⟩ := ih hlater
      cases later with
      | nil => exact absurd hlater List.not_mem_nil
      | cons second later =>
        refine ⟨first ++ '\n' :: before, after, ?_, ?_⟩
        · rw [List.intercalate_cons_cons, htext]
          simp only [List.append_assoc, List.cons_append, List.nil_append]
        · rw [hoffset, List.length_append, List.length_cons]
          omega

/-- Every line of a body stands in the body at its offset. -/
theorem exists_of_mem_bodyLines {body : List Char} {line : BodyLine} (h : line ∈ bodyLines body) :
    ∃ before after, body = before ++ (line.text ++ after) ∧ line.offset = before.length := by
  obtain ⟨before, after, htext, hoffset⟩ := exists_of_mem_bodyLinesFrom h
  rw [lines, List.intercalate_splitOn] at htext
  exact ⟨before, after, htext, by rw [hoffset, Nat.zero_add]⟩

/-! ## Fields -/

theorem isBlank_of_isTypeChar {c : Char} (h : isTypeChar c = true) : isBlank c = false := by
  simp only [isTypeChar, Bool.or_eq_true, beq_iff_eq] at h
  rcases h with (h | rfl) | rfl
  · exact isBlank_of_isWord h
  · decide
  · decide

/-- A type as a line can declare it. -/
def IsDeclaredType (type : List Char) : Prop := type ≠ [] ∧ ∀ c ∈ type, isTypeChar c = true

instance (type : List Char) : Decidable (IsDeclaredType type) :=
  inferInstanceAs (Decidable (_ ∧ _))

/-- A line that is read as a field begins with a name, a gap and a type, each as long as can be, and
what follows on the line makes the rules and the comment. -/
theorem exists_of_readField {enumNames : List String} {line : List Char} {field : Field}
    (h : readField enumNames line = some field) :
    ∃ name gap type rest, IsName name ∧ IsGap gap ∧ IsDeclaredType type ∧ Stops isTypeChar rest ∧
      line = name ++ (gap ++ (type ++ rest)) ∧
      field = ⟨String.ofList name, String.ofList type, enumNames.contains (String.ofList type),
        (rulesAndComment (rest.takeWhile (· != '\n'))).1,
        (rulesAndComment (rest.takeWhile (· != '\n'))).2, none⟩ := by
  simp only [readField, Option.bind_eq_bind, Option.bind_eq_some_iff, Prod.exists] at h
  obtain ⟨name, afterName, hname, afterGap, hblanks, type, rest, htype, hfield⟩ := h
  obtain ⟨hne, hword, -, rfl⟩ := readRun_eq_some_iff.mp hname
  obtain ⟨-, gap, hgap, rfl⟩ := readBlanks_eq_some_iff.mp hblanks
  obtain ⟨htypeNe, htypeChars, hrest, rfl⟩ := readRun_eq_some_iff.mp htype
  exact ⟨name, gap, type, rest, ⟨hne, hword⟩, hgap, ⟨htypeNe, htypeChars⟩, hrest, rfl,
    (Option.some.inj hfield).symm⟩

/-- A name, a gap and a type make a field of a line, whatever follows them. -/
theorem readField_append (enumNames : List String) {name gap type rest : List Char}
    (hname : IsName name) (hgap : IsGap gap) (hne : type ≠ [])
    (htype : ∀ c ∈ type, isTypeChar c = true) (hrest : Stops isTypeChar rest)
    (hline : '\n' ∉ rest) :
    readField enumNames (name ++ (gap ++ (type ++ rest))) =
      some ⟨String.ofList name, String.ofList type, enumNames.contains (String.ofList type),
        (rulesAndComment rest).1, (rulesAndComment rest).2, none⟩ := by
  have hstart : Stops isBlank (type ++ rest) := by
    cases type with
    | nil => exact absurd rfl hne
    | cons c type => exact stops_cons.mpr (isBlank_of_isTypeChar (htype c List.mem_cons_self))
  have hrun : readRun isTypeChar (type ++ rest) = some (type, rest) :=
    readRun_eq_some_iff.mpr ⟨hne, htype, hrest, rfl⟩
  simp only [readField, Option.bind_eq_bind, hname.readName (hgap.stops_word _), Option.bind_some,
    hgap.readBlanks hstart, hrun, List.takeWhile_eq_self_iff.mpr (bne_of_not_mem hline)]
  rfl

/-- Away from a comment sign a character stays before the cut. -/
theorem cutAtComment_cons {c : Char} {rest : List Char} (h : startsComment (c :: rest) = false) :
    cutAtComment (c :: rest) = (c :: (cutAtComment rest).1, (cutAtComment rest).2) := by
  rw [cutAtComment]
  intro rest' hslash hsecond
  simp [startsComment, commentSign, hslash, hsecond] at h

/-- A text without a comment sign stays before the cut, if what follows does not begin with a
slash. -/
theorem cutAtComment_append {a : List Char} (h : Avoids commentSign a) {rest : List Char}
    (hrest : rest.head? ≠ some '/') :
    cutAtComment (a ++ rest) = (a ++ (cutAtComment rest).1, (cutAtComment rest).2) := by
  induction a with
  | nil => rfl
  | cons c a ih =>
    have ha : Avoids commentSign a := h.of_infix (List.suffix_cons c a).isInfix
    have hsign : startsComment (c :: (a ++ rest)) = false := by
      rw [Bool.eq_false_iff]
      intro hstarts
      obtain ⟨later, hlater⟩ := List.isPrefixOf_iff_prefix.mp hstarts
      obtain ⟨rfl, hnext⟩ := List.cons.inj hlater
      cases a with
      | nil =>
        -- the second slash would be the first character of the rest
        rw [List.nil_append] at hnext
        exact hrest (by rw [← hnext]; rfl)
      | cons d a =>
        obtain ⟨rfl, -⟩ := List.cons.inj hnext
        exact h ⟨[], a, rfl⟩
    rw [List.cons_append, cutAtComment_cons hsign, ih ha]
    rfl

/-- A rule is one word and begins no comment. -/
structure IsRule (s : List Char) : Prop where
  ne_nil : s ≠ []
  solid : ∀ c ∈ s, isBlank c = false
  avoids_sign : Avoids commentSign s
  avoids_opening : Avoids opening s

instance (s : List Char) : Decidable (IsRule s) :=
  decidable_of_iff (s ≠ [] ∧ (∀ c ∈ s, isBlank c = false) ∧ Avoids commentSign s ∧
    Avoids opening s)
    ⟨fun ⟨hne, hsolid, hsign, hopening⟩ => ⟨hne, hsolid, hsign, hopening⟩,
      fun ⟨hne, hsolid, hsign, hopening⟩ => ⟨hne, hsolid, hsign, hopening⟩⟩

/-- A rule as a line can have it: one word in which no comment begins. -/
structure IsRuleWord (s : List Char) : Prop where
  ne_nil : s ≠ []
  solid : ∀ c ∈ s, isBlank c = false
  avoids_sign : Avoids commentSign s

theorem IsRule.isRuleWord {s : List Char} (h : IsRule s) : IsRuleWord s :=
  ⟨h.ne_nil, h.solid, h.avoids_sign⟩

/-- What is written after the type of a field: each rule after a space, and after another space the
comment sign and what follows it, if there is a comment. -/
def restText (rules : List (List Char)) (remark : Option (List Char)) : List Char :=
  rules.flatMap (fun rule => ' ' :: rule) ++
    match remark with
    | some text => ' ' :: '/' :: '/' :: text
    | none => []

/-- It does not continue the type. -/
theorem stops_restText (rules : List (List Char)) (remark : Option (List Char)) :
    Stops isTypeChar (restText rules remark) := by
  cases rules with
  | nil =>
    cases remark with
    | none => exact stops_nil _
    | some text => exact stops_cons.mpr (by decide)
  | cons rule rules => exact stops_cons.mpr (by decide)

section Rules

variable {rules : List (List Char)} (h : ∀ rule ∈ rules, IsRuleWord rule)

include h

theorem avoids_sign_spaced : Avoids commentSign (rules.flatMap fun rule => ' ' :: rule) := by
  have hspace : ' ' ∉ commentSign := by simp [commentSign]
  have hnil : Avoids commentSign [] := by decide
  exact avoids_append_spaced hspace hnil fun rule hrule => (h rule hrule).avoids_sign

theorem fields_rules {tail : List Char} (htail : ∀ c ∈ tail, isBlank c = true) :
    fields (rules.flatMap (fun rule => ' ' :: rule) ++ tail) = rules :=
  fields_spaced (fun rule hrule => (h rule hrule).ne_nil) (fun rule hrule => (h rule hrule).solid)
    htail

theorem not_mem_restText {remark : Option (List Char)} (hremark : ∀ text ∈ remark, '\n' ∉ text) :
    '\n' ∉ restText rules remark := by
  unfold restText
  rw [List.mem_append, not_or]
  constructor
  · intro hmem
    obtain ⟨rule, hrule, hc⟩ := List.mem_flatMap.mp hmem
    rcases List.mem_cons.mp hc with hspace | hc
    · exact absurd hspace (by simp)
    · exact absurd ((h rule hrule).solid _ hc) (by decide)
  · cases remark with
    | none => exact List.not_mem_nil
    | some text => simpa using hremark text rfl

/-- Rules and a comment are read back as they are written. -/
theorem rulesAndComment_restText (remark : Option (List Char)) :
    rulesAndComment (restText rules remark) =
      (rules.map String.ofList, remark.map fun text => String.ofList (trim text)) := by
  unfold restText
  cases remark with
  | none =>
    have hcut := cutAtComment_append (avoids_sign_spaced h)
      (show ([] : List Char).head? ≠ some '/' by simp)
    have hfields := fields_rules h (show ∀ c ∈ ([] : List Char), isBlank c = true by simp)
    rw [rulesAndComment, hcut]
    simp only [cutAtComment, hfields, Option.map_none]
  | some text =>
    have hcut := cutAtComment_append (avoids_sign_spaced h)
      (show (' ' :: '/' :: '/' :: text).head? ≠ some '/' by simp)
    have hspace : cutAtComment (' ' :: '/' :: '/' :: text) = ([' '], some text) := by
      rw [cutAtComment_cons (by rfl)]
      rfl
    have hfields := fields_rules h (show ∀ c ∈ [' '], isBlank c = true by decide)
    rw [rulesAndComment, hcut, hspace]
    simp only [hfields, Option.map_some]

end Rules

end EntityScaffold.Document
