import EntityScaffold.Document.Parse
import EntityScaffold.Proofs.Document.Grammar
import EntityScaffold.Proofs.Document.Stripping
import EntityScaffold.Proofs.Text.Returns

/-!
# Reading a text with returns

A document whose lines end with a carriage return and a line feed is the one whose lines end with a
line feed, with returns put in. Comments are cut out at the same characters (`strip_withReturns`),
and an offset keeps its line and its column (`placeAt_withReturns`). Each reader commutes with
putting the returns in: it takes the same names and keywords off, its rest and the body of a block
have returns put in, and it fails on the one text if it does on the other
(`readEntity_withReturns`).
-/

namespace EntityScaffold.Document

open Text

/-! ## Comments -/

theorem cutAfterClosing_withReturns (s : List Char) :
    cutAfterClosing (withReturns s) =
      (cutAfterClosing s).map fun (inside, rest) => (withReturns inside, withReturns rest) := by
  fun_induction cutAfterClosing s with
  | case1 rest =>
    rw [withReturns_cons (by decide), withReturns_cons (by decide), cutAfterClosing]
    rfl
  | case2 c rest hno ih =>
    by_cases hfeed : c = '\n'
    · subst hfeed
      rw [withReturns_lineFeed, cutAfterClosing_cons (by simp), cutAfterClosing_cons (by simp), ih,
        Option.map_map, Option.map_map, Option.map_map]
      rfl
    · have hhead : c = '*' → (withReturns rest).head? ≠ some '/' := by
        rintro rfl hslash
        obtain ⟨after, rfl⟩ := List.head?_eq_some_iff.mp
          ((head?_withReturns (by decide) (by decide)).mp hslash)
        exact hno after rfl rfl
      rw [withReturns_cons hfeed, cutAfterClosing_cons hhead, ih, Option.map_map, Option.map_map]
      exact congrArg (Option.map · (cutAfterClosing rest))
        (funext fun found => Prod.ext (withReturns_cons hfeed found.1).symm rfl)
  | case3 => rfl

theorem cutComment_withReturns (s : List Char) :
    cutComment (withReturns s) = (cutComment s).map fun (kept, comment, rest) =>
      (withReturns kept, withReturns comment, withReturns rest) := by
  fun_induction cutComment s with
  | case1 rest =>
    rw [withReturns_cons (by decide), withReturns_cons (by decide), cutComment,
      cutAfterClosing_withReturns, Option.map_map, Option.map_map]
    exact congrArg (Option.map · (cutAfterClosing rest))
      (funext fun found => by simp [withReturns_eq_self (s := opening) (by decide)])
  | case2 c rest hno ih =>
    by_cases hfeed : c = '\n'
    · subst hfeed
      rw [withReturns_lineFeed, cutComment_cons (by simp), cutComment_cons (by simp), ih,
        Option.map_map, Option.map_map, Option.map_map]
      rfl
    · have hhead : c = '/' → (withReturns rest).head? ≠ some '*' := by
        rintro rfl hstar
        obtain ⟨after, rfl⟩ := List.head?_eq_some_iff.mp
          ((head?_withReturns (by decide) (by decide)).mp hstar)
        exact hno after rfl rfl
      rw [withReturns_cons hfeed, cutComment_cons hhead, ih, Option.map_map, Option.map_map]
      exact congrArg (Option.map · (cutComment rest))
        (funext fun found => Prod.ext (withReturns_cons hfeed found.1).symm rfl)
  | case3 => rfl

/-- A layout, returns put in everywhere. -/
def Layout.withReturns (layout : Layout) : Layout where
  stretches := layout.stretches.map fun stretch =>
    ⟨Text.withReturns stretch.kept, Text.withReturns stretch.comment⟩
  rest := Text.withReturns layout.rest

theorem Layout.ofText_withReturns (text : List Char) :
    Layout.ofText (Text.withReturns text) = (Layout.ofText text).withReturns := by
  induction text using Layout.ofText.induct with
  | case1 text hnone =>
    have hcut := cutComment_withReturns text
    rw [hnone] at hcut
    rw [ofText_of_none hcut, ofText_of_none hnone]
    rfl
  | case2 text kept comment after hsome ih =>
    have hcut := cutComment_withReturns text
    rw [hsome] at hcut
    rw [ofText_of_some hcut, ofText_of_some hsome, ih]
    rfl

/-- A removal from a text, as it is when returns are put into the text. -/
def Removal.withReturns (plain : List Char) (removal : Removal) : Removal :=
  { removal with offset := moved plain removal.offset }

/-- A text out of which comments were taken, returns put in everywhere. -/
def Source.withReturns (source : Source) : Source :=
  ⟨Text.withReturns source.plain, source.removals.map (Removal.withReturns source.plain)⟩

theorem removalsFrom_withReturns (before rest : List Char) (stretches : List Stretch) :
    removalsFrom (withReturns before).length (Layout.withReturns ⟨stretches, rest⟩).stretches =
      (removalsFrom before.length stretches).map
        (Removal.withReturns (before ++ (stretches.flatMap Stretch.kept ++ rest))) := by
  induction stretches generalizing before with
  | nil => rfl
  | cons stretch later ih =>
    have hlater := ih (before ++ stretch.kept)
    rw [withReturns_append, List.length_append, List.length_append] at hlater
    have hmoved : moved (before ++ (stretch.kept ++ (later.flatMap Stretch.kept ++ rest)))
        (before.length + stretch.kept.length) =
          (withReturns before).length + (withReturns stretch.kept).length := by
      rw [moved_append, moved_append_length]
    rw [removalsFrom, List.map_cons, Removal.withReturns, List.flatMap_cons, List.append_assoc,
      hmoved]
    simp only [Layout.withReturns, List.map_cons, removalsFrom, count_withReturns,
      List.append_assoc] at hlater ⊢
    rw [hlater]

theorem strip_withReturns (text : List Char) :
    Source.strip (withReturns text) = (Source.strip text).withReturns := by
  have hremovals := removalsFrom_withReturns [] (Layout.ofText text).rest
    (Layout.ofText text).stretches
  rw [Source.strip, Layout.ofText_withReturns, Source.withReturns, Source.mk.injEq]
  refine ⟨?_, hremovals⟩
  simp [Source.strip, Layout.plain, Layout.withReturns, Text.withReturns, List.flatMap_assoc,
    List.flatMap_map]

/-! ## Places -/

theorem offset_le_of_mem_removalsFrom {start : Nat} {stretches : List Stretch} {removal : Removal}
    (h : removal ∈ removalsFrom start stretches) :
    removal.offset ≤ start + (stretches.flatMap Stretch.kept).length := by
  induction stretches generalizing start with
  | nil => exact absurd h List.not_mem_nil
  | cons stretch later ih =>
    rw [List.flatMap_cons, List.length_append]
    rcases List.mem_cons.mp h with rfl | hlater
    · simp only
      omega
    · have := ih hlater
      omega

/-- What is taken out of a text was in it. -/
theorem offset_le_of_mem_removals {text : List Char} {removal : Removal}
    (h : removal ∈ (Source.strip text).removals) :
    removal.offset ≤ (Source.strip text).plain.length := by
  have hle := offset_le_of_mem_removalsFrom h
  rw [Source.strip, Layout.plain, List.length_append]
  omega

/-- The removals up to an offset are the same ones. -/
theorem lineEndsUpTo_moved {plain : List Char} {offset : Nat} (hoffset : offset ≤ plain.length)
    {removals : List Removal} (h : ∀ removal ∈ removals, removal.offset ≤ plain.length) :
    lineEndsUpTo (moved plain offset) (removals.map (Removal.withReturns plain)) =
      lineEndsUpTo offset removals := by
  induction removals with
  | nil => rfl
  | cons removal later ih =>
    have hfirst : moved plain removal.offset ≤ moved plain offset ↔ removal.offset ≤ offset :=
      (strictMonoOn_moved plain).le_iff_le (h removal List.mem_cons_self) hoffset
    rw [List.map_cons, lineEndsUpTo, lineEndsUpTo,
      ih fun other hother => h other (List.mem_cons_of_mem _ hother)]
    simp only [Removal.withReturns, hfirst]

theorem lineNumber_withReturns {text : List Char} {offset : Nat}
    (h : offset ≤ (Source.strip text).plain.length) :
    (Source.strip text).withReturns.lineNumber (moved (Source.strip text).plain offset) =
      (Source.strip text).lineNumber offset := by
  have hhidden := lineEndsUpTo_moved h fun _ => offset_le_of_mem_removals
  simp only [Source.lineNumber, Source.withReturns, lineNumber_moved, hhidden]

/-- **Places.** An offset keeps its line and its column. -/
theorem placeAt_withReturns {text : List Char} {offset : Nat}
    (h : offset ≤ (Source.strip text).plain.length) :
    (Source.strip text).withReturns.placeAt (moved (Source.strip text).plain offset) =
      (Source.strip text).placeAt offset := by
  rw [Source.placeAt, lineNumber_withReturns h, Source.placeAt]
  simp only [Source.columnNumber, Source.withReturns, columnNumber_moved h]

/-! ## Readers -/

/-- Steps that commute with a change, one after the other. -/
theorem bind_eq_map_bind {α α' β β' : Type} {first : Option α} {first' : Option α'}
    {next : α → Option β} {next' : α' → Option β'} {f : α → α'} {g : β → β'}
    (hfirst : first' = first.map f) (hnext : ∀ value, next' (f value) = (next value).map g) :
    first'.bind next' = (first.bind next).map g := by
  subst hfirst
  cases first with
  | none => rfl
  | some value => exact hnext value

/-- No line end stands in a literal of the grammar. -/
theorem readLiteral_withReturns (literal : List Char) (hreturn : '\r' ∉ literal)
    (hfeed : '\n' ∉ literal) (s : List Char) :
    readLiteral literal (withReturns s) = (readLiteral literal s).map withReturns := by
  induction literal generalizing s with
  | nil => rfl
  | cons w literal ih =>
    rw [List.mem_cons, not_or] at hreturn hfeed
    cases s with
    | nil => rfl
    | cons c s =>
      by_cases hc : c = '\n'
      · subst hc
        rw [withReturns_lineFeed, readLiteral, readLiteral, if_neg (Ne.symm hreturn.1),
          if_neg (Ne.symm hfeed.1)]
        rfl
      · rw [withReturns_cons hc, readLiteral, readLiteral]
        split
        · exact ih hreturn.2 hfeed.2 s
        · rfl

/-- A run of a class that has both line ends or neither. -/
theorem readRun_withReturns {p : Char → Bool} (hp : p '\r' = p '\n') (s : List Char) :
    readRun p (withReturns s) =
      (readRun p s).map fun (run, rest) => (withReturns run, withReturns rest) := by
  unfold readRun
  rw [takeWhile_withReturns hp, dropWhile_withReturns hp]
  cases hrun : s.takeWhile p with
  | nil => rfl
  | cons c run =>
    have hne : withReturns (c :: run) ≠ [] := by simp
    split
    · rename_i hnil
      exact absurd hnil hne
    · rfl

theorem readBlanks_withReturns (s : List Char) :
    readBlanks (withReturns s) = (readBlanks s).map withReturns := by
  rw [readBlanks, readRun_withReturns isBlank_return, Option.map_map, readBlanks, Option.map_map]
  rfl

/-- No line end stands in a name. -/
theorem readName_withReturns (s : List Char) :
    readName (withReturns s) = (readName s).map fun (name, rest) => (name, withReturns rest) := by
  have hfeed : isWord '\n' = false := by decide
  rw [readName, readRun_withReturns (by decide)]
  unfold readName
  cases hread : readRun isWord s with
  | none => rfl
  | some found =>
    obtain ⟨name, rest⟩ := found
    obtain ⟨hne, hword, -⟩ := readRun_eq_some_iff.mp hread
    have hname : IsName name := ⟨hne, hword⟩
    simp only [Option.map_some, withReturns_eq_self (hname.not_mem hfeed)]

/-- A block, returns put into its body. -/
def Block.withReturns (block : Block) : Block :=
  { block with body := Text.withReturns block.body }

theorem readBlock_withReturns (keyword : String) (hreturn : '\r' ∉ keyword.toList)
    (hfeed : '\n' ∉ keyword.toList) (s : List Char) :
    readBlock keyword (withReturns s) = (readBlock keyword s).map
      fun (block, rest) => (block.withReturns, withReturns rest) := by
  refine bind_eq_map_bind (readLiteral_withReturns _ hreturn hfeed s) fun s => ?_
  refine bind_eq_map_bind (readBlanks_withReturns s) fun s => ?_
  refine bind_eq_map_bind (readName_withReturns s) fun ⟨name, s⟩ => ?_
  have hopen := readLiteral_withReturns ['{'] (by decide) (by decide) (trimStart s)
  rw [← trimStart_withReturns] at hopen
  refine bind_eq_map_bind hopen fun s => ?_
  refine bind_eq_map_bind (readRun_withReturns (by decide) s) fun ⟨body, s⟩ => ?_
  refine bind_eq_map_bind (readLiteral_withReturns _ (by decide) (by decide) s) fun s => ?_
  rfl

theorem readEntity_withReturns (s : List Char) :
    readEntity (withReturns s) = (readEntity s).map
      fun (block, rest) => (block.withReturns, withReturns rest) := by
  have hblock := readBlock_withReturns "entity" (by decide) (by decide)
  unfold readEntity
  rw [readLiteral_withReturns _ (by decide) (by decide)]
  cases readLiteral auditMark.toList s with
  | none => exact hblock s
  | some rest => exact bind_eq_map_bind (readBlanks_withReturns rest) hblock

theorem readCardinality_withReturns (s : List Char) :
    readCardinality (withReturns s) = (readCardinality s).map
      fun (cardinality, rest) => (cardinality, withReturns rest) := by
  have hkeyword : ∀ cardinality : Cardinality,
      '\r' ∉ cardinality.keyword.toList ∧ '\n' ∉ cardinality.keyword.toList := by
    intro cardinality
    cases cardinality <;> decide
  unfold readCardinality
  induction Cardinality.all with
  | nil => rfl
  | cons cardinality later ih =>
    obtain ⟨hreturn, hfeed⟩ := hkeyword cardinality
    rw [List.findSome?_cons, List.findSome?_cons, readLiteral_withReturns _ hreturn hfeed]
    cases readLiteral cardinality.keyword.toList s with
    | none => exact ih
    | some rest => rfl

/-- Take a name in parentheses off the front. -/
def readParenthesized (s : List Char) : Option (List Char × List Char) := do
  let s ← readLiteral ['('] s
  let (role, s) ← readName s
  let s ← readLiteral [')'] s
  return (role, s)

theorem readParenthesized_withReturns (s : List Char) :
    readParenthesized (withReturns s) = (readParenthesized s).map
      fun (role, rest) => (role, withReturns rest) := by
  refine bind_eq_map_bind (readLiteral_withReturns _ (by decide) (by decide) s) fun s => ?_
  refine bind_eq_map_bind (readName_withReturns s) fun ⟨role, s⟩ => ?_
  refine bind_eq_map_bind (readLiteral_withReturns _ (by decide) (by decide) s) fun s => ?_
  rfl

theorem readRole_eq (s : List Char) :
    readRole s = match readParenthesized s with
      | some (role, rest) => (some role, rest)
      | none => (none, s) := rfl

theorem readRole_withReturns (s : List Char) :
    readRole (withReturns s) = ((readRole s).1, withReturns (readRole s).2) := by
  rw [readRole_eq, readRole_eq, readParenthesized_withReturns]
  cases readParenthesized s with
  | none => rfl
  | some found => rfl

theorem readEndpoint_withReturns (s : List Char) :
    readEndpoint (withReturns s) = (readEndpoint s).map
      fun (endpoint, rest) => (endpoint, withReturns rest) := by
  refine bind_eq_map_bind (readName_withReturns s) fun ⟨name, s⟩ => ?_
  simp only [readRole_withReturns]
  rfl

theorem readRelationship_withReturns (s : List Char) :
    readRelationship (withReturns s) = (readRelationship s).map
      fun (relationship, rest) => (relationship, withReturns rest) := by
  refine bind_eq_map_bind (readLiteral_withReturns _ (by decide) (by decide) s) fun s => ?_
  refine bind_eq_map_bind (readBlanks_withReturns s) fun s => ?_
  refine bind_eq_map_bind (readCardinality_withReturns s) fun ⟨cardinality, s⟩ => ?_
  have hopen := readLiteral_withReturns ['{'] (by decide) (by decide) (trimStart s)
  rw [← trimStart_withReturns] at hopen
  refine bind_eq_map_bind hopen fun s => ?_
  have hsource := readEndpoint_withReturns (trimStart s)
  rw [← trimStart_withReturns] at hsource
  refine bind_eq_map_bind hsource fun ⟨source, s⟩ => ?_
  refine bind_eq_map_bind (readBlanks_withReturns s) fun s => ?_
  refine bind_eq_map_bind (readLiteral_withReturns _ (by decide) (by decide) s) fun s => ?_
  refine bind_eq_map_bind (readBlanks_withReturns s) fun s => ?_
  refine bind_eq_map_bind (readEndpoint_withReturns s) fun ⟨target, s⟩ => ?_
  have hclose := readLiteral_withReturns ['}'] (by decide) (by decide) (trimStart s)
  rw [← trimStart_withReturns] at hclose
  refine bind_eq_map_bind hclose fun s => ?_
  rfl

end EntityScaffold.Document
