import EntityScaffold.Html.Basic
import Mathlib.Data.List.Infix

/-!
# Reading printed pages

A page is read off its lines as they are printed, each by itself and one character after the other.
What is read are the start tags, each with its attributes and with the text that follows it up to
the next tag. An attribute may have its value in quotation marks of either kind or in none, with
blanks around the equals sign; a tag that a line does not finish is read as far as it goes.

Nothing is escaped when a page is printed, so tags in a text are read like any others. Where names
and values of attributes do not end where they are not to (`IsPlainOpening`), the tags of an element
are its own and those of its parts (`tagsOf_element`), and an element around a text has its own and
those in the text (`tagsOf_leaf`).
-/

namespace EntityScaffold.Html

/-- A start tag as it is read: its attributes, and the text that follows it. -/
structure StartTag where
  attributes : List Attribute
  text : String
deriving DecidableEq, Repr

/-- The values that an attribute has in a start tag. -/
def StartTag.values (name : String) (tag : StartTag) : List String :=
  tag.attributes.filterMap fun given => if given.name = name then given.value else none

/-- Where in a line a reader is. -/
inductive State
  /-- In a text that follows no start tag. -/
  | outside
  /-- Behind an angle bracket. -/
  | opened
  /-- In the name of an element. -/
  | element
  /-- Behind attributes. -/
  | behind (given : List Attribute)
  /-- In the name of an attribute. -/
  | name (given : List Attribute) (read : List Char)
  /-- Before the value of an attribute. -/
  | equals (given : List Attribute) (name : List Char)
  /-- In a value between quotation marks. -/
  | quoted (given : List Attribute) (name : List Char) (mark : Char) (read : List Char)
  /-- In a value without quotation marks. -/
  | bare (given : List Attribute) (name read : List Char)
  /-- In the text that follows a start tag. -/
  | text (given : List Attribute) (read : List Char)

/-- Does a character separate what is in a tag? -/
def separates (c : Char) : Bool := c.isWhitespace || c == '/'

/-- Attributes with one more, of which the name was read. -/
def flagged (given : List Attribute) (name : List Char) : List Attribute :=
  given ++ [flag (String.ofList name)]

/-- Attributes with one more, of which the name and the value were read. -/
def valued (given : List Attribute) (name value : List Char) : List Attribute :=
  given ++ [attr (String.ofList name) (String.ofList value)]

namespace State

/-- Behind an equals sign that follows attributes: it belongs to the last of them, if that has no
value yet. -/
def behindEquals (given : List Attribute) : State :=
  match given.getLast? with
  | some ⟨key, none⟩ => equals given.dropLast key.toList
  | _ => name given ['=']

/-- Where a reader is after one more character. -/
def next : State → Char → State
  | outside, c => if c = '<' then opened else outside
  | opened, c => if c.isAlpha then element else if c = '<' then opened else outside
  | element, c => if c = '>' then text [] [] else if separates c then behind [] else element
  | behind given, c =>
    if c = '>' then text given []
    else if separates c then behind given
    else if c = '=' then behindEquals given
    else name given [c]
  | name given read, c =>
    if c = '>' then text (flagged given read) []
    else if separates c then behind (flagged given read)
    else if c = '=' then equals given read
    else name given (read ++ [c])
  | equals given key, c =>
    if c = '>' then text (valued given key []) []
    else if c.isWhitespace then equals given key
    else if c = '"' || c = '\'' then quoted given key c []
    else bare given key [c]
  | quoted given key mark read, c =>
    if c = mark then behind (valued given key read) else quoted given key mark (read ++ [c])
  | bare given key read, c =>
    if c = '>' then text (valued given key read) []
    else if c.isWhitespace then behind (valued given key read)
    else bare given key (read ++ [c])
  | text given read, c => if c = '<' then opened else text given (read ++ [c])

/-- The start tag that a reader is at, as far as it was read. -/
def tag? : State → Option StartTag
  | outside | opened | element => none
  | behind given => some ⟨given, ""⟩
  | name given read => some ⟨flagged given read, ""⟩
  | equals given key => some ⟨valued given key [], ""⟩
  | quoted given key _ read => some ⟨valued given key read, ""⟩
  | bare given key read => some ⟨valued given key read, ""⟩
  | text given read => some ⟨given, String.ofList read⟩

/-- The start tag that a reader leaves with a character: a text ends where an angle bracket
opens. -/
def left? : State → Char → Option StartTag
  | text given read, '<' => some ⟨given, String.ofList read⟩
  | _, _ => none

end State

/-- The start tags that are read from a place on. -/
def tagsFrom (state : State) : List Char → List StartTag
  | [] => state.tag?.toList
  | c :: later => (state.left? c).toList ++ tagsFrom (state.next c) later

/-- The start tags on a line. -/
def tagsOn (line : String) : List StartTag := tagsFrom .outside line.toList

/-- The start tags on lines, in order. -/
def tagsOf (lines : List String) : List StartTag := lines.flatMap tagsOn

/-! ## Parts of a line -/

section

variable {s : List Char}

theorem tagsFrom_outside (h : '<' ∉ s) (rest : List Char) :
    tagsFrom .outside (s ++ rest) = tagsFrom .outside rest := by
  induction s with
  | nil => rfl
  | cons c s ih =>
    rw [List.mem_cons, not_or] at h
    rw [List.cons_append, tagsFrom, State.next, if_neg (Ne.symm h.1), ih h.2]
    rfl

theorem tagsFrom_text (h : '<' ∉ s) (given : List Attribute) (read rest : List Char) :
    tagsFrom (.text given read) (s ++ rest) = tagsFrom (.text given (read ++ s)) rest := by
  induction s generalizing read with
  | nil => rw [List.append_nil, List.nil_append]
  | cons c s ih =>
    rw [List.mem_cons, not_or] at h
    have hleft : (State.text given read).left? c = none := by
      simp [State.left?, Ne.symm h.1]
    rw [List.cons_append, tagsFrom, hleft, State.next, if_neg (Ne.symm h.1), ih h.2]
    simp

theorem tagsFrom_quoted {mark : Char} (h : mark ∉ s) (given : List Attribute)
    (name read rest : List Char) :
    tagsFrom (.quoted given name mark read) (s ++ mark :: rest) =
      tagsFrom (.behind (valued given name (read ++ s))) rest := by
  induction s generalizing read with
  | nil => simp [tagsFrom, State.next, State.left?]
  | cons c s ih =>
    rw [List.mem_cons, not_or] at h
    rw [List.cons_append, tagsFrom, State.next, if_neg (Ne.symm h.1), ih h.2]
    simp [State.left?]

/-- The characters of a name of an attribute. -/
def IsTagWord (word : List Char) : Prop :=
  word ≠ [] ∧ ∀ c ∈ word, c ≠ '>' ∧ c ≠ '=' ∧ separates c = false

instance (word : List Char) : Decidable (IsTagWord word) :=
  decidable_of_iff
    (word ≠ [] ∧ word.all (fun c => c ≠ '>' && c ≠ '=' && !separates c) = true)
    (by simp [IsTagWord, and_assoc])

theorem IsTagWord.tagsFrom_name {word : List Char} (h : IsTagWord word) (given : List Attribute)
    (rest : List Char) :
    tagsFrom (.behind given) (word ++ rest) = tagsFrom (.name given word) rest := by
  have hname : ∀ read later, (∀ c ∈ later, c ∈ word) →
      tagsFrom (.name given read) (later ++ rest) =
        tagsFrom (.name given (read ++ later)) rest := by
    intro read later
    induction later generalizing read with
    | nil => simp
    | cons c later ih =>
      intro hlater
      obtain ⟨hclose, hequals, hseparates⟩ := h.2 c (hlater c List.mem_cons_self)
      rw [List.cons_append, tagsFrom, State.next, if_neg hclose, if_neg (by simp [hseparates]),
        if_neg hequals, ih _ fun d hd => hlater d (List.mem_cons_of_mem _ hd)]
      simp [State.left?]
  cases word with
  | nil => exact absurd rfl h.1
  | cons c word =>
    obtain ⟨hclose, hequals, hseparates⟩ := h.2 c List.mem_cons_self
    rw [List.cons_append, tagsFrom, State.next, if_neg hclose, if_neg (by simp [hseparates]),
      if_neg hequals, hname [c] word fun d hd => List.mem_cons_of_mem _ hd]
    rfl

end

/-! ## Tags as they are printed -/

/-- An attribute whose name and value do not end where they are not to. -/
structure Attribute.IsPlain (given : Attribute) : Prop where
  name : IsTagWord given.name.toList
  value : ∀ value ∈ given.value, '"' ∉ value.toList

instance (given : Attribute) : Decidable given.IsPlain :=
  decidable_of_iff (IsTagWord given.name.toList ∧ ∀ value ∈ given.value, '"' ∉ value.toList)
    ⟨fun h => ⟨h.1, h.2⟩, fun h => ⟨h.name, h.value⟩⟩

theorem isPlain_attr {name value : String} (hname : IsTagWord name.toList)
    (hvalue : '"' ∉ value.toList) : (attr name value).IsPlain where
  name := hname
  value := by
    intro other hother
    obtain rfl : value = other := Option.some.inj hother
    exact hvalue

/-- A printed attribute is read as itself, whether another one follows it or the tag ends. -/
theorem Attribute.IsPlain.tagsFrom_text {a : Attribute} (h : a.IsPlain)
    (given : List Attribute) {c : Char} (hc : c = ' ' ∨ c = '>') (rest : List Char) :
    tagsFrom (.behind given) (a.text.toList ++ c :: rest) =
      tagsFrom (.behind (given ++ [a])) (c :: rest) := by
  obtain ⟨hname, hvalue⟩ := h
  obtain ⟨name, value⟩ := a
  have hblank : ∀ later, tagsFrom (.behind given) (' ' :: later) =
      tagsFrom (.behind given) later := fun later => rfl
  cases value with
  | none =>
    have htext : (Attribute.text ⟨name, none⟩).toList = ' ' :: name.toList := by
      simp [Attribute.text, toString]
    rw [htext, List.cons_append, hblank, hname.tagsFrom_name]
    rcases hc with rfl | rfl <;>
      simp [tagsFrom, State.next, State.left?, flagged, flag, separates]
  | some value =>
    have htext : (Attribute.text ⟨name, some value⟩).toList =
        ' ' :: (name.toList ++ '=' :: '"' :: (value.toList ++ ['"'])) := by
      simp [Attribute.text, toString]
    have hquotes : ∀ later, tagsFrom (.name given name.toList) ('=' :: '"' :: later) =
        tagsFrom (.quoted given name.toList '"' []) later := fun later => rfl
    rw [htext]
    simp only [List.cons_append, List.append_assoc, List.nil_append]
    rw [hblank, hname.tagsFrom_name, hquotes, tagsFrom_quoted (hvalue value rfl)]
    simp [valued, attr]

/-- The name of an element: a letter, perhaps with letters and digits after it. -/
def IsElementName (word : List Char) : Prop :=
  word.head?.any Char.isAlpha = true ∧ ∀ c ∈ word, c.isAlphanum = true

instance (word : List Char) : Decidable (IsElementName word) :=
  decidable_of_iff (word.head?.any Char.isAlpha = true ∧ word.all Char.isAlphanum = true)
    (by simp [IsElementName])

theorem IsElementName.not_mem {word : List Char} (h : IsElementName word) {c : Char}
    (hc : c.isAlphanum = false) : c ∉ word := by
  intro hmem
  rw [h.2 c hmem] at hc
  exact absurd hc (by decide)

/-- The name and the attributes of an element that do not end where they are not to. -/
structure IsPlainOpening (tag : String) (attributes : List Attribute) : Prop where
  tag : IsElementName tag.toList
  attributes : ∀ a ∈ attributes, a.IsPlain

instance (tag : String) (attributes : List Attribute) : Decidable (IsPlainOpening tag attributes) :=
  decidable_of_iff (IsElementName tag.toList ∧ ∀ a ∈ attributes, a.IsPlain)
    ⟨fun h => ⟨h.1, h.2⟩, fun h => ⟨h.tag, h.attributes⟩⟩

theorem IsPlainOpening.concat {tag : String} {attributes : List Attribute}
    (h : IsPlainOpening tag attributes) {name value : String} (hname : IsTagWord name.toList)
    (hvalue : '"' ∉ value.toList) : IsPlainOpening tag (attributes ++ [attr name value]) where
  tag := h.tag
  attributes := List.forall_mem_append.mpr
    ⟨h.attributes, List.forall_mem_singleton.mpr (isPlain_attr hname hvalue)⟩

section

variable {tag : String} {attributes : List Attribute}

/-- Attributes begin with a blank, if there are any. -/
theorem exists_attributes_append (attributes : List Attribute) {c : Char} (hc : c = ' ' ∨ c = '>')
    (rest : List Char) : ∃ d more, (d = ' ' ∨ d = '>') ∧
      (attributes.map Attribute.text).flatMap String.toList ++ c :: rest = d :: more := by
  cases attributes with
  | nil => exact ⟨c, rest, hc, rfl⟩
  | cons first later =>
    obtain ⟨name, value⟩ := first
    cases value with
    | none => exact ⟨' ', _, .inl rfl, by simp [Attribute.text, toString]; rfl⟩
    | some value => exact ⟨' ', _, .inl rfl, by simp [Attribute.text, toString]; rfl⟩

/-- Printed attributes are read as themselves. -/
theorem tagsFrom_attributes (h : ∀ a ∈ attributes, a.IsPlain) (given : List Attribute) {c : Char}
    (hc : c = ' ' ∨ c = '>') (rest : List Char) :
    tagsFrom (.behind given) ((attributes.map Attribute.text).flatMap String.toList ++ c :: rest) =
      tagsFrom (.behind (given ++ attributes)) (c :: rest) := by
  induction attributes generalizing given with
  | nil => rw [List.append_nil, List.map_nil, List.flatMap_nil, List.nil_append]
  | cons first later ih =>
    have hfirst : first.IsPlain := h first List.mem_cons_self
    have hlater := ih (fun a ha => h a (List.mem_cons_of_mem _ ha)) (given ++ [first])
    obtain ⟨d, more, hd, hmore⟩ := exists_attributes_append later hc rest
    rw [List.map_cons, List.flatMap_cons, List.append_assoc, hmore, hfirst.tagsFrom_text given hd,
      ← hmore, hlater, List.append_assoc, List.singleton_append]

theorem tagsFrom_element {word : List Char} (h : ∀ c ∈ word, c.isAlphanum = true)
    (rest : List Char) : tagsFrom .element (word ++ rest) = tagsFrom .element rest := by
  induction word with
  | nil => rfl
  | cons c word ih =>
    have hc : c.isAlphanum = true := h c List.mem_cons_self
    have hnext : State.element.next c = .element := by
      have hclose : c ≠ '>' := by
        rintro rfl
        exact absurd hc (by decide)
      have hseparates : separates c = false := by
        rw [Bool.eq_false_iff]
        intro hsep
        simp only [separates, Char.isWhitespace, Bool.or_eq_true, decide_eq_true_iff,
          beq_iff_eq] at hsep
        rcases hsep with (((rfl | rfl) | rfl) | rfl) | rfl <;> exact absurd hc (by decide)
      rw [State.next, if_neg hclose, if_neg (by simp [hseparates])]
    rw [List.cons_append, tagsFrom, hnext, ih fun d hd => h d (List.mem_cons_of_mem _ hd)]
    rfl

/-- A printed opening is read as its attributes, whether it closes itself or not. -/
theorem tagsFrom_opening (h : IsPlainOpening tag attributes) {c : Char} (hc : c = ' ' ∨ c = '>')
    (rest : List Char) :
    tagsFrom .outside ('<' :: ((opening tag attributes).toList ++ c :: rest)) =
      tagsFrom (.behind attributes) (c :: rest) := by
  obtain ⟨hfirst, hword⟩ := h.tag
  obtain ⟨d, word, htag⟩ : ∃ d word, tag.toList = d :: word := by
    refine List.exists_cons_of_ne_nil fun hnil => ?_
    rw [hnil] at hfirst
    exact absurd hfirst (by decide)
  have halpha : d.isAlpha = true := by simpa [htag] using hfirst
  obtain ⟨e, more, he, hmore⟩ := exists_attributes_append attributes hc rest
  have hopening : (opening tag attributes).toList ++ c :: rest = d :: (word ++ e :: more) := by
    rw [opening, String.toList_append, htag, String.toList_join, List.append_assoc, hmore,
      List.cons_append]
  have hopened : ∀ later, tagsFrom .outside ('<' :: d :: later) = tagsFrom .element later := by
    intro later
    simp [tagsFrom, State.next, State.left?, halpha]
  have hbehind : tagsFrom .element (e :: more) = tagsFrom (.behind []) (e :: more) := by
    rcases he with rfl | rfl <;> rfl
  rw [hopening, hopened, tagsFrom_element fun c hc => hword c (htag ▸ List.mem_cons_of_mem d hc),
    hbehind, ← hmore, tagsFrom_attributes h.attributes [] hc, List.nil_append]

end

/-! ## Parts of a page -/

section

variable {tag : String} {attributes : List Attribute}

theorem tagsOf_append (lines later : List String) :
    tagsOf (lines ++ later) = tagsOf lines ++ tagsOf later := List.flatMap_append

/-- Where a line starts plays no part. -/
theorem tagsOf_indent (lines : List String) : tagsOf (indent lines) = tagsOf lines := by
  rw [tagsOf, indent, List.flatMap_map]
  refine List.flatMap_congr fun line _ => ?_
  split
  · rfl
  · rw [tagsOn, String.toList_append, tagsFrom_outside (by decide)]
    rfl

theorem tagsOf_linesOfAll (nodes : List Node) :
    tagsOf (linesOfAll nodes) = nodes.flatMap fun node => tagsOf node.lines := by
  induction nodes with
  | nil => rfl
  | cons node later ih => rw [linesOfAll, tagsOf_append, ih, List.flatMap_cons]

/-- The tags in a text that follows a start tag up to the end of its element, after the start tag
itself. -/
def tagsIn (attributes : List Attribute) (tag text : String) : List StartTag :=
  tagsFrom (.text attributes []) (text ++ ("</" ++ tag ++ ">")).toList

/-- There is no start tag in the end tag of an element. -/
theorem tagsFrom_closing (h : IsElementName tag.toList) :
    tagsFrom .opened ('/' :: (tag.toList ++ ['>'])) = [] := by
  have hrest : '<' ∉ tag.toList ++ ['>'] := by
    simp [h.not_mem (show '<'.isAlphanum = false by decide)]
  have houtside := tagsFrom_outside hrest []
  rw [List.append_nil] at houtside
  show tagsFrom .outside (tag.toList ++ ['>']) = []
  rw [houtside]
  rfl

/-- A text without angle brackets is read as it is. -/
theorem tagsIn_of_not_mem (htag : IsElementName tag.toList) {text : String}
    (h : '<' ∉ text.toList) : tagsIn attributes tag text = [⟨attributes, text⟩] := by
  have hclosing : ("</" ++ tag ++ ">").toList = '<' :: '/' :: (tag.toList ++ ['>']) := by simp
  rw [tagsIn, String.toList_append, tagsFrom_text h, List.nil_append, hclosing]
  show ⟨attributes, String.ofList text.toList⟩ ::
    tagsFrom .opened ('/' :: (tag.toList ++ ['>'])) = _
  rw [tagsFrom_closing htag, String.ofList_toList]

/-- The tags of an element are its own and those of its parts. -/
theorem tagsOf_element (h : IsPlainOpening tag attributes) (children : List Node) :
    tagsOf (Node.element tag attributes children).lines =
      ⟨attributes, ""⟩ :: children.flatMap fun child => tagsOf child.lines := by
  have hopening : tagsOn s!"<{opening tag attributes}>" = [⟨attributes, ""⟩] := by
    have hline : s!"<{opening tag attributes}>".toList =
        '<' :: ((opening tag attributes).toList ++ '>' :: []) := by simp [toString]
    rw [tagsOn, hline, tagsFrom_opening h (.inr rfl)]
    rfl
  have hclosing : tagsOn s!"</{tag}>" = [] := by
    have hline : s!"</{tag}>".toList = '<' :: '/' :: (tag.toList ++ ['>']) := by simp [toString]
    rw [tagsOn, hline]
    exact tagsFrom_closing h.tag
  rw [Node.lines, List.cons_append, tagsOf, List.flatMap_cons, hopening, List.flatMap_append,
    ← tagsOf, tagsOf_indent, tagsOf_linesOfAll, List.flatMap_singleton, hclosing, List.append_nil]
  rfl

/-- Those of an element around a text are its own and those in the text. -/
theorem tagsOf_leaf (h : IsPlainOpening tag attributes) (text : String) :
    tagsOf (Node.leaf tag attributes text).lines = tagsIn attributes tag text := by
  have hline : s!"<{opening tag attributes}>{text}</{tag}>".toList =
      '<' :: ((opening tag attributes).toList ++ '>' :: (text ++ ("</" ++ tag ++ ">")).toList) := by
    simp [toString]
  rw [Node.lines, tagsOf, List.flatMap_singleton, tagsOn, hline, tagsFrom_opening h (.inr rfl)]
  rfl

/-- Tags are read with values of all kinds. -/
example : tagsOf (Node.leaf "p" [attr "class" "x"] "a < b <i c=d e = 'f g' h>j").lines =
    [⟨[attr "class" "x"], "a "⟩, ⟨[attr "c" "d", attr "e" "f g", flag "h"], "j"⟩] := by
  decide

theorem tagsOf_void (h : IsPlainOpening tag attributes) :
    tagsOf (Node.void tag attributes).lines = [⟨attributes, ""⟩] := by
  have hline : s!"<{opening tag attributes} />".toList =
      '<' :: ((opening tag attributes).toList ++ ' ' :: "/>".toList) := by simp [toString]
  rw [Node.lines, tagsOf, List.flatMap_singleton, tagsOn, hline, tagsFrom_opening h (.inl rfl)]
  rfl

theorem tagsOf_blank : tagsOf Node.blank.lines = [] := by
  rw [Node.lines]
  rfl

end

end EntityScaffold.Html
