import EntityScaffold.Naming.EnglishWords
import EntityScaffold.Text.Lower
import EntityScaffold.Text.Word

/-!
# Plurals

A plural is made from the small letters of a name, either by adding an `s` or by the rules of
English. The English rules are tried in order, the special ones first, and the first that fits is
used; the last one fits every name. A rule looks at how a name ends: it keeps one part of the
ending, drops the other and adds a suffix.
-/

namespace EntityScaffold.Naming

/-- How plurals are made. -/
inductive PluralStyle
  | naive
  | english
deriving DecidableEq, Repr, Inhabited

namespace PluralStyle

def name : PluralStyle → String
  | naive => "naive"
  | english => "english"

def ofName? : String → Option PluralStyle
  | "naive" => some naive
  | "english" => some english
  | _ => none

end PluralStyle

/-- The plural that adds an `s` to whatever the name is. -/
def naivePlural (name : String) : String := Text.lower name ++ "s"

/-! ## Endings -/

/-- What one character of an ending may be. -/
inductive Letter
  | exactly (c : Char)
  | anyOf (choices : String)
  | noneOf (others : String)
  | beyondAscii

/-- Endings are compared without regard to case, so a dotless i reads as an i and a long s as an
s. -/
def foldLetter (c : Char) : Char := if c = 'ı' then 'i' else if c = 'ſ' then 's' else c

/-- May a character stand for a letter of an ending? -/
def Letter.admits (letter : Letter) (c : Char) : Bool :=
  let c := foldLetter c
  match letter with
  | exactly d => c == d
  | anyOf choices => choices.toList.contains c
  | noneOf others => !others.toList.contains c
  | beyondAscii => 128 ≤ c.toNat

/-- The letters of a text, each exactly. -/
def spelled (text : String) : List Letter := text.toList.map .exactly

/-- How a name may end: with letters that a plural keeps, then letters that it drops. -/
structure Ending where
  kept : List Letter
  dropped : List Letter

/-- How many letters an ending has. -/
def Ending.size (ending : Ending) : Nat := ending.kept.length + ending.dropped.length

/-- Does a text end in this way? -/
def Ending.fits (ending : Ending) (text : List Char) : Bool :=
  ending.size ≤ text.length &&
    ((ending.kept ++ ending.dropped).zip (text.drop (text.length - ending.size))).all
      fun (letter, c) => letter.admits c

/-- Where in a name an ending may start. -/
inductive Ending.Start
  | anywhere
  /-- Not after a word character. -/
  | word
  /-- At the start of the name. -/
  | name
deriving DecidableEq

/-- May an ending start after this text? -/
def Ending.Start.after : Ending.Start → List Char → Bool
  | anywhere, _ => true
  | word, before => match before.getLast? with
    | some c => !Text.isWord c
    | none => true
  | name, before => before.isEmpty

/-- A rule of plurals: endings, where they may start, and the suffix that replaces what they
drop. -/
structure PluralRule where
  endings : List Ending
  start : Ending.Start
  suffix : String

namespace PluralRule

/-- Endings put together from every choice of a kept and of a dropped part. -/
def replacing (kept dropped : List (List Letter)) (suffix : String) : PluralRule :=
  ⟨kept.flatMap fun stem => dropped.map fun tail => ⟨stem, tail⟩, .anywhere, suffix⟩

/-- Endings that a plural keeps as they are. -/
def keeping (kept : List (List Letter)) : PluralRule := replacing kept [[]] ""

/-- Of two endings that fit, the one with more letters counts; of two equally long, the first. -/
def longest : List Ending → Option Ending
  | [] => none
  | ending :: later =>
    match longest later with
    | none => some ending
    | some other => if other.size ≤ ending.size then some ending else some other

/-- The plural that a rule makes, if the rule fits. -/
def pluralOf? (rule : PluralRule) (text : List Char) : Option (List Char) :=
  let fitting := rule.endings.filter fun ending =>
    ending.fits text && rule.start.after (text.take (text.length - ending.size))
  (longest fitting).map fun ending =>
    text.take (text.length - ending.dropped.length) ++ rule.suffix.toList

end PluralRule

/-! ## The rules of English -/

open PluralRule Letter

/-- The rules, in the order in which they are tried. -/
def englishRules : List PluralRule :=
  let each := List.map spelled
  [keeping (each ["sheep", "pox"]),
    keeping [[exactly 'o', anyOf "iu", exactly 's']],
    keeping (each ["measles", "fish", "deer"]),
    keeping [noneOf "aeiou" :: spelled "ese"],
    keeping [spelled "pok" ++ anyOf "eé" :: spelled "mon"],
    { replacing [[]] (each ["thou"]) "you" with start := .name },
    replacing [[]] (each ["man", "men"]) "men",
    keeping (each ["eaux"]),
    replacing (each ["child"]) (each ["ren", ""]) "ren",
    replacing (each ["pe"]) (each ["rson", "ople"]) "ople",
    { replacing (each ["titm", "m", "l"]) (each ["ice", "ouse"]) "ice" with start := .word },
    replacing (each ["matr", "cod", "mur", "sil", "vert", "ind", "append"]) (each ["ix", "ex"])
      "ices",
    replacing (each ["x", "ch", "ss", "sh", "zz"]) [[]] "es",
    replacing [[noneOf "ch", anyOf "ieo", anyOf "ln"]] (each ["ey"]) "ies",
    replacing [[noneOf "aeiouy"], spelled "qu"] (each ["y"]) "ies",
    ⟨(replacing (each ["kni", "wi", "li"]) (each ["fe"]) "").endings ++
      (replacing (each ["ar", "l", "ea", "eo", "oa", "hoo"]) (each ["f"]) "").endings,
      .anywhere, "ves"⟩,
    replacing [[]] (each ["sis"]) "ses",
    replacing (each ["apheli", "hyperbat", "periheli", "asyndet", "noumen", "phenomen", "criteri",
      "organ", "prolegomen", "hedr", "automat"]) (each ["a", "on"]) "a",
    replacing (each ["agend", "addend", "millenni", "dat", "extrem", "bacteri", "desiderat",
      "strat", "candelabr", "errat", "ov", "symposi", "curricul", "automat", "quor"])
      (each ["a", "um"]) "a",
    replacing (each ["hero", "ato", "gro"]) [[]] "es",
    replacing (each ["seraph", "cherub"]) (each ["im", ""]) "im",
    replacing (each ["alumn", "alg", "vertebr"]) (each ["a", "ae"]) "ae",
    replacing (each ["alumn", "syllab", "vir", "radi", "nucle", "fung", "cact", "stimul",
      "termin", "bacill", "foc", "uter", "loc", "strat"]) (each ["us", "i"]) "i",
    keeping [noneOf "l" :: spelled "ias", anyOf "aeiou" :: spelled "las",
      anyOf "ejzr" :: spelled "as", anyOf "iu" :: spelled "am"],
    replacing [[exactly 'e', anyOf "mn", exactly 'u']] (each ["s", ""]) "s",
    replacing [spelled "alias", noneOf "aou" :: spelled "us",
      [exactly 't', anyOf "lm", exactly 'a', exactly 's'], spelled "gas", spelled "ris"] [[]] "es",
    replacing (each ["ax", "test"]) (each ["is"]) "es",
    keeping [[beyondAscii]],
    replacing [[]] (each ["s", ""]) "s"]

/-- The first plural that a rule makes. -/
def pluralByRules (text : List Char) : List Char :=
  (englishRules.findSome? fun rule => rule.pluralOf? text).getD text

/-- The English plural of a name in small letters. A line feed at its end is not part of the
ending. -/
def pluralOfLower (name : String) : String :=
  if irregularPlurals.any fun (_, many) => many == name then name
  else match irregularPlurals.lookup name with
    | some many => many
    | none =>
      if name = "" ∨ name ∈ uncountables then name
      else
        let text := name.toList
        if text.getLast? = some '\n' then
          String.ofList (pluralByRules text.dropLast ++ ['\n'])
        else String.ofList (pluralByRules text)

def englishPlural (name : String) : String := pluralOfLower (Text.lower name)

/-- The plural of a name in a style. -/
def plural (style : PluralStyle) (name : String) : String :=
  match style with
  | .naive => naivePlural name
  | .english => englishPlural name

end EntityScaffold.Naming
