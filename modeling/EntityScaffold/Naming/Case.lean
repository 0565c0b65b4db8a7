import EntityScaffold.Text.Word

/-!
# Words and spellings of a name

A name is a row of words without blanks: `HTTPServer2Item` is `HTTP`, `Server`, `2`, `Item`. A word
is a run of decimal digits, a run of small letters, a capital followed by small letters, or a run
of capitals; a run of capitals leaves its last one to the small letters that follow it. Only ASCII
letters count, and what is neither letter nor digit separates words and belongs to none.

Generated files are named in kebab case and the symbols in them in camel or pascal case. All three
are made from the words of a name, so what separates the words in the name does not matter.
-/

namespace EntityScaffold.Naming

/-- How many characters the word at the front of a text has: none if no word starts there. -/
def wordLength (s : List Char) : Nat :=
  let capitals := (s.takeWhile Char.isUpper).length
  let smalls := ((s.drop capitals).takeWhile Char.isLower).length
  if capitals = 0 then
    if smalls = 0 then (s.takeWhile Text.isDecimal).length else smalls
  else if smalls = 0 then capitals
  else if capitals = 1 then 1 + smalls
  else capitals - 1

def words : List Char → List (List Char)
  | [] => []
  | c :: rest =>
    match wordLength (c :: rest) with
    | 0 => words rest
    | more + 1 => (c :: rest.take more) :: words (rest.drop more)
termination_by s => s.length
decreasing_by all_goals simp only [List.length_cons, List.length_drop]; omega

def small (word : List Char) : List Char := word.map Char.toLower

/-- A word with a capital first letter and small letters after it. -/
def capitalized : List Char → List Char
  | [] => []
  | c :: rest => c.toUpper :: small rest

/-- A text with a capital first letter. -/
def upperFirst : List Char → List Char
  | [] => []
  | c :: rest => c.toUpper :: rest

/-- Words in kebab case: small, with hyphens between them. -/
def kebabOfWords (words : List (List Char)) : List Char := ['-'].intercalate (words.map small)

/-- Words in camel case: the first small, the others capitalized, nothing between them. -/
def camelOfWords : List (List Char) → List Char
  | [] => []
  | word :: later => small word ++ later.flatMap capitalized

def kebab (name : String) : String := String.ofList (kebabOfWords (words name.toList))

def camel (name : String) : String := String.ofList (camelOfWords (words name.toList))

/-- The pascal case of a name: its camel case with a capital first letter. -/
def pascal (name : String) : String :=
  String.ofList (upperFirst (camelOfWords (words name.toList)))

end EntityScaffold.Naming
