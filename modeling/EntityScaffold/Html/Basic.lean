/-!
# Pages

A generated page is a tree of elements. An element stands on lines of its own around its children,
or on one line around a text, or is empty and closes itself. Nothing is escaped: names, comments
and expressions go into a page as they are.
-/

namespace EntityScaffold.Html

/-- An attribute of an element, perhaps without a value. -/
structure Attribute where
  name : String
  value : Option String
deriving DecidableEq, Repr

/-- An attribute with a value. -/
def attr (name value : String) : Attribute := ⟨name, some value⟩

/-- An attribute without a value. -/
def flag (name : String) : Attribute := ⟨name, none⟩

/-- A part of a page. -/
inductive Node
  /-- An element around others. -/
  | element (tag : String) (attributes : List Attribute) (children : List Node)
  /-- An element around a text, on one line. -/
  | leaf (tag : String) (attributes : List Attribute) (text : String)
  /-- An element without content. -/
  | void (tag : String) (attributes : List Attribute)
  /-- An empty line. -/
  | blank

/-- An attribute after the name of its element. -/
def Attribute.text : Attribute → String
  | ⟨name, some value⟩ => s!" {name}=\"{value}\""
  | ⟨name, none⟩ => s!" {name}"

/-- What stands between the angle brackets that open an element. -/
def opening (tag : String) (attributes : List Attribute) : String :=
  tag ++ String.join (attributes.map Attribute.text)

/-- A value that a page shows: an expression between double braces. -/
def shown (expression : String) : String := "\x7b\x7b " ++ expression ++ " \x7d\x7d"

/-- Lines moved to the right by two columns. An empty line stays empty. -/
def indent (lines : List String) : List String :=
  lines.map fun line => if line.isEmpty then line else "  " ++ line

mutual

/-- The lines of a part of a page. -/
def Node.lines : Node → List String
  | .element tag attributes children =>
    s!"<{opening tag attributes}>" :: indent (linesOfAll children) ++ [s!"</{tag}>"]
  | .leaf tag attributes text => [s!"<{opening tag attributes}>{text}</{tag}>"]
  | .void tag attributes => [s!"<{opening tag attributes} />"]
  | .blank => [""]

/-- The lines of parts of a page, one after the other. -/
def linesOfAll : List Node → List String
  | [] => []
  | node :: later => node.lines ++ linesOfAll later

end

/-- A part of a page as it is printed. -/
def Node.text (node : Node) : String := String.join (node.lines.map (· ++ "\n"))

end EntityScaffold.Html
