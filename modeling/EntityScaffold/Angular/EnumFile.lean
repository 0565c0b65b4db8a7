import EntityScaffold.Model.Basic
import EntityScaffold.TypeScript.Code

/-!
# The file of an enumeration

A generated enumeration has one member for each value, repeats included, which stands for its own
name.
-/

namespace EntityScaffold.Angular

open TypeScript

def enumMember (value : String) : String := s!"{value} = '{value}',"

def enumFile (enumeration : Enumeration) : SourceFile where
  imports := []
  body := Code.block s!"export enum {enumeration.name} "
    (Code.lines (enumeration.values.map enumMember)) ""

end EntityScaffold.Angular
