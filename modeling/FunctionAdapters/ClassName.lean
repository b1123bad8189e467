import FunctionAdapters.Text.Segments
import FunctionAdapters.Text.Uppercase

/-!
Class names: a package and a simple path, both dotted.  `ClassName.ofQualified` splits a full name
by the naming convention (packages are lowercase, classes start with a capital), `qualified` joins
the halves, and `sourceName` is what generated source writes.
-/

namespace FunctionAdapters

open Text

/-- A class: its package and its path inside the package (`Outer.Inner`). -/
structure ClassName where
  package : String
  simple : String
  deriving DecidableEq, Repr, Inhabited

namespace ClassName

/-- The package whose classes are written without it. -/
def langPackage : String := "java.lang"

/-- The root class. -/
def object : ClassName := ⟨langPackage, "Object"⟩

/-- The number of leading pieces that form the package: those before the first piece that starts
with an uppercase character, else all but the last. -/
def packageLength (upper : Char → Bool) (pieces : List (List Char)) : Nat :=
  (pieces.findIdx? fun piece => piece.head?.any upper).getD (pieces.length - 1)

/-- Splits a dotted name, given which characters are uppercase. -/
def ofQualifiedWith (upper : Char → Bool) (text : String) : ClassName :=
  let pieces := segments '.' text.toList
  let n := packageLength upper pieces
  { package := String.ofList (joined '.' (pieces.take n))
    simple := String.ofList (joined '.' (pieces.drop n)) }

/-- Splits a dotted name by the naming convention. -/
def ofQualified (text : String) : ClassName := ofQualifiedWith isUppercase text

/-- The dotted name; a class outside any package is its simple path. -/
def qualified (name : ClassName) : String :=
  if name.package = "" then name.simple else name.package ++ "." ++ name.simple

/-- The innermost class of the simple path. -/
def simpleName (name : ClassName) : String :=
  String.ofList (lastSegment '.' name.simple.toList)

def isLang (name : ClassName) : Bool := name.package = langPackage

/-- The name in generated source: members of the language package drop it. -/
def sourceName (name : ClassName) : String :=
  if name.isLang then name.simple else name.qualified

end ClassName

end FunctionAdapters
