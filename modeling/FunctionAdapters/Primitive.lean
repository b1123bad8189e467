import FunctionAdapters.ClassName

/-!
The primitive types, the keyword of each and the class a value of it is boxed into.
-/

namespace FunctionAdapters

inductive Primitive where
  | boolean
  | byte
  | short
  | int
  | long
  | char
  | float
  | double
  deriving DecidableEq, Repr, Inhabited

namespace Primitive

def keyword : Primitive → String
  | boolean => "boolean"
  | byte => "byte"
  | short => "short"
  | int => "int"
  | long => "long"
  | char => "char"
  | float => "float"
  | double => "double"

/-- The class that boxes values of a primitive. -/
def boxed (p : Primitive) : ClassName :=
  { package := ClassName.langPackage
    simple := match p with
      | boolean => "Boolean"
      | byte => "Byte"
      | short => "Short"
      | int => "Integer"
      | long => "Long"
      | char => "Character"
      | float => "Float"
      | double => "Double" }

/-- All primitives, in the order in which they are listed to a reader. -/
def all : List Primitive := [boolean, byte, short, int, long, char, float, double]

end Primitive

end FunctionAdapters
