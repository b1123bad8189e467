import FunctionAdapters.Operation

/-!
Kind tags: one word for the kind of a parameter.  A later overload is told apart by the tags of its
parameters after a dollar sign.
-/

namespace FunctionAdapters

inductive KindTag where
  | bool
  | byte
  | short
  | int
  | long
  | char
  | float
  | double
  | void
  | array
  | obj
  | typeVar
  | unknown
  deriving DecidableEq, Repr, Inhabited

namespace KindTag

def ofPrimitive : Primitive → KindTag
  | .boolean => bool
  | .byte => byte
  | .short => short
  | .int => int
  | .long => long
  | .char => char
  | .float => float
  | .double => double

def ofShape : Shape → KindTag
  | .primitive p => ofPrimitive p
  | .void => void
  | .array _ => array
  | .declared .. => obj
  | .typeVar _ => typeVar
  | .wildcard | .wildcardExtends _ | .wildcardSuper _ | .top => unknown

def text : KindTag → String
  | bool => "Bool"
  | byte => "Byte"
  | short => "Short"
  | int => "Int"
  | long => "Long"
  | char => "Char"
  | float => "Float"
  | double => "Double"
  | void => "Void"
  | array => "Array"
  | obj => "Obj"
  | typeVar => "TypeVar"
  | unknown => "Unknown"

theorem text_injective {a b : KindTag} (h : a.text = b.text) : a = b := by
  revert h; cases a <;> cases b <;> decide

end KindTag

namespace Operation

/-- The tags of the parameters. -/
def kindTags (op : Operation) : List KindTag := op.parameters.map fun p => .ofShape p.type

/-- A name followed by a dollar sign and the tags of the parameters. -/
def disambiguated (op : Operation) (name : String) : String :=
  name ++ "$" ++ "_".intercalate (op.kindTags.map KindTag.text)

theorem disambiguated_ne (op : Operation) (name : String) : op.disambiguated name ≠ name := by
  intro h
  have hlen := congrArg String.length h
  simp only [disambiguated, String.length_append] at hlen
  have hdollar : "$".length = 1 := rfl
  omega

end Operation

end FunctionAdapters
