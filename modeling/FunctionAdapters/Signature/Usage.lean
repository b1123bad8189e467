import FunctionAdapters.Shape.Canonical
import FunctionAdapters.TypeVar.Names

/-!
The text of a shape where it is used.  Whether a shape has one depends on where it stands: a
wildcard only as a type argument, `void` only as a whole type, the root bound nowhere.  Primitives
are boxed except as array components.
-/

namespace FunctionAdapters

/-- Where a shape stands in the text around it. -/
inductive Position where
  /-- A whole type: parameter, return type, adapter argument. -/
  | whole
  /-- An argument between angle brackets. -/
  | argument
  /-- The bound of a declared type variable. -/
  | bound
  /-- The bound of a wildcard, or a component of an intersection. -/
  | nested
  | component
  deriving DecidableEq, Repr, Inhabited

namespace Position

def describe : Position → String
  | whole => "type"
  | argument => "type argument"
  | bound => "bound"
  | nested => "nested bound"
  | component => "array component"

end Position

/-- A shape, given by its canonical text, that has no text where it stands. -/
structure UnsupportedShape where
  shape : String
  position : Position
  deriving DecidableEq, Repr, Inhabited

namespace UnsupportedShape

def message (e : UnsupportedShape) : String :=
  "unsupported type shape `" ++ e.shape ++ "` in " ++ e.position.describe ++ " position"

end UnsupportedShape

/-- What type variables stand for and how they are called. -/
structure Vocabulary where
  table : TypeVarTable
  names : TypeVarNames

namespace Vocabulary

/-- How a variable with the given entry is written: by its given name, else by its declared one. -/
def write (v : Vocabulary) (id : TypeVarId) (param : TypeParam) : String :=
  ((v.names.get? id).map VarName.text).getD param.name

end Vocabulary

namespace Shape

/-- The report that a shape has no text. -/
def unsupported (v : Vocabulary) (position : Position) (s : Shape) : UnsupportedShape :=
  ⟨s.canonical v.table, position⟩

mutual
/-- The text of a shape where it is used. -/
def usage (v : Vocabulary) (position : Position) (s : Shape) : Except UnsupportedShape String :=
  match s with
  | .primitive p => .ok (if position = .component then p.keyword else p.boxed.sourceName)
  | .declared name args bounds =>
    if position = .bound ∧ standsForBounds args bounds then do
      return " & ".intercalate (← usages v .nested bounds)
    else do
      return name.sourceName ++ angled ", " (← usages v .argument args)
  | .array component => do return (← component.usage v .component) ++ "[]"
  | .wildcard => if position = .argument then .ok "?" else .error (unsupported v position s)
  | .wildcardExtends bound =>
    if position = .argument then do return "? extends " ++ (← bound.usage v .nested)
    else .error (unsupported v position s)
  | .wildcardSuper bound =>
    if position = .argument then do return "? super " ++ (← bound.usage v .nested)
    else .error (unsupported v position s)
  | .typeVar id =>
    match v.table.get? id with
    | some param => .ok (v.write id param)
    | none => .error (unsupported v position s)
  | .void => if position = .whole then .ok "void" else .error (unsupported v position s)
  | .top => .error (unsupported v position s)
/-- The texts of some shapes, all in one position. -/
def usages (v : Vocabulary) (position : Position) : List Shape →
    Except UnsupportedShape (List String)
  | [] => .ok []
  | s :: rest => do
    let text ← s.usage v position
    let texts ← usages v position rest
    return text :: texts
end

end Shape

end FunctionAdapters
