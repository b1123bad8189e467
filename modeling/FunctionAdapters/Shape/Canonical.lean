import FunctionAdapters.TypeVar.Table

/-!
The canonical text of a shape: full class names, variables by declared name.  Every shape has one;
it serves as a sort key and in messages.
-/

namespace FunctionAdapters

/-- An argument list in angle brackets, or nothing for no arguments. -/
def angled (separator : String) (texts : List String) : String :=
  if texts.isEmpty then "" else "<" ++ separator.intercalate texts ++ ">"

namespace TypeVarTable

/-- The declared name of a variable, or its number after `#` when it has no entry. -/
def label (table : TypeVarTable) (id : TypeVarId) : String :=
  match table.get? id with
  | some param => param.name
  | none => "#" ++ toString id.toNat

end TypeVarTable

namespace Shape

mutual
/-- The canonical text of a shape. -/
def canonical (table : TypeVarTable) : Shape → String
  | .primitive p => p.keyword
  | .declared name args bounds =>
    if standsForBounds args bounds then "&".intercalate (canonicals table bounds)
    else name.qualified ++ angled "," (canonicals table args)
  | .array component => component.canonical table ++ "[]"
  | .wildcard => "?"
  | .wildcardExtends bound => "? extends " ++ bound.canonical table
  | .wildcardSuper bound => "? super " ++ bound.canonical table
  | .typeVar id => table.label id
  | .void => "void"
  | .top => "java.lang.Object"
/-- The canonical texts of some shapes. -/
def canonicals (table : TypeVarTable) : List Shape → List String
  | [] => []
  | s :: rest => s.canonical table :: canonicals table rest
end

end Shape

end FunctionAdapters
