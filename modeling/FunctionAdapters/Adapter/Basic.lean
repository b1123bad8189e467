/-!
Adapter types: `Action` for operations that give nothing back, `Func` for the others, each with the
number of its arguments or `N` when they come in one array.
-/

namespace FunctionAdapters

inductive AdapterFamily where
  | action
  | func
  deriving DecidableEq, Repr, Inhabited

namespace AdapterFamily

/-- The start of the names in a family. -/
def stem : AdapterFamily → String
  | action => "Action"
  | func => "Func"

end AdapterFamily

inductive AdapterArity where
  | fixed (count : Nat)
  | variadic
  deriving DecidableEq, Repr, Inhabited

namespace AdapterArity

/-- The greatest number of parameters with an adapter type of its own. -/
def maxFixed : Nat := 9

def ofCount (count : Nat) : AdapterArity := if count > maxFixed then variadic else fixed count

/-- The end of the names of this arity. -/
def suffix : AdapterArity → String
  | fixed count => toString count
  | variadic => "N"

end AdapterArity

/-- An adapter type and its full text. -/
structure AdapterType where
  family : AdapterFamily
  arity : AdapterArity
  text : String
  deriving DecidableEq, Repr, Inhabited

end FunctionAdapters
