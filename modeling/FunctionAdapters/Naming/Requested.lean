import FunctionAdapters.Erasure
import FunctionAdapters.Operation

/-!
The name an operation asks for: `new` and the class for a constructor, otherwise its own name or
the one given for it, with an underscore where the generated factory would override or hide a
method that every class inherits.
-/

namespace FunctionAdapters

/-- The methods that every class inherits, with the erasures of their parameters. -/
def rootMethods : List (String × List String) := [
  ("clone", []),
  ("equals", ["java.lang.Object"]),
  ("finalize", []),
  ("getClass", []),
  ("hashCode", []),
  ("notify", []),
  ("notifyAll", []),
  ("toString", []),
  ("wait", []),
  ("wait", ["long"]),
  ("wait", ["long", "int"])]

namespace Operation

/-! ## As it is found -/

/-- The erasures of the parameter types, if all of them are found. -/
def erasures? (op : Operation) (table : TypeVarTable) : Option (List String) :=
  op.parameters.mapM fun p => table.erased? p.type

/-- Whether a factory of this name clashes with an inherited method.  The factory of a static
method has no parameters; an instance method clashes only under its own name, and only then are
its parameters erased. -/
def clashesWithRoot? (op : Operation) (table : TypeVarTable) (name : String) : Option Bool :=
  if op.isStatic then some (rootMethods.contains (name, []))
  else if op.name = name then
    (op.erasures? table).map fun erasures => rootMethods.contains (name, erasures)
  else some false

/-- The name an operation of a class asks for, if it is found. -/
def requestedName? (op : Operation) (table : TypeVarTable) (cls : ClassName) : Option String :=
  if op.kind = .constructor then some ("new" ++ cls.simpleName)
  else
    let name := op.generatedName.getD op.name
    (op.clashesWithRoot? table name).map fun clashes => if clashes then name ++ "_" else name

/-! ## With the erasure of every shape -/

/-- The erasures of the parameter types. -/
def erasures (op : Operation) (table : TypeVarTable) : List String :=
  op.parameters.map fun p => table.erasure p.type

/-- Whether a factory of this name clashes with an inherited method. -/
def clashesWithRoot (op : Operation) (table : TypeVarTable) (name : String) : Bool :=
  if op.isStatic then rootMethods.contains (name, [])
  else op.name = name && rootMethods.contains (name, op.erasures table)

/-- The name an operation of a class asks for. -/
def requestedName (op : Operation) (table : TypeVarTable) (cls : ClassName) : String :=
  if op.kind = .constructor then "new" ++ cls.simpleName
  else
    let name := op.generatedName.getD op.name
    if op.clashesWithRoot table name then name ++ "_" else name

end Operation

end FunctionAdapters
