/-!
What can be chosen for a class: what happens to later overloads of a name, and the name of the
generated class.
-/

namespace FunctionAdapters

inductive NamingPolicy where
  /-- Later overloads get a suffix made of their parameter kinds. -/
  | rename
  /-- Later overloads are left out. -/
  | exclude
  deriving DecidableEq, Repr, Inhabited

structure ClassOptions where
  policy : NamingPolicy := .rename
  generatedName : Option String := none
  deriving DecidableEq, Repr, Inhabited

end FunctionAdapters
