/-!
Messages about a class for the reader of its plan.
-/

namespace FunctionAdapters

inductive Severity where
  | error
  | warning
  | info
  deriving DecidableEq, Repr, Inhabited

/-- A message, with the declared name of the operation it is about, if any. -/
structure Diagnostic where
  severity : Severity
  code : String
  message : String
  operation : Option String := none
  deriving DecidableEq, Repr, Inhabited

namespace Diagnostic

/-- The types of an operation have no text. -/
def unsupportedShape : String := "unsupported-shape"

/-- A later overload got another name. -/
def renamedOverload : String := "renamed-overload"

/-- A later overload was left out. -/
def excludedOverload : String := "excluded-overload"

end Diagnostic

end FunctionAdapters
