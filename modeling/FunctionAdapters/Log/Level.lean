/-!
Levels of log records, from the gravest to the most talkative.
-/

namespace FunctionAdapters.Log

/-- The target of the records about planning. -/
def planTarget : String := "fngen.plan"

inductive Level where
  | error
  | warn
  | info
  | debug
  | trace
  deriving DecidableEq, Repr, Inhabited

namespace Level

/-- Its place in the order; a greater one says more. -/
def verbosity : Level → Nat
  | error => 1
  | warn => 2
  | info => 3
  | debug => 4
  | trace => 5

/-- Its name in records. -/
def name : Level → String
  | error => "ERROR"
  | warn => "WARN"
  | info => "INFO"
  | debug => "DEBUG"
  | trace => "TRACE"

end Level

end FunctionAdapters.Log
