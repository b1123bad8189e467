import FunctionAdapters.Log.Level
import FunctionAdapters.Signature.Usage

/-!
What happens while a class is planned, as a list of events, and the errors that end it.
-/

namespace FunctionAdapters

/-- Why a class has no plan. -/
inductive PlanError where
  /-- A later overload asked for `name`, and its disambiguated form is taken as well. -/
  | nameTaken (cls name renamed : String)
  | ownerType (cls : String) (cause : UnsupportedShape)
  deriving DecidableEq, Repr, Inhabited

namespace PlanError

def message : PlanError → String
  | nameTaken cls name renamed =>
    "generated name `" ++ name ++ "` in `" ++ cls ++ "` collides and its disambiguated form `"
      ++ renamed ++ "` is already taken"
  | ownerType cls cause => "cannot render owner type of `" ++ cls ++ "`: " ++ cause.message

end PlanError

inductive PlanEvent where
  /-- An operation has no text and is dropped. -/
  | dropped (operation : String) (cause : UnsupportedShape)
  | renamed (cls source target : String)
  | excluded (cls name : String)
  | taken (cls source target : String)
  | planned (operations diagnostics : Nat)
  deriving DecidableEq, Repr, Inhabited

namespace PlanEvent

def level : PlanEvent → Log.Level
  | dropped .. => .warn
  | renamed .. => .info
  | excluded .. => .warn
  | taken .. => .error
  | planned .. => .debug

def message : PlanEvent → String
  | dropped .. => "dropping operation"
  | renamed .. => "renamed overload"
  | excluded .. => "excluded overload"
  | taken .. => "disambiguated name is already taken"
  | planned .. => "planned class"

end PlanEvent

end FunctionAdapters
