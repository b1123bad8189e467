import FunctionAdapters.Diagnostic
import FunctionAdapters.Naming.KindTag
import FunctionAdapters.Options
import FunctionAdapters.Plan.Event
import FunctionAdapters.Plan.Roster

/-!
Names inside one generated class.  The first operation that asks for a name keeps it; a later one
is renamed or left out, as the policy says.  Renaming fails when the new name is taken too.
-/

namespace FunctionAdapters

/-- The operations kept so far, and what was said about the others. -/
structure Resolver where
  cls : String
  policy : NamingPolicy
  roster : Roster := .empty
  diagnostics : List Diagnostic := []
  deriving Repr, Inhabited

/-- What becomes of an operation. -/
inductive Verdict where
  /-- It gets the name it asks for. -/
  | keep
  | rename (target : String)
  | exclude
  /-- It would be renamed, but the new name is not free either. -/
  | fail (target : String)
  deriving DecidableEq, Repr

namespace Resolver

/-- The plans kept so far, in the order in which they came. -/
def kept (r : Resolver) : List OperationPlan := r.roster.plans

/-- What becomes of an operation that asks for a name. -/
def verdict (r : Resolver) (op : Operation) (requested : String) : Verdict :=
  if r.roster.holds requested then
    match r.policy with
    | .rename =>
      let target := op.disambiguated requested
      if r.roster.holds target then .fail target else .rename target
    | .exclude => .exclude
  else .keep

def renamedDiagnostic (r : Resolver) (op : Operation) (source target : String) : Diagnostic :=
  { severity := .info
    code := Diagnostic.renamedOverload
    message := "renaming method in `" ++ r.cls ++ "` from `" ++ source ++ "` to `" ++ target ++ "`"
    operation := some op.name }

def excludedDiagnostic (r : Resolver) (op : Operation) (name : String) : Diagnostic :=
  { severity := .warning
    code := Diagnostic.excludedOverload
    message := "filtering ambiguous method `" ++ name ++ "` in `" ++ r.cls ++ "`"
    operation := some op.name }

/-- Takes the next operation, whose plan bears the name it asks for: whether that fails, and the
resolver from then on, which can be used either way. -/
def offer (r : Resolver) (op : Operation) (plan : OperationPlan) :
    Except PlanError Unit × Resolver :=
  let requested := plan.generatedName
  match r.verdict op requested with
  | .keep => (.ok (), { r with roster := r.roster.insert requested plan })
  | .rename target =>
    (.ok (), { r with
      roster := r.roster.insert target { plan with generatedName := target }
      diagnostics := r.diagnostics ++ [r.renamedDiagnostic op requested target] })
  | .exclude =>
    (.ok (), { r with diagnostics := r.diagnostics ++ [r.excludedDiagnostic op requested] })
  | .fail target => (.error (.nameTaken r.cls requested target), r)

/-- The resolver after an operation that it takes. -/
def push (r : Resolver) (op : Operation) (plan : OperationPlan) : Except PlanError Resolver :=
  (r.offer op plan).1.map fun _ => (r.offer op plan).2

/-- The resolver after some operations, one by one, whether it takes them or not. -/
def offerAll (r : Resolver) (offers : List (Operation × OperationPlan)) : Resolver :=
  offers.foldl (fun r (op, plan) => (r.offer op plan).2) r

/-- What is logged when an operation asks for a name. -/
def events (r : Resolver) (op : Operation) (requested : String) : List PlanEvent :=
  match r.verdict op requested with
  | .keep => []
  | .rename target => [.renamed r.cls requested target]
  | .exclude => [.excluded r.cls requested]
  | .fail target => [.taken r.cls requested target]

end Resolver

end FunctionAdapters
