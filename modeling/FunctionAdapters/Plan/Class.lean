import FunctionAdapters.Naming.Requested
import FunctionAdapters.Order
import FunctionAdapters.Plan.Resolver

/-!
The plan of a class: its operations in canonical order, each rendered and then given a name that no
other has.  An operation without a text is dropped with a warning; a name that cannot be resolved
fails the class.
-/

namespace FunctionAdapters

structure ClassPlan where
  className : String
  generatedClassName : String
  /-- The class over its own variables. -/
  ownerType : String
  operations : List OperationPlan
  diagnostics : List Diagnostic
  deriving Repr, Inhabited

/-- The state between two operations of a class. -/
structure Planning where
  resolver : Resolver
  dropped : List Diagnostic := []

namespace ClassMetadata

def droppedDiagnostic (cls : ClassMetadata) (op : Operation) (cause : UnsupportedShape) :
    Diagnostic :=
  { severity := .warning
    code := Diagnostic.unsupportedShape
    message := "skipping `" ++ op.name ++ "` in `" ++ cls.name.qualified ++ "`: " ++ cause.message
    operation := some op.name }

/-- The name an operation asks for in its class. -/
def requestedName (cls : ClassMetadata) (op : Operation) : String :=
  op.requestedName cls.typeVars cls.name

/-- The name an operation asks for in its class, if it is found. -/
def requestedName? (cls : ClassMetadata) (op : Operation) : Option String :=
  op.requestedName? cls.typeVars cls.name

/-- The plan of an operation under the name it asks for. -/
def requestedPlan (cls : ClassMetadata) (op : Operation) : Except UnsupportedShape OperationPlan :=
  cls.planOperation op (cls.requestedName op)

/-- Plans one operation under a name: what happens, and the state after it or the error. -/
def planNext (cls : ClassMetadata) (state : Planning) (op : Operation) (name : String) :
    List PlanEvent × Except PlanError Planning :=
  match cls.planOperation op name with
  | .error cause =>
    let dropped := state.dropped ++ [cls.droppedDiagnostic op cause]
    ([.dropped op.name cause], .ok { state with dropped })
  | .ok plan =>
    (state.resolver.events op plan.generatedName,
      (state.resolver.push op plan).map fun resolver => { state with resolver })

/-- Plans operations in the given order, as far as their names are found: what happens, and the
state at the end or the error.  An error ends the run, and later names are not looked for. -/
def planAll? (cls : ClassMetadata) (state : Planning) :
    List Operation → Option (List PlanEvent × Except PlanError Planning)
  | [] => some ([], .ok state)
  | op :: rest => do
    match cls.planNext state op (← cls.requestedName? op) with
    | (now, .error e) => return (now, .error e)
    | (now, .ok state) =>
      (cls.planAll? state rest).map fun (events, result) => (now ++ events, result)

/-- Plans operations in the given order, each under its name. -/
def planAll (cls : ClassMetadata) (state : Planning) :
    List Operation → List PlanEvent × Except PlanError Planning
  | [] => ([], .ok state)
  | op :: rest =>
    match cls.planNext state op (cls.requestedName op) with
    | (now, .error e) => (now, .error e)
    | (now, .ok state) =>
      let (events, result) := cls.planAll state rest
      (now ++ events, result)

/-- The name of the generated class: the chosen one, else the innermost name and an underscore. -/
def generatedClassName (cls : ClassMetadata) (options : ClassOptions) : String :=
  options.generatedName.getD (cls.name.simpleName ++ "_")

/-- The plan that stands at the end. -/
def finish (cls : ClassMetadata) (options : ClassOptions) (owner : String) (state : Planning) :
    ClassPlan :=
  { className := cls.name.qualified
    generatedClassName := cls.generatedClassName options
    ownerType := owner
    operations := state.resolver.kept
    diagnostics := state.dropped ++ state.resolver.diagnostics }

/-- The state before the first operation. -/
def start (cls : ClassMetadata) (options : ClassOptions) : Planning :=
  { resolver := { cls := cls.name.qualified, policy := options.policy } }

/-- What comes of a class after its operations are planned. -/
def conclude (cls : ClassMetadata) (options : ClassOptions) (owner : String) :
    List PlanEvent × Except PlanError Planning → List PlanEvent × Except PlanError ClassPlan
  | (events, .error e) => (events, .error e)
  | (events, .ok state) =>
    let plan := cls.finish options owner state
    (events ++ [.planned plan.operations.length plan.diagnostics.length], .ok plan)

/-- The plan of a class or why it has none, after what happened on the way; nothing if planning does
not end, because the name of an operation is not found. -/
def planWithEvents? (cls : ClassMetadata) (options : ClassOptions) :
    Option (List PlanEvent × Except PlanError ClassPlan) :=
  match cls.ownerType with
  | .error cause => some ([], .error (.ownerType cls.name.qualified cause))
  | .ok owner =>
    (cls.planAll? (cls.start options) (canonicalOrder cls.typeVars cls.operations)).map
      (cls.conclude options owner)

/-- The plan of a class, if planning ends. -/
def plan? (cls : ClassMetadata) (options : ClassOptions) : Option (Except PlanError ClassPlan) :=
  (cls.planWithEvents? options).map Prod.snd

/-- The plan of a class or why it has none, after what happened on the way: what planning gives if it
ends. -/
def planWithEvents (cls : ClassMetadata) (options : ClassOptions) :
    List PlanEvent × Except PlanError ClassPlan :=
  match cls.ownerType with
  | .error cause => ([], .error (.ownerType cls.name.qualified cause))
  | .ok owner =>
    cls.conclude options owner
      (cls.planAll (cls.start options) (canonicalOrder cls.typeVars cls.operations))

/-- The plan of a class. -/
def plan (cls : ClassMetadata) (options : ClassOptions) : Except PlanError ClassPlan :=
  (cls.planWithEvents options).2

/-- What happens while a class is planned. -/
def events (cls : ClassMetadata) (options : ClassOptions) : List PlanEvent :=
  (cls.planWithEvents options).1

end ClassMetadata

end FunctionAdapters
