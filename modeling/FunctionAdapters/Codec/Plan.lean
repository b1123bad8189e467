import FunctionAdapters.Codec.Operation
import FunctionAdapters.Plan.Class

/-!
Plans and the events of planning as JSON.
-/

namespace FunctionAdapters

namespace AdapterFamily

def toJson : AdapterFamily → Json
  | action => .string "action"
  | func => .string "func"

end AdapterFamily

namespace AdapterArity

def toJson : AdapterArity → Json
  | fixed count => .object [("kind", .string "fixed"), ("count", .ofNat count)]
  | variadic => .object [("kind", .string "variadic")]

end AdapterArity

namespace AdapterType

def toJson (a : AdapterType) : Json :=
  .object [("family", a.family.toJson), ("arity", a.arity.toJson), ("text", .string a.text)]

end AdapterType

namespace RenderedParameter

def toJson (p : RenderedParameter) : Json :=
  .object [("name", .string p.name), ("ty", .string p.type), ("boxed_ty", .string p.boxedType)]

end RenderedParameter

namespace ParameterList

def toJson (parameters : ParameterList) : Json :=
  .object [
    ("kind", .string (if parameters.isPositional then "positional" else "named")),
    ("parameters", .array (parameters.toList.map RenderedParameter.toJson))]

end ParameterList

namespace OperationPlan

def toJson (plan : OperationPlan) : Json :=
  .object [
    ("generated_name", .string plan.generatedName),
    ("called_name", .ofOption .string plan.calledName),
    ("call_kind", plan.callKind.toJson),
    ("adapter", plan.adapter.toJson),
    ("return_type", .string plan.returnType),
    ("parameters", plan.parameters.toJson),
    ("generics", .strings plan.generics),
    ("doc", .ofOption .string plan.doc),
    ("doc_comment", .ofOption .string plan.docComment)]

end OperationPlan

namespace ClassPlan

def toJson (plan : ClassPlan) : Json :=
  .object [
    ("class_name", .string plan.className),
    ("generated_class_name", .string plan.generatedClassName),
    ("owner_type", .string plan.ownerType),
    ("operations", .array (plan.operations.map OperationPlan.toJson)),
    ("diagnostics", .array (plan.diagnostics.map Diagnostic.toJson))]

end ClassPlan

namespace PlanEvent

/-- What an event carries beside its message. -/
def fields : PlanEvent → List (String × Json)
  | dropped operation cause =>
    [("operation", .string operation), ("error", .string cause.message)]
  | renamed cls source target | taken cls source target =>
    [("class", .string cls), ("from", .string source), ("to", .string target)]
  | excluded cls name => [("class", .string cls), ("name", .string name)]
  | planned operations diagnostics =>
    [("operations", .ofNat operations), ("diagnostics", .ofNat diagnostics)]

/-- The log record of an event. -/
def toJson (event : PlanEvent) : Json :=
  .object [
    ("level", .string event.level.name),
    ("target", .string Log.planTarget),
    ("fields", .object (("message", .string event.message) :: event.fields))]

/-- The log record that opens the planning of a class. -/
def opening (cls : ClassMetadata) : Json :=
  .object [
    ("level", .string Log.Level.debug.name),
    ("target", .string Log.planTarget),
    ("span", .string "plan_class"),
    ("fields", .object [("class", .string cls.name.qualified)])]

end PlanEvent

end FunctionAdapters
