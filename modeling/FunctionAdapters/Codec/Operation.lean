import FunctionAdapters.Codec.Shape
import FunctionAdapters.Diagnostic
import FunctionAdapters.Operation
import FunctionAdapters.Options

/-!
Operations and classes as JSON.  All fields are written; those with a usual value may be left out
when read.
-/

namespace FunctionAdapters

open Json Json.Decoder

namespace OperationKind

def word : OperationKind → String
  | instanceMethod => "instance"
  | staticMethod => "static"
  | constructor => "constructor"

def toJson (kind : OperationKind) : Json := .string kind.word

def decoder : Decoder OperationKind :=
  nameOf ([instanceMethod, staticMethod, constructor].map fun kind => (kind.word, kind))

end OperationKind

namespace Parameter

def toJson (p : Parameter) : Json :=
  .object [("name", .string p.name), ("ty", p.type.toJson)]

def decoder : Decoder Parameter :=
  record "struct Parameter"
    [.needed "name" string fun a p => { p with name := a },
      .needed "ty" Shape.decoder fun a p => { p with type := a }]
    { name := "", type := .void }

end Parameter

namespace Operation

def toJson (op : Operation) : Json :=
  .object [
    ("kind", op.kind.toJson),
    ("name", .string op.name),
    ("parameters", .array (op.parameters.map Parameter.toJson)),
    ("return_type", op.returnType.toJson),
    ("type_params", .array (op.typeParams.map TypeVarId.toJson)),
    ("doc", .ofOption .string op.doc),
    ("generated_name", .ofOption .string op.generatedName)]

def decoder : Decoder Operation :=
  record "struct CandidateOperation"
    [.needed "kind" OperationKind.decoder fun a op => { op with kind := a },
      .needed "name" string fun a op => { op with name := a },
      .optional "parameters" (list Parameter.decoder) fun a op => { op with parameters := a },
      .optional "return_type" Shape.decoder fun a op => { op with returnType := a },
      .optional "type_params" (list TypeVarId.decoder) fun a op => { op with typeParams := a },
      .optional "doc" (nullable string) fun a op => { op with doc := a },
      .optional "generated_name" (nullable string) fun a op => { op with generatedName := a }]
    { kind := .instanceMethod, name := "" }

end Operation

namespace ClassMetadata

def toJson (cls : ClassMetadata) : Json :=
  .object [
    ("name", cls.name.toJson),
    ("type_params", .array (cls.typeParams.map TypeVarId.toJson)),
    ("type_vars", cls.typeVars.toJson),
    ("operations", .array (cls.operations.map Operation.toJson))]

def decoder : Decoder ClassMetadata :=
  record "struct ClassMetadata"
    [.needed "name" ClassName.decoder fun a cls => { cls with name := a },
      .optional "type_params" (list TypeVarId.decoder) fun a cls => { cls with typeParams := a },
      .optional "type_vars" TypeVarTable.decoder fun a cls => { cls with typeVars := a },
      .optional "operations" (list Operation.decoder) fun a cls => { cls with operations := a }]
    { name := ⟨"", ""⟩ }

end ClassMetadata

namespace NamingPolicy

def word : NamingPolicy → String
  | rename => "rename"
  | exclude => "exclude"

def words : List (String × NamingPolicy) :=
  [rename, exclude].map fun policy => (policy.word, policy)

def toJson (policy : NamingPolicy) : Json := .string policy.word

def decoder : Decoder NamingPolicy := nameOf words

end NamingPolicy

namespace Severity

def word : Severity → String
  | error => "error"
  | warning => "warning"
  | info => "info"

def toJson (severity : Severity) : Json := .string severity.word

def decoder : Decoder Severity := nameOf ([error, warning, info].map fun s => (s.word, s))

end Severity

namespace Diagnostic

def toJson (d : Diagnostic) : Json :=
  .object [
    ("severity", d.severity.toJson),
    ("code", .string d.code),
    ("message", .string d.message),
    ("operation", .ofOption .string d.operation)]

end Diagnostic

end FunctionAdapters
