import FunctionAdapters.Shape.Canonical
import FunctionAdapters.TypeVar.Reach
import FunctionAdapters.Operation

/-!
The canonical order of operations: by name, then number of parameters, then the texts of the boxed
parameter types; further parts of the key only break ties.  Operations that the key cannot tell
apart stay in the order in which they were found.
-/

namespace FunctionAdapters

namespace OperationKind

/-- Constructors come before static methods, these before instance methods. -/
def rank : OperationKind → Nat
  | constructor => 0
  | staticMethod => 1
  | instanceMethod => 2

end OperationKind

structure CanonicalKey where
  name : String
  arity : Nat
  parameterTypes : String
  /-- The declarations of the variables that the types reach. -/
  variableBounds : List String
  kind : Nat
  returnType : String
  parameterNames : List String
  generatedName : Option String
  doc : Option String
  deriving DecidableEq, Repr

namespace CanonicalKey

/-- Part by part, the first difference decides. -/
instance : Ord CanonicalKey where
  compare :=
    compareLex (compareOn name) <| compareLex (compareOn arity) <|
    compareLex (compareOn parameterTypes) <| compareLex (compareOn variableBounds) <|
    compareLex (compareOn kind) <| compareLex (compareOn returnType) <|
    compareLex (compareOn parameterNames) <| compareLex (compareOn generatedName) <|
    compareOn doc

end CanonicalKey

namespace TypeVarTable

/-- The declaration of a variable in one text: name, upper and lower bound. -/
def declarationText (table : TypeVarTable) (id : TypeVarId) : String :=
  match table.get? id with
  | some param =>
    param.name ++ ":" ++ param.upper.canonical table ++ ":"
      ++ ((param.lower.map (Shape.canonical table)).getD "")
  | none => table.label id

end TypeVarTable

namespace Operation

/-- The types in the signature: those of the parameters, then the return type. -/
def signatureTypes (op : Operation) : List Shape :=
  op.parameters.map Parameter.type ++ [op.returnType]

def canonicalKey (op : Operation) (table : TypeVarTable) : CanonicalKey :=
  { name := op.name
    arity := op.arity
    parameterTypes := String.join (op.parameters.map fun p => p.type.boxed.canonical table)
    variableBounds := (table.reach op.signatureTypes).map table.declarationText
    kind := op.kind.rank
    returnType := op.returnType.canonical table
    parameterNames := op.parameters.map Parameter.name
    generatedName := op.generatedName
    doc := op.doc }

/-- Whether the key of the first operation is not after that of the second. -/
def keyLE (table : TypeVarTable) (a b : Operation) : Bool :=
  (compare (a.canonicalKey table) (b.canonicalKey table)).isLE

end Operation

/-- Operations in canonical order. -/
def canonicalOrder (table : TypeVarTable) (ops : List Operation) : List Operation :=
  ops.mergeSort (Operation.keyLE table)

end FunctionAdapters
