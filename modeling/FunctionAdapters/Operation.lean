import FunctionAdapters.TypeVar.Table

/-!
What is known about a class before planning: its name, its type variables and the operations for
which adapters are wanted.
-/

namespace FunctionAdapters

inductive OperationKind where
  /-- Called on a receiver. -/
  | instanceMethod
  | staticMethod
  | constructor
  deriving DecidableEq, Repr, Inhabited

structure Parameter where
  name : String
  type : Shape
  deriving Repr, Inhabited

/-- A method or constructor as it was found in its class. -/
structure Operation where
  kind : OperationKind
  name : String
  parameters : List Parameter := []
  returnType : Shape := .void
  /-- The type variables it declares itself, in order. -/
  typeParams : List TypeVarId := []
  doc : Option String := none
  /-- A name asked for in place of its own. -/
  generatedName : Option String := none
  deriving Repr, Inhabited

namespace Operation

/-- A constructor goes by this name. -/
def constructorName : String := "<init>"

def ofMethod (kind : OperationKind) (name : String) (parameters : List Parameter)
    (returnType : Shape) : Operation :=
  { kind, name, parameters, returnType }

def ofConstructor (parameters : List Parameter) : Operation :=
  ofMethod .constructor constructorName parameters .void

def arity (op : Operation) : Nat := op.parameters.length

def returnsVoid (op : Operation) : Bool := op.returnType.isVoid

def isStatic (op : Operation) : Bool := op.kind = .staticMethod

end Operation

structure ClassMetadata where
  name : ClassName
  /-- The type variables the class declares, in order. -/
  typeParams : List TypeVarId := []
  typeVars : TypeVarTable := {}
  operations : List Operation := []
  deriving Repr, Inhabited

namespace ClassMetadata

/-- The class applied to its own type variables. -/
def selfType (cls : ClassMetadata) : Shape := .ofClass cls.name (cls.typeParams.map .typeVar)

end ClassMetadata

end FunctionAdapters
