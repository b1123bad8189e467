import FunctionAdapters.Operation
import FunctionAdapters.TypeVar.Reach

/-!
The names that type variables get in generated signatures: `C0, C1, ..` for those of the class and
`M0, M1, ..` for the remaining ones of the operation, each numbered in the order in which they are
reached; and the list of variables that a signature has to declare.
-/

namespace FunctionAdapters

inductive VarScope where
  | ofClass
  | ofOperation
  deriving DecidableEq, Repr, Inhabited

namespace VarScope

/-- The first letter of the names in a scope. -/
def letter : VarScope → String
  | ofClass => "C"
  | ofOperation => "M"

end VarScope

structure VarName where
  text : String
  scope : VarScope
  deriving DecidableEq, Repr, Inhabited

/-- The names of the variables that have one. -/
structure TypeVarNames where
  entries : List (TypeVarId × VarName) := []
  deriving Repr, Inhabited

namespace TypeVarNames

def size (names : TypeVarNames) : Nat := names.entries.length

def isEmpty (names : TypeVarNames) : Bool := names.entries.isEmpty

def get? (names : TypeVarNames) (id : TypeVarId) : Option VarName := names.entries.lookup id

/-- Numbers some variables of one scope from zero. -/
def numbered (scope : VarScope) (ids : List TypeVarId) : List (TypeVarId × VarName) :=
  ids.zipIdx.map fun (id, i) => (id, ⟨scope.letter ++ toString i, scope⟩)

/-- The names inside an operation: the variables reached from the class parameters, then those
reached from the operation's own parameters only. -/
def forOperation (table : TypeVarTable) (classParams opParams : List TypeVarId) : TypeVarNames :=
  let ofClass := table.reachIds classParams
  let ofOperation := (table.reachIds opParams).filter (· ∉ ofClass)
  ⟨numbered .ofClass ofClass ++ numbered .ofOperation ofOperation⟩

/-- The names in the signature of a class by itself. -/
def forClass (table : TypeVarTable) (classParams : List TypeVarId) : TypeVarNames :=
  forOperation table classParams []

end TypeVarNames

/-- The first occurrence of each element, in order. -/
def firstSeen {α : Type} [DecidableEq α] : List α → List α
  | [] => []
  | x :: rest => x :: (firstSeen rest).filter (· ≠ x)

/-- The variables that a signature has to declare: what the parameters and the return type reach,
after everything the class reaches unless the operation is static. -/
def relevantVars (table : TypeVarTable) (classParams : List TypeVarId) (op : Operation) :
    List TypeVarId :=
  let ofClass := if op.isStatic then [] else table.reachIds classParams
  let ofParameters := op.parameters.flatMap fun p => table.reach [p.type]
  firstSeen (ofClass ++ ofParameters ++ table.reach [op.returnType])

end FunctionAdapters
