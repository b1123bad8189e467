import FunctionAdapters.Shape.Basic

/-!
Tables of type variables: the declared name and the bounds of each.  A variable is found by its
position; an id past the end has no entry.
-/

namespace FunctionAdapters

/-- A declared type variable. -/
structure TypeParam where
  name : String
  upper : Shape := .top
  lower : Option Shape := none
  deriving Repr, Inhabited

namespace TypeParam

/-- Both bounds, the lower one first, whether they say something or not. -/
def allBounds (p : TypeParam) : List Shape := p.lower.toList ++ [p.upper]

/-- The bounds that say something. -/
def bounds (p : TypeParam) : List Shape := p.allBounds.filter (!·.isTop)

end TypeParam

structure TypeVarTable where
  params : List TypeParam := []
  deriving Repr, Inhabited

namespace TypeVarTable

def size (table : TypeVarTable) : Nat := table.params.length

def isEmpty (table : TypeVarTable) : Bool := table.params.isEmpty

def get? (table : TypeVarTable) (id : TypeVarId) : Option TypeParam := table.params[id.toNat]?

/-- Appends a variable without a lower bound and gives its id. -/
def add (table : TypeVarTable) (name : String) (upper : Shape) : TypeVarId × TypeVarTable :=
  (⟨.ofNat table.size⟩, ⟨table.params ++ [⟨name, upper, none⟩]⟩)

/-- Replaces the entry of a variable; an id without an entry changes nothing. -/
def define (table : TypeVarTable) (id : TypeVarId) (param : TypeParam) : TypeVarTable :=
  ⟨table.params.set id.toNat param⟩

/-- The bounds of a variable that say something; a variable without an entry has none. -/
def bounds (table : TypeVarTable) (id : TypeVarId) : List Shape :=
  ((table.get? id).map TypeParam.bounds).getD []

@[simp] theorem size_add (table : TypeVarTable) (name : String) (upper : Shape) :
    (table.add name upper).2.size = table.size + 1 := by simp [add, size]

@[simp] theorem size_define (table : TypeVarTable) (id : TypeVarId) (param : TypeParam) :
    (table.define id param).size = table.size := by simp [define, size]

end TypeVarTable

end FunctionAdapters
