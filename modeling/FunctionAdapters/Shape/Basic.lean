import FunctionAdapters.Primitive

/-!
Type shapes: the closed set of type expressions that a signature can mention.  A type variable is
an index into a table kept elsewhere, so a bound may mention its own variable without a cyclic
value.  An intersection `A & B` is a declared type without arguments whose direct bounds are the
components.
-/

namespace FunctionAdapters

/-- A declared type variable, by its position in a table. -/
structure TypeVarId where
  index : UInt32
  deriving DecidableEq, Repr, Inhabited

namespace TypeVarId

def toNat (id : TypeVarId) : Nat := id.index.toNat

theorem toNat_inj {a b : TypeVarId} : a.toNat = b.toNat ↔ a = b := by
  obtain ⟨a⟩ := a
  obtain ⟨b⟩ := b
  simp [toNat, UInt32.toNat_inj]

end TypeVarId

inductive Shape where
  | primitive (type : Primitive)
  | declared (name : ClassName) (args bounds : List Shape)
  | array (component : Shape)
  /-- The wildcard `?`. -/
  | wildcard
  /-- The wildcard `? extends bound`. -/
  | wildcardExtends (bound : Shape)
  /-- The wildcard `? super bound`. -/
  | wildcardSuper (bound : Shape)
  | typeVar (id : TypeVarId)
  | void
  /-- The root reference type as a bound: it says nothing and is never written. -/
  | top
  deriving Repr, Inhabited

namespace Shape

/-- A class with its arguments. -/
def ofClass (name : ClassName) (args : List Shape) : Shape := .declared name args []

/-- A class without arguments, by its full name. -/
def ofName (text : String) : Shape := ofClass (ClassName.ofQualified text) []

/-- The class name of a declared type. -/
def className? : Shape → Option ClassName
  | .declared name _ _ => some name
  | _ => none

/-- The intersection of some bounds.  It takes the name of the first declared one among them. -/
def intersection (bounds : List Shape) : Shape :=
  .declared ((bounds.findSome? className?).getD .object) [] bounds

/-- Whether a declared type with these arguments and direct bounds stands for an intersection. -/
def standsForBounds (args bounds : List Shape) : Bool := args.isEmpty && 1 < bounds.length

def isIntersection : Shape → Bool
  | .declared _ args bounds => standsForBounds args bounds
  | _ => false

def isPrimitive : Shape → Bool
  | .primitive _ => true
  | _ => false

def isTop : Shape → Bool
  | .top => true
  | _ => false

def isVoid : Shape → Bool
  | .void => true
  | _ => false

/-- The variable, of a shape that is one. -/
def typeVar? : Shape → Option TypeVarId
  | .typeVar id => some id
  | _ => none

/-- A primitive becomes the class that boxes it; other shapes stay. -/
def boxed : Shape → Shape
  | .primitive p => ofClass p.boxed []
  | s => s

/-- The shapes a shape is directly built from. -/
def children : Shape → List Shape
  | .declared _ args bounds => args ++ bounds
  | .array component => [component]
  | .wildcardExtends bound | .wildcardSuper bound => [bound]
  | _ => []

mutual
/-- The number of shapes in a shape, itself included. -/
def size : Shape → Nat
  | .declared _ args bounds => 1 + sizes args + sizes bounds
  | .array component => 1 + component.size
  | .wildcardExtends bound => 1 + bound.size
  | .wildcardSuper bound => 1 + bound.size
  | .primitive _ => 1
  | .wildcard => 1
  | .typeVar _ => 1
  | .void => 1
  | .top => 1
/-- The sizes of some shapes together. -/
def sizes : List Shape → Nat
  | [] => 0
  | s :: rest => s.size + sizes rest
end

theorem sizes_append (xs ys : List Shape) : sizes (xs ++ ys) = sizes xs + sizes ys := by
  induction xs with
  | nil => simp [sizes]
  | cons x xs ih => simp [sizes, ih]; omega

theorem size_pos (s : Shape) : 0 < s.size := by cases s <;> simp only [size] <;> omega

theorem sizes_children_lt (s : Shape) : sizes s.children < s.size := by
  cases s <;> simp only [children, sizes, size, sizes_append] <;> omega

theorem typeVar?_eq_some {s : Shape} {id : TypeVarId} : s.typeVar? = some id ↔ s = .typeVar id := by
  cases s <;> simp [typeVar?]

theorem isTop_iff {s : Shape} : s.isTop = true ↔ s = .top := by cases s <;> simp [isTop]

end Shape

end FunctionAdapters
