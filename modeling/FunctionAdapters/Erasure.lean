import FunctionAdapters.TypeVar.Reach

/-!
Erasure: the class that is left of a shape when arguments and variables are forgotten.  It follows
upper bounds, first components and wildcard bounds; a variable met again on the way erases to the
root class.

A planner finds erasures by a loop, which goes on for ever for some shapes: `erased?` is what it
finds.  `erasure` gives every shape an erasure, and the same one where the loop ends.
-/

namespace FunctionAdapters

namespace TypeVarTable

/-- The full name of the root class. -/
def rootName : String := ClassName.object.qualified

/-! ## The loop -/

/-- The erasure of a shape in some rounds of a loop, which forgets the variables that it has seen
when it comes to an array; nothing if the rounds do not suffice. -/
def erasureWithin (table : TypeVarTable) : Nat → List TypeVarId → Shape → Option String
  | 0, _, _ => none
  | n + 1, seen, .typeVar id =>
    match table.get? id with
    | some param =>
      if id ∈ seen then some rootName else table.erasureWithin n (id :: seen) param.upper
    | none => some rootName
  | n + 1, seen, .declared _ [] (first :: _ :: _) => table.erasureWithin n seen first
  | _ + 1, _, .declared name _ _ => some name.qualified
  | n + 1, _, .array component => (table.erasureWithin n [] component).map (· ++ "[]")
  | _ + 1, _, .primitive p => some p.keyword
  | _ + 1, _, .void => some "void"
  | n + 1, seen, .wildcardExtends bound => table.erasureWithin n seen bound
  | _ + 1, _, .wildcard | _ + 1, _, .wildcardSuper _ | _ + 1, _, .top => some rootName

/-- The erasure that the loop finds.  A loop that does not end in these rounds never ends: it has met
a variable that leads back to itself through an array, as in `T extends T[]`. -/
def erased? (table : TypeVarTable) (s : Shape) : Option String :=
  table.erasureWithin (s.size + table.weight []) [] s

/-! ## The erasure of every shape -/

/-- The erasure of a shape that was reached through the variables in `seen`. -/
def erasureFrom (table : TypeVarTable) (seen : List TypeVarId) (s : Shape) : String :=
  match s with
  | .typeVar id =>
    if id ∈ seen then rootName
    else
      match _hp : table.get? id with
      | some param => table.erasureFrom (seen ++ [id]) param.upper
      | none => rootName
  | .declared _ [] (first :: _ :: _) => table.erasureFrom seen first
  | .declared name _ _ => name.qualified
  | .array component => table.erasureFrom seen component ++ "[]"
  | .primitive p => p.keyword
  | .void => "void"
  | .wildcardExtends bound => table.erasureFrom seen bound
  | .wildcard | .wildcardSuper _ | .top => rootName
termination_by s.size + table.weight seen
decreasing_by
  · next hs =>
    have := table.weight_found hs _hp
    simp only [TypeParam.allBounds, Shape.sizes_append, Shape.sizes] at this
    simp only [Shape.size]; omega
  all_goals simp only [Shape.size, Shape.sizes]; omega

section

variable {table : TypeVarTable} {seen : List TypeVarId} {id : TypeVarId} {p : TypeParam}

theorem erasureFrom_of_mem (h : id ∈ seen) : table.erasureFrom seen (.typeVar id) = rootName := by
  rw [erasureFrom, if_pos h]

theorem erasureFrom_of_get? (h : id ∉ seen) (hp : table.get? id = some p) :
    table.erasureFrom seen (.typeVar id) = table.erasureFrom (seen ++ [id]) p.upper := by
  rw [erasureFrom, if_neg h]
  split
  · next q hq => rw [Option.some.inj (hq.symm.trans hp)]
  · next hnone => cases hnone.symm.trans hp

theorem erasureFrom_of_get?_eq_none (hp : table.get? id = none) :
    table.erasureFrom seen (.typeVar id) = rootName := by
  by_cases h : id ∈ seen
  · exact erasureFrom_of_mem h
  · rw [erasureFrom, if_neg h]
    split
    · next q hq => cases hq.symm.trans hp
    · rfl

theorem erasureFrom_class (name : ClassName) {args bounds : List Shape}
    (h : Shape.standsForBounds args bounds = false) :
    table.erasureFrom seen (.declared name args bounds) = name.qualified := by
  rw [erasureFrom]
  rintro first second more rfl rfl
  cases h

end

/-- The erasure of a shape. -/
def erasure (table : TypeVarTable) (s : Shape) : String := table.erasureFrom [] s

end TypeVarTable

end FunctionAdapters
