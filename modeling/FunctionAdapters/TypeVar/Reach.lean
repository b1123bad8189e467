import FunctionAdapters.TypeVar.Table

/-!
The type variables that can be reached from some shapes, through arguments, components, wildcard
bounds and the bounds of variables already reached, in breadth-first order.  Each variable is
expanded once, so bounds that lead back to their own variable do no harm: the shapes still queued
and the bounds of the variables not found yet shrink together (`weight_found`).
-/

namespace FunctionAdapters

namespace TypeVarTable

/-- The sizes of the bounds of those variables from position `i` on that are not in `found`. -/
def weightFrom (found : List TypeVarId) : Nat → List TypeParam → Nat
  | _, [] => 0
  | i, p :: rest =>
    (if found.any (·.toNat == i) then 0 else Shape.sizes p.allBounds)
      + weightFrom found (i + 1) rest

/-- The sizes of the bounds of all variables that are not in `found`. -/
def weight (table : TypeVarTable) (found : List TypeVarId) : Nat :=
  weightFrom found 0 table.params

theorem sizes_filter_le (p : Shape → Bool) (shapes : List Shape) :
    Shape.sizes (shapes.filter p) ≤ Shape.sizes shapes := by
  induction shapes with
  | nil => simp
  | cons s rest ih =>
    by_cases h : p s <;> simp [h, Shape.sizes] <;> omega

theorem weightFrom_append_le (found : List TypeVarId) (id : TypeVarId) :
    ∀ (params : List TypeParam) (i : Nat),
      weightFrom (found ++ [id]) i params ≤ weightFrom found i params
  | [], _ => Nat.le_refl _
  | p :: rest, i => by
    have ih := weightFrom_append_le found id rest (i + 1)
    by_cases h : found.any (·.toNat == i) = true
    · simp [weightFrom, h, ih]
    · by_cases hid : id.toNat = i
      · simp [weightFrom, h, hid]; omega
      · simp [weightFrom, h, hid, ih]

theorem weightFrom_append_eq (found : List TypeVarId) (id : TypeVarId) (hf : id ∉ found) :
    ∀ (params : List TypeParam) (i : Nat) (p : TypeParam), i ≤ id.toNat →
      params[id.toNat - i]? = some p →
      weightFrom (found ++ [id]) i params + Shape.sizes p.allBounds ≤ weightFrom found i params
  | [], _, _, _, hp => by simp at hp
  | q :: rest, i, p, hi, hp => by
    by_cases hid : id.toNat = i
    · have hnot : found.any (·.toNat == i) = false := by
        simp only [List.any_eq_false, beq_iff_eq]
        intro x hx hxi
        exact hf (TypeVarId.toNat_inj.1 (hxi.trans hid.symm) ▸ hx)
      have := weightFrom_append_le found id rest (i + 1)
      simp [hid] at hp
      subst hp
      simp [weightFrom, hnot, hid]; omega
    · have hp' : rest[id.toNat - (i + 1)]? = some p := by
        have : id.toNat - i = (id.toNat - (i + 1)) + 1 := by omega
        rw [this] at hp; simpa using hp
      have ih := weightFrom_append_eq found id hf rest (i + 1) p (by omega) hp'
      have hb : (id.toNat == i) = false := by simpa using hid
      simp only [weightFrom, List.any_append, List.any_cons, List.any_nil, hb, Bool.or_false]
      omega

/-- Finding a variable pays for all of its bounds. -/
theorem weight_found (table : TypeVarTable) {found : List TypeVarId} {id : TypeVarId}
    {p : TypeParam} (hf : id ∉ found) (hp : table.get? id = some p) :
    table.weight (found ++ [id]) + Shape.sizes p.allBounds ≤ table.weight found :=
  weightFrom_append_eq found id hf table.params 0 p (Nat.zero_le _) (by simpa [get?] using hp)

theorem weight_append_le (table : TypeVarTable) (found : List TypeVarId) (id : TypeVarId) :
    table.weight (found ++ [id]) ≤ table.weight found :=
  weightFrom_append_le found id table.params 0

theorem weight_bounds (table : TypeVarTable) {found : List TypeVarId} {id : TypeVarId}
    (hf : id ∉ found) :
    table.weight (found ++ [id]) + Shape.sizes (table.bounds id) ≤ table.weight found := by
  cases hp : table.get? id with
  | none => simpa [bounds, hp, Shape.sizes] using table.weight_append_le found id
  | some p =>
    have h1 := table.weight_found hf hp
    have h2 := sizes_filter_le (!·.isTop) p.allBounds
    simp only [bounds, hp, Option.map_some, Option.getD_some, TypeParam.bounds]
    omega

/-- The variables in `found`, then those reached from the queue of shapes. -/
def reachFrom (table : TypeVarTable) (queue : List Shape) (found : List TypeVarId) :
    List TypeVarId :=
  match queue with
  | [] => found
  | s :: rest =>
    match s.typeVar? with
    | none => table.reachFrom (rest ++ s.children) found
    | some id =>
      if id ∈ found then table.reachFrom rest found
      else table.reachFrom (rest ++ table.bounds id) (found ++ [id])
termination_by Shape.sizes queue + table.weight found
decreasing_by
  · have := Shape.sizes_children_lt s
    simp only [Shape.sizes, Shape.sizes_append]; omega
  · have := Shape.size_pos s
    simp only [Shape.sizes]; omega
  · next h =>
    have := Shape.size_pos s
    have := table.weight_bounds h
    simp only [Shape.sizes, Shape.sizes_append]; omega

/-- Every variable reachable from the roots, in breadth-first order of its first sight. -/
def reach (table : TypeVarTable) (roots : List Shape) : List TypeVarId := table.reachFrom roots []

/-- Every variable reachable from some variables. -/
def reachIds (table : TypeVarTable) (ids : List TypeVarId) : List TypeVarId :=
  table.reach (ids.map .typeVar)

end TypeVarTable

end FunctionAdapters
