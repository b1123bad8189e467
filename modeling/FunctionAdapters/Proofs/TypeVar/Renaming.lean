import FunctionAdapters.Proofs.Erasure
import FunctionAdapters.Proofs.TypeVar.Reach
import FunctionAdapters.Shape.Canonical
import Mathlib.Data.List.Basic

/-!
# Other ids for type variables

A type variable is a position in a table.  `Shape.rename` and `TypeParam.rename` give the variables
other positions, and `Carries` says that another table has, at these positions, the entries that a
shape leads to.  No other entries matter: the shape has the same canonical text there
(`Shape.canonical_rename`) and the same erasure (`erasure_rename`), and the search finds the same
variables in the same order (`reach_rename`), however the bounds are tangled.

The ids must stay apart, or the search would take two variables for one.  An id without an entry
shows its number in a canonical text, so it has to keep it.
-/

namespace FunctionAdapters

namespace Shape

variable (r : TypeVarId → TypeVarId)

mutual
/-- A shape with other ids for its variables. -/
def rename : Shape → Shape
  | .declared name args bounds => .declared name (renames args) (renames bounds)
  | .array component => .array component.rename
  | .wildcardExtends bound => .wildcardExtends bound.rename
  | .wildcardSuper bound => .wildcardSuper bound.rename
  | .typeVar id => .typeVar (r id)
  | .primitive p => .primitive p
  | .wildcard => .wildcard
  | .void => .void
  | .top => .top
def renames : List Shape → List Shape
  | [] => []
  | s :: rest => s.rename :: renames rest
end

theorem renames_eq_map (shapes : List Shape) : renames r shapes = shapes.map (rename r) := by
  induction shapes with
  | nil => rfl
  | cons s rest ih => rw [renames, ih, List.map_cons]

@[simp] theorem isTop_rename (s : Shape) : (s.rename r).isTop = s.isTop := by cases s <;> rfl

@[simp] theorem isVoid_rename (s : Shape) : (s.rename r).isVoid = s.isVoid := by cases s <;> rfl

@[simp] theorem typeVar?_rename (s : Shape) : (s.rename r).typeVar? = s.typeVar?.map r := by
  cases s <;> rfl

theorem rename_boxed (s : Shape) : s.boxed.rename r = (s.rename r).boxed := by cases s <;> rfl

theorem children_rename (s : Shape) : (s.rename r).children = s.children.map (rename r) := by
  cases s <;> simp [rename, children, renames_eq_map]

@[simp] theorem standsForBounds_renames (args bounds : List Shape) :
    standsForBounds (renames r args) (renames r bounds) = standsForBounds args bounds := by
  simp [standsForBounds, renames_eq_map]

theorem rename_ofClass (name : ClassName) (args : List Shape) :
    (ofClass name args).rename r = ofClass name (args.map (rename r)) := by
  simp [ofClass, rename, renames_eq_map]

mutual
theorem rename_id (s : Shape) : s.rename id = s := by
  cases s with
  | declared name args bounds => rw [rename, renames_id args, renames_id bounds]
  | array component => rw [rename, rename_id component]
  | wildcardExtends bound | wildcardSuper bound => rw [rename, rename_id bound]
  | primitive | wildcard | typeVar | void | top => rfl
theorem renames_id (shapes : List Shape) : renames id shapes = shapes := by
  cases shapes with
  | nil => rfl
  | cons s rest => rw [renames, rename_id s, renames_id rest]
end

end Shape

namespace TypeParam

def rename (r : TypeVarId → TypeVarId) (p : TypeParam) : TypeParam :=
  { name := p.name, upper := p.upper.rename r, lower := p.lower.map (Shape.rename r) }

theorem rename_id (p : TypeParam) : p.rename id = p := by
  have hid : Shape.rename id = id := funext Shape.rename_id
  rw [rename, Shape.rename_id, hid, Option.map_id, id]

theorem bounds_rename (r : TypeVarId → TypeVarId) (p : TypeParam) :
    (p.rename r).bounds = p.bounds.map (Shape.rename r) := by
  have hall : (p.rename r).allBounds = p.allBounds.map (Shape.rename r) := by
    obtain ⟨name, upper, lower⟩ := p
    cases lower <;> rfl
  have htop : (fun s => !s.isTop) ∘ Shape.rename r = fun s => !s.isTop := by
    funext s
    simp
  rw [bounds, hall, List.filter_map, htop, bounds]

end TypeParam

namespace TypeVarTable

/-! ## What a table carries -/

/-- Under other ids, a table has the entries to which a shape leads in another one, and ids without
an entry are the same. -/
def Carries (table other : TypeVarTable) (r : TypeVarId → TypeVarId) (s : Shape) : Prop :=
  ∀ id, table.Leads s (.typeVar id) →
    other.get? (r id) = (table.get? id).map (TypeParam.rename r) ∧
      (table.get? id = none → r id = id)

variable {table other : TypeVarTable} {r : TypeVarId → TypeVarId} {s t : Shape} {id : TypeVarId}
  {p : TypeParam}

theorem Carries.leads (h : table.Carries other r s) (hlead : table.Leads s t) :
    table.Carries other r t := fun id hid => h id (hlead.trans hid)

theorem Carries.child (h : table.Carries other r s) (ht : t ∈ s.children) :
    table.Carries other r t := h.leads (leads_of_mem_children ht)

theorem Carries.get? (h : table.Carries other r (.typeVar id)) :
    other.get? (r id) = (table.get? id).map (TypeParam.rename r) := (h id (.refl _)).1

theorem Carries.eq_of_get?_eq_none (h : table.Carries other r (.typeVar id))
    (hid : table.get? id = none) : r id = id := (h id (.refl _)).2 hid

theorem Carries.bounds (h : table.Carries other r (.typeVar id)) :
    other.bounds (r id) = (table.bounds id).map (Shape.rename r) := by
  unfold TypeVarTable.bounds
  rw [h.get?]
  cases table.get? id with
  | none => rfl
  | some p => exact p.bounds_rename r

theorem carries_top : table.Carries other r .top := by
  intro id hid
  rcases Relation.ReflTransGen.cases_head hid with h | ⟨t, ht, -⟩
  · cases h
  · cases ht

theorem Carries.boxed (h : table.Carries other r s) : table.Carries other r s.boxed := by
  cases s with
  | primitive p =>
    intro id hid
    rcases Relation.ReflTransGen.cases_head hid with h | ⟨t, ht, -⟩
    · cases h
    · cases ht
  | _ => exact h

theorem Carries.allBounds (h : table.Carries other r (.typeVar id)) (hp : table.get? id = some p)
    (ht : t ∈ p.allBounds) : table.Carries other r t := by
  cases htop : t.isTop with
  | true =>
    rw [Shape.isTop_iff.1 htop]
    exact carries_top
  | false =>
    refine h.leads (leads_of_mem_bounds ?_)
    simp [TypeVarTable.bounds, hp, TypeParam.bounds, ht, htop]

theorem Carries.upper (h : table.Carries other r (.typeVar id)) (hp : table.get? id = some p) :
    table.Carries other r p.upper := h.allBounds hp (by simp [TypeParam.allBounds])

theorem Carries.lower (h : table.Carries other r (.typeVar id)) (hp : table.get? id = some p)
    (ht : p.lower = some t) : table.Carries other r t :=
  h.allBounds hp (by simp [TypeParam.allBounds, ht])

/-! ## Canonical texts -/

theorem Carries.label (h : table.Carries other r (.typeVar id)) :
    other.label (r id) = table.label id := by
  unfold TypeVarTable.label
  rw [h.get?]
  cases hid : table.get? id with
  | none => rw [h.eq_of_get?_eq_none hid]; rfl
  | some p => rfl

end TypeVarTable

namespace Shape

variable {table other : TypeVarTable} {r : TypeVarId → TypeVarId}

mutual
/-- **Canonical texts** do not depend on ids. -/
theorem canonical_rename (s : Shape) (h : table.Carries other r s) :
    (s.rename r).canonical other = s.canonical table := by
  cases s with
  | declared name args bounds =>
    have hargs : canonicals other (renames r args) = canonicals table args :=
      canonicals_rename args fun s hs => h.child (List.mem_append_left bounds hs)
    have hbounds : canonicals other (renames r bounds) = canonicals table bounds :=
      canonicals_rename bounds fun s hs => h.child (List.mem_append_right args hs)
    simp only [rename, canonical, standsForBounds_renames, hargs, hbounds]
  | array component =>
    simp only [rename, canonical, canonical_rename component (h.child (List.mem_singleton_self _))]
  | wildcardExtends bound | wildcardSuper bound =>
    simp only [rename, canonical, canonical_rename bound (h.child (List.mem_singleton_self _))]
  | typeVar id => exact h.label
  | primitive | wildcard | void | top => rfl
theorem canonicals_rename (shapes : List Shape) (h : ∀ s ∈ shapes, table.Carries other r s) :
    canonicals other (renames r shapes) = canonicals table shapes := by
  cases shapes with
  | nil => rfl
  | cons s rest =>
    rw [renames, canonicals, canonicals, canonical_rename s (h s List.mem_cons_self),
      canonicals_rename rest fun t ht => h t (List.mem_cons_of_mem s ht)]
end

end Shape

namespace TypeVarTable

variable {table other : TypeVarTable} {r : TypeVarId → TypeVarId}

/-! ## The search -/

theorem reachFrom_rename (hr : Function.Injective r) {queue : List Shape}
    (found : List TypeVarId) (h : ∀ s ∈ queue, table.Carries other r s) :
    other.reachFrom (queue.map (Shape.rename r)) (found.map r) =
      (table.reachFrom queue found).map r := by
  fun_induction table.reachFrom queue found with
  | case1 found => rw [List.map_nil, reachFrom]
  | case2 found s rest hs ih =>
    have hnone : (s.rename r).typeVar? = none := by rw [Shape.typeVar?_rename, hs, Option.map_none]
    rw [List.map_cons, reachFrom, hnone, Shape.children_rename, ← List.map_append]
    refine ih fun t ht => ?_
    rcases List.mem_append.1 ht with ht | ht
    · exact h t (List.mem_cons_of_mem s ht)
    · exact (h s List.mem_cons_self).child ht
  | case3 found s rest id hs hid ih =>
    have hsome : (s.rename r).typeVar? = some (r id) := by
      rw [Shape.typeVar?_rename, hs, Option.map_some]
    have hmem : r id ∈ found.map r := List.mem_map_of_mem hid
    rw [List.map_cons, reachFrom, hsome]
    simp only [if_pos hmem]
    exact ih fun t ht => h t (List.mem_cons_of_mem s ht)
  | case4 found s rest id hs hid ih =>
    obtain rfl := Shape.typeVar?_eq_some.1 hs
    have hvar := h _ List.mem_cons_self
    -- other ids are met for the first time where these are
    have hmem : r id ∉ found.map r := fun hmem => hid ((List.mem_map_of_injective hr).1 hmem)
    rw [List.map_cons, Shape.rename, reachFrom, Shape.typeVar?]
    simp only [if_neg hmem]
    rw [hvar.bounds, ← List.map_append, ← List.map_singleton, ← List.map_append]
    refine ih fun t ht => ?_
    rcases List.mem_append.1 ht with ht | ht
    · exact h t (List.mem_cons_of_mem _ ht)
    · exact hvar.leads (leads_of_mem_bounds ht)

/-- **Reachability** does not depend on ids: the same variables are found, in the same order. -/
theorem reach_rename (hr : Function.Injective r) {roots : List Shape}
    (h : ∀ s ∈ roots, table.Carries other r s) :
    other.reach (roots.map (Shape.rename r)) = (table.reach roots).map r :=
  reachFrom_rename hr [] h

theorem reachIds_rename (hr : Function.Injective r) {ids : List TypeVarId}
    (h : ∀ id ∈ ids, table.Carries other r (.typeVar id)) :
    other.reachIds (ids.map r) = (table.reachIds ids).map r := by
  have hroots : (ids.map r).map Shape.typeVar = (ids.map Shape.typeVar).map (Shape.rename r) := by
    rw [List.map_map, List.map_map]
    rfl
  unfold reachIds
  rw [hroots]
  refine reach_rename hr fun s hs => ?_
  obtain ⟨id, hid, rfl⟩ := List.mem_map.1 hs
  exact h id hid

/-! ## Erasure -/

theorem erasureFrom_rename (hr : Function.Injective r) (seen : List TypeVarId) {s : Shape}
    (h : table.Carries other r s) :
    other.erasureFrom (seen.map r) (s.rename r) = table.erasureFrom seen s := by
  fun_induction table.erasureFrom seen s with
  | case1 seen id hid => exact erasureFrom_of_mem (List.mem_map_of_mem hid)
  | case2 seen id hid p hp ih =>
    -- injectivity keeps a variable that was not seen unseen
    have hmem : r id ∉ seen.map r := fun hmem => hid ((List.mem_map_of_injective hr).1 hmem)
    have hother : other.get? (r id) = some (p.rename r) := by rw [h.get?, hp, Option.map_some]
    rw [Shape.rename, erasureFrom_of_get? hmem hother, ← ih (h.upper hp), List.map_append]
    rfl
  | case3 seen id hid hp =>
    have hother : other.get? (r id) = none := by rw [h.get?, hp, Option.map_none]
    exact erasureFrom_of_get?_eq_none hother
  | case4 seen name first second more ih =>
    rw [← ih (h.child List.mem_cons_self)]
    simp only [Shape.rename, Shape.renames, erasureFrom]
  | case5 seen name args bounds hshape =>
    rcases intersection_or_class table name args bounds with
      ⟨first, second, more, hargs, hbounds, -⟩ | ⟨hclass, -⟩
    · exact absurd hbounds fun hbounds => hshape first second more hargs hbounds
    · rw [Shape.rename, erasureFrom_class name (by rwa [Shape.standsForBounds_renames])]
  | case6 seen component ih =>
    rw [← ih (h.child (List.mem_singleton_self _)), Shape.rename, erasureFrom]
  | case9 seen bound ih =>
    rw [← ih (h.child (List.mem_singleton_self _)), Shape.rename, erasureFrom]
  | case7 | case8 | case10 | case11 | case12 => simp only [Shape.rename, erasureFrom]

/-- **Erasure** does not depend on ids. -/
theorem erasure_rename (hr : Function.Injective r) {s : Shape} (h : table.Carries other r s) :
    other.erasure (s.rename r) = table.erasure s := erasureFrom_rename hr [] h

end TypeVarTable

end FunctionAdapters
