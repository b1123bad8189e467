import FunctionAdapters.Proofs.TypeVar.Reach
import FunctionAdapters.TypeVar.Names
import Mathlib.Logic.Function.Iterate
import Mathlib.Order.Lattice.Nat

/-!
# The order in which type variables are found

The search for type variables goes by breadth: a variable is listed before another if it takes fewer
steps from the roots, where a step goes from a shape to one that it is built from, or from a variable
to one of its bounds (`Edge`).

The loop itself keeps one queue, in which two levels of the graph stand one behind the other.  To see
the levels apart, one level at a time is taken off the queue (`sweep`), and `reach_eq_layer` says that
the search goes on from there as if nothing had happened.  What is known of a level is `Layered`: a
shape that lies `n` steps away and no fewer waits in it, and what was found before lies nearer.  This
is so for the bounds of a variable because the variable is new exactly when it is met for the first
time, hence at its least distance.

The main statement is `reach_by_breadth`.
-/

namespace FunctionAdapters

namespace TypeVarTable

variable {table : TypeVarTable} {roots shapes more : List Shape} {found : List TypeVarId}
  {s t : Shape} {id : TypeVarId} {n : Nat}

/-! ## Distances -/

/-- What stands right behind a shape: its parts, and the bounds of a variable. -/
inductive Edge (table : TypeVarTable) : Shape → Shape → Prop
  | argument {name : ClassName} {args bounds : List Shape} {a : Shape} (mem : a ∈ args) :
    Edge table (.declared name args bounds) a
  | directBound {name : ClassName} {args bounds : List Shape} {b : Shape} (mem : b ∈ bounds) :
    Edge table (.declared name args bounds) b
  | component (s : Shape) : Edge table (.array s) s
  | extendsBound (s : Shape) : Edge table (.wildcardExtends s) s
  | superBound (s : Shape) : Edge table (.wildcardSuper s) s
  | upperBound {id : TypeVarId} {p : TypeParam} (entry : table.get? id = some p) :
    Edge table (.typeVar id) p.upper
  | lowerBound {id : TypeVarId} {p : TypeParam} {b : Shape} (entry : table.get? id = some p)
    (bound : p.lower = some b) : Edge table (.typeVar id) b

/-- A number of steps from one shape to another. -/
inductive Steps (table : TypeVarTable) (s : Shape) : Nat → Shape → Prop
  | start : Steps table s 0 s
  | step {n : Nat} {t u : Shape} (path : Steps table s n t) (edge : table.Edge t u) :
    Steps table s (n + 1) u

/-- A shape lies a number of steps away from one of the roots. -/
def Away (table : TypeVarTable) (roots : List Shape) (n : Nat) (s : Shape) : Prop :=
  ∃ r ∈ roots, table.Steps r n s

/-- The least number of steps from one of the roots to a variable. -/
noncomputable def distance (table : TypeVarTable) (roots : List Shape) (id : TypeVarId) : Nat :=
  sInf {n | table.Away roots n (.typeVar id)}

theorem mem_next_of_edge (h : table.Edge s t) (ht : t ≠ .top) : t ∈ table.next s := by
  have hnotTop : t.isTop = false := by
    rw [← Bool.not_eq_true, Shape.isTop_iff]
    exact ht
  cases h with
  | argument mem => exact List.mem_append_left _ mem
  | directBound mem => exact List.mem_append_right _ mem
  | component s => exact List.mem_singleton_self t
  | extendsBound s => exact List.mem_singleton_self t
  | superBound s => exact List.mem_singleton_self t
  | upperBound entry =>
    simp [next, Shape.typeVar?, bounds, entry, TypeParam.bounds, TypeParam.allBounds, hnotTop]
  | lowerBound entry bound =>
    simp [next, Shape.typeVar?, bounds, entry, TypeParam.bounds, TypeParam.allBounds, bound,
      hnotTop]

theorem edge_of_mem_next (h : t ∈ table.next s) : table.Edge s t := by
  cases s with
  | declared name args bounds =>
    rcases List.mem_append.1 h with h | h
    · exact .argument h
    · exact .directBound h
  | array s =>
    obtain rfl := List.mem_singleton.1 h
    exact .component t
  | wildcardExtends s =>
    obtain rfl := List.mem_singleton.1 h
    exact .extendsBound t
  | wildcardSuper s =>
    obtain rfl := List.mem_singleton.1 h
    exact .superBound t
  | typeVar id =>
    have hbounds : t ∈ table.bounds id := h
    unfold bounds at hbounds
    cases hp : table.get? id with
    | none => simp [hp] at hbounds
    | some p =>
      simp only [hp, Option.map_some, Option.getD_some, TypeParam.bounds, List.mem_filter,
        TypeParam.allBounds, List.mem_append, Option.mem_toList, List.mem_singleton] at hbounds
      obtain ⟨hlower | rfl, -⟩ := hbounds
      · exact .lowerBound hp hlower
      · exact .upperBound hp
  | primitive type => cases h
  | wildcard => cases h
  | void => cases h
  | top => cases h

theorem not_edge_top : ¬ table.Edge .top t := by
  intro h
  cases h

theorem Away.step (h : table.Away roots n s) (edge : table.Edge s t) :
    table.Away roots (n + 1) t := by
  obtain ⟨r, hr, path⟩ := h
  exact ⟨r, hr, path.step edge⟩

theorem away_zero : table.Away roots 0 s ↔ s ∈ roots := by
  constructor
  · rintro ⟨r, hr, path⟩
    cases path
    exact hr
  · intro h
    exact ⟨s, h, .start⟩

theorem away_succ (h : table.Away roots (n + 1) t) :
    ∃ s, table.Away roots n s ∧ table.Edge s t := by
  obtain ⟨r, hr, path⟩ := h
  cases path with
  | step path edge => exact ⟨_, ⟨r, hr, path⟩, edge⟩

/-! ## One level of the queue -/

/-- Takes some shapes off the queue: the shapes that are put at its end, and the variables found
until then. -/
def sweep (table : TypeVarTable) : List Shape → List TypeVarId → List Shape × List TypeVarId
  | [], found => ([], found)
  | s :: rest, found =>
    match s.typeVar? with
    | none => (table.next s ++ (table.sweep rest found).1, (table.sweep rest found).2)
    | some id =>
      if id ∈ found then table.sweep rest found
      else (table.next s ++ (table.sweep rest (found ++ [id])).1,
        (table.sweep rest (found ++ [id])).2)

/-- **The search goes on.**  After some shapes at its head are taken off, the queue consists of what
stood behind them and what they put at its end. -/
theorem reachFrom_append (table : TypeVarTable) (shapes more : List Shape)
    (found : List TypeVarId) :
    table.reachFrom (shapes ++ more) found =
      table.reachFrom (more ++ (table.sweep shapes found).1) (table.sweep shapes found).2 := by
  induction shapes generalizing more found with
  | nil => rw [sweep, List.nil_append, List.append_nil]
  | cons s rest ih =>
    rw [List.cons_append, reachFrom, sweep]
    cases hs : s.typeVar? with
    | none =>
      simp only [next, hs]
      rw [List.append_assoc, ih, List.append_assoc]
    | some id =>
      by_cases hid : id ∈ found
      · simp only [hid, if_true]
        exact ih more found
      · simp only [next, hs, hid, if_false]
        rw [List.append_assoc, ih, List.append_assoc]

theorem mem_found_sweep : id ∈ (table.sweep shapes found).2 ↔
    id ∈ found ∨ .typeVar id ∈ shapes := by
  induction shapes generalizing found with
  | nil => simp [sweep]
  | cons s rest ih =>
    rw [sweep, List.mem_cons]
    cases hs : s.typeVar? with
    | none =>
      have hne : Shape.typeVar id ≠ s := by
        rintro rfl
        cases hs
      simp only [ih, hne, false_or]
    | some x =>
      obtain rfl := Shape.typeVar?_eq_some.1 hs
      by_cases hx : x ∈ found
      · simp only [hx, if_true, ih, Shape.typeVar.injEq]
        constructor
        · rintro (h | h)
          · exact .inl h
          · exact .inr (.inr h)
        · rintro (h | rfl | h)
          · exact .inl h
          · exact .inl hx
          · exact .inr h
      · simp only [hx, if_false, ih, List.mem_append, List.mem_singleton, Shape.typeVar.injEq,
          or_assoc]

theorem edge_of_mem_sweep (h : t ∈ (table.sweep shapes found).1) :
    ∃ s ∈ shapes, table.Edge s t := by
  induction shapes generalizing found with
  | nil => cases h
  | cons s rest ih =>
    rw [sweep] at h
    cases hs : s.typeVar? with
    | none =>
      simp only [hs, List.mem_append] at h
      rcases h with h | h
      · exact ⟨s, List.mem_cons_self, edge_of_mem_next h⟩
      · obtain ⟨u, hu, edge⟩ := ih h
        exact ⟨u, List.mem_cons_of_mem s hu, edge⟩
    | some id =>
      by_cases hid : id ∈ found
      · simp only [hs, hid, if_true] at h
        obtain ⟨u, hu, edge⟩ := ih h
        exact ⟨u, List.mem_cons_of_mem s hu, edge⟩
      · simp only [hs, hid, if_false, List.mem_append] at h
        rcases h with h | h
        · exact ⟨s, List.mem_cons_self, edge_of_mem_next h⟩
        · obtain ⟨u, hu, edge⟩ := ih h
          exact ⟨u, List.mem_cons_of_mem s hu, edge⟩

theorem mem_sweep_of_mem_next (hs : s ∈ shapes) (hnew : ∀ id ∈ found, s ≠ .typeVar id)
    (ht : t ∈ table.next s) : t ∈ (table.sweep shapes found).1 := by
  induction shapes generalizing found with
  | nil => cases hs
  | cons u rest ih =>
    rw [sweep]
    cases hu : u.typeVar? with
    | none =>
      simp only [List.mem_append]
      rcases List.mem_cons.1 hs with rfl | hs
      · exact .inl ht
      · exact .inr (ih hs hnew)
    | some id =>
      obtain rfl := Shape.typeVar?_eq_some.1 hu
      by_cases hid : id ∈ found
      · simp only [hid, if_true]
        rcases List.mem_cons.1 hs with rfl | hs
        · exact absurd rfl (hnew id hid)
        · exact ih hs hnew
      · simp only [hid, if_false, List.mem_append]
        -- a variable that is found now hides no shape other than itself
        by_cases heq : s = .typeVar id
        · subst heq
          exact .inl ht
        · refine .inr (ih ((List.mem_cons.1 hs).resolve_left heq) fun x hx => ?_)
          rcases List.mem_append.1 hx with hx | hx
          · exact hnew x hx
          · rw [List.mem_singleton.1 hx]
            exact heq

theorem found_sweep (table : TypeVarTable) (shapes : List Shape) (found : List TypeVarId) :
    (table.sweep shapes found).2 =
      found ++ (firstSeen (shapes.filterMap Shape.typeVar?)).filter (· ∉ found) := by
  induction shapes generalizing found with
  | nil => simp [sweep, firstSeen]
  | cons s rest ih =>
    rw [sweep]
    cases hs : s.typeVar? with
    | none =>
      rw [List.filterMap_cons_none hs]
      exact ih found
    | some id =>
      rw [List.filterMap_cons_some hs, firstSeen]
      -- a variable found before is dropped on both sides, a new one is put in front of the rest
      by_cases hid : id ∈ found
      · simp only [hid, if_true]
        rw [ih, List.filter_cons_of_neg (by simpa using hid), List.filter_filter]
        refine congrArg (found ++ ·) (List.filter_congr fun x _ => ?_)
        by_cases hx : x = id <;> simp [hx, hid]
      · simp only [hid, if_false]
        rw [ih, List.filter_cons_of_pos (by simpa using hid), List.filter_filter,
          List.append_assoc, List.singleton_append]
        refine congrArg (fun l => found ++ id :: l) (List.filter_congr fun x _ => ?_)
        by_cases hx : x = id <;> simp [hx]

/-! ## Level by level -/

def layer (table : TypeVarTable) (roots : List Shape) : Nat → List Shape × List TypeVarId
  | 0 => (roots, [])
  | n + 1 => table.sweep (table.layer roots n).1 (table.layer roots n).2

theorem reach_eq_layer (table : TypeVarTable) (roots : List Shape) (n : Nat) :
    table.reach roots = table.reachFrom (table.layer roots n).1 (table.layer roots n).2 := by
  induction n with
  | zero => rfl
  | succ n ih =>
    have hsweep := table.reachFrom_append (table.layer roots n).1 [] (table.layer roots n).2
    rw [List.append_nil, List.nil_append] at hsweep
    rw [ih, hsweep, layer]

theorem prefix_reachFrom (table : TypeVarTable) (queue : List Shape) (found : List TypeVarId) :
    found <+: table.reachFrom queue found := by
  fun_induction table.reachFrom queue found with
  | case1 found => exact List.prefix_rfl
  | case2 found s rest hs ih => exact ih
  | case3 found s rest id hs hid ih => exact ih
  | case4 found s rest id hs hid ih => exact (List.prefix_append found [id]).trans ih

theorem front_layer (table : TypeVarTable) (roots : List Shape) (n : Nat) :
    (table.layer roots n).2 <+: table.reach roots := by
  rw [table.reach_eq_layer roots n]
  exact table.prefix_reachFrom _ _

/-- What is known after `n` levels. -/
structure Layered (table : TypeVarTable) (roots : List Shape) (n : Nat) : Prop where
  /-- What waits in the queue lies `n` steps away. -/
  away : ∀ s ∈ (table.layer roots n).1, table.Away roots n s
  /-- Exactly the variables that lie nearer were found. -/
  mem_found : ∀ id, id ∈ (table.layer roots n).2 ↔ ∃ m < n, table.Away roots m (.typeVar id)
  /-- A shape that does not lie nearer waits in the queue. -/
  waits : ∀ s, s ≠ .top → table.Away roots n s → (∀ m < n, ¬ table.Away roots m s) →
    s ∈ (table.layer roots n).1

theorem layered_zero (table : TypeVarTable) (roots : List Shape) : table.Layered roots 0 where
  away s hs := away_zero.2 hs
  mem_found id := by simp [layer]
  waits s _ hs _ := away_zero.1 hs

/-- **One level.** -/
theorem Layered.succ (h : table.Layered roots n) : table.Layered roots (n + 1) where
  away t ht := by
    obtain ⟨s, hs, edge⟩ := edge_of_mem_sweep ht
    exact (h.away s hs).step edge
  mem_found id := by
    rw [layer, mem_found_sweep, h.mem_found]
    constructor
    · rintro (⟨m, hm, haway⟩ | hmem)
      · exact ⟨m, by omega, haway⟩
      · exact ⟨n, by omega, h.away _ hmem⟩
    · rintro ⟨m, hm, haway⟩
      by_cases hnear : ∃ k < n, table.Away roots k (.typeVar id)
      · exact .inl hnear
      · -- nothing lies nearer, so the variable lies in this level and waits there
        have hmn : m = n := by
          have hge : ¬ m < n := fun hlt => hnear ⟨m, hlt, haway⟩
          omega
        subst hmn
        exact .inr (h.waits _ nofun haway fun k hk hkaway => hnear ⟨k, hk, hkaway⟩)
  waits t ht haway hfirst := by
    -- The shape before `t` lies `n` steps away and no fewer, so it waits one level earlier.
    obtain ⟨s, hs, edge⟩ := away_succ haway
    have hleast : ∀ m < n, ¬ table.Away roots m s := fun m hm hnear =>
      hfirst (m + 1) (by omega) (hnear.step edge)
    have hnotTop : s ≠ .top := by
      rintro rfl
      exact not_edge_top edge
    refine mem_sweep_of_mem_next (h.waits s hnotTop hs hleast) ?_ (mem_next_of_edge edge ht)
    rintro id hid rfl
    obtain ⟨m, hm, hnear⟩ := (h.mem_found id).1 hid
    exact hleast m hm hnear

theorem layered (table : TypeVarTable) (roots : List Shape) (n : Nat) : table.Layered roots n := by
  induction n with
  | zero => exact table.layered_zero roots
  | succ n ih => exact ih.succ

/-! ## The result -/

theorem away_of_leads {r : Shape} (hr : r ∈ roots) (h : table.Leads r s) :
    ∃ n, table.Away roots n s := by
  induction h with
  | refl => exact ⟨0, away_zero.2 hr⟩
  | tail _ hnext ih =>
    obtain ⟨n, haway⟩ := ih
    exact ⟨n + 1, haway.step (edge_of_mem_next hnext)⟩

theorem mem_reach_iff_away : id ∈ table.reach roots ↔ ∃ n, table.Away roots n (.typeVar id) := by
  constructor
  · intro h
    obtain ⟨r, hr, hleads⟩ := mem_reach_iff.1 h
    exact away_of_leads hr hleads
  · rintro ⟨n, haway⟩
    refine (table.front_layer roots (n + 1)).subset ?_
    exact ((table.layered roots (n + 1)).mem_found id).2 ⟨n, by omega, haway⟩

/-- **Order.**  A variable that is listed before another lies no farther away. -/
theorem pairwise_distance_reach (table : TypeVarTable) (roots : List Shape) :
    (table.reach roots).Pairwise fun x y => table.distance roots x ≤ table.distance roots y := by
  rw [List.pairwise_iff_getElem]
  intro i j hi hj hij
  -- All variables that lie as near as the later one stand in front, without a gap.
  have hfar : table.Away roots (table.distance roots (table.reach roots)[j])
      (.typeVar (table.reach roots)[j]) :=
    Nat.sInf_mem (mem_reach_iff_away.1 (List.getElem_mem hj))
  generalize table.distance roots (table.reach roots)[j] = d at hfar ⊢
  have hmem : (table.reach roots)[j] ∈ (table.layer roots (d + 1)).2 :=
    ((table.layered roots (d + 1)).mem_found _).2 ⟨d, by omega, hfar⟩
  obtain ⟨k, hk, hkj⟩ := List.getElem_of_mem hmem
  have hfront := table.front_layer roots (d + 1)
  have hplace : k = j := by
    rw [hfront.getElem hk] at hkj
    exact (table.nodup_reach roots).getElem_inj_iff.1 hkj
  have hearlier : (table.reach roots)[i] ∈ (table.layer roots (d + 1)).2 := by
    have hik : i < (table.layer roots (d + 1)).2.length := by omega
    rw [← hfront.getElem hik]
    exact List.getElem_mem hik
  obtain ⟨m, hm, hnear⟩ := ((table.layered roots (d + 1)).mem_found _).1 hearlier
  have hle : table.distance roots (table.reach roots)[i] ≤ m := Nat.sInf_le hnear
  omega

theorem firstSeen_prefix_reach (table : TypeVarTable) (roots : List Shape) :
    firstSeen (roots.filterMap Shape.typeVar?) <+: table.reach roots := by
  have hfirst : (table.layer roots 1).2 = firstSeen (roots.filterMap Shape.typeVar?) := by
    rw [layer, layer, found_sweep]
    simp
  rw [← hfirst]
  exact table.front_layer roots 1

/-! ## The end of the search -/

/-- One turn of the search, which takes a shape off the queue if there is one. -/
def turn (table : TypeVarTable) : List Shape × List TypeVarId → List Shape × List TypeVarId
  | ([], found) => ([], found)
  | (s :: rest, found) =>
    match s.typeVar? with
    | none => (rest ++ s.children, found)
    | some id =>
      if id ∈ found then (rest, found) else (rest ++ table.bounds id, found ++ [id])

/-- **The queue runs empty,** at the latest after as many turns as there are shapes in the queue and
in the bounds of the variables that are not found yet. -/
theorem iterate_turn (table : TypeVarTable) (queue : List Shape) (found : List TypeVarId)
    {turns : Nat} (h : Shape.sizes queue + table.weight found ≤ turns) :
    table.turn^[turns] (queue, found) = ([], table.reachFrom queue found) := by
  fun_induction table.reachFrom queue found generalizing turns with
  | case1 found => exact Function.iterate_fixed rfl turns
  | case2 found s rest hs ih =>
    have hsize := Shape.sizes_children_lt s
    rw [Shape.sizes] at h
    obtain ⟨turns, rfl⟩ := Nat.exists_eq_add_of_le' (show 1 ≤ turns by omega)
    rw [Function.iterate_succ_apply, turn]
    simp only [hs]
    exact ih (by rw [Shape.sizes_append]; omega)
  | case3 found s rest id hs hid ih =>
    have hsize := Shape.size_pos s
    rw [Shape.sizes] at h
    obtain ⟨turns, rfl⟩ := Nat.exists_eq_add_of_le' (show 1 ≤ turns by omega)
    rw [Function.iterate_succ_apply, turn]
    simp only [hs, hid, if_true]
    exact ih (by omega)
  | case4 found s rest id hs hid ih =>
    have hsize := Shape.size_pos s
    -- a new variable puts its bounds in the queue, which are no longer counted with the table
    have hweight := table.weight_bounds hid
    rw [Shape.sizes] at h
    obtain ⟨turns, rfl⟩ := Nat.exists_eq_add_of_le' (show 1 ≤ turns by omega)
    rw [Function.iterate_succ_apply, turn]
    simp only [hs, hid, if_false]
    exact ih (by rw [Shape.sizes_append]; omega)

end TypeVarTable

/-- **The search goes by breadth.**  However the bounds of variables lead to each other, the queue
runs empty, after no more turns than there are shapes in the roots and in all bounds.  The result
lists without repetition the variables that lie some number of steps behind the roots, in the order
of the least number of these steps; so the variables among the roots come first, in their order. -/
theorem reach_by_breadth (table : TypeVarTable) (roots : List Shape) :
    table.turn^[Shape.sizes roots + table.weight []] (roots, []) = ([], table.reach roots) ∧
      (table.reach roots).Nodup ∧
      (∀ id, id ∈ table.reach roots ↔ ∃ n, table.Away roots n (.typeVar id)) ∧
      (table.reach roots).Pairwise (fun x y =>
        table.distance roots x ≤ table.distance roots y) ∧
      firstSeen (roots.filterMap Shape.typeVar?) <+: table.reach roots :=
  ⟨table.iterate_turn roots [] le_rfl, table.nodup_reach roots,
    fun _ => TypeVarTable.mem_reach_iff_away, table.pairwise_distance_reach roots,
    table.firstSeen_prefix_reach roots⟩

end FunctionAdapters
