import FunctionAdapters.Order
import Mathlib.Data.List.Sort

/-!
# The canonical order

Keys are linearly ordered, so the keys of some operations in canonical order do not depend on the
order in which the operations came.  The operations themselves are determined as far as their keys
tell them apart: what a function says about the operations in order is the same for every
permutation of them, if it never says two things about operations with one key
(`filterMap_canonicalOrder`).
-/

namespace FunctionAdapters

/-! ## Keys are linearly ordered -/

namespace CanonicalKey

instance : Std.TransOrd CanonicalKey :=
  inferInstanceAs <| Std.TransCmp <|
    compareLex (compareOn name) <| compareLex (compareOn arity) <|
    compareLex (compareOn parameterTypes) <| compareLex (compareOn variableBounds) <|
    compareLex (compareOn kind) <| compareLex (compareOn returnType) <|
    compareLex (compareOn parameterNames) <| compareLex (compareOn generatedName) <|
    compareOn doc

/-- Only equal keys are in the same place: every part of the key is compared. -/
theorem eq_of_compare {a b : CanonicalKey} (h : compare a b = .eq) : a = b := by
  change compareLex _ _ a b = .eq at h
  simp only [compareLex_eq_eq, compareOn, Std.LawfulEqCmp.compare_eq_iff_eq] at h
  obtain ⟨h1, h2, h3, h4, h5, h6, h7, h8, h9⟩ := h
  cases a
  cases b
  simp_all

end CanonicalKey

namespace Operation

variable {table : TypeVarTable}

theorem keyLE_trans {a b c : Operation} (hab : keyLE table a b = true)
    (hbc : keyLE table b c = true) : keyLE table a c = true :=
  Std.TransCmp.isLE_trans hab hbc

theorem keyLE_total (a b : Operation) : (keyLE table a b || keyLE table b a) = true := by
  have hswap : compare (b.canonicalKey table) (a.canonicalKey table) =
      (compare (a.canonicalKey table) (b.canonicalKey table)).swap := Std.OrientedOrd.eq_swap
  unfold keyLE
  rw [hswap]
  cases compare (a.canonicalKey table) (b.canonicalKey table) <;> rfl

theorem keyLE_antisymm {a b : Operation} (hab : keyLE table a b = true)
    (hba : keyLE table b a = true) : a.canonicalKey table = b.canonicalKey table :=
  CanonicalKey.eq_of_compare (Std.OrientedCmp.isLE_antisymm hab hba)

theorem keyLE_of_eq {a b : Operation} (h : a.canonicalKey table = b.canonicalKey table) :
    keyLE table a b = true := by
  have hself : compare (b.canonicalKey table) (b.canonicalKey table) = .eq :=
    Std.ReflOrd.compare_self
  unfold keyLE
  rw [h, hself]
  rfl

theorem keyLE_of_name {a b : Operation} (h : compare a.name b.name = .lt) :
    keyLE table a b = true := by
  have hname : compare (a.canonicalKey table).name (b.canonicalKey table).name = .lt := h
  have hcompare : compare (a.canonicalKey table) (b.canonicalKey table) = .lt := by
    change compareLex _ _ _ _ = .lt
    simp only [compareLex, compareOn, hname]
    rfl
  rw [keyLE, hcompare]
  rfl

/-- Of two operations with one name and one number of parameters, the texts of the boxed parameter
types decide. -/
theorem keyLE_of_parameterTypes {a b : Operation} (hname : a.name = b.name)
    (harity : a.arity = b.arity)
    (h : compare (a.canonicalKey table).parameterTypes (b.canonicalKey table).parameterTypes = .lt) :
    keyLE table a b = true := by
  have hn : (a.canonicalKey table).name = (b.canonicalKey table).name := hname
  have ha : (a.canonicalKey table).arity = (b.canonicalKey table).arity := harity
  have hcompare : compare (a.canonicalKey table) (b.canonicalKey table) = .lt := by
    change compareLex _ _ _ _ = .lt
    simp only [compareLex, compareOn, hn, ha, h, Std.ReflOrd.compare_self]
    rfl
  rw [keyLE, hcompare]
  rfl

end Operation

/-! ## Sorting by key -/

variable (table : TypeVarTable)

theorem canonicalOrder_perm (ops : List Operation) : (canonicalOrder table ops).Perm ops :=
  List.mergeSort_perm _ _

variable {table} in
theorem mem_canonicalOrder {op : Operation} {ops : List Operation} :
    op ∈ canonicalOrder table ops ↔ op ∈ ops := (canonicalOrder_perm table ops).mem_iff

theorem canonicalOrder_pairwise (ops : List Operation) :
    (canonicalOrder table ops).Pairwise fun a b => Operation.keyLE table a b = true := by
  unfold canonicalOrder
  apply List.pairwise_mergeSort
  · intro a b c hab hbc
    exact Operation.keyLE_trans hab hbc
  · exact Operation.keyLE_total

theorem canonicalOrder_of_pairwise {ops : List Operation}
    (h : ops.Pairwise fun a b => Operation.keyLE table a b = true) :
    canonicalOrder table ops = ops := List.mergeSort_of_pairwise h

theorem canonicalOrder_nil : canonicalOrder table [] = [] := List.mergeSort_nil

theorem canonicalOrder_singleton (op : Operation) : canonicalOrder table [op] = [op] :=
  canonicalOrder_of_pairwise table (List.pairwise_singleton _ op)

theorem canonicalOrder_pair {a b : Operation}
    (h : a.canonicalKey table = b.canonicalKey table) : canonicalOrder table [a, b] = [a, b] :=
  canonicalOrder_of_pairwise table (by simpa using Operation.keyLE_of_eq h)

/-- **The sort is stable**: an operation goes to the place before all that are not before it. -/
theorem canonicalOrder_cons (op : Operation) (ops : List Operation) :
    canonicalOrder table (op :: ops) =
      (canonicalOrder table ops).orderedInsert (fun a b => Operation.keyLE table a b = true) op := by
  have htrans : ∀ a b c, Operation.keyLE table a b = true → Operation.keyLE table b c = true →
      Operation.keyLE table a c = true := fun _ _ _ => Operation.keyLE_trans
  have htotal : ∀ a b, (Operation.keyLE table a b || Operation.keyLE table b a) = true :=
    Operation.keyLE_total
  -- the sort puts `op` after some elements that are not behind it
  obtain ⟨before, after, hcons, htail, hbefore⟩ := List.mergeSort_cons htrans htotal op ops
  have hsorted := canonicalOrder_pairwise table (op :: ops)
  unfold canonicalOrder at hsorted ⊢
  rw [hcons] at hsorted ⊢
  obtain ⟨hafter, -⟩ := List.pairwise_cons.1 (List.pairwise_append.1 hsorted).2.1
  have hnotLE : ∀ b ∈ before, (decide ¬ Operation.keyLE table op b = true) = true := by
    intro b hb
    simpa using hbefore b hb
  -- what the sort puts behind `op` is not before it, so the insertion stops there as well
  have htake : (after.takeWhile fun b => decide ¬ Operation.keyLE table op b = true) = [] := by
    cases after with
    | nil => rfl
    | cons b rest => simp [hafter b List.mem_cons_self]
  have hdrop : (after.dropWhile fun b => decide ¬ Operation.keyLE table op b = true) = after := by
    cases after with
    | nil => rfl
    | cons b rest => simp [hafter b List.mem_cons_self]
  rw [htail, List.orderedInsert_eq_take_drop, List.takeWhile_append_of_pos hnotLE,
    List.dropWhile_append_of_pos hnotLE, htake, hdrop, List.append_nil]

/-- **Order up to equal keys.**  A function that never says two things about operations with one
key says the same about all permutations of some operations, once they are in order. -/
theorem filterMap_canonicalOrder {α : Type} {f : Operation → Option α} {ops ops' : List Operation}
    (hperm : ops'.Perm ops)
    (hkey : ∀ a ∈ ops, ∀ b ∈ ops, a.canonicalKey table = b.canonicalKey table →
      ∀ x ∈ f a, ∀ y ∈ f b, x = y) :
    (canonicalOrder table ops').filterMap f = (canonicalOrder table ops).filterMap f := by
  -- the results, each with the key of its operation, are sorted by these keys
  let g : Operation → Option (CanonicalKey × α) := fun a => (f a).map (a.canonicalKey table, ·)
  let le : CanonicalKey × α → CanonicalKey × α → Prop := fun p q => (compare p.1 q.1).isLE = true
  have hsorted : ∀ l : List Operation, ((canonicalOrder table l).filterMap g).Pairwise le := by
    intro l
    refine (canonicalOrder_pairwise table l).filterMap g ?_
    rintro a b hab p hp q hq
    obtain ⟨x, -, rfl⟩ := Option.map_eq_some_iff.1 hp
    obtain ⟨y, -, rfl⟩ := Option.map_eq_some_iff.1 hq
    exact hab
  -- two sorted permutations are equal if equal keys have equal results
  have hsame : (canonicalOrder table ops').filterMap g = (canonicalOrder table ops).filterMap g := by
    refine List.Perm.eq_of_pairwise ?_ (hsorted ops') (hsorted ops) ?_
    · rintro p q hp hq hpq hqp
      obtain ⟨a, ha, hga⟩ := List.mem_filterMap.1 hp
      obtain ⟨b, hb, hgb⟩ := List.mem_filterMap.1 hq
      obtain ⟨x, hx, rfl⟩ := Option.map_eq_some_iff.1 hga
      obtain ⟨y, hy, rfl⟩ := Option.map_eq_some_iff.1 hgb
      have hk : a.canonicalKey table = b.canonicalKey table := Operation.keyLE_antisymm hpq hqp
      have ha' : a ∈ ops := hperm.mem_iff.1 ((canonicalOrder_perm table ops').mem_iff.1 ha)
      have hb' : b ∈ ops := (canonicalOrder_perm table ops).mem_iff.1 hb
      rw [hk, hkey a ha' b hb' hk x hx y hy]
    · exact (((canonicalOrder_perm table ops').trans hperm).trans
        (canonicalOrder_perm table ops).symm).filterMap g
  -- the keys served only to compare
  have hforget : ∀ l : List Operation, (l.filterMap g).map Prod.snd = l.filterMap f := by
    intro l
    rw [List.map_filterMap]
    congr 1
    funext a
    simp [g, Function.comp_def]
  rw [← hforget, hsame, hforget]

end FunctionAdapters
