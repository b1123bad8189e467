import FunctionAdapters.Proofs.Order

/-!
# Taking a list apart

`Parted whole left right` says that a list is made of two others: each of its elements goes to one
of them, in order.  This keeps apart elements that are equal, which counting elements or comparing
sets would not.

Sorting respects it (`parted_canonicalOrder`): of operations in canonical order those on the left are
the left part in canonical order.  This needs a stable sort, because operations with one key stay as
they came on either side.  In particular sorting commutes with filtering (`canonicalOrder_filter`).
-/

namespace FunctionAdapters

/-- A list and two parts of it. -/
inductive Parted {α : Type} : List α → List α → List α → Prop
  | nil : Parted [] [] []
  | left (x : α) {whole left right : List α} (rest : Parted whole left right) :
    Parted (x :: whole) (x :: left) right
  | right (x : α) {whole left right : List α} (rest : Parted whole left right) :
    Parted (x :: whole) left (x :: right)

section

variable {α : Type} {whole left right : List α}

theorem Parted.symm (h : Parted whole left right) : Parted whole right left := by
  induction h with
  | nil => exact .nil
  | left x rest ih => exact .right x ih
  | right x rest ih => exact .left x ih

theorem Parted.sublist_left (h : Parted whole left right) : left.Sublist whole := by
  induction h with
  | nil => exact .slnil
  | left x rest ih => exact ih.cons_cons x
  | right x rest ih => exact ih.cons x

theorem Parted.forall_mem {p : α → Prop} (h : Parted whole left right) :
    (∀ x ∈ whole, p x) ↔ (∀ x ∈ left, p x) ∧ ∀ x ∈ right, p x := by
  induction h with
  | nil => simp
  | left x rest ih => rw [List.forall_mem_cons, List.forall_mem_cons, ih, and_assoc]
  | right x rest ih => rw [List.forall_mem_cons, List.forall_mem_cons, ih, and_left_comm]

theorem parted_self (l : List α) : Parted l l [] := by
  induction l with
  | nil => exact .nil
  | cons x rest ih => exact .left x ih

theorem Parted.eq_left (h : Parted whole left []) : whole = left := by
  generalize hright : [] = right at h
  induction h with
  | nil => rfl
  | left x rest ih => rw [ih hright]
  | right x rest ih => cases hright

theorem Parted.append_left (h : Parted whole left right) (more : List α) :
    Parted (whole ++ more) (left ++ more) right := by
  induction h with
  | nil => exact parted_self more
  | left x rest ih => exact .left x ih
  | right x rest ih => exact .right x ih

theorem Parted.filterMap {β : Type} (h : Parted whole left right) (f : α → Option β) :
    Parted (whole.filterMap f) (left.filterMap f) (right.filterMap f) := by
  induction h with
  | nil => exact .nil
  | left x rest ih =>
    cases hx : f x with
    | none => rwa [List.filterMap_cons_none hx, List.filterMap_cons_none hx]
    | some y =>
      rw [List.filterMap_cons_some hx, List.filterMap_cons_some hx]
      exact .left y ih
  | right x rest ih =>
    cases hx : f x with
    | none => rwa [List.filterMap_cons_none hx, List.filterMap_cons_none hx]
    | some y =>
      rw [List.filterMap_cons_some hx, List.filterMap_cons_some hx]
      exact .right y ih

theorem parted_filter (p : α → Bool) (l : List α) :
    Parted l (l.filter p) (l.filter fun x => !p x) := by
  induction l with
  | nil => exact .nil
  | cons x rest ih =>
    cases hx : p x with
    | true =>
      rw [List.filter_cons_of_pos hx, List.filter_cons_of_neg (by simp [hx])]
      exact .left x ih
    | false =>
      rw [List.filter_cons_of_neg (by simp [hx]), List.filter_cons_of_pos (by simp [hx])]
      exact .right x ih

theorem Parted.eq_filter {p : α → Bool} (h : Parted whole left right)
    (hleft : ∀ x ∈ left, p x = true) (hright : ∀ x ∈ right, p x = false) :
    left = whole.filter p := by
  induction h with
  | nil => rfl
  | left x rest ih =>
    obtain ⟨hx, hleft⟩ := List.forall_mem_cons.1 hleft
    rw [List.filter_cons_of_pos hx, ← ih hleft hright]
  | right x rest ih =>
    obtain ⟨hx, hright⟩ := List.forall_mem_cons.1 hright
    rw [List.filter_cons_of_neg (by simp [hx]), ← ih hleft hright]

theorem Parted.orderedInsert {le : α → α → Prop} [DecidableRel le]
    (htrans : ∀ a b c, le a b → le b c → le a c) (h : Parted whole left right)
    (hsorted : whole.Pairwise le) (x : α) :
    Parted (whole.orderedInsert le x) (left.orderedInsert le x) right := by
  induction h with
  | nil => exact .left x .nil
  | left y rest ih =>
    rw [List.orderedInsert_cons, List.orderedInsert_cons]
    split
    · exact .left x (.left y rest)
    · exact .left y (ih (List.pairwise_cons.1 hsorted).2)
  | @right y whole left right rest ih =>
    obtain ⟨hy, htail⟩ := List.pairwise_cons.1 hsorted
    rw [List.orderedInsert_cons]
    split
    · next hxy =>
      -- whatever is left on the left comes after `y`, so `x` goes to its front
      have hfront : left.orderedInsert le x = x :: left := by
        cases left with
        | nil => rfl
        | cons z more =>
          have hz : z ∈ whole := rest.sublist_left.subset List.mem_cons_self
          exact List.orderedInsert_cons_of_le le more (htrans x y z hxy (hy z hz))
      rw [hfront]
      exact .left x (.right y rest)
    · exact .right y (ih htail)

end

/-! ## Canonical order -/

variable {ops left right : List Operation}

/-- **Sorting respects parts.** -/
theorem parted_canonicalOrder (table : TypeVarTable) (h : Parted ops left right) :
    Parted (canonicalOrder table ops) (canonicalOrder table left) (canonicalOrder table right) := by
  have hinsert : ∀ {whole left right : List Operation} (op : Operation),
      (Parted (canonicalOrder table whole) (canonicalOrder table left)
        (canonicalOrder table right)) →
      Parted (canonicalOrder table (op :: whole)) (canonicalOrder table (op :: left))
        (canonicalOrder table right) := by
    intro whole left right op ih
    have hsorted := canonicalOrder_pairwise table whole
    have htrans : ∀ a b c, Operation.keyLE table a b = true → Operation.keyLE table b c = true →
        Operation.keyLE table a c = true := fun _ _ _ => Operation.keyLE_trans
    rw [canonicalOrder_cons, canonicalOrder_cons]
    exact ih.orderedInsert htrans hsorted op
  induction h with
  | nil =>
    rw [canonicalOrder_nil]
    exact .nil
  | left op rest ih => exact hinsert op ih
  | right op rest ih => exact (hinsert op ih.symm).symm

theorem canonicalOrder_filter (table : TypeVarTable) (p : Operation → Bool)
    (ops : List Operation) :
    canonicalOrder table (ops.filter p) = (canonicalOrder table ops).filter p := by
  refine (parted_canonicalOrder table (parted_filter p ops)).eq_filter ?_ ?_
  · intro op hop
    exact List.of_mem_filter (mem_canonicalOrder.1 hop)
  · intro op hop
    have hnot := List.of_mem_filter (mem_canonicalOrder.1 hop)
    simpa using hnot

end FunctionAdapters
