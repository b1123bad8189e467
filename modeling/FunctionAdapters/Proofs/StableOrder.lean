import FunctionAdapters.Proofs.Parted
import FunctionAdapters.Proofs.Plan.Run
import Mathlib.Data.Prod.Lex

/-!
# The canonical order is the stable sort by key

Keys are compared part by part, and the first difference decides: `CanonicalKey.parts` puts a key
into a lexicographic product, and `isLE_compare_iff` says that the comparison is its order.

A list is the canonical order of some operations if and only if it holds the same operations, its
keys ascend, and the operations with one key are as they came (`stablySorted_iff`).  Two lists with
the same keys, place by place, can differ only where they hold different operations of one key
(`eq_at_of_filter_eq`); and of two arrangements of some elements that differ, one has two of them the
other way round (`exists_swapped`).  So another order of discovery shows only where it swaps two
operations with one key: this is the last part of the main statement, `canonicalOrder_stable`.
-/

namespace FunctionAdapters

/-! ## Lists that differ -/

section

variable {α β : Type} [DecidableEq β] {f : α → β}

/-- If two lists agree in what a function says, place by place, and the elements of which it says one
thing are the same, then these stand in the same places. -/
theorem eq_at_of_filter_eq {l l' : List α} {k : β} (hmap : l.map f = l'.map f)
    (hfilter : l.filter (f · = k) = l'.filter (f · = k)) {i : Nat} {a b : α} (ha : l[i]? = some a)
    (hb : l'[i]? = some b) (hk : f a = k) : a = b := by
  induction l generalizing l' i with
  | nil => simp at ha
  | cons x rest ih =>
    obtain _ | ⟨y, rest'⟩ := l'
    · simp at hb
    rw [List.map_cons, List.map_cons, List.cons.injEq] at hmap
    obtain ⟨hxy, hmap⟩ := hmap
    by_cases hx : f x = k
    · -- both heads are of the kind, hence the first of their kind
      have hy : f y = k := hxy ▸ hx
      rw [List.filter_cons_of_pos (by simpa using hx), List.filter_cons_of_pos (by simpa using hy),
        List.cons.injEq] at hfilter
      cases i with
      | zero =>
        obtain rfl : x = a := by simpa using ha
        obtain rfl : y = b := by simpa using hb
        exact hfilter.1
      | succ i => exact ih hmap hfilter.2 (by simpa using ha) (by simpa using hb)
    · have hy : f y ≠ k := hxy ▸ hx
      rw [List.filter_cons_of_neg (by simpa using hx), List.filter_cons_of_neg (by simpa using hy)]
        at hfilter
      cases i with
      | zero =>
        obtain rfl : x = a := by simpa using ha
        exact absurd hk hx
      | succ i => exact ih hmap hfilter (by simpa using ha) (by simpa using hb)

/-- Of two arrangements of some elements that differ, one has two of them the other way round. -/
theorem exists_swapped {l l' : List α} (hperm : l'.Perm l) (hne : l ≠ l') :
    ∃ x y, x ≠ y ∧ [x, y].Sublist l ∧ [y, x].Sublist l' := by
  induction l generalizing l' with
  | nil => exact absurd (List.perm_nil.1 hperm).symm hne
  | cons x rest ih =>
    obtain _ | ⟨y, rest'⟩ := l'
    · exact absurd (List.nil_perm.1 hperm).symm hne.symm
    by_cases hxy : x = y
    · subst hxy
      obtain ⟨a, b, hab, hl, hl'⟩ := ih (List.perm_cons x |>.1 hperm) fun h => hne (by rw [h])
      exact ⟨a, b, hab, hl.cons x, hl'.cons x⟩
    · -- the first elements differ, so each stands behind the other one in the other list
      have hy : y ∈ rest := by
        have hmem : y ∈ x :: rest := hperm.mem_iff.1 List.mem_cons_self
        exact (List.mem_cons.1 hmem).resolve_left (Ne.symm hxy)
      have hx : x ∈ rest' := by
        have hmem : x ∈ y :: rest' := hperm.mem_iff.2 List.mem_cons_self
        exact (List.mem_cons.1 hmem).resolve_left hxy
      exact ⟨x, y, hxy, (List.singleton_sublist.2 hy).cons_cons x,
        (List.singleton_sublist.2 hx).cons_cons y⟩

end

/-! ## The order of keys -/

section

variable {s t : String} {x y : Option String} {l l' : List String}

theorem compare_string_eq_lt : compare s t = .lt ↔ s < t := compareOfLessAndEq_eq_lt

theorem isLE_compare_string : (compare s t).isLE = true ↔ s ≤ t := by
  have hswap : compare s t = (compare t s).swap := Std.OrientedOrd.eq_swap
  rw [← String.not_lt, ← compare_string_eq_lt, hswap]
  cases compare t s <;> simp

theorem compare_option_eq_lt : compare x y = .lt ↔ x < y := by
  cases x with
  | none => cases y <;> simp [compare]
  | some s =>
    cases y with
    | none => simp [compare]
    | some t => exact compare_string_eq_lt

theorem isLE_compare_option : (compare x y).isLE = true ↔ x ≤ y := by
  cases x with
  | none => cases y <;> simp [compare]
  | some s =>
    cases y with
    | none => simp [compare]
    | some t => exact isLE_compare_string

theorem compare_list_eq_lt : compare l l' = .lt ↔ l < l' := by
  show List.compareLex compare l l' = .lt ↔ l < l'
  induction l generalizing l' with
  | nil => cases l' <;> simp [List.compareLex]
  | cons s rest ih =>
    cases l' with
    | nil => simp [List.compareLex]
    | cons t rest' =>
      have heq : compare s t = .eq ↔ s = t := Std.LawfulEqOrd.compare_eq_iff_eq
      rw [List.cons_lt_cons_iff, ← ih, ← compare_string_eq_lt, ← heq, List.compareLex]
      cases compare s t <;> simp

end

theorem isLE_compareLex_iff {κ α : Type} [Ord α] [LT α] [Std.LawfulEqOrd α] {part : κ → α}
    {rest : κ → κ → Ordering} {a b : κ}
    (hlt : compare (part a) (part b) = .lt ↔ part a < part b) :
    (compareLex (compareOn part) rest a b).isLE = true ↔
      part a < part b ∨ part a = part b ∧ (rest a b).isLE = true := by
  have heq : compare (part a) (part b) = .eq ↔ part a = part b :=
    Std.LawfulEqOrd.compare_eq_iff_eq
  rw [← hlt, ← heq, compareLex, compareOn]
  cases compare (part a) (part b) <;> simp

namespace CanonicalKey

/-- The parts of a key, the first one first; what is not given comes before all that is. -/
def parts (key : CanonicalKey) :
    String ×ₗ Nat ×ₗ String ×ₗ List String ×ₗ Nat ×ₗ String ×ₗ List String ×ₗ
      Option String ×ₗ Option String :=
  toLex (key.name, toLex (key.arity, toLex (key.parameterTypes, toLex (key.variableBounds,
    toLex (key.kind, toLex (key.returnType, toLex (key.parameterNames,
      toLex (key.generatedName, key.doc))))))))

/-- **Keys are in lexicographic order.** -/
theorem isLE_compare_iff {a b : CanonicalKey} :
    (compare a b).isLE = true ↔ a.parts ≤ b.parts := by
  change (compareLex _ _ a b).isLE = true ↔ _
  simp only [parts, Prod.Lex.toLex_le_toLex]
  rw [isLE_compareLex_iff compare_string_eq_lt, isLE_compareLex_iff Nat.compare_eq_lt,
    isLE_compareLex_iff compare_string_eq_lt, isLE_compareLex_iff compare_list_eq_lt,
    isLE_compareLex_iff Nat.compare_eq_lt, isLE_compareLex_iff compare_string_eq_lt,
    isLE_compareLex_iff compare_list_eq_lt, isLE_compareLex_iff compare_option_eq_lt, compareOn,
    isLE_compare_option]

end CanonicalKey

/-! ## Stable sorting -/

variable {table : TypeVarTable} {ops ops' sorted : List Operation}

/-- Some operations in the order of their keys, those with one key as they came. -/
structure StablySorted (table : TypeVarTable) (ops sorted : List Operation) : Prop where
  perm : sorted.Perm ops
  ascending : (sorted.map fun op => (op.canonicalKey table).parts).Pairwise (· ≤ ·)
  stable : ∀ key : CanonicalKey, sorted.filter (·.canonicalKey table = key) =
    ops.filter (·.canonicalKey table = key)

theorem filter_canonicalOrder (table : TypeVarTable) (ops : List Operation) (key : CanonicalKey) :
    (canonicalOrder table ops).filter (·.canonicalKey table = key) =
      ops.filter (·.canonicalKey table = key) := by
  rw [← canonicalOrder_filter]
  refine canonicalOrder_of_pairwise table (List.pairwise_of_forall_mem_list ?_)
  intro a ha b hb
  have hka : a.canonicalKey table = key := by simpa using List.of_mem_filter ha
  have hkb : b.canonicalKey table = key := by simpa using List.of_mem_filter hb
  exact Operation.keyLE_of_eq (hka.trans hkb.symm)

theorem stablySorted_canonicalOrder (table : TypeVarTable) (ops : List Operation) :
    StablySorted table ops (canonicalOrder table ops) where
  perm := canonicalOrder_perm table ops
  ascending := by
    rw [List.pairwise_map]
    exact (canonicalOrder_pairwise table ops).imp CanonicalKey.isLE_compare_iff.1
  stable := filter_canonicalOrder table ops

theorem keys_canonicalOrder (table : TypeVarTable) (hperm : ops'.Perm ops) :
    (canonicalOrder table ops').map (·.canonicalKey table) =
      (canonicalOrder table ops).map (·.canonicalKey table) := by
  have hkeys := filterMap_canonicalOrder table (f := fun op => some (op.canonicalKey table)) hperm
    fun a _ b _ hk x hx y hy => by
      obtain rfl := Option.some.inj hx
      obtain rfl := Option.some.inj hy
      exact hk
  simpa only [List.filterMap_eq_map'] using hkeys

/-- **Stable sorting leaves no choice.** -/
theorem stablySorted_iff : StablySorted table ops sorted ↔ sorted = canonicalOrder table ops := by
  constructor
  · intro h
    have hsorted : canonicalOrder table sorted = sorted := by
      refine canonicalOrder_of_pairwise table ?_
      exact (List.pairwise_map.1 h.ascending).imp CanonicalKey.isLE_compare_iff.2
    -- the two have the same keys place by place, and the same elements for each key
    have hkeys := keys_canonicalOrder table h.perm
    rw [hsorted] at hkeys
    have hlength : sorted.length = (canonicalOrder table ops).length := by
      simpa using congrArg List.length hkeys
    refine List.ext_getElem hlength fun i hi hi' => ?_
    refine eq_at_of_filter_eq hkeys ?_ (List.getElem?_eq_getElem hi) (List.getElem?_eq_getElem hi') rfl
    rw [h.stable, filter_canonicalOrder]
  · rintro rfl
    exact stablySorted_canonicalOrder table ops

/-- **The stable sort.**  The canonical order of some operations is the one list that holds them with
ascending keys and has those with one key as they came.  It is the same whether operations are left
out before or after.  Found in another order, the operations have the same keys in order, place by
place; and where another operation stands, it has the same key, and the other order swaps two
operations with this key. -/
theorem canonicalOrder_stable (table : TypeVarTable) (ops : List Operation) :
    (∀ sorted, StablySorted table ops sorted ↔ sorted = canonicalOrder table ops) ∧
      (∀ p : Operation → Bool,
        canonicalOrder table (ops.filter p) = (canonicalOrder table ops).filter p) ∧
      ∀ ops', ops'.Perm ops →
        (canonicalOrder table ops').map (·.canonicalKey table) =
            (canonicalOrder table ops).map (·.canonicalKey table) ∧
          ∀ (i : Nat) (a b : Operation), (canonicalOrder table ops)[i]? = some a →
            (canonicalOrder table ops')[i]? = some b → a ≠ b →
              a.canonicalKey table = b.canonicalKey table ∧
                ∃ x y, x ≠ y ∧ x.canonicalKey table = a.canonicalKey table ∧
                  y.canonicalKey table = a.canonicalKey table ∧
                  [x, y].Sublist ops ∧ [y, x].Sublist ops' := by
  refine ⟨fun _ => stablySorted_iff, fun p => canonicalOrder_filter table p ops, ?_⟩
  intro ops' hperm
  have hkeys := keys_canonicalOrder table hperm
  refine ⟨hkeys, fun i a b ha hb hab => ?_⟩
  have hsame : a.canonicalKey table = b.canonicalKey table := by
    have hat := congrArg (fun keys : List CanonicalKey => keys[i]?) hkeys
    simp only [List.getElem?_map, ha, hb, Option.map_some] at hat
    exact (Option.some.inj hat).symm
  refine ⟨hsame, ?_⟩
  -- were the operations of this key discovered in the same order, the same one would stand here
  have hgroup : ops.filter (·.canonicalKey table = a.canonicalKey table) ≠
      ops'.filter (·.canonicalKey table = a.canonicalKey table) := by
    intro h
    refine hab (eq_at_of_filter_eq hkeys.symm ?_ ha hb rfl)
    rw [filter_canonicalOrder, filter_canonicalOrder, h]
  obtain ⟨x, y, hxy, hx, hy⟩ := exists_swapped (hperm.filter _) hgroup
  have hkx : x.canonicalKey table = a.canonicalKey table := by
    simpa using List.of_mem_filter (hx.subset List.mem_cons_self)
  have hky : y.canonicalKey table = a.canonicalKey table := by
    simpa using List.of_mem_filter (hy.subset List.mem_cons_self)
  exact ⟨x, y, hxy, hkx, hky, hx.trans List.filter_sublist, hy.trans List.filter_sublist⟩

/-- The overloads `of(int)` and `of(Integer)` have one key.  Found the other way round they stay so,
which shows, and it shows by a swap of two operations with one key. -/
theorem boxingOverloads_swapped :
    let table := boxingOverloads.typeVars
    let ops := boxingOverloads.operations
    StablySorted table ops ops ∧ StablySorted table ops.reverse ops.reverse ∧
      (canonicalOrder table ops.reverse).map (·.canonicalKey table) =
        (canonicalOrder table ops).map (·.canonicalKey table) ∧
      ∃ x y, x ≠ y ∧ x.canonicalKey table = y.canonicalKey table ∧
        [x, y].Sublist ops ∧ [y, x].Sublist ops.reverse := by
  intro table ops
  have horder : canonicalOrder table ops = ops := canonicalOrder_pair table boxingOverloads_key
  have hreverse : canonicalOrder table ops.reverse = ops.reverse :=
    canonicalOrder_pair table boxingOverloads_key.symm
  have hne : overloadOf (.primitive .int) ≠ overloadOf (.ofClass Primitive.int.boxed []) := by
    intro h
    have hprimitive := congrArg (fun op : Operation => op.parameters.map (·.type.isPrimitive)) h
    exact absurd hprimitive (by decide)
  obtain ⟨hsorted, -, htwo⟩ := canonicalOrder_stable table ops
  obtain ⟨hkeys, hswapped⟩ := htwo ops.reverse (List.reverse_perm ops)
  obtain ⟨-, x, y, hxy, hx, hy, hops, hops'⟩ :=
    hswapped 0 _ _ (by rw [horder]; rfl) (by rw [hreverse]; rfl) hne
  exact ⟨(hsorted ops).2 horder.symm, ((canonicalOrder_stable table ops.reverse).1 _).2 hreverse.symm,
    hkeys, x, y, hxy, hx.trans hy.symm, hops, hops'⟩

end FunctionAdapters
