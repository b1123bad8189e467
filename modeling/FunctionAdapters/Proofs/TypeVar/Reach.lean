import FunctionAdapters.TypeVar.Reach
import Mathlib.Logic.Relation

/-!
# What the search for type variables finds

Shapes form a graph: a variable leads to its bounds, any other shape to the shapes it is built
from (`next`).  `mem_reach_iff` says that the search finds the variables that the roots lead to,
and no others, however the bounds are tangled; `nodup_reach` that it lists none of them twice.

The search is a loop over a queue of shapes.  One direction carries a soundness invariant through
it (`Sound`).  For the other, the result of the loop covers everything that was in the queue, and
the bounds of every variable that it adds (`covers_reachFrom`): so at the end it is closed.
-/

namespace FunctionAdapters

namespace TypeVarTable

variable {table : TypeVarTable} {roots : List Shape}

/-! ## The graph of shapes -/

/-- The shapes that a shape leads to in one step. -/
def next (table : TypeVarTable) (s : Shape) : List Shape :=
  match s.typeVar? with
  | some id => table.bounds id
  | none => s.children

/-- A shape leads to another in some number of steps. -/
def Leads (table : TypeVarTable) : Shape → Shape → Prop :=
  Relation.ReflTransGen fun s t => t ∈ table.next s

theorem Leads.refl (s : Shape) : table.Leads s s := Relation.ReflTransGen.refl

theorem Leads.trans {s t u : Shape} (hst : table.Leads s t) (htu : table.Leads t u) :
    table.Leads s u := Relation.ReflTransGen.trans hst htu

theorem leads_of_mem_next {s t : Shape} (h : t ∈ table.next s) : table.Leads s t :=
  Relation.ReflTransGen.single h

theorem leads_of_mem_bounds {id : TypeVarId} {b : Shape} (h : b ∈ table.bounds id) :
    table.Leads (.typeVar id) b := leads_of_mem_next h

theorem children_typeVar? {s : Shape} {id : TypeVarId} (h : s.typeVar? = some id) :
    s.children = [] := by
  rw [Shape.typeVar?_eq_some] at h
  subst h
  rfl

theorem leads_of_mem_children {s t : Shape} (h : t ∈ s.children) : table.Leads s t := by
  refine leads_of_mem_next ?_
  unfold next
  cases hs : s.typeVar? with
  | none => exact h
  | some id =>
    rw [children_typeVar? hs] at h
    cases h

/-! ## Nothing else is found -/

/-- Everything that was found or waits in the queue comes from the roots, and nothing was found
twice. -/
structure Sound (table : TypeVarTable) (roots queue : List Shape) (found : List TypeVarId) :
    Prop where
  nodup : found.Nodup
  queued : ∀ s ∈ queue, ∃ r ∈ roots, table.Leads r s
  found : ∀ id ∈ found, ∃ r ∈ roots, table.Leads r (.typeVar id)

theorem Sound.advance {s : Shape} {rest more : List Shape} {found : List TypeVarId}
    (h : Sound table roots (s :: rest) found) (hmore : ∀ t ∈ more, table.Leads s t) :
    Sound table roots (rest ++ more) found := by
  refine ⟨h.nodup, fun t ht => ?_, h.found⟩
  rcases List.mem_append.1 ht with ht | ht
  · exact h.queued t (List.mem_cons_of_mem s ht)
  · obtain ⟨r, hr, hrs⟩ := h.queued s List.mem_cons_self
    exact ⟨r, hr, hrs.trans (hmore t ht)⟩

theorem Sound.find {id : TypeVarId} {rest : List Shape} {found : List TypeVarId}
    (h : Sound table roots (.typeVar id :: rest) found) (hid : id ∉ found) :
    Sound table roots (.typeVar id :: rest) (found ++ [id]) := by
  refine ⟨?_, h.queued, fun x hx => ?_⟩
  · refine List.nodup_append.2 ⟨h.nodup, by simp, ?_⟩
    intro x hx y hy hxy
    rw [List.mem_singleton] at hy
    subst hxy hy
    exact hid hx
  · rcases List.mem_append.1 hx with hx | hx
    · exact h.found x hx
    · rw [List.mem_singleton] at hx
      subst hx
      exact h.queued _ List.mem_cons_self

theorem Sound.reachFrom {queue : List Shape} {found : List TypeVarId}
    (h : Sound table roots queue found) : Sound table roots [] (table.reachFrom queue found) := by
  fun_induction table.reachFrom queue found with
  | case1 found => exact h
  | case2 found s rest hs ih =>
    exact ih (h.advance fun t ht => leads_of_mem_children ht)
  | case3 found s rest id hs hid ih =>
    have hrest : Sound table roots (rest ++ []) found := h.advance (by simp)
    rw [List.append_nil] at hrest
    exact ih hrest
  | case4 found s rest id hs hid ih =>
    obtain rfl := Shape.typeVar?_eq_some.1 hs
    exact ih ((h.find hid).advance fun t ht => leads_of_mem_bounds ht)

/-! ## Everything is found -/

/-- The variables that a shape is built from are all in a list. -/
def Covers (found : List TypeVarId) (s : Shape) : Prop :=
  ∀ id, Relation.ReflTransGen (fun s t : Shape => t ∈ s.children) s (.typeVar id) → id ∈ found

theorem Covers.child {found : List TypeVarId} {s t : Shape} (h : Covers found s)
    (ht : t ∈ s.children) : Covers found t := fun id hid => h id (hid.head ht)

theorem Covers.of_children {found : List TypeVarId} {s : Shape} (hs : s.typeVar? = none)
    (h : ∀ t ∈ s.children, Covers found t) : Covers found s := by
  intro id hid
  rcases Relation.ReflTransGen.cases_head hid with rfl | ⟨t, ht, htid⟩
  · cases hs
  · exact h t ht id htid

theorem Covers.of_typeVar {found : List TypeVarId} {id : TypeVarId} (h : id ∈ found) :
    Covers found (.typeVar id) := by
  intro x hx
  rcases Relation.ReflTransGen.cases_head hx with hid | ⟨t, ht, -⟩
  · injection hid with hid
    rw [← hid]
    exact h
  · cases ht

theorem subset_reachFrom {queue : List Shape} {found : List TypeVarId} :
    found ⊆ table.reachFrom queue found := by
  fun_induction table.reachFrom queue found with
  | case1 found => exact List.Subset.refl _
  | case2 found s rest hs ih => exact ih
  | case3 found s rest id hs hid ih => exact ih
  | case4 found s rest id hs hid ih =>
    exact List.Subset.trans (List.subset_append_left found [id]) ih

/-- The result covers the queue, and the bounds of all variables that were added. -/
theorem covers_reachFrom (table : TypeVarTable) (queue : List Shape) (found : List TypeVarId) :
    (∀ s ∈ queue, Covers (table.reachFrom queue found) s) ∧
      ∀ id ∈ table.reachFrom queue found, id ∉ found →
        ∀ b ∈ table.bounds id, Covers (table.reachFrom queue found) b := by
  fun_induction table.reachFrom queue found with
  | case1 found => exact ⟨by simp, fun id h hn => absurd h hn⟩
  | case2 found s rest hs ih =>
    refine ⟨fun t ht => ?_, ih.2⟩
    rcases List.mem_cons.1 ht with rfl | ht
    · exact Covers.of_children hs fun u hu => ih.1 u (List.mem_append_right rest hu)
    · exact ih.1 t (List.mem_append_left _ ht)
  | case3 found s rest id hs hid ih =>
    refine ⟨fun t ht => ?_, ih.2⟩
    rcases List.mem_cons.1 ht with rfl | ht
    · obtain rfl := Shape.typeVar?_eq_some.1 hs
      exact Covers.of_typeVar (subset_reachFrom hid)
    · exact ih.1 t ht
  | case4 found s rest id hs hid ih =>
    have hnew : id ∈ table.reachFrom (rest ++ table.bounds id) (found ++ [id]) :=
      subset_reachFrom (List.mem_append_right found List.mem_cons_self)
    refine ⟨fun t ht => ?_, fun x hx hxf b hb => ?_⟩
    · rcases List.mem_cons.1 ht with rfl | ht
      · obtain rfl := Shape.typeVar?_eq_some.1 hs
        exact Covers.of_typeVar hnew
      · exact ih.1 t (List.mem_append_left _ ht)
    · -- the bounds of the variable just found are in the queue, those of the others come by
      -- induction
      by_cases hxid : x = id
      · subst hxid
        exact ih.1 b (List.mem_append_right rest hb)
      · exact ih.2 x hx (by simp [hxf, hxid]) b hb

theorem Covers.leads {found : List TypeVarId} {s t : Shape}
    (hclosed : ∀ id ∈ found, ∀ b ∈ table.bounds id, Covers found b) (hs : Covers found s)
    (hst : table.Leads s t) : Covers found t := by
  induction hst with
  | refl => exact hs
  | @tail t u _ hu ih =>
    unfold next at hu
    cases ht : t.typeVar? with
    | none =>
      simp only [ht] at hu
      exact ih.child hu
    | some id =>
      simp only [ht] at hu
      obtain rfl := Shape.typeVar?_eq_some.1 ht
      exact hclosed id (ih id .refl) u hu

/-! ## The result of the search -/

theorem sound_reach (table : TypeVarTable) (roots : List Shape) :
    Sound table roots [] (table.reach roots) :=
  Sound.reachFrom ⟨List.nodup_nil, fun s hs => ⟨s, hs, .refl s⟩, by simp⟩

theorem nodup_reach (table : TypeVarTable) (roots : List Shape) : (table.reach roots).Nodup :=
  (table.sound_reach roots).nodup

/-- **Reachability.**  The search finds the variables that the roots lead to. -/
theorem mem_reach_iff {id : TypeVarId} :
    id ∈ table.reach roots ↔ ∃ r ∈ roots, table.Leads r (.typeVar id) := by
  constructor
  · exact (table.sound_reach roots).found id
  · rintro ⟨r, hr, hlead⟩
    obtain ⟨hqueue, hclosed⟩ := table.covers_reachFrom roots []
    exact (hqueue r hr).leads (fun x hx => hclosed x hx (by simp)) hlead id .refl

theorem mem_reach_of_leads {id x : TypeVarId} (h : id ∈ table.reach roots)
    (hlead : table.Leads (.typeVar id) (.typeVar x)) : x ∈ table.reach roots := by
  obtain ⟨r, hr, hrid⟩ := mem_reach_iff.1 h
  exact mem_reach_iff.2 ⟨r, hr, hrid.trans hlead⟩

end TypeVarTable

end FunctionAdapters
