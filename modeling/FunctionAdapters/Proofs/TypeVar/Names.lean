import FunctionAdapters.Proofs.TypeVar.Reach
import FunctionAdapters.TypeVar.Names
import Mathlib.Data.List.Nodup

/-!
# The names of type variables

A variable that is reached from the parameters of the class is called `C` and its place in the
list of these variables; one that is reached from the parameters of the operation only, `M` and its
place among those (`get?_forOperation`).  So two variables are never given one name
(`text_injective_of_get?`).

The variables that a signature declares are listed once each (`nodup_relevantVars`), those of the
class first, and with a variable the list holds all that the variable leads to
(`mem_relevantVars_of_leads`).
-/

namespace FunctionAdapters

/-! ## Numbers -/

namespace TypeVarNames

def numberedName (scope : VarScope) (i : Nat) : VarName := ⟨scope.letter ++ toString i, scope⟩

theorem numberedName_injective {s t : VarScope} {i j : Nat}
    (h : (numberedName s i).text = (numberedName t j).text) : s = t ∧ i = j := by
  have hchars := congrArg String.toList h
  simp only [numberedName, String.toList_append] at hchars
  have hscope : s = t := by
    cases s <;> cases t <;> first | rfl | simp [VarScope.letter] at hchars
  subst hscope
  have hrepr : Nat.repr i = Nat.repr j := (String.append_right_inj s.letter).1 h
  have hdigits : Nat.toDigits 10 i = Nat.toDigits 10 j := by
    rwa [Nat.repr_eq_ofList_toDigits, Nat.repr_eq_ofList_toDigits, String.ofList_inj] at hrepr
  have hnumber := congrArg (Nat.ofDigitChars 10 · 0) hdigits
  simp only [Nat.ofDigitChars_ten_toDigits] at hnumber
  exact ⟨rfl, hnumber⟩

theorem lookup_numbered_from (scope : VarScope) (id : TypeVarId) (ids : List TypeVarId) (k : Nat) :
    ((ids.zipIdx k).map fun (id, i) => (id, numberedName scope i)).lookup id =
      (ids.idxOf? id).map fun i => numberedName scope (k + i) := by
  induction ids generalizing k with
  | nil => rfl
  | cons x rest ih =>
    by_cases hx : x = id
    · subst hx
      simp [List.zipIdx_cons, List.idxOf?_cons]
    · have hx' : (id == x) = false := by simpa using Ne.symm hx
      have hx'' : (x == id) = false := by simpa using hx
      simp only [List.zipIdx_cons, List.map_cons, List.lookup_cons, hx', List.idxOf?_cons, hx'',
        ih (k + 1)]
      simp [Function.comp_def, Nat.add_assoc, Nat.add_comm 1]

theorem lookup_numbered (scope : VarScope) (id : TypeVarId) (ids : List TypeVarId) :
    (numbered scope ids).lookup id = (ids.idxOf? id).map (numberedName scope) := by
  have h := lookup_numbered_from scope id ids 0
  simp only [Nat.zero_add] at h
  exact h

/-! ## Names -/

variable {table : TypeVarTable} {classParams opParams : List TypeVarId}

/-- The variables that are reached from the operation's own parameters only. -/
def ownIds (table : TypeVarTable) (classParams opParams : List TypeVarId) : List TypeVarId :=
  (table.reachIds opParams).filter (· ∉ table.reachIds classParams)

theorem nodup_ownIds (table : TypeVarTable) (classParams opParams : List TypeVarId) :
    (ownIds table classParams opParams).Nodup := (TypeVarTable.nodup_reach _ _).filter _

/-- **Numbering.**  First the variables of the class by place, then those of the operation. -/
theorem get?_forOperation (id : TypeVarId) :
    (forOperation table classParams opParams).get? id =
      (((table.reachIds classParams).idxOf? id).map (numberedName .ofClass)).or
        (((ownIds table classParams opParams).idxOf? id).map (numberedName .ofOperation)) := by
  unfold get? forOperation
  rw [List.lookup_append, lookup_numbered, lookup_numbered]
  rfl

theorem get?_forOperation_eq_none {id : TypeVarId} :
    (forOperation table classParams opParams).get? id = none ↔
      id ∉ table.reachIds classParams ∧ id ∉ table.reachIds opParams := by
  rw [get?_forOperation]
  simp only [Option.or_eq_none_iff, Option.map_eq_none_iff, List.idxOf?_eq_none_iff, ownIds,
    List.mem_filter, decide_eq_true_eq, not_and, not_not]
  constructor
  · rintro ⟨hc, ho⟩
    exact ⟨hc, fun h => hc (ho h)⟩
  · rintro ⟨hc, ho⟩
    exact ⟨hc, fun h => absurd h ho⟩

theorem idxOf?_eq_some_iff_of_nodup {α : Type} [DecidableEq α] {l : List α} (h : l.Nodup) {a : α}
    {i : Nat} : l.idxOf? a = some i ↔ l[i]? = some a := by
  rw [List.idxOf?_eq_some_iff, List.getElem?_eq_some_iff]
  constructor
  · rintro ⟨hi, heq, -⟩
    exact ⟨hi, heq⟩
  · rintro ⟨hi, rfl⟩
    refine ⟨hi, rfl, fun j hj => ?_⟩
    have hne : j ≠ i := Nat.ne_of_lt hj
    simpa [h.getElem_inj_iff] using hne

theorem get?_of_class {i : Nat} {id : TypeVarId} (h : (table.reachIds classParams)[i]? = some id) :
    (forOperation table classParams opParams).get? id = some (numberedName .ofClass i) := by
  have hnodup : (table.reachIds classParams).Nodup := TypeVarTable.nodup_reach _ _
  rw [get?_forOperation, (idxOf?_eq_some_iff_of_nodup hnodup).2 h]
  rfl

theorem place_of_get? {id : TypeVarId} {name : VarName}
    (h : (forOperation table classParams opParams).get? id = some name) :
    (∃ i, (table.reachIds classParams)[i]? = some id ∧ name = numberedName .ofClass i) ∨
      ∃ i, (ownIds table classParams opParams)[i]? = some id ∧ name = numberedName .ofOperation i := by
  have hclass : (table.reachIds classParams).Nodup := TypeVarTable.nodup_reach _ _
  have hown := nodup_ownIds table classParams opParams
  rw [get?_forOperation, Option.or_eq_some_iff] at h
  rcases h with h | ⟨-, h⟩
  · obtain ⟨i, hi, rfl⟩ := Option.map_eq_some_iff.1 h
    exact .inl ⟨i, (idxOf?_eq_some_iff_of_nodup hclass).1 hi, rfl⟩
  · obtain ⟨i, hi, rfl⟩ := Option.map_eq_some_iff.1 h
    exact .inr ⟨i, (idxOf?_eq_some_iff_of_nodup hown).1 hi, rfl⟩

/-- **No name twice.**  Two variables that were given names were given different ones. -/
theorem text_injective_of_get? {x y : TypeVarId} {m n : VarName}
    (hx : (forOperation table classParams opParams).get? x = some m)
    (hy : (forOperation table classParams opParams).get? y = some n) (h : m.text = n.text) :
    x = y := by
  rcases place_of_get? hx with ⟨i, hi, rfl⟩ | ⟨i, hi, rfl⟩ <;>
    rcases place_of_get? hy with ⟨j, hj, rfl⟩ | ⟨j, hj, rfl⟩
  · obtain ⟨-, rfl⟩ := numberedName_injective h
    exact Option.some.inj (hi.symm.trans hj)
  · cases (numberedName_injective h).1
  · cases (numberedName_injective h).1
  · obtain ⟨-, rfl⟩ := numberedName_injective h
    exact Option.some.inj (hi.symm.trans hj)

end TypeVarNames

/-! ## First occurrences -/

section FirstSeen

variable {α : Type} [DecidableEq α]

theorem mem_firstSeen {x : α} {l : List α} : x ∈ firstSeen l ↔ x ∈ l := by
  induction l with
  | nil => rfl
  | cons y rest ih =>
    rw [firstSeen, List.mem_cons, List.mem_cons, List.mem_filter, ih]
    by_cases hxy : x = y <;> simp [hxy]

theorem nodup_firstSeen (l : List α) : (firstSeen l).Nodup := by
  induction l with
  | nil => exact List.nodup_nil
  | cons x rest ih =>
    rw [firstSeen, List.nodup_cons]
    exact ⟨by simp, ih.filter _⟩

theorem firstSeen_append {l : List α} (h : l.Nodup) (l' : List α) :
    ∃ rest, firstSeen (l ++ l') = l ++ rest := by
  induction l with
  | nil => exact ⟨firstSeen l', rfl⟩
  | cons x l ih =>
    obtain ⟨hx, hl⟩ := List.nodup_cons.1 h
    obtain ⟨rest, hrest⟩ := ih hl
    refine ⟨rest.filter (· ≠ x), ?_⟩
    have hkeep : l.filter (· ≠ x) = l := by
      rw [List.filter_eq_self]
      intro y hy
      simpa using ne_of_mem_of_not_mem hy hx
    rw [List.cons_append, firstSeen, hrest, List.filter_append, hkeep, List.cons_append]

end FirstSeen

/-! ## The variables of a signature -/

section RelevantVars

variable {table : TypeVarTable} {classParams : List TypeVarId} {op : Operation}
  {id x : TypeVarId}

theorem nodup_relevantVars (table : TypeVarTable) (classParams : List TypeVarId)
    (op : Operation) : (relevantVars table classParams op).Nodup := nodup_firstSeen _

theorem mem_relevantVars_iff : id ∈ relevantVars table classParams op ↔
    (op.isStatic = false ∧ id ∈ table.reachIds classParams) ∨
      (∃ p ∈ op.parameters, id ∈ table.reach [p.type]) ∨ id ∈ table.reach [op.returnType] := by
  unfold relevantVars
  rw [mem_firstSeen, List.mem_append, List.mem_append, List.mem_flatMap, or_assoc]
  cases hs : op.isStatic <;> simp

theorem mem_reachIds_of_selfType {name : ClassName}
    (h : table.Leads (.ofClass name (classParams.map .typeVar)) (.typeVar id)) :
    id ∈ table.reachIds classParams := by
  refine TypeVarTable.mem_reach_iff.2 ?_
  rcases Relation.ReflTransGen.cases_head h with h | ⟨t, ht, hlead⟩
  · cases h
  · have hmem : t ∈ classParams.map Shape.typeVar ++ [] := ht
    rw [List.append_nil] at hmem
    exact ⟨t, hmem, hlead⟩

theorem mem_relevantVars_of_selfType {name : ClassName} (hs : op.isStatic = false)
    (h : table.Leads (.ofClass name (classParams.map .typeVar)) (.typeVar id)) :
    id ∈ relevantVars table classParams op :=
  mem_relevantVars_iff.2 (.inl ⟨hs, mem_reachIds_of_selfType h⟩)

theorem mem_relevantVars_of_parameter {p : Parameter} (hp : p ∈ op.parameters)
    (h : table.Leads p.type (.typeVar id)) : id ∈ relevantVars table classParams op :=
  mem_relevantVars_iff.2 (.inr (.inl ⟨p, hp, TypeVarTable.mem_reach_iff.2 ⟨_, by simp, h⟩⟩))

theorem mem_relevantVars_of_returnType (h : table.Leads op.returnType (.typeVar id)) :
    id ∈ relevantVars table classParams op :=
  mem_relevantVars_iff.2 (.inr (.inr (TypeVarTable.mem_reach_iff.2 ⟨_, by simp, h⟩)))

theorem mem_relevantVars_of_leads (h : id ∈ relevantVars table classParams op)
    (hlead : table.Leads (.typeVar id) (.typeVar x)) : x ∈ relevantVars table classParams op := by
  rw [mem_relevantVars_iff] at h ⊢
  rcases h with ⟨hs, h⟩ | ⟨p, hp, h⟩ | h
  · exact .inl ⟨hs, TypeVarTable.mem_reach_of_leads h hlead⟩
  · exact .inr (.inl ⟨p, hp, TypeVarTable.mem_reach_of_leads h hlead⟩)
  · exact .inr (.inr (TypeVarTable.mem_reach_of_leads h hlead))

/-- Unless an operation is static, the variables of the class come first. -/
theorem relevantVars_of_not_static (table : TypeVarTable) (classParams : List TypeVarId)
    (hs : op.isStatic = false) :
    ∃ rest, relevantVars table classParams op = table.reachIds classParams ++ rest := by
  simp only [relevantVars, hs, Bool.false_eq_true, if_false, List.append_assoc]
  exact firstSeen_append (TypeVarTable.nodup_reach _ _) _

end RelevantVars

end FunctionAdapters
