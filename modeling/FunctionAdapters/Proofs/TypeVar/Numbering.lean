import FunctionAdapters.Proofs.TypeVar.Distance
import FunctionAdapters.Proofs.TypeVar.Names

/-!
# How type variables are numbered

The variables of a scope are numbered from zero in the order in which they are found, and the search
finds the parameters of a class or an operation before anything that these lead to.  So the numbers
of declared variables can be read off the parameter lists: equal parameters count once, and
parameters of an operation that belong to the class do not count at all (`forOperation_numbers`).

What the search finds from the operation's parameters is filtered by what it finds from those of the
class.  A list at the head of another stays there when both are filtered, and this is all that is
needed to number the second scope like the first one.
-/

namespace FunctionAdapters

namespace TypeVarNames

variable {table : TypeVarTable} {classParams opParams : List TypeVarId} {names : TypeVarNames}
  {scope : VarScope} {declared ids : List TypeVarId} {id : TypeVarId} {i : Nat}

/-- A variable lies some steps behind the parameters. -/
def Reached (table : TypeVarTable) (params : List TypeVarId) (id : TypeVarId) : Prop :=
  ∃ n, table.Away (params.map .typeVar) n (.typeVar id)

theorem mem_reachIds_iff : id ∈ table.reachIds classParams ↔ Reached table classParams id :=
  TypeVarTable.mem_reach_iff_away

theorem mem_ownIds_iff : id ∈ ownIds table classParams opParams ↔
    Reached table opParams id ∧ ¬ Reached table classParams id := by
  rw [ownIds, List.mem_filter, decide_eq_true_eq, mem_reachIds_iff, mem_reachIds_iff]

/-! ## Places -/

theorem get?_of_operation (h : (ownIds table classParams opParams)[i]? = some id) :
    (forOperation table classParams opParams).get? id = some (numberedName .ofOperation i) := by
  have hmem : id ∈ ownIds table classParams opParams := List.mem_of_getElem? h
  have hnot : id ∉ table.reachIds classParams := by
    rw [mem_reachIds_iff]
    exact (mem_ownIds_iff.1 hmem).2
  rw [get?_forOperation, List.idxOf?_eq_none_iff.2 hnot,
    (idxOf?_eq_some_iff_of_nodup (nodup_ownIds table classParams opParams)).2 h]
  rfl

theorem getElem?_class_iff : (table.reachIds classParams)[i]? = some id ↔
    (forOperation table classParams opParams).get? id = some (numberedName .ofClass i) := by
  refine ⟨get?_of_class, fun h => ?_⟩
  rcases place_of_get? h with ⟨j, hj, heq⟩ | ⟨j, -, heq⟩
  · obtain ⟨-, rfl⟩ := numberedName_injective (congrArg VarName.text heq)
    exact hj
  · cases (numberedName_injective (congrArg VarName.text heq)).1

theorem getElem?_operation_iff : (ownIds table classParams opParams)[i]? = some id ↔
    (forOperation table classParams opParams).get? id = some (numberedName .ofOperation i) := by
  refine ⟨get?_of_operation, fun h => ?_⟩
  rcases place_of_get? h with ⟨j, -, heq⟩ | ⟨j, hj, heq⟩
  · cases (numberedName_injective (congrArg VarName.text heq)).1
  · obtain ⟨-, rfl⟩ := numberedName_injective (congrArg VarName.text heq)
    exact hj

/-! ## Scopes -/

/-- The numbers of a scope: those below the number of its members, one for each member; the declared
ones come first in their order. -/
structure Numbers (names : TypeVarNames) (scope : VarScope) (declared : List TypeVarId)
    (member : TypeVarId → Prop) : Prop where
  /-- The members in the order of their numbers. -/
  members : ∃ ids : List TypeVarId, ids.Nodup ∧ (∀ id, id ∈ ids ↔ member id) ∧
    ∀ i id, ids[i]? = some id ↔ names.get? id = some (numberedName scope i)
  first : ∀ i id, declared[i]? = some id → names.get? id = some (numberedName scope i)
  later : ∀ i id, id ∉ declared → names.get? id = some (numberedName scope i) →
    declared.length ≤ i

theorem Numbers.of_places {member : TypeVarId → Prop} (hnodup : ids.Nodup)
    (hmember : ∀ id, id ∈ ids ↔ member id)
    (hplace : ∀ i id, ids[i]? = some id ↔ names.get? id = some (numberedName scope i))
    (hdeclared : declared <+: ids) : names.Numbers scope declared member := by
  have hat : ∀ {i}, i < declared.length → declared[i]? = ids[i]? := by
    intro i hi
    obtain ⟨rest, rfl⟩ := hdeclared
    exact (List.getElem?_append_left hi).symm
  refine ⟨⟨ids, hnodup, hmember, hplace⟩, fun i id h => ?_, fun i id hnot h => ?_⟩
  · have hi : i < declared.length := (List.getElem?_eq_some_iff.1 h).1
    exact (hplace i id).1 ((hat hi).symm.trans h)
  · by_contra hlt
    have hi : i < declared.length := by omega
    exact hnot (List.mem_of_getElem? ((hat hi).trans ((hplace i id).2 h)))

/-- The parameters come first among the variables that they lead to. -/
theorem firstSeen_prefix_reachIds (table : TypeVarTable) (params : List TypeVarId) :
    firstSeen params <+: table.reachIds params := by
  have hfront := table.firstSeen_prefix_reach (params.map .typeVar)
  have hparams : (params.map Shape.typeVar).filterMap Shape.typeVar? = params := by
    rw [List.filterMap_map]
    exact List.filterMap_some
  rwa [hparams] at hfront

end TypeVarNames

open TypeVarNames in
/-- **Numbering.**  Inside an operation exactly those variables have names that are reached from the
parameters of the class or from its own, and no two have the same.  Those of the class are `C0`, `C1`,
and so on without a gap, the others `M0`, `M1`, and so on; in either scope the distinct parameters
have the first numbers, in order, and what is reached through bounds alone has later ones. -/
theorem forOperation_numbers (table : TypeVarTable) (classParams opParams : List TypeVarId) :
    let names := forOperation table classParams opParams
    (∀ id, (∃ name, names.get? id = some name) ↔
        Reached table classParams id ∨ Reached table opParams id) ∧
      (∀ x y m n, names.get? x = some m → names.get? y = some n → m.text = n.text → x = y) ∧
      names.Numbers .ofClass (firstSeen classParams) (Reached table classParams) ∧
      names.Numbers .ofOperation
        ((firstSeen opParams).filter (· ∉ table.reachIds classParams))
        (fun id => Reached table opParams id ∧ ¬ Reached table classParams id) := by
  intro names
  refine ⟨fun id => ?_, fun x y m n => text_injective_of_get?, ?_, ?_⟩
  · have hnone : names.get? id = none ↔ ¬ Reached table classParams id ∧ ¬ Reached table opParams id := by
      rw [get?_forOperation_eq_none, mem_reachIds_iff, mem_reachIds_iff]
    rw [← Option.ne_none_iff_exists', Ne, hnone]
    tauto
  · exact .of_places (table.nodup_reach _) (fun _ => mem_reachIds_iff)
      (fun _ _ => getElem?_class_iff) (firstSeen_prefix_reachIds table classParams)
  · exact .of_places (nodup_ownIds table classParams opParams) (fun _ => mem_ownIds_iff)
      (fun _ _ => getElem?_operation_iff) ((firstSeen_prefix_reachIds table opParams).filter _)

/-- The variables of a class `<T extends List<E>>` and of its method `<R, T>`: `T`, `E` and `R`. -/
def listVars : TypeVarTable :=
  ⟨[⟨"T", .ofClass ⟨"java.util", "List"⟩ [.typeVar ⟨1⟩], none⟩, ⟨"E", .top, none⟩,
    ⟨"R", .top, none⟩]⟩

open TypeVarNames in
/-- The bound `E` of the class is numbered after its parameter; the method's second parameter is the
one of the class again and has no number of its own. -/
theorem listVars_numbers :
    let names := forOperation listVars [⟨0⟩] [⟨2⟩, ⟨0⟩]
    names.get? ⟨0⟩ = some ⟨"C0", .ofClass⟩ ∧ names.get? ⟨1⟩ = some ⟨"C1", .ofClass⟩ ∧
      names.get? ⟨2⟩ = some ⟨"M0", .ofOperation⟩ ∧
      (∀ x y, names.get? x = some ⟨"C1", .ofClass⟩ → names.get? y = some ⟨"C1", .ofClass⟩ → x = y) := by
  intro names
  obtain ⟨-, hinjective, hclass, hoperation⟩ := forOperation_numbers listVars [⟨0⟩] [⟨2⟩, ⟨0⟩]
  have hfiltered : (firstSeen [⟨2⟩, ⟨0⟩]).filter (· ∉ listVars.reachIds [⟨0⟩]) = [⟨2⟩] := by
    with_unfolding_all rfl
  rw [hfiltered] at hoperation
  exact ⟨hclass.first 0 ⟨0⟩ rfl, by with_unfolding_all rfl, hoperation.first 0 ⟨2⟩ rfl,
    fun x y hx hy => hinjective x y _ _ hx hy rfl⟩

end FunctionAdapters
