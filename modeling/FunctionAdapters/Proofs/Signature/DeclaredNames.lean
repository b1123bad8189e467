import FunctionAdapters.Proofs.Signature.Pieces
import FunctionAdapters.TypeVar.Names

/-!
# Tables that differ in declared names

Two tables with the same bounds, place by place (`TypeVarTable.SameBounds`), may call their variables
by any names.  The search goes by positions, so it finds the same variables in the same order, and the
variables get the same names; and whether a shape has a text depends on which variables have an entry,
so the pieces are the same.  Errors are another matter: their words contain the declared names.  This
is why pieces are compared as far as there are any.
-/

namespace FunctionAdapters

namespace TypeParam

def bothBounds (p : TypeParam) : Shape × Option Shape := (p.upper, p.lower)

end TypeParam

namespace TypeVarTable

/-- Two tables with the same bounds, place by place. -/
def SameBounds (table other : TypeVarTable) : Prop :=
  other.params.map TypeParam.bothBounds = table.params.map TypeParam.bothBounds

variable {table other : TypeVarTable} {id : TypeVarId}

theorem SameBounds.bothBounds (h : table.SameBounds other) (id : TypeVarId) :
    (other.get? id).map TypeParam.bothBounds = (table.get? id).map TypeParam.bothBounds := by
  unfold get?
  rw [← List.getElem?_map, ← List.getElem?_map, h]

theorem SameBounds.get?_eq_none (h : table.SameBounds other) (hid : table.get? id = none) :
    other.get? id = none := by
  have hboth := h.bothBounds id
  rw [hid] at hboth
  exact Option.map_eq_none_iff.1 hboth

theorem SameBounds.get?_eq_some (h : table.SameBounds other) {p : TypeParam}
    (hid : table.get? id = some p) :
    ∃ q, other.get? id = some q ∧ q.upper = p.upper ∧ q.lower = p.lower := by
  have hboth := h.bothBounds id
  rw [hid] at hboth
  obtain ⟨q, hq, hqp⟩ := Option.map_eq_some_iff.1 hboth
  exact ⟨q, hq, (Prod.mk.inj hqp).1, (Prod.mk.inj hqp).2⟩

theorem sameBounds_define {p : TypeParam} (hid : table.get? id = some p) (name : String) :
    table.SameBounds (table.define id { p with name }) := by
  have hbounds : (table.params.map TypeParam.bothBounds)[id.toNat]? =
      some (TypeParam.bothBounds { p with name }) := by
    rw [List.getElem?_map]
    exact congrArg (Option.map TypeParam.bothBounds) hid
  show (table.params.set id.toNat { p with name }).map TypeParam.bothBounds = _
  obtain ⟨_, hget⟩ := List.getElem?_eq_some_iff.1 hbounds
  rw [List.map_set, ← hget, List.set_getElem_self]

/-! ## The search -/

theorem SameBounds.bounds (h : table.SameBounds other) (id : TypeVarId) :
    other.bounds id = table.bounds id := by
  unfold TypeVarTable.bounds
  cases hid : table.get? id with
  | none => rw [h.get?_eq_none hid]
  | some p =>
    obtain ⟨q, hq, hupper, hlower⟩ := h.get?_eq_some hid
    simp only [hq, Option.map_some, TypeParam.bounds, TypeParam.allBounds, hupper, hlower]

theorem SameBounds.reachFrom (h : table.SameBounds other) (queue : List Shape)
    (found : List TypeVarId) : other.reachFrom queue found = table.reachFrom queue found := by
  fun_induction table.reachFrom queue found with
  | case1 found => rw [TypeVarTable.reachFrom]
  | case2 found s rest hs ih => rw [TypeVarTable.reachFrom, hs, ih]
  | case3 found s rest id hs hid ih =>
    rw [TypeVarTable.reachFrom, hs]
    simp only [if_pos hid, ih]
  | case4 found s rest id hs hid ih =>
    rw [TypeVarTable.reachFrom, hs]
    simp only [if_neg hid, h.bounds, ih]

theorem SameBounds.reach (h : table.SameBounds other) (roots : List Shape) :
    other.reach roots = table.reach roots := h.reachFrom roots []

theorem SameBounds.reachIds (h : table.SameBounds other) (ids : List TypeVarId) :
    other.reachIds ids = table.reachIds ids := h.reach _

/-- **Names** do not depend on declared names. -/
theorem SameBounds.forOperation (h : table.SameBounds other) (classParams opParams : List TypeVarId) :
    TypeVarNames.forOperation other classParams opParams =
      TypeVarNames.forOperation table classParams opParams := by
  unfold TypeVarNames.forOperation
  rw [h.reachIds, h.reachIds]

theorem SameBounds.relevantVars (h : table.SameBounds other) (classParams : List TypeVarId)
    (op : Operation) :
    FunctionAdapters.relevantVars other classParams op =
      FunctionAdapters.relevantVars table classParams op := by
  unfold FunctionAdapters.relevantVars
  simp only [h.reachIds, h.reach]

end TypeVarTable

/-! ## Pieces -/

variable {table other : TypeVarTable}

namespace Shape

theorem piecesAll_cons (table : TypeVarTable) (position : Position) (s : Shape)
    (rest : List Shape) :
    piecesAll table position (s :: rest) = (do
      let ps ← s.pieces table position
      (piecesAll table position rest).map (ps :: ·)) := by
  rw [piecesAll]
  cases s.pieces table position <;> rfl

mutual
/-- **Pieces** do not depend on declared names, and neither does whether there are any. -/
theorem toOption_pieces (h : table.SameBounds other) (position : Position) (s : Shape) :
    (s.pieces other position).toOption = (s.pieces table position).toOption := by
  cases s with
  | declared name args bounds =>
    unfold pieces
    split
    · rw [Except.toOption_map, Except.toOption_map, toOption_piecesAll h .nested bounds]
    · rw [Except.toOption_map, Except.toOption_map, toOption_piecesAll h .argument args]
  | array component =>
    unfold pieces
    rw [Except.toOption_map, Except.toOption_map, toOption_pieces h .component component]
  | wildcardExtends bound | wildcardSuper bound =>
    unfold pieces
    split
    · rw [Except.toOption_map, Except.toOption_map, toOption_pieces h .nested bound]
    · rfl
  | typeVar id =>
    unfold pieces
    cases hid : table.get? id with
    | none =>
      rw [h.get?_eq_none hid]
      rfl
    | some p =>
      obtain ⟨q, hq, -⟩ := h.get?_eq_some hid
      rw [hq]
  | wildcard | void =>
    unfold pieces
    split <;> rfl
  | primitive | top => rfl
theorem toOption_piecesAll (h : table.SameBounds other) (position : Position)
    (shapes : List Shape) :
    (piecesAll other position shapes).toOption = (piecesAll table position shapes).toOption := by
  cases shapes with
  | nil => rfl
  | cons s rest =>
    simp only [piecesAll_cons, Except.toOption_bind, Except.toOption_map,
      toOption_pieces h position s, toOption_piecesAll h position rest]
end

end Shape

theorem TypeParam.toOption_boundPieces (h : table.SameBounds other) {p q : TypeParam}
    (hupper : q.upper = p.upper) (hlower : q.lower = p.lower) :
    (q.boundPieces other).toOption = (p.boundPieces table).toOption := by
  unfold boundPieces
  rw [hupper, hlower]
  split
  · split
    · split
      · rfl
      · rw [Except.toOption_map, Except.toOption_map, Shape.toOption_pieces h]
    · rfl
  · rw [Except.toOption_map, Except.toOption_map, Shape.toOption_pieces h]

namespace Clause

theorem ofIds_cons (table : TypeVarTable) (id : TypeVarId) (rest : List TypeVarId) :
    ofIds table (id :: rest) = (do
      let c ← ofId table id
      (ofIds table rest).map (c :: ·)) := by
  rw [ofIds]
  cases ofId table id <;> rfl

theorem toOption_ofId (h : table.SameBounds other) (id : TypeVarId) :
    (ofId other id).toOption = (ofId table id).toOption := by
  unfold ofId
  cases hid : table.get? id with
  | none =>
    rw [h.get?_eq_none hid]
    rfl
  | some p =>
    obtain ⟨q, hq, hupper, hlower⟩ := h.get?_eq_some hid
    rw [hq]
    simp only [Except.toOption_map, TypeParam.toOption_boundPieces h hupper hlower]

theorem toOption_ofIds (h : table.SameBounds other) (ids : List TypeVarId) :
    (ofIds other ids).toOption = (ofIds table ids).toOption := by
  induction ids with
  | nil => rfl
  | cons id rest ih =>
    simp only [ofIds_cons, Except.toOption_bind, Except.toOption_map, toOption_ofId h id, ih]

end Clause

end FunctionAdapters
