import FunctionAdapters.Proofs.Signature.Pieces
import FunctionAdapters.Proofs.TypeVar.Renaming
import FunctionAdapters.TypeVar.Names

/-!
# Signatures under other ids

The names of the variables go with the ids: numbering other ids gives them the same names
(`TypeVarNames.forOperation_rename`), so what is written is the same (`Shape.usage_rename`), and what
cannot be written is reported in the same words.  A renderer that has declared the variables under
their other ids goes on declaring the same clauses (`Renderer.declareAll_rename`).
-/

namespace FunctionAdapters

variable {table other : TypeVarTable} {r : TypeVarId → TypeVarId}

/-! ## Names -/

namespace TypeVarNames

def rename (r : TypeVarId → TypeVarId) (names : TypeVarNames) : TypeVarNames :=
  ⟨names.entries.map (Prod.map r id)⟩

theorem get?_rename (hr : Function.Injective r) (names : TypeVarNames) (id : TypeVarId) :
    (names.rename r).get? (r id) = names.get? id := by
  unfold get? rename
  induction names.entries with
  | nil => rfl
  | cons e rest ih =>
    obtain ⟨key, name⟩ := e
    have hkey : (r id == r key) = (id == key) := by
      rw [Bool.eq_iff_iff, beq_iff_eq, beq_iff_eq, hr.eq_iff]
    rw [List.map_cons, Prod.map_apply, List.lookup_cons, List.lookup_cons, hkey, ih]
    rfl

theorem numbered_map (scope : VarScope) (ids : List TypeVarId) :
    numbered scope (ids.map r) = (numbered scope ids).map (Prod.map r id) := by
  unfold numbered
  rw [List.zipIdx_map, List.map_map, List.map_map]
  rfl

theorem forOperation_rename (hr : Function.Injective r) {classParams opParams : List TypeVarId}
    (hclass : ∀ id ∈ classParams, table.Carries other r (.typeVar id))
    (hop : ∀ id ∈ opParams, table.Carries other r (.typeVar id)) :
    forOperation other (classParams.map r) (opParams.map r) =
      (forOperation table classParams opParams).rename r := by
  have hown : ((table.reachIds opParams).map r).filter (· ∉ (table.reachIds classParams).map r) =
      ((table.reachIds opParams).filter (· ∉ table.reachIds classParams)).map r := by
    rw [List.filter_map]
    congr 2
    funext id
    have hmem : r id ∈ (table.reachIds classParams).map r ↔ id ∈ table.reachIds classParams :=
      List.mem_map_of_injective hr
    simp only [Function.comp_apply, hmem]
  unfold forOperation rename
  simp only [TypeVarTable.reachIds_rename hr hclass, TypeVarTable.reachIds_rename hr hop, hown,
    numbered_map, List.map_append]

end TypeVarNames

namespace Vocabulary

/-- A vocabulary for other ids. -/
def rename (r : TypeVarId → TypeVarId) (other : TypeVarTable) (v : Vocabulary) : Vocabulary :=
  ⟨other, v.names.rename r⟩

theorem write_rename (hr : Function.Injective r) (v : Vocabulary) (id : TypeVarId)
    (p : TypeParam) : (v.rename r other).write (r id) (p.rename r) = v.write id p := by
  unfold write
  rw [rename, TypeVarNames.get?_rename hr, TypeParam.rename]

end Vocabulary

/-! ## Usage -/

namespace Shape

variable {v : Vocabulary} {position : Position}

theorem unsupported_rename (position : Position) {s : Shape} (h : v.table.Carries other r s) :
    unsupported (v.rename r other) position (s.rename r) = unsupported v position s := by
  unfold unsupported Vocabulary.rename
  rw [canonical_rename s h]

mutual
/-- **Usage** does not depend on ids. -/
theorem usage_rename (hr : Function.Injective r) (position : Position) (s : Shape)
    (h : v.table.Carries other r s) :
    (s.rename r).usage (v.rename r other) position = s.usage v position := by
  -- a report names a shape by its canonical text, which shows no ids
  have hunsupported := unsupported_rename position h
  cases s with
  | declared name args bounds =>
    have hargs : usages (v.rename r other) .argument (renames r args) = usages v .argument args :=
      usages_rename hr .argument args fun s hs => h.child (List.mem_append_left bounds hs)
    have hbounds : usages (v.rename r other) .nested (renames r bounds) = usages v .nested bounds :=
      usages_rename hr .nested bounds fun s hs => h.child (List.mem_append_right args hs)
    simp only [rename, usage, standsForBounds_renames, hargs, hbounds]
  | array component =>
    have hcomponent := usage_rename hr .component component (h.child (List.mem_singleton_self _))
    simp only [rename, usage, hcomponent]
  | wildcardExtends bound | wildcardSuper bound =>
    have hbound := usage_rename hr .nested bound (h.child (List.mem_singleton_self _))
    simp only [rename] at hunsupported
    simp only [rename, usage, hbound, hunsupported]
  | typeVar id =>
    simp only [rename] at hunsupported
    simp only [rename, usage, hunsupported]
    have hget : (v.rename r other).table.get? (r id) = (v.table.get? id).map (TypeParam.rename r) :=
      h.get?
    rw [hget]
    cases v.table.get? id with
    | none => rfl
    | some p => exact congrArg Except.ok (v.write_rename hr id p)
  | primitive | wildcard | void | top => rfl
theorem usages_rename (hr : Function.Injective r) (position : Position) (shapes : List Shape)
    (h : ∀ s ∈ shapes, v.table.Carries other r s) :
    usages (v.rename r other) position (renames r shapes) = usages v position shapes := by
  cases shapes with
  | nil => rfl
  | cons s rest =>
    rw [renames, usages, usages, usage_rename hr position s (h s List.mem_cons_self),
      usages_rename hr position rest fun t ht => h t (List.mem_cons_of_mem s ht)]
end

end Shape

/-! ## Clauses -/

theorem TypeParam.boundClause_rename (hr : Function.Injective r) {v : Vocabulary} {p : TypeParam}
    (h : ∀ s ∈ p.allBounds, v.table.Carries other r s) :
    (p.rename r).boundClause (v.rename r other) = p.boundClause v := by
  obtain ⟨name, upper, lower⟩ := p
  have hupper : (upper.rename r).usage (v.rename r other) .bound = upper.usage v .bound :=
    Shape.usage_rename hr .bound upper (h upper (by simp [allBounds]))
  unfold boundClause rename
  simp only [Shape.isTop_rename, hupper]
  cases lower with
  | none => rfl
  | some bound =>
    have hlower : (bound.rename r).usage (v.rename r other) .bound = bound.usage v .bound :=
      Shape.usage_rename hr .bound bound (h bound (by simp [allBounds]))
    simp only [Option.map_some, Shape.isTop_rename, hlower]

namespace Renderer

/-- A renderer for other ids. -/
def rename (r : TypeVarId → TypeVarId) (other : TypeVarTable) (renderer : Renderer) : Renderer :=
  { renderer.toVocabulary.rename r other with declared := renderer.declared.map r }

variable {renderer : Renderer} {id : TypeVarId}

@[simp] theorem toVocabulary_rename :
    (renderer.rename r other).toVocabulary = renderer.toVocabulary.rename r other := rfl

theorem usage_rename (hr : Function.Injective r) {s : Shape}
    (h : renderer.table.Carries other r s) :
    (renderer.rename r other).usage (s.rename r) = renderer.usage s :=
  Shape.usage_rename hr .whole s h

theorem parameter_rename (hr : Function.Injective r) {s : Shape}
    (h : renderer.table.Carries other r s) :
    (renderer.rename r other).parameter (s.rename r) = renderer.parameter s := by
  cases s with
  | primitive p => rfl
  | _ => exact usage_rename hr h

theorem declare_rename (hr : Function.Injective r)
    (h : renderer.table.Carries other r (.typeVar id)) :
    (renderer.rename r other).declare (r id) =
      ((renderer.declare id).1, (renderer.declare id).2.rename r other) := by
  have hget : (renderer.rename r other).table.get? (r id) =
      (renderer.table.get? id).map (TypeParam.rename r) := h.get?
  unfold declare
  rw [hget, toVocabulary_rename]
  cases hp : renderer.table.get? id with
  | none =>
    have hunsupported := Shape.unsupported_rename .whole h
    rw [Option.map_none]
    exact congrArg (fun e => (Except.error e, renderer.rename r other)) hunsupported
  | some p =>
    have hwrite : (renderer.toVocabulary.rename r other).write (r id) (p.rename r) =
        renderer.toVocabulary.write id p := renderer.toVocabulary.write_rename hr id p
    have hclause : (p.rename r).boundClause (renderer.toVocabulary.rename r other) =
        p.boundClause renderer.toVocabulary :=
      TypeParam.boundClause_rename hr fun s hs => h.allBounds hp hs
    have hdeclared : r id ∈ (renderer.rename r other).declared ↔ id ∈ renderer.declared :=
      List.mem_map_of_injective hr
    simp only [Option.map_some, hdeclared, hwrite, hclause]
    split <;> rfl

theorem declareAll_rename (renderer : Renderer) (hr : Function.Injective r)
    {ids : List TypeVarId} (h : ∀ id ∈ ids, renderer.table.Carries other r (.typeVar id)) :
    (renderer.rename r other).declareAll (ids.map r) =
      ((renderer.declareAll ids).1, (renderer.declareAll ids).2.rename r other) := by
  induction ids generalizing renderer with
  | nil => rfl
  | cons id rest ih =>
    have hrest : ∀ x ∈ rest, (renderer.declare id).2.table.Carries other r (.typeVar x) := by
      rw [renderer.toVocabulary_declare id]
      exact fun x hx => h x (List.mem_cons_of_mem id hx)
    have htail := ih _ hrest
    rw [List.map_cons]
    unfold declareAll
    rw [declare_rename hr (h id List.mem_cons_self)]
    generalize renderer.declare id = step at htail
    obtain ⟨answer, next⟩ := step
    cases answer with
    | error e => rfl
    | ok clause => simp only [htail]

end Renderer

end FunctionAdapters
