import FunctionAdapters.Proofs.Signature.History
import FunctionAdapters.Proofs.Signature.Parts

/-!
# Which shapes have a text

A text is read from left to right.  `Shape.readings` lists everything that is written in it, a whole
before its parts and one part after the other.  A shape has a text if everything that is read fits its
place, and else the report names the first thing that does not (`error?_usage`).

The main statement is `text_iff_wellPlaced`, for the types that are used and for the bounds of the
variables that are declared.
-/

namespace FunctionAdapters

namespace Shape

def isWildcard : Shape → Bool
  | .wildcard | .wildcardExtends _ | .wildcardSuper _ => true
  | _ => false

mutual
/-- Everything that is written in the text of a shape, in the order in which it is read. -/
def readings (position : Position) (s : Shape) : List Placed :=
  ⟨position, s⟩ ::
    match s with
    | .declared _ args bounds =>
      if position = .bound ∧ standsForBounds args bounds then readingsAll .nested bounds
      else readingsAll .argument args
    | .array component => component.readings .component
    | .wildcardExtends bound | .wildcardSuper bound => bound.readings .nested
    | _ => []
def readingsAll (position : Position) : List Shape → List Placed
  | [] => []
  | s :: rest => s.readings position ++ readingsAll position rest
end

theorem readingsAll_eq_flatMap (position : Position) (shapes : List Shape) :
    readingsAll position shapes = shapes.flatMap (readings position) := by
  induction shapes with
  | nil => rfl
  | cons s rest ih => rw [readingsAll, ih, List.flatMap_cons]

end Shape

namespace Placed

variable {table : TypeVarTable} {p q : Placed}

/-- Everything that is written in a text, in the order in which it is read. -/
def readings (p : Placed) : List Placed := p.shape.readings p.position

/-- First the whole of a text is read, then its parts in order. -/
theorem readings_eq (p : Placed) : p.readings = p :: p.parts.flatMap readings := by
  obtain ⟨position, s⟩ := p
  unfold readings parts
  cases s with
  | declared name args bounds =>
    simp only [Shape.readings]
    split <;> rw [Shape.readingsAll_eq_flatMap, List.flatMap_map]
  | array | wildcardExtends | wildcardSuper => simp [Shape.readings]
  | primitive | wildcard | typeVar | void | top => simp [Shape.readings]

end Placed

namespace Shape

variable {q : Placed}

mutual
theorem contains_of_mem_readings {position : Position} (s : Shape)
    (h : q ∈ s.readings position) : (⟨position, s⟩ : Placed).Contains q := by
  unfold readings at h
  rcases List.mem_cons.1 h with rfl | h
  · exact .refl
  cases s with
  | declared name args bounds =>
    simp only at h
    split at h
    · next hb =>
      obtain ⟨bound, hbound, hq⟩ := contains_of_mem_readingsAll bounds h
      refine .head ?_ hq
      simp only [Placed.parts, if_pos hb]
      exact List.mem_map_of_mem hbound
    · next hb =>
      obtain ⟨arg, harg, hq⟩ := contains_of_mem_readingsAll args h
      refine .head ?_ hq
      simp only [Placed.parts, if_neg hb]
      exact List.mem_map_of_mem harg
  | array component => exact .head (List.mem_singleton_self _) (contains_of_mem_readings component h)
  | wildcardExtends bound | wildcardSuper bound =>
    exact .head (List.mem_singleton_self _) (contains_of_mem_readings bound h)
  | primitive | wildcard | typeVar | void | top => cases h
theorem contains_of_mem_readingsAll {position : Position} (shapes : List Shape)
    (h : q ∈ readingsAll position shapes) :
    ∃ s ∈ shapes, (⟨position, s⟩ : Placed).Contains q := by
  cases shapes with
  | nil => cases h
  | cons s rest =>
    rcases List.mem_append.1 h with h | h
    · exact ⟨s, List.mem_cons_self, contains_of_mem_readings s h⟩
    · obtain ⟨t, ht, hq⟩ := contains_of_mem_readingsAll rest h
      exact ⟨t, List.mem_cons_of_mem s ht, hq⟩
end

end Shape

namespace Placed

variable {table : TypeVarTable} {p q : Placed}

theorem mem_readings : q ∈ p.readings ↔ p.Contains q := by
  constructor
  · exact Shape.contains_of_mem_readings p.shape
  · intro h
    induction h using Relation.ReflTransGen.head_induction_on with
    | refl =>
      rw [readings_eq]
      exact List.mem_cons_self
    | head hpart _ ih =>
      rw [readings_eq]
      exact List.mem_cons_of_mem _ (List.mem_flatMap.2 ⟨_, hpart, ih⟩)

instance (table : TypeVarTable) : DecidablePred (Fits table)
  | ⟨position, .wildcard⟩ => inferInstanceAs (Decidable (position = .argument))
  | ⟨position, .wildcardExtends _⟩ => inferInstanceAs (Decidable (position = .argument))
  | ⟨position, .wildcardSuper _⟩ => inferInstanceAs (Decidable (position = .argument))
  | ⟨_, .typeVar _⟩ => decidable_of_iff _ Option.isSome_iff_exists
  | ⟨position, .void⟩ => inferInstanceAs (Decidable (position = .whole))
  | ⟨_, .top⟩ => .isFalse id
  | ⟨_, .primitive _⟩ | ⟨_, .declared _ _ _⟩ | ⟨_, .array _⟩ => .isTrue trivial

/-- The report that a shape does not fit its place. -/
def report (table : TypeVarTable) (p : Placed) : UnsupportedShape :=
  ⟨p.shape.canonical table, p.position⟩

/-- The first of some readings that does not fit its place. -/
def misfit? (table : TypeVarTable) (readings : List Placed) : Option Placed :=
  readings.find? fun p => ¬ p.Fits table

theorem misfit?_append (xs ys : List Placed) :
    misfit? table (xs ++ ys) = (misfit? table xs).or (misfit? table ys) := List.find?_append

theorem misfit?_cons_of_fits {xs : List Placed} (h : p.Fits table) :
    misfit? table (p :: xs) = misfit? table xs := by
  simp [misfit?, h]

theorem misfit?_cons_of_not_fits {xs : List Placed} (h : ¬ p.Fits table) :
    misfit? table (p :: xs) = some p := by
  simp [misfit?, h]

end Placed

namespace Shape

variable (v : Vocabulary)

variable {v} in
theorem usage_of_not_fits {position : Position} {s : Shape}
    (h : ¬ (⟨position, s⟩ : Placed).Fits v.table) :
    s.usage v position = .error (unsupported v position s) := by
  unfold Placed.Fits at h
  unfold usage
  cases s with
  | primitive | declared | array => exact absurd trivial h
  | wildcard | wildcardExtends | wildcardSuper | void => exact if_neg h
  | typeVar id =>
    have hunknown : v.table.get? id = none :=
      Option.eq_none_iff_forall_not_mem.2 fun param hparam => h ⟨param, hparam⟩
    simp only [hunknown]
  | top => rfl

mutual
/-- **The first misfit.**  A text fails with the report of the first thing read that does not fit
its place, and succeeds if there is none. -/
theorem error?_usage (position : Position) (s : Shape) :
    (s.usage v position).error? =
      (Placed.misfit? v.table (s.readings position)).map (Placed.report v.table) := by
  unfold readings
  -- the shape itself is read first; if it fits, the report comes from its parts
  by_cases hfits : (⟨position, s⟩ : Placed).Fits v.table
  · rw [Placed.misfit?_cons_of_fits hfits]
    cases s with
    | declared name args bounds =>
      unfold usage
      simp only
      split
      · rw [Except.bind_return, Except.error?_map, error?_usages .nested bounds]
      · rw [Except.bind_return, Except.error?_map, error?_usages .argument args]
    | array component =>
      rw [usage, Except.bind_return, Except.error?_map, error?_usage .component component]
    | wildcardExtends bound | wildcardSuper bound =>
      obtain rfl : position = .argument := hfits
      rw [usage, if_pos rfl, Except.bind_return, Except.error?_map, error?_usage .nested bound]
    | typeVar id =>
      obtain ⟨param, hparam⟩ : ∃ param, v.table.get? id = some param := hfits
      rw [usage, hparam]
      rfl
    | wildcard =>
      obtain rfl : position = .argument := hfits
      rfl
    | void =>
      obtain rfl : position = .whole := hfits
      rfl
    | primitive => rfl
    | top => cases hfits
  · rw [Placed.misfit?_cons_of_not_fits hfits, usage_of_not_fits hfits]
    rfl
theorem error?_usages (position : Position) (shapes : List Shape) :
    (usages v position shapes).error? =
      (Placed.misfit? v.table (readingsAll position shapes)).map (Placed.report v.table) := by
  cases shapes with
  | nil => rfl
  | cons s rest =>
    rw [readingsAll, Placed.misfit?_append, Option.map_or, ← error?_usage position s,
      ← error?_usages position rest, usages]
    cases s.usage v position with
    | error e => rfl
    | ok text => cases usages v position rest <;> rfl
end

end Shape

/-! ## Well-placed shapes -/

namespace Placed

variable {table : TypeVarTable} {p q : Placed}

/-- What is asked of everything that a text contains. -/
structure WellPlaced (table : TypeVarTable) (p : Placed) : Prop where
  top : ∀ q, p.Contains q → q.shape ≠ .top
  /-- Only a whole type may be `void`. -/
  void : ∀ q, p.Contains q → q.shape = .void → q = p ∧ p.position = .whole
  /-- A wildcard stands directly as a type argument. -/
  wildcard : ∀ q, p.Contains q → q.shape.isWildcard = true → q.position = .argument
  typeVar : ∀ q id, p.Contains q → q.shape = .typeVar id → ∃ param, table.get? id = some param

/-- Where no part can be a whole type, only the text itself is in its place as one. -/
theorem eq_of_contains_whole (h : p.Contains q) (hq : q.position = .whole) : q = p := by
  rcases Relation.ReflTransGen.cases_tail h with rfl | ⟨outer, -, hpart⟩
  · rfl
  · exact absurd hq (position_of_mem_parts hpart)

theorem wellPlaced_iff : WellPlaced table p ↔ ∀ q, p.Contains q → q.Fits table := by
  constructor
  · intro h q hq
    obtain ⟨position, s⟩ := q
    cases s with
    | primitive | declared | array => trivial
    | wildcard | wildcardExtends | wildcardSuper => exact h.wildcard _ hq rfl
    | typeVar id => exact h.typeVar _ id hq rfl
    | void =>
      obtain ⟨rfl, hwhole⟩ := h.void _ hq rfl
      exact hwhole
    | top => exact absurd rfl (h.top _ hq)
  · intro h
    refine ⟨fun q hq htop => ?_, fun q hq hvoid => ?_, fun q hq hwild => ?_, fun q id hq hvar => ?_⟩
    all_goals
      have hfits := h q hq
      obtain ⟨position, s⟩ := q
    · obtain rfl : s = .top := htop
      exact hfits
    · obtain rfl : s = .void := hvoid
      -- only the text itself is a whole type, so `void` is the whole text
      obtain rfl := eq_of_contains_whole hq hfits
      exact ⟨rfl, hfits⟩
    · cases s with
      | wildcard | wildcardExtends | wildcardSuper => exact hfits
      | primitive | declared | array | typeVar | void | top => cases hwild
    · obtain rfl : s = .typeVar id := hvar
      exact hfits

theorem misfit?_eq_none_iff {readings : List Placed} :
    misfit? table readings = none ↔ ∀ q ∈ readings, q.Fits table := by
  simp [misfit?]

/-- Some readings begin with what fits its place, up to a first thing that does not. -/
def FirstMisfit (table : TypeVarTable) (readings : List Placed) (q : Placed) : Prop :=
  ∃ before after, readings = before ++ q :: after ∧ (∀ p ∈ before, p.Fits table) ∧ ¬ q.Fits table

theorem misfit?_eq_some_iff {readings : List Placed} :
    misfit? table readings = some q ↔ FirstMisfit table readings q := by
  unfold misfit? FirstMisfit
  rw [List.find?_eq_some_iff_append]
  simp
  tauto

theorem text_iff (v : Vocabulary) (p : Placed) :
    (∃ text, p.text v = .ok text) ↔ WellPlaced v.table p := by
  rw [← Except.error?_eq_none, text, Shape.error?_usage, Option.map_eq_none_iff,
    misfit?_eq_none_iff, wellPlaced_iff]
  exact forall_congr' fun q => imp_congr_left mem_readings

theorem error_iff (v : Vocabulary) (p : Placed) (e : UnsupportedShape) :
    p.text v = .error e ↔ ∃ q, FirstMisfit v.table p.readings q ∧ q.report v.table = e := by
  rw [← Except.error?_eq_some, text, Shape.error?_usage, Option.map_eq_some_iff]
  simp only [misfit?_eq_some_iff]
  rfl

end Placed

/-! ## Declarations -/

namespace TypeVarTable

/-- What is read in the clause of a variable: the variable, then the bound that is written. -/
def clauseReadings (table : TypeVarTable) (id : TypeVarId) : List Placed :=
  ⟨.whole, .typeVar id⟩ ::
    (((table.get? id).bind TypeParam.writtenBound).map (Shape.readings .bound)).getD []

variable {table : TypeVarTable} {id : TypeVarId}

theorem fits_clauseReadings_iff :
    (∀ q ∈ table.clauseReadings id, q.Fits table) ↔
      ∃ param, table.get? id = some param ∧
        ∀ bound, param.writtenBound = some bound → Placed.WellPlaced table ⟨.bound, bound⟩ := by
  unfold clauseReadings
  rw [List.forall_mem_cons]
  refine exists_and_right.symm.trans (exists_congr fun param => and_congr_right fun hparam => ?_)
  rw [hparam, Option.bind_some]
  cases param.writtenBound with
  | none => simp
  | some bound =>
    simp only [Option.map_some, Option.getD_some, Option.some.injEq, forall_eq',
      Placed.wellPlaced_iff]
    exact forall_congr' fun q => imp_congr_left (Placed.mem_readings (p := ⟨.bound, bound⟩))

end TypeVarTable

namespace Renderer

/-- A declaration fails with the report of the first thing in its clause that does not fit. -/
theorem error?_declare (table : TypeVarTable) (names : TypeVarNames) (id : TypeVarId) :
    ((start table names).declare id).1.error? =
      (Placed.misfit? table (table.clauseReadings id)).map (Placed.report table) := by
  unfold TypeVarTable.clauseReadings
  cases hparam : table.get? id with
  | none =>
    rw [declare_of_unknown hparam, Placed.misfit?_cons_of_not_fits]
    · rfl
    · rintro ⟨param, h⟩
      rw [hparam] at h
      cases h
  | some param =>
    -- the variable has an entry and so fits; what is left to read is the bound
    have hfits : (⟨.whole, .typeVar id⟩ : Placed).Fits table := ⟨param, hparam⟩
    rw [declare_of_new hparam List.not_mem_nil, Except.error?_map, TypeParam.boundClause_eq,
      Placed.misfit?_cons_of_fits hfits, Option.bind_some]
    cases param.writtenBound with
    | none => rfl
    | some bound => exact (Except.error?_map _ _).trans (Shape.error?_usage _ .bound bound)

end Renderer

/-- **Which shapes have a text.**  A type has a text where it is used if and only if it is well placed
as a whole type; a declaration has one if and only if the variable has an entry and the bound that is
written is well placed as a bound, or there is none.  Else the report names the first thing read that
does not fit its place. -/
theorem text_iff_wellPlaced (table : TypeVarTable) (names : TypeVarNames) (s : Shape)
    (id : TypeVarId) :
    ((∃ text, (Renderer.start table names).usage s = .ok text) ↔
        Placed.WellPlaced table ⟨.whole, s⟩) ∧
      ((∃ text, ((Renderer.start table names).declare id).1 = .ok text) ↔
        ∃ param, table.get? id = some param ∧
          ∀ bound, param.writtenBound = some bound → Placed.WellPlaced table ⟨.bound, bound⟩) ∧
      (∀ e, (Renderer.start table names).usage s = .error e ↔
        ∃ q, Placed.FirstMisfit table (s.readings .whole) q ∧ q.report table = e) ∧
      ∀ e, ((Renderer.start table names).declare id).1 = .error e ↔
        ∃ q, Placed.FirstMisfit table (table.clauseReadings id) q ∧ q.report table = e := by
  have hdeclare := Renderer.error?_declare table names id
  refine ⟨Placed.text_iff ⟨table, names⟩ ⟨.whole, s⟩, ?_, Placed.error_iff ⟨table, names⟩ ⟨.whole, s⟩,
    fun e => ?_⟩
  · -- a declaration is read as its variable and the bound that is written
    rw [← Except.error?_eq_none, hdeclare, Option.map_eq_none_iff, Placed.misfit?_eq_none_iff,
      TypeVarTable.fits_clauseReadings_iff]
  · rw [← Except.error?_eq_some, hdeclare, Option.map_eq_some_iff]
    simp only [Placed.misfit?_eq_some_iff]

/-- Of two misplaced shapes the first one is reported, from inside the array it stands in. -/
example : (Renderer.start ⟨[]⟩ ⟨[]⟩).usage (.ofClass ⟨"java.util", "Map"⟩ [.array .wildcard, .top]) =
    .error ⟨"?", .component⟩ := rfl

end FunctionAdapters
