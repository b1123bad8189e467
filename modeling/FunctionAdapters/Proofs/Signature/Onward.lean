import FunctionAdapters.Proofs.Signature.Placement

/-!
# What is written and what is only found

The search for type variables follows a shape to everything that it is built from, and a variable to
both of its bounds.  A text shows less: of a declared type the arguments alone or, in a bound, the
components alone; of a variable the bound that its clause writes.

`Placed.onward` is what is written next to a shape where it stands, `Placed.hidden` is what the
search follows but no text shows.  Together they are all that a shape leads to in one step
(`mem_next_iff`); so whatever a shape leads to is written, or it stands behind something hidden
(`leads_iff`).
-/

namespace FunctionAdapters

/-! ## The variables of a text -/

namespace Shape

variable {table : TypeVarTable}

def readVars (readings : List Placed) : List TypeVarId := readings.filterMap (·.shape.typeVar?)

theorem readVars_append (xs ys : List Placed) : readVars (xs ++ ys) = readVars xs ++ readVars ys :=
  List.filterMap_append

theorem readVars_cons (p : Placed) (ps : List Placed) :
    readVars (p :: ps) = p.shape.typeVar?.toList ++ readVars ps := by
  unfold readVars
  rw [List.filterMap_cons]
  cases p.shape.typeVar? <;> rfl

mutual
/-- **Occurrences in order.**  The variables that occur in a text are those that are read in it. -/
theorem typeVars_pieces {position : Position} (s : Shape) {ps : List Piece}
    (h : s.pieces table position = .ok ps) : Piece.typeVars ps = readVars (s.readings position) := by
  unfold readings
  rw [readVars_cons]
  unfold pieces at h
  cases s with
  | primitive p =>
    obtain rfl := Except.ok.inj h
    rfl
  | declared name args bounds =>
    simp only at h ⊢
    split at h
    · next hb =>
      obtain ⟨pss, hpss, rfl⟩ := Except.map_eq_ok.1 h
      rw [if_pos hb, Piece.typeVars_separated, typeVars_piecesAll bounds hpss]
      rfl
    · next hb =>
      obtain ⟨pss, hpss, rfl⟩ := Except.map_eq_ok.1 h
      rw [if_neg hb, Piece.typeVars_words, Piece.typeVars_angled, typeVars_piecesAll args hpss]
      rfl
  | array component =>
    obtain ⟨qs, hqs, rfl⟩ := Except.map_eq_ok.1 h
    rw [Piece.typeVars_append, typeVars_pieces component hqs]
    exact List.append_nil _
  | wildcard | void =>
    obtain ⟨-, h⟩ := Except.ite_error_eq_ok.1 h
    obtain rfl := Except.ok.inj h
    rfl
  | wildcardExtends bound | wildcardSuper bound =>
    obtain ⟨-, h⟩ := Except.ite_error_eq_ok.1 h
    obtain ⟨qs, hqs, rfl⟩ := Except.map_eq_ok.1 h
    rw [Piece.typeVars_words, typeVars_pieces bound hqs]
    rfl
  | typeVar id =>
    simp only at h
    split at h
    · obtain rfl := Except.ok.inj h
      rfl
    · cases h
  | top => cases h
theorem typeVars_piecesAll {position : Position} (shapes : List Shape) {pss : List (List Piece)}
    (h : piecesAll table position shapes = .ok pss) :
    pss.flatMap Piece.typeVars = readVars (readingsAll position shapes) := by
  unfold piecesAll at h
  cases shapes with
  | nil =>
    obtain rfl := Except.ok.inj h
    rfl
  | cons s rest =>
    simp only at h
    split at h
    · cases h
    · next qs hqs =>
      obtain ⟨qss, hqss, rfl⟩ := Except.map_eq_ok.1 h
      rw [readingsAll, readVars_append, List.flatMap_cons, typeVars_pieces s hqs,
        typeVars_piecesAll rest hqss]
end

end Shape

namespace Placed

variable {table : TypeVarTable} {p q : Placed} {id : TypeVarId}

/-- A variable is written in the text of a shape where it stands. -/
def Shows (p : Placed) (id : TypeVarId) : Prop := ∃ position, p.Contains ⟨position, .typeVar id⟩

theorem mem_readVars : id ∈ Shape.readVars p.readings ↔ p.Shows id := by
  unfold Shape.readVars
  rw [List.mem_filterMap]
  constructor
  · rintro ⟨⟨position, s⟩, hs, hid⟩
    obtain rfl : s = .typeVar id := Shape.typeVar?_eq_some.1 hid
    exact ⟨position, mem_readings.1 hs⟩
  · rintro ⟨position, h⟩
    exact ⟨_, mem_readings.2 h, rfl⟩

/-- **Occurrences.**  A variable occurs in a text if and only if it is written in it. -/
theorem mem_typeVars_iff {ps : List Piece} (h : p.shape.pieces table p.position = .ok ps) :
    id ∈ Piece.typeVars ps ↔ p.Shows id := by
  rw [Shape.typeVars_pieces p.shape h]
  exact mem_readVars

theorem shows_typeVar (position : Position) (id : TypeVarId) :
    (⟨position, .typeVar id⟩ : Placed).Shows id := ⟨position, .refl⟩

theorem Shows.of_part (h : q ∈ p.parts) (hid : q.Shows id) : p.Shows id := by
  obtain ⟨position, hid⟩ := hid
  exact ⟨position, hid.head h⟩

end Placed

/-! ## What is written next -/

namespace TypeParam

/-- The bound that says something but is not written: the lower one beside an upper one. -/
def hiddenBound (param : TypeParam) : Option Shape :=
  if param.upper.isTop then none else param.lower.filter (!·.isTop)

theorem mem_bounds_iff {param : TypeParam} {b : Shape} :
    b ∈ param.bounds ↔ param.writtenBound = some b ∨ param.hiddenBound = some b := by
  have hmem : b ∈ param.bounds ↔ (param.lower = some b ∨ b = param.upper) ∧ b.isTop = false := by
    simp [bounds, allBounds, or_and_right]
  rw [hmem]
  unfold writtenBound hiddenBound
  -- the upper bound is written if it says something; else the lower one is
  by_cases hu : param.upper.isTop = true
  · simp only [if_pos hu, Option.filter_eq_some_iff, Bool.not_eq_true', reduceCtorEq, or_false]
    refine and_congr_left fun htop => or_iff_left ?_
    rintro rfl
    rw [hu] at htop
    cases htop
  · simp only [if_neg hu, Option.filter_eq_some_iff, Bool.not_eq_true', Option.some.injEq]
    constructor
    · rintro ⟨hlower | rfl, htop⟩
      · exact .inr ⟨hlower, htop⟩
      · exact .inl rfl
    · rintro (rfl | ⟨hlower, htop⟩)
      · exact ⟨.inr rfl, eq_false_of_ne_true hu⟩
      · exact ⟨.inl hlower, htop⟩

end TypeParam

namespace Placed

variable (table : TypeVarTable)

/-- What is written next to a shape where it stands: its parts and, for a variable, the bound in its
clause. -/
def onward (p : Placed) : List Placed :=
  match p.shape with
  | .typeVar id => ((table.get? id).bind TypeParam.writtenBound).toList.map (⟨.bound, ·⟩)
  | _ => p.parts

/-- What a shape leads to and no text shows: the direct bounds of a declared type, unless it is
written as its components, and the hidden bound of a variable. -/
def hidden (p : Placed) : List Shape :=
  match p.shape with
  | .declared _ args bounds =>
    if p.position = .bound ∧ Shape.standsForBounds args bounds then [] else bounds
  | .typeVar id => ((table.get? id).bind TypeParam.hiddenBound).toList
  | _ => []

/-- What is written in a text, or in the clause of a variable that is so written. -/
def WritesOn : Placed → Placed → Prop := Relation.ReflTransGen fun p q => q ∈ p.onward table

variable {table} {p q : Placed} {id : TypeVarId}

theorem mem_onward_iff : q ∈ p.onward table ↔ q ∈ p.parts ∨
    ∃ id param bound, p.shape = .typeVar id ∧ table.get? id = some param ∧
      param.writtenBound = some bound ∧ q = ⟨.bound, bound⟩ := by
  obtain ⟨position, s⟩ := p
  cases s with
  | typeVar id =>
    simp only [onward, parts, List.mem_map, Option.mem_toList, Option.bind_eq_some_iff,
      List.not_mem_nil, false_or, Shape.typeVar.injEq]
    constructor
    · rintro ⟨bound, ⟨param, hparam, hbound⟩, rfl⟩
      exact ⟨id, param, bound, rfl, hparam, hbound, rfl⟩
    · rintro ⟨x, param, bound, rfl, hparam, hbound, rfl⟩
      exact ⟨bound, ⟨param, hparam, hbound⟩, rfl⟩
  | _ => simp [onward]

/-- **One step.**  What a shape leads to in one step is written next or hidden. -/
theorem mem_next_iff {t : Shape} : t ∈ table.next p.shape ↔
    (∃ q ∈ p.onward table, q.shape = t) ∨ t ∈ p.hidden table := by
  obtain ⟨position, s⟩ := p
  cases s with
  | declared name args bounds =>
    simp only [TypeVarTable.next, Shape.typeVar?, Shape.children, onward, parts, hidden]
    split
    · next hb =>
      -- an intersection has no arguments that could be hidden
      have hargs : args = [] := List.isEmpty_iff.1 ((Bool.and_eq_true _ _).mp hb.2).1
      simp [hargs]
    · simp
  | typeVar id =>
    simp only [TypeVarTable.next, Shape.typeVar?, TypeVarTable.bounds, onward, hidden]
    cases table.get? id with
    | none => simp
    | some param => simp [TypeParam.mem_bounds_iff]
  | primitive | array | wildcard | wildcardExtends | wildcardSuper | void | top =>
    simp [TypeVarTable.next, Shape.typeVar?, Shape.children, onward, parts, hidden, eq_comm]

theorem Contains.writesOn (h : p.Contains q) : p.WritesOn table q :=
  Relation.ReflTransGen.mono (fun _ _ hpart => mem_onward_iff.2 (.inl hpart)) _ _ h

theorem WritesOn.leads (h : p.WritesOn table q) : table.Leads p.shape q.shape := by
  induction h with
  | refl => exact .refl _
  | tail _ hstep ih =>
    exact ih.trans (TypeVarTable.leads_of_mem_next (mem_next_iff.2 (.inl ⟨_, hstep, rfl⟩)))

/-- **Written or hidden.**  What a shape leads to is written, or it is led to by something hidden. -/
theorem leads_iff {t : Shape} : table.Leads p.shape t ↔
    (∃ position, p.WritesOn table ⟨position, t⟩) ∨
      ∃ q, p.WritesOn table q ∧ ∃ b ∈ q.hidden table, table.Leads b t := by
  constructor
  · intro h
    induction h with
    | refl => exact .inl ⟨p.position, .refl⟩
    | @tail s t _ hstep ih =>
      rcases ih with ⟨position, hwritten⟩ | ⟨q, hq, b, hb, hlead⟩
      · rcases mem_next_iff (p := ⟨position, s⟩).1 hstep with ⟨q, hq, rfl⟩ | hhidden
        · exact .inl ⟨q.position, hwritten.tail hq⟩
        · exact .inr ⟨_, hwritten, t, hhidden, .refl t⟩
      · exact .inr ⟨q, hq, b, hb, hlead.trans (TypeVarTable.leads_of_mem_next hstep)⟩
  · rintro (⟨position, hwritten⟩ | ⟨q, hq, b, hb, hlead⟩)
    · exact hwritten.leads
    · have hnext : b ∈ table.next q.shape := mem_next_iff.2 (.inr hb)
      exact hq.leads.trans ((TypeVarTable.leads_of_mem_next hnext).trans hlead)

end Placed

/-! ## The variables of a clause -/

theorem TypeParam.mem_typeVars_boundPieces {table : TypeVarTable} {param : TypeParam}
    {ps : List Piece} {id : TypeVarId} (h : param.boundPieces table = .ok ps) :
    id ∈ Piece.typeVars ps ↔
      ∃ bound, param.writtenBound = some bound ∧ (⟨.bound, bound⟩ : Placed).Shows id := by
  rw [boundPieces_eq] at h
  cases hs : param.writtenBound with
  | none =>
    rw [hs] at h
    obtain rfl := Except.ok.inj h
    simp
  | some s =>
    rw [hs] at h
    obtain ⟨qs, hqs, rfl⟩ := Except.map_eq_ok.1 h
    rw [Piece.typeVars_words, Placed.mem_typeVars_iff (p := ⟨.bound, s⟩) hqs]
    simp

end FunctionAdapters
