import FunctionAdapters.Proofs.Except
import FunctionAdapters.Proofs.TypeVar.Reach
import FunctionAdapters.Signature.Renderer
import Mathlib.Data.List.Forall2

/-!
# Signature texts in pieces

A text that is written for a shape mixes words with names of type variables, and a name alone does
not say whose it is.  `Shape.pieces` and its relatives give each text in pieces, in which every
occurrence of a variable is marked.  They know the table but no names:

* `usage_eq_pieces`, `boundClause_eq_pieces`, `declareAll_eq_clauses` — the renderer writes the
  pieces with its names, and fails where there are no pieces, whatever the names are;
* `leads_of_mem_pieces`, `leads_of_mem_boundPieces` — the variables that occur are among those
  that the shape leads to.
-/

namespace FunctionAdapters

/-! ## Lists side by side -/

section Forall₂

variable {α β : Type} {r : α → β → Prop} {as : List α} {bs : List β}

theorem exists_right_of_forall₂ (h : List.Forall₂ r as bs) {a : α} (ha : a ∈ as) :
    ∃ b ∈ bs, r a b := by
  induction h with
  | nil => cases ha
  | cons hr _ ih =>
    rcases List.mem_cons.1 ha with rfl | ha
    · exact ⟨_, List.mem_cons_self, hr⟩
    · obtain ⟨b, hb, hab⟩ := ih ha
      exact ⟨b, List.mem_cons_of_mem _ hb, hab⟩

theorem exists_left_of_forall₂ (h : List.Forall₂ r as bs) {b : β} (hb : b ∈ bs) :
    ∃ a ∈ as, r a b := by
  induction h with
  | nil => cases hb
  | cons hr _ ih =>
    rcases List.mem_cons.1 hb with rfl | hb
    · exact ⟨_, List.mem_cons_self, hr⟩
    · obtain ⟨a, ha, hab⟩ := ih hb
      exact ⟨a, List.mem_cons_of_mem _ ha, hab⟩

end Forall₂

namespace Vocabulary

/-- How a variable is written, if it has an entry. -/
def called (v : Vocabulary) (id : TypeVarId) : String := (v.table.get? id).elim "" (v.write id)

theorem called_of_get? {v : Vocabulary} {id : TypeVarId} {param : TypeParam}
    (h : v.table.get? id = some param) : v.called id = v.write id param := by
  rw [called, h]
  rfl

end Vocabulary

/-- A piece of a text: words as they are, or an occurrence of a type variable. -/
inductive Piece where
  | words (text : String)
  | occurrence (id : TypeVarId)
  deriving DecidableEq, Repr

namespace Piece

variable (v : Vocabulary)

def written : Piece → String
  | words text => text
  | occurrence id => v.called id

def text (ps : List Piece) : String := String.join (ps.map (written v))

def typeVar? : Piece → Option TypeVarId
  | words _ => none
  | occurrence id => some id

def typeVars (ps : List Piece) : List TypeVarId := ps.filterMap typeVar?

def separated (separator : String) (pss : List (List Piece)) : List Piece :=
  [words separator].intercalate pss

/-- An argument list in angle brackets, or nothing for no arguments. -/
def angled (separator : String) (args : List (List Piece)) : List Piece :=
  if args.isEmpty then [] else words "<" :: separated separator args ++ [words ">"]

/-! ## Their text -/

@[simp] theorem text_nil : text v [] = "" := rfl

@[simp] theorem text_cons (p : Piece) (ps : List Piece) :
    text v (p :: ps) = written v p ++ text v ps := String.join_cons

@[simp] theorem text_append (ps qs : List Piece) :
    text v (ps ++ qs) = text v ps ++ text v qs := by
  unfold text
  rw [List.map_append, String.join_append]

theorem text_separated (separator : String) (pss : List (List Piece)) :
    text v (separated separator pss) = separator.intercalate (pss.map (text v)) := by
  unfold separated
  induction pss with
  | nil => rfl
  | cons ps rest ih =>
    cases rest with
    | nil => simp
    | cons qs rest =>
      rw [List.intercalate_cons_cons, text_append, text_append, ih]
      simp [written, String.intercalate_cons_cons]

theorem text_angled (separator : String) (args : List (List Piece)) :
    text v (angled separator args) = FunctionAdapters.angled separator (args.map (text v)) := by
  unfold angled FunctionAdapters.angled
  cases args with
  | nil => rfl
  | cons a rest => simp [text_separated, written, String.append_assoc]

/-! ## Their variables -/

@[simp] theorem typeVars_nil : typeVars [] = [] := rfl

@[simp] theorem typeVars_words (s : String) (ps : List Piece) :
    typeVars (words s :: ps) = typeVars ps := rfl

@[simp] theorem typeVars_occurrence (id : TypeVarId) (ps : List Piece) :
    typeVars (occurrence id :: ps) = id :: typeVars ps := rfl

@[simp] theorem typeVars_append (ps qs : List Piece) :
    typeVars (ps ++ qs) = typeVars ps ++ typeVars qs := List.filterMap_append

theorem typeVars_separated (separator : String) (pss : List (List Piece)) :
    typeVars (separated separator pss) = pss.flatMap typeVars := by
  unfold separated
  induction pss with
  | nil => rfl
  | cons ps rest ih =>
    cases rest with
    | nil => simp
    | cons qs rest =>
      rw [List.intercalate_cons_cons, typeVars_append, typeVars_append, ih]
      simp

theorem typeVars_angled (separator : String) (args : List (List Piece)) :
    typeVars (angled separator args) = args.flatMap typeVars := by
  unfold angled
  cases args with
  | nil => rfl
  | cons a rest => simp [typeVars_separated]

theorem mem_typeVars_separated {separator : String} {pss : List (List Piece)} {id : TypeVarId} :
    id ∈ typeVars (separated separator pss) ↔ ∃ ps ∈ pss, id ∈ typeVars ps := by
  rw [typeVars_separated, List.mem_flatMap]

theorem mem_typeVars_angled {separator : String} {args : List (List Piece)} {id : TypeVarId} :
    id ∈ typeVars (angled separator args) ↔ ∃ ps ∈ args, id ∈ typeVars ps := by
  rw [typeVars_angled, List.mem_flatMap]

end Piece

/-! ## The pieces of a shape -/

namespace Shape

variable (table : TypeVarTable)

mutual
/-- The text of a shape where it is used, in pieces. -/
def pieces (position : Position) (s : Shape) : Except UnsupportedShape (List Piece) :=
  match s with
  | .primitive p =>
    .ok [.words (if position = .component then p.keyword else p.boxed.sourceName)]
  | .declared name args bounds =>
    if position = .bound ∧ standsForBounds args bounds then
      (piecesAll .nested bounds).map (Piece.separated " & ")
    else
      (piecesAll .argument args).map fun texts => .words name.sourceName :: Piece.angled ", " texts
  | .array component => (component.pieces .component).map (· ++ [.words "[]"])
  | .wildcard =>
    if position = .argument then .ok [.words "?"] else .error ⟨s.canonical table, position⟩
  | .wildcardExtends bound =>
    if position = .argument then (bound.pieces .nested).map (.words "? extends " :: ·)
    else .error ⟨s.canonical table, position⟩
  | .wildcardSuper bound =>
    if position = .argument then (bound.pieces .nested).map (.words "? super " :: ·)
    else .error ⟨s.canonical table, position⟩
  | .typeVar id =>
    match table.get? id with
    | some _ => .ok [.occurrence id]
    | none => .error ⟨s.canonical table, position⟩
  | .void =>
    if position = .whole then .ok [.words "void"] else .error ⟨s.canonical table, position⟩
  | .top => .error ⟨s.canonical table, position⟩
def piecesAll (position : Position) : List Shape → Except UnsupportedShape (List (List Piece))
  | [] => .ok []
  | s :: rest =>
    match s.pieces position with
    | .error e => .error e
    | .ok ps => (piecesAll position rest).map (ps :: ·)
end

end Shape

/-! ## The pieces are what is written -/

namespace Shape

variable (v : Vocabulary)

mutual
/-- **Usage in pieces.**  Where a shape is used, its pieces are written. -/
theorem usage_eq_pieces (position : Position) (s : Shape) :
    s.usage v position = (s.pieces v.table position).map (Piece.text v) := by
  cases s with
  | primitive p => simp [usage, pieces, Except.map, Piece.written]
  | declared name args bounds =>
    unfold usage pieces
    -- in a bound an intersection is its components, elsewhere its name and arguments
    by_cases h : position = .bound ∧ standsForBounds args bounds = true
    · rw [if_pos h, if_pos h, usages_eq_pieces .nested bounds, Except.bind_return, Except.map_map,
        Except.map_map]
      simp only [Piece.text_separated]
    · rw [if_neg h, if_neg h, usages_eq_pieces .argument args, Except.bind_return, Except.map_map,
        Except.map_map]
      simp only [Piece.text_cons, Piece.text_angled, Piece.written]
  | array component =>
    unfold usage pieces
    rw [usage_eq_pieces .component component, Except.bind_return, Except.map_map, Except.map_map]
    simp [Piece.written]
  | wildcard =>
    unfold usage pieces
    by_cases h : position = .argument <;> simp [h, Except.map, Piece.written, unsupported]
  | wildcardExtends bound =>
    unfold usage pieces
    by_cases h : position = .argument
    · rw [if_pos h, if_pos h, usage_eq_pieces .nested bound, Except.bind_return, Except.map_map,
        Except.map_map]
      simp only [Piece.text_cons, Piece.written]
    · simp [h, Except.map, unsupported]
  | wildcardSuper bound =>
    unfold usage pieces
    by_cases h : position = .argument
    · rw [if_pos h, if_pos h, usage_eq_pieces .nested bound, Except.bind_return, Except.map_map,
        Except.map_map]
      simp only [Piece.text_cons, Piece.written]
    · simp [h, Except.map, unsupported]
  | typeVar id =>
    unfold usage pieces
    cases h : v.table.get? id with
    | none => rfl
    | some param => simp [Except.map, Piece.written, Vocabulary.called_of_get? h]
  | void =>
    unfold usage pieces
    by_cases h : position = .whole <;> simp [h, Except.map, Piece.written, unsupported]
  | top => rfl
theorem usages_eq_pieces (position : Position) (shapes : List Shape) :
    usages v position shapes =
      (piecesAll v.table position shapes).map (List.map (Piece.text v)) := by
  cases shapes with
  | nil => rfl
  | cons s rest =>
    unfold usages piecesAll
    rw [usage_eq_pieces position s, usages_eq_pieces position rest]
    cases s.pieces v.table position with
    | error e => rfl
    | ok ps => cases piecesAll v.table position rest <;> rfl
end

/-! ## Every variable that occurs is led to -/

variable {table : TypeVarTable}

theorem leads_of_mem_args {name : ClassName} {args bounds : List Shape} {s t : Shape}
    (hs : s ∈ args ++ bounds) (h : table.Leads s t) :
    table.Leads (.declared name args bounds) t :=
  (TypeVarTable.leads_of_mem_children hs).trans h

mutual
/-- **Occurrences.**  What occurs in the text of a shape, the shape leads to. -/
theorem leads_of_mem_pieces {position : Position} (s : Shape) {ps : List Piece} {id : TypeVarId}
    (h : s.pieces table position = .ok ps) (hid : id ∈ Piece.typeVars ps) :
    table.Leads s (.typeVar id) := by
  unfold pieces at h
  cases s with
  | primitive p =>
    obtain rfl := Except.ok.inj h
    cases hid
  | declared name args bounds =>
    simp only at h
    split at h
    · obtain ⟨pss, hpss, rfl⟩ := Except.map_eq_ok.1 h
      obtain ⟨s, hs, hlead⟩ :=
        leads_of_mem_piecesAll bounds hpss (Piece.mem_typeVars_separated.1 hid)
      exact leads_of_mem_args (List.mem_append_right args hs) hlead
    · obtain ⟨pss, hpss, rfl⟩ := Except.map_eq_ok.1 h
      rw [Piece.typeVars_words] at hid
      obtain ⟨s, hs, hlead⟩ := leads_of_mem_piecesAll args hpss (Piece.mem_typeVars_angled.1 hid)
      exact leads_of_mem_args (List.mem_append_left bounds hs) hlead
  | array component =>
    obtain ⟨qs, hqs, rfl⟩ := Except.map_eq_ok.1 h
    rw [Piece.typeVars_append, Piece.typeVars_words, Piece.typeVars_nil, List.append_nil] at hid
    have hchild : component ∈ (Shape.array component).children := List.mem_singleton_self _
    exact (TypeVarTable.leads_of_mem_children hchild).trans (leads_of_mem_pieces component hqs hid)
  | wildcard =>
    obtain ⟨-, h⟩ := Except.ite_error_eq_ok.1 h
    obtain rfl := Except.ok.inj h
    cases hid
  | wildcardExtends bound | wildcardSuper bound =>
    obtain ⟨-, h⟩ := Except.ite_error_eq_ok.1 h
    obtain ⟨qs, hqs, rfl⟩ := Except.map_eq_ok.1 h
    refine (TypeVarTable.leads_of_mem_children ?_).trans (leads_of_mem_pieces bound hqs hid)
    exact List.mem_singleton_self bound
  | typeVar x =>
    simp only at h
    split at h
    · obtain rfl := Except.ok.inj h
      rw [Piece.typeVars_occurrence, Piece.typeVars_nil, List.mem_singleton] at hid
      rw [hid]
      exact .refl _
    · cases h
  | void =>
    obtain ⟨-, h⟩ := Except.ite_error_eq_ok.1 h
    obtain rfl := Except.ok.inj h
    cases hid
  | top => cases h
theorem leads_of_mem_piecesAll {position : Position} (shapes : List Shape)
    {pss : List (List Piece)} {id : TypeVarId} (h : piecesAll table position shapes = .ok pss)
    (hid : ∃ ps ∈ pss, id ∈ Piece.typeVars ps) : ∃ s ∈ shapes, table.Leads s (.typeVar id) := by
  unfold piecesAll at h
  cases shapes with
  | nil =>
    obtain rfl := Except.ok.inj h
    obtain ⟨ps, hps, -⟩ := hid
    cases hps
  | cons s rest =>
    simp only at h
    split at h
    · cases h
    · next qs hqs =>
      obtain ⟨qss, hqss, rfl⟩ := Except.map_eq_ok.1 h
      obtain ⟨ps, hps, hid⟩ := hid
      rcases List.mem_cons.1 hps with rfl | hps
      · exact ⟨s, List.mem_cons_self, leads_of_mem_pieces s hqs hid⟩
      · obtain ⟨t, ht, hlead⟩ := leads_of_mem_piecesAll rest hqss ⟨ps, hps, hid⟩
        exact ⟨t, List.mem_cons_of_mem s ht, hlead⟩
end

end Shape

/-! ## Declaration clauses -/

namespace TypeParam

/-- The bound that is written in a declaration. -/
def writtenBound (param : TypeParam) : Option Shape :=
  if param.upper.isTop then param.lower.filter (!·.isTop) else some param.upper

/-- The word in front of it. -/
def boundWord (param : TypeParam) : String :=
  if param.upper.isTop then " super " else " extends "

theorem boundClause_eq (v : Vocabulary) (param : TypeParam) :
    param.boundClause v =
      param.writtenBound.elim (.ok "") fun s => (s.usage v .bound).map (param.boundWord ++ ·) := by
  unfold boundClause writtenBound boundWord
  by_cases hu : param.upper.isTop = true
  · rw [if_pos hu, if_pos hu, if_pos hu]
    cases param.lower with
    | none => rfl
    | some lower =>
      by_cases hl : lower.isTop = true
      · simp [hl, Option.filter_some]
      · simp only [hl, Option.filter_some]
        exact Except.bind_return _ _
  · rw [if_neg hu, if_neg hu, if_neg hu]
    exact Except.bind_return _ _

/-- The bound part of a declaration, in pieces. -/
def boundPieces (table : TypeVarTable) (param : TypeParam) :
    Except UnsupportedShape (List Piece) :=
  if param.upper.isTop then
    match param.lower with
    | some lower =>
      if lower.isTop then .ok [] else (lower.pieces table .bound).map (.words " super " :: ·)
    | none => .ok []
  else (param.upper.pieces table .bound).map (.words " extends " :: ·)

theorem boundPieces_eq (table : TypeVarTable) (param : TypeParam) :
    param.boundPieces table =
      param.writtenBound.elim (.ok []) fun s =>
        (s.pieces table .bound).map (.words param.boundWord :: ·) := by
  unfold boundPieces writtenBound boundWord
  by_cases hu : param.upper.isTop = true
  · rw [if_pos hu, if_pos hu, if_pos hu]
    cases param.lower with
    | none => rfl
    | some lower => by_cases hl : lower.isTop = true <;> simp [hl, Option.filter_some]
  · rw [if_neg hu, if_neg hu, if_neg hu]
    rfl

theorem boundClause_eq_pieces (v : Vocabulary) (param : TypeParam) :
    param.boundClause v = (param.boundPieces v.table).map (Piece.text v) := by
  rw [boundClause_eq, boundPieces_eq]
  cases param.writtenBound with
  | none => rfl
  | some s =>
    simp only [Option.elim_some, Shape.usage_eq_pieces, Except.map_map, Piece.text_cons,
      Piece.written]

theorem mem_bounds_of_writtenBound {param : TypeParam} {s : Shape}
    (h : param.writtenBound = some s) : s ∈ param.bounds := by
  unfold writtenBound at h
  split at h
  · obtain ⟨hlower, hl⟩ := Option.filter_eq_some_iff.1 h
    have hs : s.isTop = false := by simpa using hl
    simp [bounds, allBounds, hlower, hs]
  · next hu =>
    obtain rfl := Option.some.inj h
    simp [bounds, allBounds, hu]

/-- What occurs in the bound part comes from a bound that says something. -/
theorem leads_of_mem_boundPieces {table : TypeVarTable} {param : TypeParam} {ps : List Piece}
    {id : TypeVarId} (h : param.boundPieces table = .ok ps) (hid : id ∈ Piece.typeVars ps) :
    ∃ b ∈ param.bounds, table.Leads b (.typeVar id) := by
  rw [boundPieces_eq] at h
  cases hs : param.writtenBound with
  | none =>
    rw [hs] at h
    obtain rfl := Except.ok.inj h
    cases hid
  | some s =>
    rw [hs] at h
    obtain ⟨qs, hqs, rfl⟩ := Except.map_eq_ok.1 h
    exact ⟨s, mem_bounds_of_writtenBound hs, Shape.leads_of_mem_pieces s hqs hid⟩

end TypeParam

/-- The declaration of a variable, with its bound part in pieces. -/
structure Clause where
  id : TypeVarId
  bound : List Piece
  deriving DecidableEq, Repr

namespace Clause

/-- The text of a clause. -/
def text (v : Vocabulary) (c : Clause) : String := v.called c.id ++ Piece.text v c.bound

def ofId (table : TypeVarTable) (id : TypeVarId) : Except UnsupportedShape Clause :=
  match table.get? id with
  | none => .error ⟨(Shape.typeVar id).canonical table, .whole⟩
  | some param => (param.boundPieces table).map fun bound => { id, bound }

def ofIds (table : TypeVarTable) : List TypeVarId → Except UnsupportedShape (List Clause)
  | [] => .ok []
  | id :: rest =>
    match ofId table id with
    | .error e => .error e
    | .ok c => (ofIds table rest).map (c :: ·)

variable {table : TypeVarTable}

theorem id_of_ofId {id : TypeVarId} {c : Clause} (h : ofId table id = .ok c) : c.id = id := by
  unfold ofId at h
  split at h
  · cases h
  · obtain ⟨bound, -, rfl⟩ := Except.map_eq_ok.1 h
    rfl

theorem entry_of_ofId {id : TypeVarId} {c : Clause} (h : ofId table id = .ok c) :
    ∃ param, table.get? id = some param ∧ param.boundPieces table = .ok c.bound := by
  unfold ofId at h
  split at h
  · cases h
  · next param hparam =>
    obtain ⟨bound, hbound, rfl⟩ := Except.map_eq_ok.1 h
    exact ⟨param, hparam, hbound⟩

theorem forall₂_ofIds {ids : List TypeVarId} {cs : List Clause} (h : ofIds table ids = .ok cs) :
    List.Forall₂ (fun id c => ofId table id = .ok c) ids cs := by
  induction ids generalizing cs with
  | nil =>
    obtain rfl := Except.ok.inj h
    exact .nil
  | cons id rest ih =>
    unfold ofIds at h
    split at h
    · cases h
    · next c hc =>
      obtain ⟨others, hothers, rfl⟩ := Except.map_eq_ok.1 h
      exact .cons hc (ih hothers)

theorem ids_of_ofIds {ids : List TypeVarId} {cs : List Clause} (h : ofIds table ids = .ok cs) :
    cs.map id = ids := by
  have hall := forall₂_ofIds h
  clear h
  induction hall with
  | nil => rfl
  | cons hc _ ih => rw [List.map_cons, ih, id_of_ofId hc]

theorem get?_of_mem_ids {ids : List TypeVarId} {cs : List Clause} (h : ofIds table ids = .ok cs)
    {x : TypeVarId} (hx : x ∈ ids) : ∃ param, table.get? x = some param := by
  obtain ⟨c, -, hc⟩ := exists_right_of_forall₂ (forall₂_ofIds h) hx
  obtain ⟨param, hparam, -⟩ := entry_of_ofId hc
  exact ⟨param, hparam⟩

theorem leads_of_mem_bound {ids : List TypeVarId} {cs : List Clause}
    (h : ofIds table ids = .ok cs) {c : Clause} (hc : c ∈ cs) {x : TypeVarId}
    (hx : x ∈ Piece.typeVars c.bound) : table.Leads (.typeVar c.id) (.typeVar x) := by
  obtain ⟨y, -, hy⟩ := exists_left_of_forall₂ (forall₂_ofIds h) hc
  obtain ⟨param, hparam, hbound⟩ := entry_of_ofId hy
  obtain ⟨b, hb, hlead⟩ := TypeParam.leads_of_mem_boundPieces hbound hx
  have hmem : b ∈ table.bounds y := by simpa [TypeVarTable.bounds, hparam] using hb
  rw [id_of_ofId hy]
  exact (TypeVarTable.leads_of_mem_bounds hmem).trans hlead

end Clause

namespace Renderer

/-- A variable that was not declared yet gets its whole clause. -/
theorem declare_eq_clause {r : Renderer} {id : TypeVarId} (h : id ∉ r.declared) :
    (r.declare id).1 = (Clause.ofId r.table id).map (Clause.text r.toVocabulary) := by
  unfold declare Clause.ofId
  cases hid : r.table.get? id with
  | none => rfl
  | some param =>
    simp only [if_neg h, TypeParam.boundClause_eq_pieces, Except.map_map, Clause.text,
      Vocabulary.called_of_get? hid]

theorem toVocabulary_declare (r : Renderer) (id : TypeVarId) :
    (r.declare id).2.toVocabulary = r.toVocabulary := by
  unfold declare
  split
  · rfl
  · split <;> rfl

theorem toVocabulary_declareAll (r : Renderer) (ids : List TypeVarId) :
    (r.declareAll ids).2.toVocabulary = r.toVocabulary := by
  induction ids generalizing r with
  | nil => rfl
  | cons id rest ih =>
    have hstep := r.toVocabulary_declare id
    unfold declareAll
    generalize r.declare id = step at hstep
    obtain ⟨answer, next⟩ := step
    cases answer with
    | error e => exact hstep
    | ok clause => exact (ih next).trans hstep

theorem mem_declared_declare {r : Renderer} {id x : TypeVarId}
    (h : x ∈ (r.declare id).2.declared) : x = id ∨ x ∈ r.declared := by
  unfold declare at h
  split at h
  · exact .inr h
  · split at h
    · exact .inr h
    · exact List.mem_cons.1 h

/-- **Clauses in pieces.**  Distinct variables that were not declared yet get their whole
clauses, and the renderer writes as before. -/
theorem declareAll_eq_clauses {ids : List TypeVarId} {r : Renderer} (hnodup : ids.Nodup)
    (hnew : ∀ id ∈ ids, id ∉ r.declared) :
    (r.declareAll ids).1 = (Clause.ofIds r.table ids).map (List.map (Clause.text r.toVocabulary)) ∧
      (r.declareAll ids).2.toVocabulary = r.toVocabulary := by
  induction ids generalizing r with
  | nil => exact ⟨rfl, rfl⟩
  | cons id rest ih =>
    obtain ⟨hid, hrest⟩ := List.nodup_cons.1 hnodup
    have hclause := declare_eq_clause (hnew id List.mem_cons_self)
    have hvocab := r.toVocabulary_declare id
    -- declaring the first variable adds no other one
    have hlater : ∀ x ∈ rest, x ∉ (r.declare id).2.declared := by
      intro x hx hmem
      rcases mem_declared_declare hmem with rfl | hmem
      · exact hid hx
      · exact hnew x (List.mem_cons_of_mem id hx) hmem
    obtain ⟨htexts, hafter⟩ := ih hrest hlater
    unfold declareAll Clause.ofIds
    generalize r.declare id = step at hclause hvocab htexts hafter
    obtain ⟨answer, next⟩ := step
    simp only at hclause hvocab htexts hafter
    subst hclause
    cases Clause.ofId r.table id with
    | error e => exact ⟨rfl, hvocab⟩
    | ok c =>
      have htable : next.table = r.table := congrArg Vocabulary.table hvocab
      rw [htable, hvocab] at htexts
      simp only [Except.map, htexts, hafter, hvocab]
      refine ⟨?_, trivial⟩
      cases Clause.ofIds r.table rest <;> rfl

end Renderer

end FunctionAdapters
