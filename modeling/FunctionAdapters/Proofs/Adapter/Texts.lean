import FunctionAdapters.Proofs.Adapter.Marks

/-!
# Where the texts of a plan come from

Every type that is written in a plan is a type of the operation or of its class, as it is used; and
every clause ends with the bound of its variable.  `TextsOf` says which text comes from where, and
`textsOf_of_plan` that this is so for every plan.

The types at hand are those that the plan is made for, not those that were found: a constructor
gives back its class (`resultType`), and the arguments of the adapter depend on how the operation is
called (`adapterTypes`).
-/

namespace FunctionAdapters

variable {cls : ClassMetadata} {op : Operation}

namespace ClassMetadata

/-- The type that the adapter of an operation gives back. -/
def resultType (cls : ClassMetadata) (op : Operation) : Shape :=
  if op.kind = .constructor then cls.selfType else op.returnType

/-- The types that the adapter of an operation takes: the class itself for a method that is called
on a receiver, else the parameters unless they come in one array. -/
def inputTypes (cls : ClassMetadata) (op : Operation) : List Shape :=
  if op.kind = .instanceMethod then [cls.selfType]
  else if op.isPositional then [] else op.parameters.map Parameter.type

def adapterTypes (cls : ClassMetadata) (op : Operation) : List Shape :=
  match op.adapterFamily with
  | .action => cls.inputTypes op
  | .func => cls.inputTypes op ++ [cls.resultType op]

/-! ## In pieces -/

variable {m : MarkedPlan}

theorem made_of_marks (h : cls.marks op = .ok m) :
    ∃ owner, cls.selfType.pieces cls.typeVars .whole = .ok owner ∧
      Clause.ofIds cls.typeVars (relevantVars cls.typeVars cls.typeParams op) = .ok m.clauses ∧
      (cls.resultType op).pieces cls.typeVars .whole = .ok m.returnType ∧
      op.markParameters cls.typeVars 0 op.parameters = .ok m.parameters ∧
      m.adapter = op.markedAdapter owner m.returnType m.parameters := by
  unfold marks at h
  obtain ⟨clauses, hclauses, h⟩ := Except.bind_eq_ok.1 h
  obtain ⟨owner, howner, h⟩ := Except.bind_eq_ok.1 h
  unfold resultType
  split at h
  · next hk =>
    obtain ⟨returnType, hreturn, h⟩ := Except.bind_eq_ok.1 h
    obtain ⟨parameters, hparameters, h⟩ := Except.bind_eq_ok.1 h
    obtain rfl := Except.ok.inj hreturn
    obtain rfl := Except.ok.inj h
    rw [if_pos hk]
    exact ⟨_, howner, hclauses, howner, hparameters, rfl⟩
  · next hk =>
    obtain ⟨returnType, hreturn, h⟩ := Except.bind_eq_ok.1 h
    obtain ⟨parameters, hparameters, h⟩ := Except.bind_eq_ok.1 h
    obtain rfl := Except.ok.inj h
    rw [if_neg hk]
    exact ⟨_, howner, hclauses, hreturn, hparameters, rfl⟩

theorem parts_of_marks (h : cls.marks op = .ok m) :
    ∃ owner, cls.selfType.pieces cls.typeVars .whole = .ok owner ∧
      Clause.ofIds cls.typeVars (relevantVars cls.typeVars cls.typeParams op) = .ok m.clauses ∧
      (cls.resultType op).pieces cls.typeVars .whole = .ok m.returnType ∧
      List.Forall₂ (op.Marks cls.typeVars) op.parameters m.parameters ∧
      m.adapter = op.markedAdapter owner m.returnType m.parameters := by
  obtain ⟨owner, howner, hclauses, hreturn, hparameters, hadapter⟩ := made_of_marks h
  exact ⟨owner, howner, hclauses, hreturn, Operation.forall₂_markParameters hparameters, hadapter⟩

theorem forall₂_markedArgs {owner returnType : List Piece} {parameters : List MarkedParameter}
    (howner : cls.selfType.pieces cls.typeVars .whole = .ok owner)
    (hreturn : (cls.resultType op).pieces cls.typeVars .whole = .ok returnType)
    (hparameters : List.Forall₂ (op.Marks cls.typeVars) op.parameters parameters) :
    List.Forall₂ (fun s ps => s.pieces cls.typeVars .whole = .ok ps) (cls.adapterTypes op)
      (op.markedArgs owner returnType parameters) := by
  have hboxed : List.Forall₂ (fun s ps => s.pieces cls.typeVars .whole = .ok ps)
      (op.parameters.map Parameter.type) (parameters.map MarkedParameter.boxedType) := by
    rw [List.forall₂_map_left_iff, List.forall₂_map_right_iff]
    exact hparameters.imp fun _ _ hmarks => hmarks.1
  have hinputs : List.Forall₂ (fun s ps => s.pieces cls.typeVars .whole = .ok ps)
      (cls.inputTypes op)
      (if op.kind = .instanceMethod then [owner]
        else if op.isPositional then [] else parameters.map MarkedParameter.boxedType) := by
    -- the same three cases: the receiver, one array, the parameters
    unfold inputTypes
    split
    · exact .cons howner .nil
    · split
      · exact .nil
      · exact hboxed
  unfold adapterTypes Operation.markedArgs
  cases op.adapterFamily with
  | action => exact hinputs
  | func => exact List.rel_append hinputs (.cons hreturn .nil)

end ClassMetadata

/-! ## In words -/

/-- Which text of a plan comes from where. -/
structure TextsOf (cls : ClassMetadata) (op : Operation) (plan : OperationPlan) : Prop where
  returnType :
    (cls.resultType op).usage (cls.vocabulary op) .whole = .ok plan.returnType
  /-- Each parameter is written as its type is used, unless it keeps a keyword. -/
  parameters :
    List.Forall₂ (fun p rendered =>
        p.type.usage (cls.vocabulary op) .whole = .ok rendered.boxedType ∧
          rendered.type = (op.keptKeyword? p.type).getD rendered.boxedType)
      op.parameters plan.parameters.toList
  adapter : ∃ args,
    List.Forall₂ (fun s text => s.usage (cls.vocabulary op) .whole = .ok text)
        (cls.adapterTypes op) args ∧
      plan.adapter = .ofArgs op.adapterFamily op.adapterArity args
  /-- Each clause is the name of its variable and the bound. -/
  generics :
    List.Forall₂ (fun id clause => ∃ param bound, cls.typeVars.get? id = some param ∧
        param.boundClause (cls.vocabulary op) = .ok bound ∧
        clause = (cls.vocabulary op).write id param ++ bound)
      (relevantVars cls.typeVars cls.typeParams op) plan.generics

theorem Shape.usage_of_pieces {v : Vocabulary} {position : Position} {s : Shape}
    {ps : List Piece} (h : s.pieces v.table position = .ok ps) :
    s.usage v position = .ok (Piece.text v ps) := by
  rw [usage_eq_pieces, h]
  rfl

theorem Clause.text_of_ofId {v : Vocabulary} {id : TypeVarId} {c : Clause}
    (h : ofId v.table id = .ok c) :
    ∃ param bound, v.table.get? id = some param ∧ param.boundClause v = .ok bound ∧
      c.text v = v.write id param ++ bound := by
  obtain ⟨param, hparam, hbound⟩ := entry_of_ofId h
  refine ⟨param, Piece.text v c.bound, hparam, ?_, ?_⟩
  · rw [TypeParam.boundClause_eq_pieces, hbound]
    rfl
  · rw [Clause.text, id_of_ofId h, Vocabulary.called_of_get? hparam]

theorem Operation.Marks.texts {v : Vocabulary} {p : Parameter} {m : MarkedParameter}
    (h : op.Marks v.table p m) :
    p.type.usage v .whole = .ok (m.rendered v).boxedType ∧
      (m.rendered v).type = (op.keptKeyword? p.type).getD (m.rendered v).boxedType := by
  refine ⟨Shape.usage_of_pieces h.1, ?_⟩
  show Piece.text v m.type = _
  rw [h.2]
  cases op.keptKeyword? p.type with
  | none => rfl
  | some keyword => simp [Piece.written]

theorem MarkedPlan.toList_parameters (v : Vocabulary) (op : Operation) (name : String)
    (m : MarkedPlan) :
    (m.plan v op name).parameters.toList = m.parameters.map (MarkedParameter.rendered v) := by
  show ParameterList.toList (if op.isPositional then _ else _) = _
  split <;> rfl

/-- **Texts.**  Whatever is written in a plan comes from where `TextsOf` says. -/
theorem textsOf_of_plan {name : String} {plan : OperationPlan}
    (h : cls.planOperation op name = .ok plan) : TextsOf cls op plan := by
  obtain ⟨m, hm, rfl⟩ := ClassMetadata.planOperation_eq_ok_iff.1 h
  obtain ⟨owner, howner, hclauses, hreturn, hparameters, hadapter⟩ :=
    ClassMetadata.parts_of_marks hm
  refine ⟨Shape.usage_of_pieces hreturn, ?_, ?_, ?_⟩
  · rw [MarkedPlan.toList_parameters, List.forall₂_map_right_iff]
    exact hparameters.imp fun p mp hmarks => hmarks.texts (v := cls.vocabulary op)
  · refine ⟨(op.markedArgs owner m.returnType m.parameters).map (Piece.text (cls.vocabulary op)),
      ?_, ?_⟩
    · rw [List.forall₂_map_right_iff]
      exact (ClassMetadata.forall₂_markedArgs howner hreturn hparameters).imp fun _ _ hps =>
        Shape.usage_of_pieces hps
    · rw [← Operation.adapterArgs_eq_marks, Operation.adapterType_eq_marks, ← hadapter]
      rfl
  · show List.Forall₂ _ _ (m.clauses.map (Clause.text (cls.vocabulary op)))
    rw [List.forall₂_map_right_iff]
    exact (Clause.forall₂_ofIds hclauses).imp fun id c hc =>
      Clause.text_of_ofId (v := cls.vocabulary op) hc

end FunctionAdapters
