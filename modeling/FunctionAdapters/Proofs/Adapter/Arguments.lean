import FunctionAdapters.Proofs.Adapter.Owner
import FunctionAdapters.Proofs.Adapter.Void

/-!
# Parameters and adapters

The parameters of a call keep their order.  Up to nine of them come one by one, more come in one
array (`ParameterAt`).  The adapter counts what it takes, which for a method on a receiver is the
receiver alone (`Operation.takenCount`, `Operation.taken`): such a method may have its parameters in
an array while its adapter takes a fixed number of arguments (`ten_parameters_one_receiver`).

The main statement is `adapter_shape`.
-/

namespace FunctionAdapters

variable {cls : ClassMetadata} {op : Operation} {name : String} {plan : OperationPlan}

/-! ## Parameters -/

theorem Primitive.keyword_ne_boxed (k : Primitive) : k.keyword ≠ k.boxed.sourceName := by
  cases k <;> decide

/-- What a plan says of the parameter at a position.  One that is taken out of the array is boxed;
else it keeps its name and, if its type is a primitive, the keyword. -/
structure ParameterAt (cls : ClassMetadata) (op : Operation) (i : Nat) (p : Parameter)
    (rendered : RenderedParameter) : Prop where
  boxed : p.type.usage (cls.vocabulary op) .whole = .ok rendered.boxedType
  positional : 9 < op.arity →
    rendered.name = "args[" ++ toString i ++ "]" ∧ rendered.type = rendered.boxedType
  named : op.arity ≤ 9 → rendered.name = p.name ∧
    (rendered.type ≠ rendered.boxedType ↔ ∃ k, p.type = .primitive k)
  keyword : op.arity ≤ 9 → ∀ k, p.type = .primitive k → rendered.type = k.keyword

namespace Operation

variable {table : TypeVarTable} {p : Parameter}

theorem isPositional_iff : op.isPositional = true ↔ 9 < op.arity := by
  simp [isPositional, AdapterArity.maxFixed]

theorem not_isPositional_iff : ¬op.isPositional = true ↔ op.arity ≤ 9 := by
  rw [isPositional_iff, Nat.not_lt]

theorem keptKeyword?_eq_some {s : Shape} {keyword : String} :
    op.keptKeyword? s = some keyword ↔
      op.arity ≤ 9 ∧ ∃ k, s = .primitive k ∧ k.keyword = keyword := by
  rw [← not_isPositional_iff]
  cases s <;> simp [keptKeyword?]

theorem name_of_markParameter {index : Nat} {m : MarkedParameter}
    (h : op.markParameter table index p = .ok m) :
    m.name = if op.isPositional then "args[" ++ toString index ++ "]" else p.name := by
  unfold markParameter at h
  obtain ⟨boxed, -, h⟩ := Except.bind_eq_ok.1 h
  split at h
  · next hp =>
    obtain rfl := Except.ok.inj h
    rw [if_pos hp]
  · next hp =>
    obtain ⟨type, -, h⟩ := Except.bind_eq_ok.1 h
    obtain rfl := Except.ok.inj h
    rw [if_neg hp]

theorem getElem?_markParameters {index : Nat} {ps : List Parameter} {ms : List MarkedParameter}
    (h : op.markParameters table index ps = .ok ms) {i : Nat} {m : MarkedParameter}
    (hp : ps[i]? = some p) (hm : ms[i]? = some m) :
    op.markParameter table (index + i) p = .ok m := by
  induction ps generalizing index ms i with
  | nil => simp at hp
  | cons first rest ih =>
    unfold markParameters at h
    obtain ⟨mark, hmark, h⟩ := Except.bind_eq_ok.1 h
    obtain ⟨marks, hmarks, h⟩ := Except.bind_eq_ok.1 h
    obtain rfl := Except.ok.inj h
    cases i with
    | zero =>
      obtain rfl : first = p := by simpa using hp
      obtain rfl : mark = m := by simpa using hm
      exact hmark
    | succ i =>
      rw [show index + (i + 1) = index + 1 + i by omega]
      exact ih hmarks (by simpa using hp) (by simpa using hm)

end Operation

theorem ParameterAt.of_texts {i : Nat} {p : Parameter} {rendered : RenderedParameter}
    (hname : rendered.name = if op.isPositional then "args[" ++ toString i ++ "]" else p.name)
    (hboxed : p.type.usage (cls.vocabulary op) .whole = .ok rendered.boxedType)
    (htype : rendered.type = (op.keptKeyword? p.type).getD rendered.boxedType) :
    ParameterAt cls op i p rendered := by
  have hprimitive : ∀ k, p.type = .primitive k → rendered.boxedType = k.boxed.sourceName := by
    intro k hk
    rw [hk] at hboxed
    exact (Except.ok.inj hboxed).symm
  refine ⟨hboxed, fun hmany => ⟨?_, ?_⟩, fun hfew => ⟨?_, ?_⟩, fun hfew k hk => ?_⟩
  · rw [hname, if_pos (Operation.isPositional_iff.2 hmany)]
  · have hkept : op.keptKeyword? p.type = none := by
      rw [Option.eq_none_iff_forall_ne_some]
      intro keyword hkeyword
      exact absurd hmany (Nat.not_lt.2 (Operation.keptKeyword?_eq_some.1 hkeyword).1)
    rw [htype, hkept]
    rfl
  · rw [hname, if_neg (Operation.not_isPositional_iff.2 hfew)]
  · rw [htype]
    constructor
    · intro hne
      cases hkept : op.keptKeyword? p.type with
      | none => exact absurd (by rw [hkept]; rfl) hne
      | some keyword =>
        obtain ⟨-, k, hk, -⟩ := Operation.keptKeyword?_eq_some.1 hkept
        exact ⟨k, hk⟩
    · rintro ⟨k, hk⟩
      rw [Operation.keptKeyword?_eq_some.2 ⟨hfew, k, hk, rfl⟩, hprimitive k hk]
      exact k.keyword_ne_boxed
  · rw [htype, Operation.keptKeyword?_eq_some.2 ⟨hfew, k, hk, rfl⟩]
    rfl

/-- **One parameter.**  What a plan says of a parameter depends on its position and its type. -/
theorem parameterAt_of_marks {m : MarkedPlan} (h : cls.marks op = .ok m) {i : Nat} {p : Parameter}
    {mark : MarkedParameter} (hp : op.parameters[i]? = some p) (hm : m.parameters[i]? = some mark) :
    ParameterAt cls op i p (mark.rendered (cls.vocabulary op)) := by
  obtain ⟨_, -, -, -, hparameters, -⟩ := ClassMetadata.made_of_marks h
  have hmark : op.markParameter (cls.vocabulary op).table i p = .ok mark := by
    have hmark := Operation.getElem?_markParameters hparameters hp hm
    rwa [Nat.zero_add] at hmark
  obtain ⟨hboxed, htype⟩ := (Operation.marks_of_markParameter hmark).texts
  exact .of_texts (Operation.name_of_markParameter hmark) hboxed htype

/-! ## Adapters -/

namespace Operation

theorem adapterFamily_eq_action :
    op.adapterFamily = .action ↔
      (op.kind = .staticMethod ∨ op.kind = .instanceMethod) ∧ op.returnType = .void := by
  have hvoid : op.returnsVoid = true ↔ op.returnType = .void := by
    rw [returnsVoid]
    cases op.returnType <;> simp [Shape.isVoid]
  unfold adapterFamily
  cases op.kind <;> simp [hvoid]

def takenCount (op : Operation) : String :=
  match op.kind with
  | .instanceMethod => "1"
  | .constructor | .staticMethod => if op.arity ≤ 9 then toString op.arity else "N"

/-- The types of the arguments that an adapter takes, without those that come in an array. -/
def taken (op : Operation) (owner : String) (parameters : List RenderedParameter) : List String :=
  match op.kind with
  | .instanceMethod => [owner]
  | .constructor | .staticMethod =>
    if op.arity ≤ 9 then parameters.map RenderedParameter.boxedType else []

theorem suffix_adapterArity (op : Operation) : op.adapterArity.suffix = op.takenCount := by
  have hcount : (AdapterArity.ofCount op.arity).suffix =
      if op.arity ≤ 9 then toString op.arity else "N" := by
    by_cases hfew : op.arity ≤ 9
    · rw [if_pos hfew, AdapterArity.ofCount, AdapterArity.maxFixed, if_neg (Nat.not_lt.2 hfew)]
      rfl
    · rw [if_neg hfew, AdapterArity.ofCount, AdapterArity.maxFixed, if_pos (Nat.not_le.1 hfew)]
      rfl
  unfold adapterArity takenCount
  cases op.kind with
  | instanceMethod => rfl
  | constructor => exact hcount
  | staticMethod => exact hcount

theorem adapterArgs_eq (op : Operation) (owner returnType : String)
    (parameters : List RenderedParameter) :
    op.adapterArgs owner returnType parameters =
      op.taken owner parameters ++ if op.adapterFamily = .func then [returnType] else [] := by
  have hinputs : (if op.kind = .instanceMethod then [owner]
      else if op.isPositional then [] else parameters.map RenderedParameter.boxedType) =
        op.taken owner parameters := by
    unfold taken
    by_cases hfew : op.arity ≤ 9
    · rw [if_neg (not_isPositional_iff.2 hfew), if_pos hfew]
      cases op.kind <;> rfl
    · rw [if_pos (isPositional_iff.2 (Nat.not_le.1 hfew)), if_neg hfew]
      cases op.kind <;> rfl
  unfold adapterArgs
  rw [hinputs]
  cases op.adapterFamily with
  | action => exact (List.append_nil _).symm
  | func => rfl

end Operation

theorem exists_owner_of_plan (h : cls.planOperation op name = .ok plan) :
    ∃ owner, cls.ownerType = .ok owner ∧
      plan.adapter = .ofArgs op.adapterFamily op.adapterArity
        (op.adapterArgs owner plan.returnType plan.parameters.toList) := by
  obtain ⟨m, hm, rfl⟩ := ClassMetadata.planOperation_eq_ok_iff.1 h
  obtain ⟨owner, howner, -, -, -, hadapter⟩ := ClassMetadata.parts_of_marks hm
  refine ⟨Piece.text (cls.vocabulary op) owner, ?_, ?_⟩
  · rw [← cls.usage_selfType op]
    exact Shape.usage_of_pieces howner
  · show AdapterType.mk _ _ (Piece.text _ m.adapter) = _
    rw [hadapter, MarkedPlan.toList_parameters]
    exact (op.adapterType_eq_marks _ owner m.returnType m.parameters).symm

/-- **Parameters and adapters.**  A plan has the parameters of its operation in order, in one array
if they are more than nine, and says of each what belongs to its position and type.  The adapter is
an action for methods that return `void`.  Its name gives the number of arguments it takes, and it is
applied to their types and, unless it is an action, to the return type, in angle brackets if there
are any. -/
theorem adapter_shape (h : cls.planOperation op name = .ok plan) :
    plan.parameters.toList.length = op.arity ∧
      (plan.parameters.isPositional = true ↔ 9 < op.arity) ∧
      (∀ (i : Nat) (p : Parameter) (rendered : RenderedParameter), op.parameters[i]? = some p →
        plan.parameters.toList[i]? = some rendered → ParameterAt cls op i p rendered) ∧
      (plan.adapter.family = .action ↔
        (op.kind = .staticMethod ∨ op.kind = .instanceMethod) ∧ op.returnType = .void) ∧
      ∃ owner args, cls.ownerType = .ok owner ∧
        (cls.resultType op).usage (cls.vocabulary op) .whole = .ok plan.returnType ∧
        args = op.taken owner plan.parameters.toList ++
          (if plan.adapter.family = .func then [plan.returnType] else []) ∧
        plan.adapter.text =
          (if plan.adapter.family = .action then "Action" else "Func") ++ op.takenCount ++
            (if args = [] then "" else "<" ++ ", ".intercalate args ++ ">") := by
  obtain ⟨owner, howner, hadapter⟩ := exists_owner_of_plan h
  have hfamily : plan.adapter.family = op.adapterFamily := by rw [hadapter]; rfl
  have hreturn := (textsOf_of_plan h).returnType
  obtain ⟨m, hm, rfl⟩ := ClassMetadata.planOperation_eq_ok_iff.1 h
  obtain ⟨-, -, -, -, hmarks, -⟩ := ClassMetadata.parts_of_marks hm
  rw [MarkedPlan.toList_parameters] at hadapter ⊢
  refine ⟨?_, ?_, fun i p rendered hp hrendered => ?_, ?_, owner, _, howner, hreturn, rfl, ?_⟩
  · rw [List.length_map]
    exact hmarks.length_eq.symm
  · rw [← Operation.isPositional_iff]
    -- the form of the list is decided by the same test
    show ParameterList.isPositional (if op.isPositional then _ else _) = true ↔ _
    cases op.isPositional <;> exact Iff.rfl
  · rw [List.getElem?_map, Option.map_eq_some_iff] at hrendered
    obtain ⟨mark, hmark, rfl⟩ := hrendered
    exact parameterAt_of_marks hm hp hmark
  · rw [hfamily]
    exact Operation.adapterFamily_eq_action
  · rw [hfamily, hadapter, AdapterType.ofArgs, Operation.adapterArgs_eq, angled_eq,
      Operation.suffix_adapterArity]
    cases op.adapterFamily <;> rfl

/-- The method `int last(int n, …, int n)` of ten parameters. -/
def lastMethod : Operation :=
  .ofMethod .instanceMethod "last" (List.replicate 10 ⟨"n", .primitive .int⟩) (.primitive .int)

/-- On a receiver, ten parameters come in an array, but the adapter takes the receiver alone. -/
theorem ten_parameters_one_receiver :
    ∃ plan, jobsClass.planOperation lastMethod "last" = .ok plan ∧
      plan.parameters.isPositional = true ∧ plan.adapter.family = .func ∧
      plan.adapter.text = "Func1<com.example.Jobs, Integer>" ∧
      ∃ rendered, plan.parameters.toList[9]? = some rendered ∧ rendered.name = "args[9]" ∧
        rendered.type = rendered.boxedType := by
  have hreturn : (jobsClass.planOperation lastMethod "last").map (·.returnType) =
      .ok "Integer" := by with_unfolding_all rfl
  have howner : jobsClass.ownerType = .ok "com.example.Jobs" := by with_unfolding_all rfl
  obtain ⟨plan, hplan, hreturn⟩ := Except.map_eq_ok.1 hreturn
  obtain ⟨hlength, hpositional, hparameters, hfamily, owner, args, howner', -, rfl, htext⟩ :=
    adapter_shape hplan
  obtain rfl := Except.ok.inj (howner.symm.trans howner')
  have harity : lastMethod.arity = 10 := rfl
  rw [harity] at hlength hpositional
  have hfunc : plan.adapter.family = .func := by
    cases hcase : plan.adapter.family with
    | action => exact absurd (hfamily.1 hcase).2 (by simp [lastMethod, Operation.ofMethod])
    | func => rfl
  rw [hfunc, hreturn] at htext
  have hlt : 9 < plan.parameters.toList.length := by omega
  have hlast : plan.parameters.toList[9]? = some (plan.parameters.toList.get ⟨9, hlt⟩) :=
    List.getElem?_eq_getElem hlt
  have hat := (hparameters 9 _ _ rfl hlast).positional (by decide)
  exact ⟨plan, hplan, hpositional.2 (by decide), hfunc, htext, _, hlast, hat⟩

end FunctionAdapters
