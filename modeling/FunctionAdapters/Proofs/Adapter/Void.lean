import FunctionAdapters.Proofs.Adapter.Texts
import FunctionAdapters.Proofs.Signature.Parts

/-!
# Where a plan writes `void`

A plan writes types at four kinds of places (`PlanPlace`), and whatever is written there may contain
further types.  `void_places` says where `void` can be among them: never inside another type, only
as a whole result or as a whole parameter.

Parameters and results are whole types alike, and writing does not tell them apart.  So an operation
with a parameter of type `void` has a plan, with an adapter that is applied to `void`
(`void_parameter_planned`).
-/

namespace FunctionAdapters

/-- Where in a plan a type is written. -/
inductive PlanPlace where
  | result
  | parameter (index : Nat)
  /-- A type argument of the adapter. -/
  | argument (index : Nat)
  /-- The bound of a variable in its clause. -/
  | bound (id : TypeVarId)
  deriving DecidableEq, Repr

namespace ClassMetadata

/-- What a plan of an operation writes at a place. -/
inductive Writes (cls : ClassMetadata) (op : Operation) : PlanPlace → Placed → Prop where
  | result : Writes cls op .result ⟨.whole, cls.resultType op⟩
  | parameter {i : Nat} {p : Parameter} (hp : op.parameters[i]? = some p) :
      Writes cls op (.parameter i) ⟨.whole, p.type⟩
  | argument {i : Nat} {s : Shape} (hs : (cls.adapterTypes op)[i]? = some s) :
      Writes cls op (.argument i) ⟨.whole, s⟩
  | bound {id : TypeVarId} {param : TypeParam} {s : Shape}
      (hid : id ∈ relevantVars cls.typeVars cls.typeParams op)
      (hparam : cls.typeVars.get? id = some param) (hs : param.writtenBound = some s) :
      Writes cls op (.bound id) ⟨.bound, s⟩

end ClassMetadata

variable {cls : ClassMetadata} {op : Operation} {place : PlanPlace} {root x : Placed}

theorem TextsOf.text_of_writes {plan : OperationPlan} (h : TextsOf cls op plan)
    (hroot : cls.Writes op place root) : ∃ text, root.text (cls.vocabulary op) = .ok text := by
  cases hroot with
  | result => exact ⟨_, h.returnType⟩
  | parameter hp =>
    obtain ⟨rendered, -, husage, -⟩ := exists_right_of_forall₂ h.parameters (List.mem_of_getElem? hp)
    exact ⟨_, husage⟩
  | argument hs =>
    obtain ⟨args, hargs, -⟩ := h.adapter
    obtain ⟨text, -, husage⟩ := exists_right_of_forall₂ hargs (List.mem_of_getElem? hs)
    exact ⟨text, husage⟩
  | @bound id param s hid hparam hs =>
    obtain ⟨_, -, _, bound, hsame, hbound, -⟩ := exists_right_of_forall₂ h.generics hid
    obtain rfl := Option.some.inj (hparam.symm.trans hsame)
    rw [TypeParam.boundClause_eq, hs] at hbound
    obtain ⟨text, htext, -⟩ := Except.map_eq_ok.1 hbound
    exact ⟨text, htext⟩

/-! ## Which whole types are `void` -/

/-- A result is `void` if a method returns it; the result of a constructor is its class. -/
theorem resultType_eq_void_iff :
    cls.resultType op = .void ↔ op.kind ≠ .constructor ∧ op.returnType = .void := by
  unfold ClassMetadata.resultType
  by_cases hk : op.kind = .constructor
  · simp [hk, ClassMetadata.selfType, Shape.ofClass]
  · simp [hk]

theorem resultType_ne_void_of_func (h : op.adapterFamily = .func) : cls.resultType op ≠ .void := by
  intro hvoid
  obtain ⟨hk, hreturn⟩ := resultType_eq_void_iff.1 hvoid
  simp [Operation.adapterFamily, Operation.returnsVoid, hk, hreturn, Shape.isVoid] at h

theorem parameter_of_inputType_void {i : Nat} (h : (cls.inputTypes op)[i]? = some .void) :
    ∃ p, op.parameters[i]? = some p ∧ p.type = .void := by
  unfold ClassMetadata.inputTypes at h
  split at h
  · have hself : Shape.void = cls.selfType := List.mem_singleton.1 (List.mem_of_getElem? h)
    cases hself
  · split at h
    · cases h
    · rwa [List.getElem?_map, Option.map_eq_some_iff] at h

theorem parameter_of_adapterType_void {i : Nat} (h : (cls.adapterTypes op)[i]? = some .void) :
    ∃ p, op.parameters[i]? = some p ∧ p.type = .void := by
  unfold ClassMetadata.adapterTypes at h
  cases hfamily : op.adapterFamily with
  | action =>
    rw [hfamily] at h
    exact parameter_of_inputType_void h
  | func =>
    simp only [hfamily, List.getElem?_append] at h
    split at h
    · exact parameter_of_inputType_void h
    · have hresult : Shape.void = cls.resultType op :=
        List.mem_singleton.1 (List.mem_of_getElem? h)
      exact absurd hresult.symm (resultType_ne_void_of_func hfamily)

theorem ClassMetadata.Writes.void_whole (hroot : cls.Writes op place root)
    (hvoid : root.shape = .void) (hwhole : root.position = .whole) :
    place = .result ∧ op.kind ≠ .constructor ∧ op.returnType = .void ∨
      ∃ i p, op.parameters[i]? = some p ∧ p.type = .void ∧
        (place = .parameter i ∨ place = .argument i) := by
  cases hroot with
  | result => exact .inl ⟨rfl, resultType_eq_void_iff.1 hvoid⟩
  | @parameter i p hp => exact .inr ⟨i, p, hp, hvoid, .inl rfl⟩
  | @argument i s hs =>
    obtain rfl : s = .void := hvoid
    obtain ⟨p, hp, hpvoid⟩ := parameter_of_adapterType_void hs
    exact .inr ⟨i, p, hp, hpvoid, .inr rfl⟩
  | bound => cases hwhole

/-- **Where `void` is written.**  Whatever a plan contains that is `void` is a whole type: the
result of a method that returns nothing, or a parameter whose type is `void`, in the list of
parameters or among the arguments of the adapter.  It is the result alone, if and only if no
parameter is of type `void`. -/
theorem void_places {name : String} {plan : OperationPlan}
    (h : cls.planOperation op name = .ok plan) :
    TextsOf cls op plan ∧
      (∀ place root x, cls.Writes op place root → root.Contains x → x.shape = .void →
        x = root ∧
          (place = .result ∧ op.kind ≠ .constructor ∧ op.returnType = .void ∨
            ∃ i p, op.parameters[i]? = some p ∧ p.type = .void ∧
              (place = .parameter i ∨ place = .argument i))) ∧
      ((∀ place root x, cls.Writes op place root → root.Contains x → x.shape = .void →
          place = .result) ↔
        ∀ p ∈ op.parameters, p.type ≠ .void) := by
  have htexts := textsOf_of_plan h
  have hplaces : ∀ place root x, cls.Writes op place root → root.Contains x → x.shape = .void →
      x = root ∧
        (place = .result ∧ op.kind ≠ .constructor ∧ op.returnType = .void ∨
          ∃ i p, op.parameters[i]? = some p ∧ p.type = .void ∧
            (place = .parameter i ∨ place = .argument i)) := by
    intro place root x hroot hx hvoid
    obtain ⟨text, htext⟩ := htexts.text_of_writes hroot
    obtain ⟨rfl, hwhole⟩ := Placed.eq_of_contains_void htext hx hvoid
    exact ⟨rfl, hroot.void_whole hvoid hwhole⟩
  refine ⟨htexts, hplaces, fun hresult p hp hvoid => ?_, fun hnone place root x hroot hx hvoid => ?_⟩
  · -- the type of the parameter is itself such a place
    obtain ⟨i, hi⟩ := List.getElem?_of_mem hp
    have hplace := hresult _ _ _ (.parameter hi) .refl hvoid
    cases hplace
  · rcases (hplaces place root x hroot hx hvoid).2 with ⟨hplace, -⟩ | ⟨i, p, hp, hpvoid, -⟩
    · exact hplace
    · exact absurd hpvoid (hnone p (List.mem_of_getElem? hp))

/-! ### Two static methods -/

def jobsClass : ClassMetadata := { name := ⟨"com.example", "Jobs"⟩ }

/-- The method `static void run(int[] ids)`. -/
def runMethod : Operation :=
  .ofMethod .staticMethod "run" [⟨"ids", .array (.primitive .int)⟩] .void

/-- A method that returns nothing writes `void` as its result, and nowhere else. -/
theorem void_result_only :
    ∃ plan, jobsClass.planOperation runMethod "run" = .ok plan ∧ plan.returnType = "void" ∧
      plan.adapter.text = "Action1<int[]>" ∧
      ∀ place root x, jobsClass.Writes runMethod place root → root.Contains x →
        x.shape = .void → place = .result := by
  have hplan : (jobsClass.planOperation runMethod "run").map
      (fun plan => (plan.returnType, plan.adapter.text)) = .ok ("void", "Action1<int[]>") := by
    with_unfolding_all rfl
  obtain ⟨plan, hplan, htexts⟩ := Except.map_eq_ok.1 hplan
  obtain ⟨hreturn, hadapter⟩ := Prod.mk.inj htexts
  obtain ⟨-, -, hresult⟩ := void_places hplan
  refine ⟨plan, hplan, hreturn, hadapter, hresult.2 ?_⟩
  simp [runMethod, Operation.ofMethod]

/-- The method `static void ignore(void nothing)`, which no source can declare. -/
def ignoreMethod : Operation :=
  .ofMethod .staticMethod "ignore" [⟨"nothing", .void⟩] .void

/-- **A parameter may be `void`.**  A method with such a parameter gets a plan, and the adapter is
applied to `void`. -/
theorem void_parameter_planned :
    (∃ p ∈ ignoreMethod.parameters, p.type = .void) ∧
      (jobsClass.planOperation ignoreMethod "ignore").map
          (fun plan => (plan.parameters, plan.adapter.text)) =
        .ok (.named [⟨"nothing", "void", "void"⟩], "Action1<void>") := by
  refine ⟨⟨⟨"nothing", .void⟩, ?_, rfl⟩, by with_unfolding_all rfl⟩
  exact List.mem_singleton_self _

end FunctionAdapters
