import FunctionAdapters.Proofs.Adapter.Scoping
import FunctionAdapters.Proofs.Plan.Groups

/-!
# The class in the texts of its operations

The class over its own variables is written twice: by itself, with the names of a class, and in the
plan of each operation that is not static, with the names of the operation and after the operation's
variables were declared.  The two texts are the same.  What was declared does not matter for usage,
and the variables that a class reaches are numbered first, so that an operation's own variables do
not change their names, whatever they reach in turn (`usage_of_class`).

The main statement is `owner_text_agrees`.
-/

namespace FunctionAdapters

theorem exists_concat_of_forall₂ {α β : Type} {r : α → β → Prop} {as : List α} {a : α}
    {bs : List β} (h : List.Forall₂ r (as ++ [a]) bs) :
    ∃ front b, bs = front ++ [b] ∧ List.Forall₂ r as front ∧ r a b := by
  induction as generalizing bs with
  | nil =>
    obtain ⟨b, rest, hab, hrest, rfl⟩ := List.forall₂_cons_left_iff.1 h
    obtain rfl := List.forall₂_nil_left_iff.1 hrest
    exact ⟨[], b, rfl, .nil, hab⟩
  | cons x as ih =>
    obtain ⟨y, rest, hxy, hrest, rfl⟩ := List.forall₂_cons_left_iff.1 h
    obtain ⟨front, b, rfl, hfront, hab⟩ := ih hrest
    exact ⟨y :: front, b, rfl, .cons hxy hfront, hab⟩

theorem Piece.text_congr {v w : Vocabulary} {ps : List Piece}
    (h : ∀ id ∈ typeVars ps, v.called id = w.called id) : text v ps = text w ps := by
  induction ps with
  | nil => rfl
  | cons p rest ih =>
    cases p with
    | words s =>
      rw [text_cons, text_cons, ih h]
      rfl
    | occurrence id =>
      rw [typeVars_occurrence] at h
      obtain ⟨hid, hrest⟩ := List.forall_mem_cons.1 h
      rw [text_cons, text_cons, ih hrest, written, hid]
      rfl

namespace ClassMetadata

variable {cls : ClassMetadata} {op : Operation} {plan : OperationPlan} {owner name : String}

/-- The words in which a class is written by itself. -/
def ownVocabulary (cls : ClassMetadata) : Vocabulary :=
  ⟨cls.typeVars, .forClass cls.typeVars cls.typeParams⟩

theorem called_of_class (op : Operation) {id : TypeVarId}
    (h : id ∈ cls.typeVars.reachIds cls.typeParams) :
    (cls.vocabulary op).called id = cls.ownVocabulary.called id := by
  obtain ⟨i, hi⟩ := List.mem_iff_getElem?.1 h
  have hop : (cls.vocabulary op).names.get? id = some (TypeVarNames.numberedName .ofClass i) :=
    TypeVarNames.get?_of_class hi
  have hown : cls.ownVocabulary.names.get? id = some (TypeVarNames.numberedName .ofClass i) :=
    TypeVarNames.get?_of_class hi
  show (cls.typeVars.get? id).elim "" ((cls.vocabulary op).write id) =
    (cls.typeVars.get? id).elim "" (cls.ownVocabulary.write id)
  congr 1
  funext param
  rw [Vocabulary.write, Vocabulary.write, hop, hown]

/-- **Types of the class.**  A type that leads to variables of the class only is written the same
in each operation. -/
theorem usage_of_class (op : Operation) (position : Position) {s : Shape}
    (h : ∀ id, cls.typeVars.Leads s (.typeVar id) → id ∈ cls.typeVars.reachIds cls.typeParams) :
    s.usage (cls.vocabulary op) position = s.usage cls.ownVocabulary position := by
  rw [Shape.usage_eq_pieces, Shape.usage_eq_pieces]
  have htable : (cls.vocabulary op).table = cls.ownVocabulary.table := rfl
  rw [htable]
  cases hps : s.pieces cls.ownVocabulary.table position with
  | error e => rfl
  | ok ps =>
    refine congrArg Except.ok (Piece.text_congr fun id hid => ?_)
    exact called_of_class op (h id (Shape.leads_of_mem_pieces s hps hid))

/-- The class is written in an operation as it is by itself, or neither can be done. -/
theorem usage_selfType (cls : ClassMetadata) (op : Operation) :
    cls.selfType.usage (cls.vocabulary op) .whole = cls.ownerType :=
  usage_of_class op .whole fun _ hlead => mem_reachIds_of_selfType hlead

def rendererFor (cls : ClassMetadata) (op : Operation) : Renderer :=
  ((Renderer.start cls.typeVars
    (.forOperation cls.typeVars cls.typeParams op.typeParams)).declareAll
      (relevantVars cls.typeVars cls.typeParams op)).2

theorem rendererFor_usage_selfType (cls : ClassMetadata) (op : Operation) :
    (cls.rendererFor op).usage cls.selfType = cls.ownerType := by
  have hwords : (cls.rendererFor op).toVocabulary = cls.vocabulary op :=
    Renderer.toVocabulary_declareAll _ _
  rw [Renderer.usage, hwords, usage_selfType]

end ClassMetadata

/-! ## Where the class is written -/

/-- The places of the class in the plan of an operation that is not static: a constructor gives it
back, and an instance method takes it. -/
def OwnerPlaced (cls : ClassMetadata) (op : Operation) (owner : String) (plan : OperationPlan) :
    Prop :=
  match op.kind with
  | .constructor => plan.returnType = owner ∧ ∃ inputs,
      List.Forall₂ (fun s text => s.usage (cls.vocabulary op) .whole = .ok text)
        (cls.inputTypes op) inputs ∧
      plan.adapter.text =
        "Func" ++ op.adapterArity.suffix ++ "<" ++ ", ".intercalate (inputs ++ [owner]) ++ ">"
  | .instanceMethod =>
    plan.adapter.text =
      if op.returnsVoid then "Action1<" ++ owner ++ ">"
      else "Func1<" ++ owner ++ ", " ++ plan.returnType ++ ">"
  | .staticMethod => True

theorem angled_eq (separator : String) (texts : List String) :
    angled separator texts =
      if texts = [] then "" else "<" ++ separator.intercalate texts ++ ">" := by
  cases texts <;> rfl

theorem angled_of_ne_nil {separator : String} {texts : List String} (h : texts ≠ []) :
    angled separator texts = "<" ++ separator.intercalate texts ++ ">" := by
  rw [angled_eq, if_neg h]

theorem ownerPlaced_of_texts {cls : ClassMetadata} {op : Operation} {owner : String}
    {plan : OperationPlan} (howner : cls.ownerType = .ok owner) (h : TextsOf cls op plan) :
    OwnerPlaced cls op owner plan := by
  have hself : cls.selfType.usage (cls.vocabulary op) .whole = .ok owner :=
    (cls.usage_selfType op).trans howner
  have hreturn := h.returnType
  obtain ⟨args, hargs, hadapter⟩ := h.adapter
  unfold ClassMetadata.adapterTypes at hargs
  unfold OwnerPlaced
  cases hk : op.kind with
  | staticMethod => trivial
  | constructor =>
    have hfamily : op.adapterFamily = .func := by simp [Operation.adapterFamily, hk]
    have hresult : cls.resultType op = cls.selfType := by simp [ClassMetadata.resultType, hk]
    rw [hfamily, hresult] at hargs
    rw [hresult, hself] at hreturn
    -- the class is the last argument, whatever the constructor takes
    obtain ⟨inputs, last, rfl, hinputs, hlast⟩ := exists_concat_of_forall₂ hargs
    obtain rfl := Except.ok.inj (hself.symm.trans hlast)
    refine ⟨(Except.ok.inj hreturn).symm, inputs, hinputs, ?_⟩
    rw [hadapter, hfamily, AdapterType.ofArgs, angled_of_ne_nil (by simp)]
    simp [AdapterFamily.stem, String.append_assoc]
  | instanceMethod =>
    have hinputs : cls.inputTypes op = [cls.selfType] := by simp [ClassMetadata.inputTypes, hk]
    have hresult : cls.resultType op = op.returnType := by simp [ClassMetadata.resultType, hk]
    have harity : op.adapterArity.suffix = "1" := by
      rw [Operation.adapterArity, if_pos hk]
      decide
    rw [hinputs, hresult] at hargs
    rw [hresult] at hreturn
    by_cases hvoid : op.returnsVoid = true
    · have hfamily : op.adapterFamily = .action := by simp [Operation.adapterFamily, hk, hvoid]
      rw [hfamily] at hargs
      obtain ⟨text, rest, htext, hrest, rfl⟩ := List.forall₂_cons_left_iff.1 hargs
      obtain rfl := List.forall₂_nil_left_iff.1 hrest
      obtain rfl := Except.ok.inj (hself.symm.trans htext)
      rw [if_pos hvoid, hadapter, hfamily, AdapterType.ofArgs, harity, angled_of_ne_nil (by simp)]
      refine String.toList_inj.1 ?_
      simp [AdapterFamily.stem]
    · have hfamily : op.adapterFamily = .func := by simp [Operation.adapterFamily, hk, hvoid]
      rw [hfamily, List.singleton_append] at hargs
      obtain ⟨text, rest, htext, hrest, rfl⟩ := List.forall₂_cons_left_iff.1 hargs
      obtain ⟨result, others, hgiven, hothers, rfl⟩ := List.forall₂_cons_left_iff.1 hrest
      obtain rfl := List.forall₂_nil_left_iff.1 hothers
      obtain rfl := Except.ok.inj (hself.symm.trans htext)
      obtain rfl := Except.ok.inj (hreturn.symm.trans hgiven)
      rw [if_neg hvoid, hadapter, hfamily, AdapterType.ofArgs, harity, angled_of_ne_nil (by simp)]
      refine String.toList_inj.1 ?_
      simp [AdapterFamily.stem]

theorem OwnerPlaced.of_kept {cls : ClassMetadata} {fate : Fate} {owner : String}
    {entry : OperationPlan} (howner : cls.ownerType = .ok owner) (htexted : fate.Texted cls)
    (hkept : fate.kept? = some entry) : OwnerPlaced cls fate.operation owner entry := by
  cases fate with
  | dropped op cause => cases hkept
  | excluded op plan => cases hkept
  | kept op plan =>
    obtain rfl := Option.some.inj hkept
    exact ownerPlaced_of_texts howner (textsOf_of_plan htexted)
  | renamed op plan =>
    obtain rfl := Option.some.inj hkept
    have hplaced : OwnerPlaced cls op owner plan :=
      ownerPlaced_of_texts howner (textsOf_of_plan htexted)
    exact hplaced

/-- **The class is written alike everywhere.**  If a class has a plan, its operations write the class
as the plan does, whatever they declare, and none of them fails to: a planned constructor gives back
the owner type, which is the last type argument of its adapter, and the adapter of a planned
instance method takes the owner type and gives back the return type, if any. -/
theorem owner_text_agrees {cls : ClassMetadata} {options : ClassOptions} {plan : ClassPlan}
    (h : cls.plan options = .ok plan) :
    (∀ op : Operation, (cls.rendererFor op).usage cls.selfType = .ok plan.ownerType) ∧
      ∃ fates, cls.PlannedAs options plan fates ∧ ∀ fate ∈ fates, ∀ entry,
        fate.kept? = some entry → OwnerPlaced cls fate.operation plan.ownerType entry := by
  obtain ⟨fates, hfates⟩ := ClassMetadata.exists_plannedAs h
  obtain ⟨owner, r, howner, -, rfl⟩ := ClassMetadata.plan_eq_ok_iff.1 h
  refine ⟨fun op => (cls.rendererFor_usage_selfType op).trans howner, fates, hfates, ?_⟩
  intro fate hfate entry hentry
  exact .of_kept howner (hfates.meets.texted fate hfate) hentry

/-- The class `Sorted<T extends Comparable<T>>` with the method `insert`. -/
def sortedList : ClassMetadata := { sortedClass with operations := [insertMethod] }

/-- The method declares a variable of its own, which leads to that of the class. -/
theorem sortedList_owner :
    ∃ plan fates, sortedList.plan {} = .ok plan ∧ plan.ownerType = "com.example.Sorted<C0>" ∧
      plan.operations.map (·.adapter.text) = ["Func1<com.example.Sorted<C0>, C0[]>"] ∧
      sortedList.PlannedAs {} plan fates ∧
      ∀ fate ∈ fates, ∀ entry, fate.kept? = some entry →
        OwnerPlaced sortedList fate.operation "com.example.Sorted<C0>" entry := by
  have hplan : (sortedList.plan {}).map (fun plan =>
      (plan.ownerType, plan.operations.map (·.adapter.text))) =
        .ok ("com.example.Sorted<C0>", ["Func1<com.example.Sorted<C0>, C0[]>"]) := by
    rw [ClassMetadata.plan_eq, show canonicalOrder sortedList.typeVars sortedList.operations =
      [insertMethod] from canonicalOrder_singleton _ _]
    with_unfolding_all rfl
  obtain ⟨plan, hplan, htexts⟩ := Except.map_eq_ok.1 hplan
  obtain ⟨howner, hadapters⟩ := Prod.mk.inj htexts
  obtain ⟨-, fates, hfates, hplaced⟩ := owner_text_agrees hplan
  rw [howner] at hplaced
  exact ⟨plan, fates, hplan, howner, hadapters, hfates, hplaced⟩

end FunctionAdapters
