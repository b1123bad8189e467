import FunctionAdapters.Plan.Class
import FunctionAdapters.Proofs.Except
import FunctionAdapters.Proofs.Order
import FunctionAdapters.Proofs.Plan.Resolver

/-!
# The run of a class

Planning walks over the operations of a class once.  What it does falls into two parts that do not
touch each other: the operations without a text become warnings (`dropped`), and the others are
offered, in order, to a resolver (`offers`).  `planAll_result` and `plan_eq` say so; what is
proved about resolvers carries over to classes through them.

The main statement is `generatedNames_nodup`: names are unique after any offers to any resolver,
and so in every plan of a class.
-/

namespace FunctionAdapters

namespace Resolver

variable {r r' : Resolver}

/-- Offers up to the first that fails. -/
def pushAll (r : Resolver) : List (Operation × OperationPlan) → Except PlanError Resolver
  | [] => .ok r
  | offer :: rest =>
    match r.push offer.1 offer.2 with
    | .error e => .error e
    | .ok r => r.pushAll rest

theorem offer_of_push {op : Operation} {plan : OperationPlan} (h : r.push op plan = .ok r') :
    (r.offer op plan).2 = r' := by
  obtain ⟨_, -, hafter⟩ := Except.map_eq_ok.1 h
  exact hafter

theorem settings_of_push {op : Operation} {plan : OperationPlan} (h : r.push op plan = .ok r') :
    r'.cls = r.cls ∧ r'.policy = r.policy := by
  rw [← offer_of_push h]
  exact r.offer_settings op plan

/-- A run without a failure is a run that goes on after failures. -/
theorem offerAll_of_pushAll {offers : List (Operation × OperationPlan)}
    (h : r.pushAll offers = .ok r') : r.offerAll offers = r' := by
  induction offers generalizing r with
  | nil => exact Except.ok.inj h
  | cons offer rest ih =>
    simp only [pushAll] at h
    cases hp : r.push offer.1 offer.2 with
    | error e => rw [hp] at h; cases h
    | ok next =>
      rw [hp] at h
      rw [offerAll_cons, offer_of_push hp]
      exact ih h

end Resolver

namespace ClassMetadata

variable (cls : ClassMetadata)

/-! ## Offers and warnings -/

/-- An operation with its plan, if it has one. -/
def offer? (op : Operation) : Option (Operation × OperationPlan) :=
  match cls.requestedPlan op with
  | .ok plan => some (op, plan)
  | .error _ => none

def warning? (op : Operation) : Option Diagnostic :=
  match cls.requestedPlan op with
  | .ok _ => none
  | .error cause => some (cls.droppedDiagnostic op cause)

/-- What some operations offer to a resolver. -/
def offers (ops : List Operation) : List (Operation × OperationPlan) := ops.filterMap cls.offer?

/-- The warnings about those of some operations that have no plan. -/
def dropped (ops : List Operation) : List Diagnostic := ops.filterMap cls.warning?

variable {cls} in
theorem offer?_eq_some {op : Operation} {offer : Operation × OperationPlan} :
    cls.offer? op = some offer ↔ cls.requestedPlan op = .ok offer.2 ∧ offer.1 = op := by
  obtain ⟨op', plan⟩ := offer
  unfold offer?
  cases cls.requestedPlan op with
  | error cause => simp
  | ok p => simp [and_comm, eq_comm]

section

variable {cls} {op : Operation} (rest : List Operation)

theorem offers_cons_of_error {cause : UnsupportedShape} (h : cls.requestedPlan op = .error cause) :
    cls.offers (op :: rest) = cls.offers rest :=
  List.filterMap_cons_none (by simp [offer?, h])

theorem offers_cons_of_ok {plan : OperationPlan} (h : cls.requestedPlan op = .ok plan) :
    cls.offers (op :: rest) = (op, plan) :: cls.offers rest :=
  List.filterMap_cons_some (by simp [offer?, h])

theorem dropped_cons_of_error {cause : UnsupportedShape} (h : cls.requestedPlan op = .error cause) :
    cls.dropped (op :: rest) = cls.droppedDiagnostic op cause :: cls.dropped rest :=
  List.filterMap_cons_some (by simp [warning?, h])

theorem dropped_cons_of_ok {plan : OperationPlan} (h : cls.requestedPlan op = .ok plan) :
    cls.dropped (op :: rest) = cls.dropped rest :=
  List.filterMap_cons_none (by simp [warning?, h])

end

/-! ## One operation of a run -/

section

variable {cls} {op : Operation} {plan : OperationPlan} {state : Planning} (rest : List Operation)

theorem planNext_of_error {name : String} {cause : UnsupportedShape}
    (h : cls.planOperation op name = .error cause) :
    cls.planNext state op name = ([.dropped op.name cause],
      .ok { state with dropped := state.dropped ++ [cls.droppedDiagnostic op cause] }) := by
  rw [planNext, h]

theorem planNext_of_ok {name : String} (h : cls.planOperation op name = .ok plan) :
    cls.planNext state op name = (state.resolver.events op plan.generatedName,
      (state.resolver.push op plan).map fun resolver => { state with resolver }) := by
  rw [planNext, h]

theorem planAll_cons_of_error {cause : UnsupportedShape}
    (h : cls.requestedPlan op = .error cause) :
    cls.planAll state (op :: rest) =
      let run := cls.planAll
        { state with dropped := state.dropped ++ [cls.droppedDiagnostic op cause] } rest
      (.dropped op.name cause :: run.1, run.2) := by
  rw [planAll, planNext_of_error h]
  rfl

theorem planAll_cons_of_push {resolver : Resolver} (h : cls.requestedPlan op = .ok plan)
    (hpush : state.resolver.push op plan = .ok resolver) :
    cls.planAll state (op :: rest) =
      let run := cls.planAll { state with resolver } rest
      (state.resolver.events op plan.generatedName ++ run.1, run.2) := by
  rw [planAll, planNext_of_ok h, hpush]
  rfl

theorem planAll_cons_of_taken {e : PlanError} (h : cls.requestedPlan op = .ok plan)
    (hpush : state.resolver.push op plan = .error e) :
    cls.planAll state (op :: rest) =
      (state.resolver.events op plan.generatedName, .error e) := by
  rw [planAll, planNext_of_ok h, hpush]
  rfl

end

/-- **The two parts of a run.**  The resolver sees the operations with a plan, the warnings are
those about the others. -/
theorem planAll_result (ops : List Operation) (state : Planning) :
    (cls.planAll state ops).2 = (state.resolver.pushAll (cls.offers ops)).map
      fun resolver => { resolver, dropped := state.dropped ++ cls.dropped ops } := by
  induction ops generalizing state with
  | nil => simp [planAll, offers, dropped, Resolver.pushAll, Except.map]
  | cons op rest ih =>
    cases hreq : cls.requestedPlan op with
    | error cause =>
      rw [planAll_cons_of_error rest hreq, offers_cons_of_error rest hreq,
        dropped_cons_of_error rest hreq]
      simp [ih]
    | ok plan =>
      rw [offers_cons_of_ok rest hreq, dropped_cons_of_ok rest hreq, Resolver.pushAll]
      cases hp : state.resolver.push op plan with
      | error e =>
        rw [planAll_cons_of_taken rest hreq hp]
        simp [Except.map]
      | ok resolver =>
        rw [planAll_cons_of_push rest hreq hp]
        simp [ih]

def resolver (options : ClassOptions) : Resolver :=
  { cls := cls.name.qualified, policy := options.policy }

theorem plan_eq (options : ClassOptions) :
    cls.plan options =
      match cls.ownerType with
      | .error cause => .error (.ownerType cls.name.qualified cause)
      | .ok owner =>
        ((cls.resolver options).pushAll
            (cls.offers (canonicalOrder cls.typeVars cls.operations))).map
          fun resolver => cls.finish options owner
            { resolver, dropped := cls.dropped (canonicalOrder cls.typeVars cls.operations) } := by
  unfold plan planWithEvents
  cases cls.ownerType with
  | error cause => rfl
  | ok owner =>
    have h := cls.planAll_result (canonicalOrder cls.typeVars cls.operations) (cls.start options)
    simp only [start, List.nil_append] at h
    simp only [resolver, start] at h ⊢
    -- from here on only the second part of the run matters
    generalize cls.planAll _ _ = run at h
    obtain ⟨events, result⟩ := run
    simp only at h
    subst h
    cases Resolver.pushAll _ _ <;> rfl

variable {cls} in
/-- What a plan consists of: the class can be written, the resolver takes all offers, and the plan is
what it has then. -/
theorem plan_eq_ok_iff {options : ClassOptions} {plan : ClassPlan} :
    cls.plan options = .ok plan ↔ ∃ owner r, cls.ownerType = .ok owner ∧
      (cls.resolver options).pushAll
        (cls.offers (canonicalOrder cls.typeVars cls.operations)) = .ok r ∧
      cls.finish options owner
        { resolver := r, dropped := cls.dropped (canonicalOrder cls.typeVars cls.operations) } =
        plan := by
  rw [plan_eq]
  cases cls.ownerType with
  | error cause => simp
  | ok owner =>
    simp only [Except.map_eq_ok, Except.ok.injEq]
    constructor
    · rintro ⟨r, hr, hplan⟩
      exact ⟨owner, r, rfl, hr, hplan⟩
    · rintro ⟨_, r, rfl, hr, hplan⟩
      exact ⟨r, hr, hplan⟩

variable {cls} in
theorem names_of_run {options : ClassOptions} {owner : String} {ops : List Operation}
    {names : List String} (horder : canonicalOrder cls.typeVars cls.operations = ops)
    (howner : cls.ownerType = .ok owner)
    (hrun : ((cls.resolver options).pushAll (cls.offers ops)).map
      (·.kept.map OperationPlan.generatedName) = .ok names) :
    ∃ plan, cls.plan options = .ok plan ∧
      plan.operations.map OperationPlan.generatedName = names := by
  obtain ⟨r, hr, hnames⟩ := Except.map_eq_ok.1 hrun
  rw [← horder] at hr
  exact ⟨_, plan_eq_ok_iff.2 ⟨owner, r, howner, hr, rfl⟩, hnames⟩

variable {cls} in
theorem operations_of_plan {options : ClassOptions} {plan : ClassPlan}
    (h : cls.plan options = .ok plan) :
    plan.operations = ((cls.resolver options).offerAll
      (cls.offers (canonicalOrder cls.typeVars cls.operations))).kept := by
  obtain ⟨owner, r, -, hr, rfl⟩ := plan_eq_ok_iff.1 h
  rw [Resolver.offerAll_of_pushAll hr]
  rfl

end ClassMetadata

/-! ## Unique names -/

/-- **Generated names are unique.**  Whatever is offered to a resolver, and also if some offers
fail, the plans that it keeps bear pairwise distinct names; they are the plans of some of the
offers, in order, each under the name it asked for or the disambiguated one.  So the operations in
the plan of a class bear pairwise distinct names. -/
theorem generatedNames_nodup :
    (∀ (cls : String) (policy : NamingPolicy) (offers : List (Operation × OperationPlan)),
      let kept := (({ cls, policy } : Resolver).offerAll offers).kept
      (kept.map OperationPlan.generatedName).Nodup ∧
        ∃ granted, granted.Sublist offers ∧ List.Forall₂ Resolver.Granted granted kept) ∧
    ∀ (cls : ClassMetadata) (options : ClassOptions) (plan : ClassPlan),
      cls.plan options = .ok plan → (plan.operations.map OperationPlan.generatedName).Nodup := by
  constructor
  · intro cls policy offers
    refine ⟨((Resolver.Named.start cls policy).offerAll offers).nodup, ?_⟩
    obtain ⟨granted, new, hsub, hall, hkept⟩ :=
      ({ cls, policy } : Resolver).kept_offerAll offers
    rw [hkept]
    exact ⟨granted, hsub, hall⟩
  · intro cls options plan h
    rw [ClassMetadata.operations_of_plan h]
    exact ((Resolver.Named.start _ _).offerAll _).nodup

/-- The static method `of` with one parameter of this type. -/
def overloadOf (type : Shape) : Operation :=
  .ofMethod .staticMethod "of" [⟨"value", type⟩] .void

theorem requestedName_overloadOf (cls : ClassMetadata) (type : Shape) :
    cls.requestedName (overloadOf type) = "of" := by with_unfolding_all rfl

/-- A class with the overloads `of(int)` and `of(Integer)`. -/
def boxingOverloads : ClassMetadata :=
  { name := ⟨"com.example", "Util"⟩
    operations := [overloadOf (.primitive .int), overloadOf (.ofClass Primitive.int.boxed [])] }

theorem boxingOverloads_key :
    (overloadOf (.primitive .int)).canonicalKey boxingOverloads.typeVars =
      (overloadOf (.ofClass Primitive.int.boxed [])).canonicalKey boxingOverloads.typeVars := by
  with_unfolding_all rfl

theorem plan_boxingOverloads :
    ∃ plan, boxingOverloads.plan {} = .ok plan ∧
      plan.operations.map OperationPlan.generatedName = ["of", "of$Obj"] := by
  have horder : canonicalOrder boxingOverloads.typeVars boxingOverloads.operations =
      boxingOverloads.operations := canonicalOrder_pair _ boxingOverloads_key
  have hnames : (boxingOverloads.plan {}).map (·.operations.map OperationPlan.generatedName) =
      .ok ["of", "of$Obj"] := by
    rw [ClassMetadata.plan_eq, horder]
    with_unfolding_all rfl
  exact Except.map_eq_ok.1 hnames

/-- Both overloads are kept, the second one under another name. -/
theorem boxingOverloads_names :
    ∃ plan, boxingOverloads.plan {} = .ok plan ∧
      plan.operations.map OperationPlan.generatedName = ["of", "of$Obj"] ∧
      (plan.operations.map OperationPlan.generatedName).Nodup := by
  obtain ⟨plan, hplan, hof⟩ := plan_boxingOverloads
  exact ⟨plan, hplan, hof, generatedNames_nodup.2 _ _ _ hplan⟩

end FunctionAdapters
