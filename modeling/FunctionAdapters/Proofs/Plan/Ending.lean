import FunctionAdapters.Proofs.Erasure
import FunctionAdapters.Proofs.Plan.Run

/-!
# When planning ends

A planner looks for the names that operations ask for, one after the other.  An instance method that
would keep its own name is compared with the methods that every class inherits, and for that its
parameters are erased, by a loop that does not end for every shape.  So some names are never found
(`Operation.requestedName?_eq_some_iff`), and a run that comes to one of them does not end.

* `ClassMetadata.reached` — the operations that a run comes to, which are all of them unless one
  fails;
* `ClassMetadata.Ends` — the names of the operations that planning comes to are found;
* `ClassMetadata.plan?_eq_some_iff` — planning ends under this condition and no other, and what it
  gives is the plan with the erasure of every shape.
-/

namespace FunctionAdapters

/-! ## Values under a condition

What is found has a known value, under a known condition. -/

section

variable {α β : Type} {found? : Option α} {value : α} {P : Prop}

theorem map_eq_some_iff_of (h : ∀ a, found? = some a ↔ P ∧ a = value) (f : α → β) (b : β) :
    found?.map f = some b ↔ P ∧ b = f value := by
  rw [Option.map_eq_some_iff]
  constructor
  · rintro ⟨a, ha, rfl⟩
    obtain ⟨hP, rfl⟩ := (h a).1 ha
    exact ⟨hP, rfl⟩
  · rintro ⟨hP, rfl⟩
    exact ⟨value, (h value).2 ⟨hP, rfl⟩, rfl⟩

theorem eq_none_iff_of (h : ∀ a, found? = some a ↔ P ∧ a = value) : found? = none ↔ ¬ P := by
  rw [Option.eq_none_iff_forall_ne_some]
  constructor
  · exact fun hnone hP => hnone value ((h value).2 ⟨hP, rfl⟩)
  · exact fun hP a ha => hP ((h a).1 ha).1

theorem mapM_eq_some_iff_of {f? : α → Option β} {f : α → β} {P : α → Prop}
    (h : ∀ a b, f? a = some b ↔ P a ∧ b = f a) (l : List α) (bs : List β) :
    l.mapM f? = some bs ↔ (∀ a ∈ l, P a) ∧ bs = l.map f := by
  induction l generalizing bs with
  | nil => simp [eq_comm]
  | cons a rest ih =>
    simp only [List.mapM_cons, Option.bind_eq_bind, Option.bind_eq_some_iff, h, ih,
      List.forall_mem_cons, List.map_cons, Option.pure_def, Option.some.injEq]
    constructor
    · rintro ⟨b, ⟨ha, rfl⟩, bs, ⟨hrest, rfl⟩, rfl⟩
      exact ⟨⟨ha, hrest⟩, rfl⟩
    · rintro ⟨⟨ha, hrest⟩, rfl⟩
      exact ⟨f a, ⟨ha, rfl⟩, rest.map f, ⟨hrest, rfl⟩, rfl⟩

end

/-! ## Names that are found -/

namespace Operation

variable {op : Operation} {table : TypeVarTable} {cls : ClassName}

/-- The name that an operation asks for is found: if it is an instance method under its own name, no
variable on the way of a parameter's erasure leads back to itself through an array. -/
def NameFound (op : Operation) (table : TypeVarTable) : Prop :=
  op.kind = .instanceMethod → op.generatedName.getD op.name = op.name →
    ∀ p ∈ op.parameters, table.Founded p.type

theorem nameFound_of_kind_ne (h : op.kind ≠ .instanceMethod) : op.NameFound table :=
  fun hkind => absurd hkind h

theorem erasures?_eq_some_iff (erasures : List String) :
    op.erasures? table = some erasures ↔
      (∀ p ∈ op.parameters, table.Founded p.type) ∧ erasures = op.erasures table :=
  mapM_eq_some_iff_of (fun _ _ => TypeVarTable.erased?_eq_some_iff) op.parameters erasures

theorem clashesWithRoot?_eq_some_iff {name : String} (clashes : Bool) :
    op.clashesWithRoot? table name = some clashes ↔
      (op.isStatic = false → op.name = name → ∀ p ∈ op.parameters, table.Founded p.type) ∧
        clashes = op.clashesWithRoot table name := by
  unfold clashesWithRoot? clashesWithRoot
  cases op.isStatic with
  | true => simp [eq_comm]
  | false =>
    by_cases hown : op.name = name
    · simp only [hown, Bool.false_eq_true, if_false, if_true, decide_true, Bool.true_and,
        forall_const]
      exact map_eq_some_iff_of erasures?_eq_some_iff _ _
    · simp [hown, eq_comm]

/-- **Where a name is found.**  It is the name with the erasure of every shape. -/
theorem requestedName?_eq_some_iff (name : String) :
    op.requestedName? table cls = some name ↔
      op.NameFound table ∧ name = op.requestedName table cls := by
  unfold requestedName? requestedName
  by_cases hkind : op.kind = .constructor
  · have hfound : op.NameFound table := nameFound_of_kind_ne (by simp [hkind])
    simp [hkind, hfound, eq_comm]
  · have hstatic : op.isStatic = false ↔ op.kind = .instanceMethod := by
      unfold isStatic
      cases hk : op.kind <;> simp_all
    rw [if_neg hkind, if_neg hkind, map_eq_some_iff_of clashesWithRoot?_eq_some_iff, hstatic,
      eq_comm (a := op.name)]
    rfl

theorem requestedName?_eq_none_iff :
    op.requestedName? table cls = none ↔ ¬ op.NameFound table :=
  eq_none_iff_of requestedName?_eq_some_iff

end Operation

/-! ## Runs that end -/

namespace ClassMetadata

variable {cls : ClassMetadata} {options : ClassOptions} {op : Operation} {ops : List Operation}

/-- The operations that a run comes to: all of them, or those up to the first whose name cannot be
resolved. -/
def reached (cls : ClassMetadata) (r : Resolver) : List Operation → List Operation
  | [] => []
  | op :: rest =>
    op :: match cls.requestedPlan op with
      | .error _ => cls.reached r rest
      | .ok plan =>
        match r.push op plan with
        | .error _ => []
        | .ok r => cls.reached r rest

section

variable {r r' : Resolver} {plan : OperationPlan} (rest : List Operation)

theorem reached_cons_of_error {cause : UnsupportedShape} (h : cls.requestedPlan op = .error cause) :
    cls.reached r (op :: rest) = op :: cls.reached r rest := by
  rw [reached, h]

theorem reached_cons_of_push (h : cls.requestedPlan op = .ok plan)
    (hpush : r.push op plan = .ok r') :
    cls.reached r (op :: rest) = op :: cls.reached r' rest := by
  rw [reached, h]
  simp only [hpush]

theorem reached_cons_of_taken {e : PlanError} (h : cls.requestedPlan op = .ok plan)
    (hpush : r.push op plan = .error e) : cls.reached r (op :: rest) = [op] := by
  rw [reached, h]
  simp only [hpush]

theorem reached_subset (r : Resolver) (ops : List Operation) : cls.reached r ops ⊆ ops := by
  induction ops generalizing r with
  | nil => exact fun _ h => h
  | cons op rest ih =>
    cases h : cls.requestedPlan op with
    | error cause =>
      rw [reached_cons_of_error rest h]
      exact List.cons_subset_cons op (ih r)
    | ok plan =>
      cases hpush : r.push op plan with
      | error e =>
        rw [reached_cons_of_taken rest h hpush]
        exact List.cons_subset_cons op (List.nil_subset rest)
      | ok r' =>
        rw [reached_cons_of_push rest h hpush]
        exact List.cons_subset_cons op (ih r')

end

theorem reached_of_pushAll {ops : List Operation} {r r' : Resolver}
    (h : r.pushAll (cls.offers ops) = .ok r') : cls.reached r ops = ops := by
  induction ops generalizing r with
  | nil => rfl
  | cons op rest ih =>
    cases hreq : cls.requestedPlan op with
    | error cause =>
      rw [offers_cons_of_error rest hreq] at h
      rw [reached_cons_of_error rest hreq, ih h]
    | ok plan =>
      rw [offers_cons_of_ok rest hreq, Resolver.pushAll] at h
      cases hpush : r.push op plan with
      | error e => simp only [hpush, reduceCtorEq] at h
      | ok next =>
        simp only [hpush] at h
        rw [reached_cons_of_push rest hreq hpush, ih h]

/-- A run that comes to a name that is not found has no result; any other goes as it would with the
erasure of every shape. -/
theorem planAll?_eq_some_iff (ops : List Operation) (state : Planning)
    (run : List PlanEvent × Except PlanError Planning) :
    cls.planAll? state ops = some run ↔
      (∀ op ∈ cls.reached state.resolver ops, op.NameFound cls.typeVars) ∧
        run = cls.planAll state ops := by
  -- the name is looked for before the text, so one that is not found ends the run at once
  induction ops generalizing state run with
  | nil => simp [planAll?, planAll, reached, eq_comm]
  | cons op rest ih =>
    by_cases hfound : op.NameFound cls.typeVars
    · have hname : cls.requestedName? op = some (cls.requestedName op) :=
        (Operation.requestedName?_eq_some_iff _).2 ⟨hfound, rfl⟩
      rw [planAll?, hname, Option.bind_eq_bind, Option.bind_some]
      cases hreq : cls.requestedPlan op with
      | error cause =>
        rw [planNext_of_error hreq, planAll_cons_of_error rest hreq,
          reached_cons_of_error rest hreq, List.forall_mem_cons, and_iff_right hfound]
        exact map_eq_some_iff_of (ih _) _ _
      | ok plan =>
        rw [planNext_of_ok hreq]
        cases hpush : state.resolver.push op plan with
        | error e =>
          -- the run stops with an error and never comes to the operations that are left
          rw [planAll_cons_of_taken rest hreq hpush, reached_cons_of_taken rest hreq hpush,
            List.forall_mem_singleton, and_iff_right hfound]
          exact Option.some_inj.trans eq_comm
        | ok next =>
          rw [planAll_cons_of_push rest hreq hpush, reached_cons_of_push rest hreq hpush,
            List.forall_mem_cons, and_iff_right hfound]
          exact map_eq_some_iff_of (ih _) _ _
    · have hname : cls.requestedName? op = none := Operation.requestedName?_eq_none_iff.2 hfound
      have hreached : op ∈ cls.reached state.resolver (op :: rest) := by
        rw [reached]
        exact List.mem_cons_self
      rw [planAll?, hname]
      exact iff_of_false (Option.some_ne_none run).symm fun h => hfound (h.1 op hreached)

/-- Planning a class ends: the class cannot be written, or the names of the operations that planning
comes to are found. -/
def Ends (cls : ClassMetadata) (options : ClassOptions) : Prop :=
  ∀ owner, cls.ownerType = .ok owner →
    ∀ op ∈ cls.reached (cls.resolver options) (canonicalOrder cls.typeVars cls.operations),
      op.NameFound cls.typeVars

theorem ends_of_nameFound (h : ∀ op ∈ cls.operations, op.NameFound cls.typeVars) :
    cls.Ends options :=
  fun _ _ op hop => h op (mem_canonicalOrder.1 (reached_subset _ _ hop))

theorem planWithEvents?_eq_some_iff (run : List PlanEvent × Except PlanError ClassPlan) :
    cls.planWithEvents? options = some run ↔
      cls.Ends options ∧ run = cls.planWithEvents options := by
  unfold planWithEvents? planWithEvents Ends
  cases cls.ownerType with
  | error cause => simp [eq_comm]
  | ok owner =>
    simp only [Except.ok.injEq, forall_eq']
    exact map_eq_some_iff_of (planAll?_eq_some_iff _ _) _ _

/-- **Where planning ends.**  It ends exactly if the names that it looks for are found, and then with
the plan. -/
theorem plan?_eq_some_iff (result : Except PlanError ClassPlan) :
    cls.plan? options = some result ↔ cls.Ends options ∧ result = cls.plan options :=
  map_eq_some_iff_of planWithEvents?_eq_some_iff _ _

theorem plan?_eq_none_iff : cls.plan? options = none ↔ ¬ cls.Ends options :=
  eq_none_iff_of plan?_eq_some_iff

theorem plan?_of_nameFound (h : ∀ op ∈ cls.operations, op.NameFound cls.typeVars) :
    cls.plan? options = some (cls.plan options) :=
  (plan?_eq_some_iff _).2 ⟨ends_of_nameFound h, rfl⟩

theorem plan?_of_ownerType {cause : UnsupportedShape} (h : cls.ownerType = .error cause) :
    cls.plan? options = some (.error (.ownerType cls.name.qualified cause)) := by
  rw [plan?, planWithEvents?, h]
  rfl

/-- Where no name would be taken, one that is not found is enough for planning not to end. -/
theorem plan?_eq_none_of_plan {plan : ClassPlan} (h : cls.plan options = .ok plan)
    (hop : op ∈ cls.operations) (hname : ¬ op.NameFound cls.typeVars) :
    cls.plan? options = none := by
  obtain ⟨owner, r, howner, hrun, -⟩ := plan_eq_ok_iff.1 h
  rw [plan?_eq_none_iff]
  intro hends
  have hfound := hends owner howner op
  rw [reached_of_pushAll hrun] at hfound
  exact hname (hfound (mem_canonicalOrder.2 hop))

end ClassMetadata

theorem nameFound_overloadOf (type : Shape) (table : TypeVarTable) :
    (overloadOf type).NameFound table := Operation.nameFound_of_kind_ne nofun

/-! ## A class over an array of itself -/

/-- The instance method `link`, with a parameter whose type is the first variable of a table. -/
def linkMethod (more : List Parameter) : Operation :=
  { kind := .instanceMethod
    name := "link"
    parameters := ⟨"next", .typeVar ⟨0⟩⟩ :: more
    typeParams := [⟨0⟩] }

/-- A class with these operations and the variable `T extends T[]`. -/
def chainClass (operations : List Operation) : ClassMetadata :=
  { name := ⟨"com.example", "Chain"⟩
    typeVars := ⟨[⟨"T", .array (.typeVar ⟨0⟩), none⟩]⟩
    operations }

theorem not_nameFound_linkMethod (more : List Parameter) (operations : List Operation) :
    ¬ (linkMethod more).NameFound (chainClass operations).typeVars := by
  intro h
  have hfounded := h rfl rfl ⟨"next", .typeVar ⟨0⟩⟩ List.mem_cons_self
  exact TypeVarTable.not_founded_of_array rfl rfl hfounded

theorem plan?_chainClass_link : (chainClass [linkMethod []]).plan? {} = none := by
  have horder : canonicalOrder (chainClass [linkMethod []]).typeVars
      (chainClass [linkMethod []]).operations = [linkMethod []] := canonicalOrder_singleton _ _
  have howner : (chainClass [linkMethod []]).ownerType = .ok "com.example.Chain" := by
    with_unfolding_all rfl
  have hrun : (((chainClass [linkMethod []]).resolver {}).pushAll
      ((chainClass [linkMethod []]).offers [linkMethod []])).map
        (·.kept.map OperationPlan.generatedName) = .ok ["link"] := by with_unfolding_all rfl
  obtain ⟨plan, hplan, -⟩ := ClassMetadata.names_of_run horder howner hrun
  exact ClassMetadata.plan?_eq_none_of_plan hplan (List.mem_singleton_self _)
    (not_nameFound_linkMethod _ _)

end FunctionAdapters
