import FunctionAdapters.Proofs.Adapter.Marks
import FunctionAdapters.Proofs.Naming.Disambiguated
import FunctionAdapters.Proofs.Plan.Fates

/-!
# Factories and the methods of the root class

A factory must not have the name and the erased parameters of a method that every class inherits.
None of these names holds a dollar sign or an underscore or starts like the name of a constructor's
factory, so neither disambiguated nor escaped names are among them, and what remains is the check of
the name that an operation asks for.

The check looks at an instance method under its own name only.  An instance method to which another
name was given gets this name as it is, also if it is that of an inherited method with the same
parameters: `given_name_hides_root`.  The main statement `hides_root_iff` says that no other
factory hides an inherited method.
-/

namespace FunctionAdapters

/-! ## The inherited names -/

theorem dollar_not_mem_rootMethods : ∀ m ∈ rootMethods, '$' ∉ m.1.toList := by decide

theorem underscore_not_mem_rootMethods : ∀ m ∈ rootMethods, '_' ∉ m.1.toList := by decide

theorem new_not_prefix_rootMethods : ∀ m ∈ rootMethods, ¬ "new".toList <+: m.1.toList := by decide

namespace Operation

variable {op : Operation} {table : TypeVarTable} {name : String}

/-- Under a name, the factory of an operation hides an inherited method: that of an instance method
has the parameters of the method, other factories have none. -/
def HidesRoot (op : Operation) (table : TypeVarTable) (name : String) : Prop :=
  if op.kind = .instanceMethod then (name, op.erasures table) ∈ rootMethods
  else (name, []) ∈ rootMethods

/-- An instance method to which the name of an inherited method with its parameters was given in
place of its own name. -/
def GivenRootName (op : Operation) (table : TypeVarTable) : Prop :=
  op.kind = .instanceMethod ∧
    ∃ given, op.generatedName = some given ∧ given ≠ op.name ∧
      (given, op.erasures table) ∈ rootMethods

theorem HidesRoot.exists_mem (h : op.HidesRoot table name) : ∃ m ∈ rootMethods, m.1 = name := by
  unfold HidesRoot at h
  split at h <;> exact ⟨_, h, rfl⟩

theorem not_hidesRoot_disambiguated : ¬ op.HidesRoot table (op.disambiguated name) := by
  intro h
  obtain ⟨m, hm, hname⟩ := h.exists_mem
  refine dollar_not_mem_rootMethods m hm ?_
  rw [hname]
  exact op.dollar_mem_disambiguated name

theorem not_hidesRoot_escaped : ¬ op.HidesRoot table (name ++ "_") := by
  intro h
  obtain ⟨m, hm, hname⟩ := h.exists_mem
  refine underscore_not_mem_rootMethods m hm ?_
  rw [hname, String.toList_append]
  exact List.mem_append_right _ (by decide)

theorem not_hidesRoot_constructor : ¬ op.HidesRoot table ("new" ++ name) := by
  intro h
  obtain ⟨m, hm, hname⟩ := h.exists_mem
  refine new_not_prefix_rootMethods m hm ?_
  rw [hname, String.toList_append]
  exact List.prefix_append _ _

/-! ## The name that is asked for -/

/-- The check is right about methods that keep their own name, and about all static ones. -/
theorem clashesWithRoot_iff (hkind : op.kind ≠ .constructor)
    (hown : op.kind = .instanceMethod → op.name = name) :
    op.clashesWithRoot table name = true ↔ op.HidesRoot table name := by
  unfold clashesWithRoot HidesRoot isStatic
  cases hk : op.kind with
  | constructor => exact absurd hk hkind
  | staticMethod => simp
  | instanceMethod => simp [hown hk]

theorem not_hidesRoot_checked (hkind : op.kind ≠ .constructor)
    (hown : op.kind = .instanceMethod → op.name = name) :
    ¬ op.HidesRoot table (if op.clashesWithRoot table name then name ++ "_" else name) := by
  split
  · exact not_hidesRoot_escaped
  · next hclash => rwa [clashesWithRoot_iff hkind hown] at hclash

theorem requestedName_of_given {cls : ClassName} {given : String} (hkind : op.kind = .instanceMethod)
    (hgiven : op.generatedName = some given) (hne : given ≠ op.name) :
    op.requestedName table cls = given := by
  simp [requestedName, hkind, hgiven, clashesWithRoot, isStatic, Ne.symm hne]

/-- **What is asked for.**  The name that an operation asks for hides an inherited method exactly if
it is given such a name in place of its own. -/
theorem hidesRoot_requestedName_iff (cls : ClassName) :
    op.HidesRoot table (op.requestedName table cls) ↔ op.GivenRootName table := by
  by_cases hunchecked : op.kind = .instanceMethod ∧
      ∃ given, op.generatedName = some given ∧ given ≠ op.name
  · obtain ⟨hkind, given, hgiven, hne⟩ := hunchecked
    rw [requestedName_of_given hkind hgiven hne, HidesRoot, if_pos hkind]
    constructor
    · exact fun hmem => ⟨hkind, given, hgiven, hne, hmem⟩
    · rintro ⟨-, given', hgiven', -, hmem⟩
      obtain rfl : given = given' := Option.some.inj (hgiven.symm.trans hgiven')
      exact hmem
  · -- unless another name is given, the name is checked and escaped
    have hnot : ¬ op.GivenRootName table := fun ⟨hkind, given, hgiven, hne, _⟩ =>
      hunchecked ⟨hkind, given, hgiven, hne⟩
    refine iff_of_false ?_ hnot
    unfold requestedName
    split
    · exact not_hidesRoot_constructor
    · next hkind =>
      refine not_hidesRoot_checked hkind fun hinstance => ?_
      -- nothing is given, or the own name is
      cases hgiven : op.generatedName with
      | none => rfl
      | some given =>
        by_contra hne
        exact hunchecked ⟨hinstance, given, hgiven, Ne.symm hne⟩

end Operation

/-! ## The names in a plan -/

namespace ClassMetadata

variable {cls : ClassMetadata}

theorem generatedName_of_kept {fate : Fate} (htext : fate.Texted cls) {p : OperationPlan}
    (hp : p ∈ fate.kept?) :
    p.generatedName = cls.requestedName fate.operation ∨
      p.generatedName = fate.operation.disambiguated (cls.requestedName fate.operation) := by
  cases fate with
  | dropped op cause => cases hp
  | kept op plan =>
    obtain rfl := Option.some.inj hp
    exact .inl (generatedName_of_planOperation htext)
  | renamed op plan =>
    obtain rfl := Option.some.inj hp
    exact .inr (congrArg op.disambiguated (generatedName_of_planOperation htext))
  | excluded op plan => cases hp

end ClassMetadata

/-- **Factories and inherited methods.**  In a plan, the factory of an operation hides a method of
the root class if and only if the operation is an instance method to which the name of that method
was given in place of its own, and it got this name.  So no static method, no constructor, no
renamed overload and no instance method under its own name does. -/
theorem hides_root_iff {cls : ClassMetadata} {options : ClassOptions} {plan : ClassPlan}
    (h : cls.plan options = .ok plan) :
    ∃ fates : List Fate, cls.Fates options.policy [] fates ∧
      fates.map Fate.operation = canonicalOrder cls.typeVars cls.operations ∧
      plan.operations = fates.filterMap Fate.kept? ∧
      ∀ fate ∈ fates, ∀ p ∈ fate.kept?,
        (fate.operation.HidesRoot cls.typeVars p.generatedName ↔
          fate.operation.GivenRootName cls.typeVars ∧
            p.generatedName = cls.requestedName fate.operation) := by
  obtain ⟨owner, r, -, hr, rfl⟩ := ClassMetadata.plan_eq_ok_iff.1 h
  obtain ⟨fates, hfates, hops, hkept, -, -⟩ := ClassMetadata.fates_of_pushAll hr
  refine ⟨fates, hfates, hops, hkept, fun fate hfate p hp => ?_⟩
  have hrequested : fate.operation.HidesRoot cls.typeVars (cls.requestedName fate.operation) ↔
      fate.operation.GivenRootName cls.typeVars :=
    Operation.hidesRoot_requestedName_iff cls.name
  rcases ClassMetadata.generatedName_of_kept (hfates.texted fate hfate) hp with hname | hname
  · rw [hname, hrequested]
    exact (and_iff_left rfl).symm
  · rw [hname]
    refine iff_of_false Operation.not_hidesRoot_disambiguated ?_
    rintro ⟨-, hsame⟩
    exact Operation.disambiguated_ne _ _ hsame

def pointClass (op : Operation) : ClassMetadata :=
  { name := ⟨"com.example", "Point"⟩, operations := [op] }

theorem pointClass_plan (op : Operation) {names : List String}
    (howner : (pointClass op).ownerType = .ok "com.example.Point")
    (hrun : (((pointClass op).resolver {}).pushAll ((pointClass op).offers [op])).map
      (·.kept.map OperationPlan.generatedName) = .ok names) :
    ∃ plan, (pointClass op).plan {} = .ok plan ∧
      plan.operations.map OperationPlan.generatedName = names :=
  ClassMetadata.names_of_run (canonicalOrder_singleton _ op) howner hrun

/-- The method `String toString()`. -/
def toStringMethod : Operation :=
  .ofMethod .instanceMethod "toString" [] (.ofClass ⟨"java.lang", "String"⟩ [])

/-- The factory of `toString` is called otherwise and hides nothing. -/
theorem toString_hides_nothing :
    ∃ plan, (pointClass toStringMethod).plan {} = .ok plan ∧
      plan.operations.map OperationPlan.generatedName = ["toString_"] ∧
      ∀ p ∈ plan.operations,
        ¬ toStringMethod.HidesRoot (pointClass toStringMethod).typeVars p.generatedName := by
  obtain ⟨plan, hplan, hnames⟩ := pointClass_plan toStringMethod
    (by with_unfolding_all rfl) (by with_unfolding_all rfl)
  obtain ⟨fates, -, hops, hkept, hiff⟩ := hides_root_iff hplan
  refine ⟨plan, hplan, hnames, fun p hp hhides => ?_⟩
  rw [hkept] at hp
  obtain ⟨fate, hfate, hp⟩ := List.mem_filterMap.1 hp
  have hop : fate.operation = toStringMethod := by
    have hmem : fate.operation ∈ fates.map Fate.operation := List.mem_map_of_mem hfate
    rw [hops] at hmem
    exact List.mem_singleton.1 ((canonicalOrder_perm _ _).mem_iff.1 hmem)
  have hgiven := ((hiff fate hfate p hp).1 (by rwa [hop])).1
  rw [hop] at hgiven
  obtain ⟨-, given, hgiven, -⟩ := hgiven
  cases hgiven

/-- The method `String describe()`, for which the name `toString` is asked. -/
def describeMethod : Operation :=
  { Operation.ofMethod .instanceMethod "describe" [] (.ofClass ⟨"java.lang", "String"⟩ []) with
    generatedName := some "toString" }

/-- **A given name may hide an inherited method.**  The factory of `describe` is called `toString`
and has no parameters, like the inherited method. -/
theorem given_name_hides_root :
    ∃ plan, (pointClass describeMethod).plan {} = .ok plan ∧
      plan.operations.map OperationPlan.generatedName = ["toString"] ∧
      describeMethod.HidesRoot (pointClass describeMethod).typeVars "toString" := by
  obtain ⟨plan, hplan, hnames⟩ := pointClass_plan describeMethod
    (by with_unfolding_all rfl) (by with_unfolding_all rfl)
  exact ⟨plan, hplan, hnames, (by decide : ("toString", ([] : List String)) ∈ rootMethods)⟩

end FunctionAdapters
