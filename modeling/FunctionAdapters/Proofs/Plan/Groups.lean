import FunctionAdapters.Proofs.Parted
import FunctionAdapters.Proofs.Plan.Collision
import FunctionAdapters.Proofs.Plan.Discovery

/-!
# One requested name at a time

A resolver holds all names together, those that were asked for and the disambiguated ones.  If no
operation asks for a name with a dollar sign, the operations that ask for one name still see nothing
of the others: what these are kept under is neither the name nor a disambiguation of it.  So the
fates of the operations that ask for one name are fates of these operations alone (`Fates.filter`).
As sorting commutes with filtering, they are also those of a class that has no other operations:
`groups_independent`.
-/

namespace FunctionAdapters

namespace ClassMetadata

variable {cls : ClassMetadata} {options : ClassOptions} {name : String}

/-- The class with those operations only that ask for a name. -/
def group (cls : ClassMetadata) (name : String) : ClassMetadata :=
  cls.withOperations (cls.operations.filter fun op => cls.requestedName op = name)

/-- The fates of the operations that ask for a name. -/
def fatesFor (cls : ClassMetadata) (name : String) (fates : List Fate) : List Fate :=
  fates.filter fun fate => cls.requestedName fate.operation = name

def entriesFor (cls : ClassMetadata) (name : String) (fates : List Fate) : List OperationPlan :=
  (cls.fatesFor name fates).filterMap Fate.kept?

/-- A plan, and which of its entries comes from which operation. -/
structure PlannedAs (cls : ClassMetadata) (options : ClassOptions) (plan : ClassPlan)
    (fates : List Fate) : Prop where
  planned : cls.plan options = .ok plan
  meets : cls.Fates options.policy [] fates
  operations : fates.map Fate.operation = canonicalOrder cls.typeVars cls.operations
  entries : plan.operations = fates.filterMap Fate.kept?

theorem fatesFor_cons_of_asks {fate : Fate} (h : cls.requestedName fate.operation = name)
    (rest : List Fate) : cls.fatesFor name (fate :: rest) = fate :: cls.fatesFor name rest :=
  List.filter_cons_of_pos (by simpa using h)

theorem fatesFor_cons_of_not {fate : Fate} (h : cls.requestedName fate.operation ≠ name)
    (rest : List Fate) : cls.fatesFor name (fate :: rest) = cls.fatesFor name rest :=
  List.filter_cons_of_neg (by simpa using h)

/-! ## What an operation sees of the names that are taken -/

/-- For operations that ask for a name, the same names are taken. -/
structure Agree (name : String) (taken taken' : List String) : Prop where
  asked : name ∈ taken ↔ name ∈ taken'
  disambiguated : ∀ op : Operation, op.disambiguated name ∈ taken ↔ op.disambiguated name ∈ taken'

namespace Agree

variable {taken taken' : List String}

theorem refl (name : String) (taken : List String) : Agree name taken taken :=
  ⟨Iff.rfl, fun _ => Iff.rfl⟩

theorem append (h : Agree name taken taken') (new : String) :
    Agree name (taken ++ [new]) (taken' ++ [new]) := by
  constructor
  · rw [List.mem_append, List.mem_append, h.asked]
  · intro op
    rw [List.mem_append, List.mem_append, h.disambiguated]

theorem append_left (h : Agree name taken taken') {new : String} (hname : name ≠ new)
    (hnew : ∀ op : Operation, op.disambiguated name ≠ new) :
    Agree name (taken ++ [new]) taken' := by
  constructor
  · simp [hname, h.asked]
  · intro op
    simp [hnew op, h.disambiguated]

end Agree

section

variable {taken taken' : List String} {op : Operation}

/-- What an operation that asks for another name is kept under does not matter. -/
theorem Agree.append_other (h : Agree name taken taken')
    (hop : '$' ∉ (cls.requestedName op).toList) (hother : cls.requestedName op ≠ name) :
    Agree name (taken ++ [cls.requestedName op]) taken' := by
  refine h.append_left hother.symm fun b heq => hop ?_
  rw [← heq]
  exact b.dollar_mem_disambiguated name

theorem Agree.append_otherDisambiguated (h : Agree name taken taken') (hname : '$' ∉ name.toList)
    (hop : '$' ∉ (cls.requestedName op).toList) (hother : cls.requestedName op ≠ name) :
    Agree name (taken ++ [op.disambiguated (cls.requestedName op)]) taken' := by
  refine h.append_left (fun heq => hname ?_) fun b heq => hother ?_
  · rw [heq]
    exact op.dollar_mem_disambiguated _
  · exact ((Operation.disambiguated_inj hname hop).1 heq).1.symm

end

/-- **Fates of one name.**  What becomes of the operations that ask for a name is what becomes of
them without the others. -/
theorem Fates.filter {policy : NamingPolicy} {taken : List String} {fates : List Fate}
    (h : cls.Fates policy taken fates) (hname : '$' ∉ name.toList)
    (hfree : cls.DollarFree (fates.map Fate.operation)) {taken' : List String}
    (hagree : Agree name taken taken') : cls.Fates policy taken' (cls.fatesFor name fates) := by
  -- the invariant is that the names which matter to `name` are taken on both sides or on neither
  induction h generalizing taken' with
  | nil => exact .nil
  | @dropped taken fates op cause text rest ih =>
    obtain ⟨-, hrest⟩ := List.forall_mem_cons.1 hfree
    by_cases hasks : cls.requestedName op = name
    · rw [fatesFor_cons_of_asks hasks]
      exact .dropped text (ih hrest hagree)
    · rw [fatesFor_cons_of_not hasks]
      exact ih hrest hagree
  | @kept taken fates op plan text free rest ih =>
    obtain ⟨hop, hrest⟩ := List.forall_mem_cons.1 hfree
    have hplan : plan.generatedName = cls.requestedName op := generatedName_of_planOperation text
    by_cases hasks : cls.requestedName op = name
    · rw [fatesFor_cons_of_asks hasks]
      have hsame : plan.generatedName = name := hplan.trans hasks
      refine .kept text ?_ (ih hrest ?_)
      · rwa [hsame, ← hagree.asked, ← hsame]
      · exact hagree.append plan.generatedName
    · rw [fatesFor_cons_of_not hasks]
      rw [hplan] at ih
      -- the plan is left out here, and the name that it takes is another one
      exact ih hrest (hagree.append_other hop hasks)
  | @renamed taken fates op plan text asked renames free rest ih =>
    obtain ⟨hop, hrest⟩ := List.forall_mem_cons.1 hfree
    have hplan : plan.generatedName = cls.requestedName op := generatedName_of_planOperation text
    by_cases hasks : cls.requestedName op = name
    · rw [fatesFor_cons_of_asks hasks]
      have hsame : plan.generatedName = name := hplan.trans hasks
      refine .renamed text ?_ renames ?_ (ih hrest ?_)
      · rwa [hsame, ← hagree.asked, ← hsame]
      · -- a disambiguated form of `name` is taken by those who ask for `name` only
        rwa [hsame, ← hagree.disambiguated, ← hsame]
      · exact hagree.append (op.disambiguated plan.generatedName)
    · rw [fatesFor_cons_of_not hasks]
      rw [hplan] at ih
      -- the disambiguated form of another name is never a form of this one
      exact ih hrest (hagree.append_otherDisambiguated hname hop hasks)
  | @excluded taken fates op plan text asked excludes rest ih =>
    obtain ⟨-, hrest⟩ := List.forall_mem_cons.1 hfree
    have hplan : plan.generatedName = cls.requestedName op := generatedName_of_planOperation text
    by_cases hasks : cls.requestedName op = name
    · rw [fatesFor_cons_of_asks hasks]
      have hsame : plan.generatedName = name := hplan.trans hasks
      -- an excluded operation takes no name
      refine .excluded text ?_ excludes (ih hrest hagree)
      rwa [hsame, ← hagree.asked, ← hsame]
    · rw [fatesFor_cons_of_not hasks]
      exact ih hrest hagree

/-! ## The class of one name -/

theorem exists_plannedAs {plan : ClassPlan} (h : cls.plan options = .ok plan) :
    ∃ fates, cls.PlannedAs options plan fates := by
  obtain ⟨owner, r, -, hr, rfl⟩ := plan_eq_ok_iff.1 h
  obtain ⟨fates, hfates, hops, hkept, -, -⟩ := fates_of_pushAll hr
  exact ⟨fates, h, hfates, hops, hkept⟩

theorem PlannedAs.fatesFor {plan : ClassPlan} {fates : List Fate}
    (h : cls.PlannedAs options plan fates) (hfree : cls.DollarFree cls.operations)
    (name : String) :
    cls.Fates options.policy [] (cls.fatesFor name fates) ∧
      (cls.fatesFor name fates).map Fate.operation =
        canonicalOrder cls.typeVars (cls.group name).operations := by
  have hordered : cls.DollarFree (fates.map Fate.operation) := by
    intro op hop
    rw [h.operations] at hop
    exact hfree op (mem_canonicalOrder.1 hop)
  constructor
  · by_cases hname : '$' ∈ name.toList
    · -- nobody asks for such a name
      have hnone : cls.fatesFor name fates = [] := by
        refine List.filter_eq_nil_iff.2 fun fate hfate hasks => ?_
        have hop := hordered fate.operation (List.mem_map_of_mem hfate)
        rw [of_decide_eq_true hasks] at hop
        exact hop hname
      rw [hnone]
      exact .nil
    · exact h.meets.filter hname hordered (Agree.refl name [])
  · have hfilter := canonicalOrder_filter cls.typeVars (fun op => cls.requestedName op = name)
      cls.operations
    rw [group, withOperations]
    dsimp only
    rw [hfilter, ← h.operations, List.filter_map]
    rfl

theorem PlannedAs.plan_group {plan : ClassPlan} {fates : List Fate}
    (h : cls.PlannedAs options plan fates) (hfree : cls.DollarFree cls.operations)
    (name : String) :
    ∃ part, (cls.group name).plan options = .ok part ∧
      part.operations = cls.entriesFor name fates := by
  obtain ⟨hmeets, hordered⟩ := h.fatesFor hfree name
  obtain ⟨owner, -, howner, -, -⟩ := plan_eq_ok_iff.1 h.planned
  have hstart : (cls.resolver options).roster.names = [] := rfl
  obtain ⟨r, hrun, hkept⟩ := pushAll_of_fates hmeets (r := cls.resolver options) rfl hstart
  rw [hordered] at hrun
  refine ⟨_, plan_eq_ok_iff.2 ⟨owner, r, howner, hrun, rfl⟩, ?_⟩
  exact hkept

end ClassMetadata

/-- **Overload groups do not interfere.**  If no operation of a class asks for a name with a dollar
sign and the class has a plan, the operations that ask for one name have a plan without the others,
and it has the entries that they have in the plan of the class.  So these entries do not change
either when operations that ask for other names are added or removed. -/
theorem groups_independent {cls : ClassMetadata} {options : ClassOptions} {plan : ClassPlan}
    (hfree : cls.DollarFree cls.operations) (hplan : cls.plan options = .ok plan) :
    ∃ fates, cls.PlannedAs options plan fates ∧ ∀ name,
      (∃ part, (cls.group name).plan options = .ok part ∧
        part.operations = cls.entriesFor name fates) ∧
      ∀ (ops : List Operation) (plan' : ClassPlan) (fates' : List Fate),
        cls.DollarFree ops → (cls.withOperations ops).PlannedAs options plan' fates' →
        (cls.withOperations ops).group name = cls.group name →
          cls.entriesFor name fates' = cls.entriesFor name fates := by
  obtain ⟨fates, hfates⟩ := ClassMetadata.exists_plannedAs hplan
  refine ⟨fates, hfates, fun name => ?_⟩
  obtain ⟨part, hpart, hentries⟩ := hfates.plan_group hfree name
  refine ⟨⟨part, hpart, hentries⟩, fun ops plan' fates' hops hfates' hgroup => ?_⟩
  obtain ⟨part', hpart', hentries'⟩ := hfates'.plan_group hops name
  -- both plans are compared with that of the group, which is the same class
  rw [hgroup] at hpart'
  obtain rfl : part' = part := Except.ok.inj (hpart'.symm.trans hpart)
  exact hentries'.symm.trans hentries

/-- A class with the overloads `of(int)`, `of(String)` and `of(List)`, the second of which is to be
called `make`. -/
def namedOverloads : ClassMetadata :=
  { name := ⟨"com.example", "Util"⟩
    operations := [overloadOf (.primitive .int),
      { overloadOfClass "java.lang" "String" with generatedName := some "make" },
      overloadOfClass "java.util" "List"] }

/-- The overloads that ask for `of` have the entries that they have without the other one. -/
theorem namedOverloads_groups :
    ∃ plan fates part, namedOverloads.PlannedAs {} plan fates ∧
      plan.operations.map OperationPlan.generatedName = ["of", "make", "of$Obj"] ∧
      (namedOverloads.group "of").operations =
        [overloadOf (.primitive .int), overloadOfClass "java.util" "List"] ∧
      (namedOverloads.group "of").plan {} = .ok part ∧
      part.operations = namedOverloads.entriesFor "of" fates := by
  have horder : canonicalOrder namedOverloads.typeVars namedOverloads.operations =
      namedOverloads.operations := by
    refine canonicalOrder_of_pairwise _ ?_
    simp only [namedOverloads, List.pairwise_cons, List.mem_cons, List.not_mem_nil, or_false,
      forall_eq_or_imp, forall_eq, List.Pairwise.nil, and_true, false_implies, implies_true]
    refine ⟨⟨?_, ?_⟩, ?_⟩ <;> exact Operation.keyLE_of_parameterTypes rfl rfl (by decide)
  have howner : namedOverloads.ownerType = .ok "com.example.Util" := by with_unfolding_all rfl
  have hrun : ((namedOverloads.resolver {}).pushAll
      (namedOverloads.offers namedOverloads.operations)).map
        (·.kept.map OperationPlan.generatedName) = .ok ["of", "make", "of$Obj"] := by
    with_unfolding_all rfl
  have hasked : namedOverloads.operations.map namedOverloads.requestedName =
      ["of", "make", "of"] := by with_unfolding_all rfl
  have hfree : namedOverloads.DollarFree namedOverloads.operations := by
    intro op hop
    have hname := List.mem_map_of_mem (f := namedOverloads.requestedName) hop
    rw [hasked] at hname
    have hnames : ∀ name ∈ ["of", "make", "of"], '$' ∉ name.toList := by decide
    exact hnames _ hname
  have hgroup : (namedOverloads.group "of").operations =
      [overloadOf (.primitive .int), overloadOfClass "java.util" "List"] := by
    with_unfolding_all rfl
  obtain ⟨plan, hplan, hnames⟩ := ClassMetadata.names_of_run horder howner hrun
  obtain ⟨fates, hfates, hgroups⟩ := groups_independent hfree hplan
  obtain ⟨⟨part, hpart, hentries⟩, -⟩ := hgroups "of"
  exact ⟨plan, fates, part, hfates, hnames, hgroup, hpart, hentries⟩

end FunctionAdapters
