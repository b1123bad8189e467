import FunctionAdapters.Proofs.Adapter.Marks
import FunctionAdapters.Proofs.Parted
import FunctionAdapters.Proofs.Plan.Discovery
import FunctionAdapters.Proofs.Plan.Ending
import FunctionAdapters.Proofs.Plan.Fates

/-!
# A class without the operations that have no text

An operation without a text offers nothing to the resolver, wherever it stands and whatever name it
asks for.  So it can be removed from its class, and only its warning goes with it: what else is
planned, renamed, excluded or fails stays the same.

It is asked for its name nevertheless, before it turns out that it has no text, and if that name is
not found, nothing is planned at all: `chain_without_textless`.  The main statement
`plan_without_textless` says that this is the only way in which such an operation affects others.
-/

namespace FunctionAdapters

namespace ClassMetadata

variable {cls : ClassMetadata} {op : Operation} {ops kept removed : List Operation}

theorem planOperation_eq_error {name : String} {cause : UnsupportedShape}
    (h : cls.planOperation op name = .error cause) (other : String) :
    cls.planOperation op other = .error cause := by
  rw [planOperation_eq_marks, Except.map_eq_error] at h ⊢
  exact h

theorem offers_eq_nil (h : ∀ op ∈ ops, ∃ cause, cls.requestedPlan op = .error cause) :
    cls.offers ops = [] := by
  refine List.filterMap_eq_nil_iff.2 fun op hop => ?_
  obtain ⟨cause, hcause⟩ := h op hop
  simp [offer?, hcause]

theorem forall₂_dropped (h : ∀ op ∈ ops, ∃ cause, cls.requestedPlan op = .error cause) :
    List.Forall₂ (fun op warning => ∃ cause, cls.requestedPlan op = .error cause ∧
      warning = cls.droppedDiagnostic op cause) ops (cls.dropped ops) := by
  induction ops with
  | nil => exact .nil
  | cons op rest ih =>
    obtain ⟨⟨cause, hcause⟩, hrest⟩ := List.forall_mem_cons.1 h
    rw [dropped_cons_of_error rest hcause]
    exact .cons ⟨cause, hcause, rfl⟩ (ih hrest)

theorem offers_of_parted (hparts : Parted ops kept removed)
    (hremoved : ∀ op ∈ removed, ∃ cause, cls.requestedPlan op = .error cause) :
    cls.offers ops = cls.offers kept := by
  have hoffers : Parted (cls.offers ops) (cls.offers kept) (cls.offers removed) :=
    hparts.filterMap cls.offer?
  rw [offers_eq_nil hremoved] at hoffers
  exact hoffers.eq_left

/-- Removing operations without a text takes only their warnings from a plan, and no error. -/
theorem plan_of_parted (hparts : Parted cls.operations kept removed)
    (hremoved : ∀ op ∈ removed, ∃ cause, cls.requestedPlan op = .error cause)
    (options : ClassOptions) :
    (∀ e, cls.plan options = .error e → (cls.withOperations kept).plan options = .error e) ∧
    ∀ plan, cls.plan options = .ok plan → ∃ diagnostics warnings,
      (cls.withOperations kept).plan options = .ok { plan with diagnostics } ∧
      Parted plan.diagnostics diagnostics warnings ∧
      List.Forall₂ (fun op warning => ∃ cause, cls.requestedPlan op = .error cause ∧
        warning = cls.droppedDiagnostic op cause)
        (canonicalOrder cls.typeVars removed) warnings := by
  have hordered := parted_canonicalOrder cls.typeVars hparts
  have htextless : ∀ op ∈ canonicalOrder cls.typeVars removed,
      ∃ cause, cls.requestedPlan op = .error cause :=
    fun op hop => hremoved op (mem_canonicalOrder.1 hop)
  have hdropped := hordered.filterMap cls.warning?
  -- the resolver gets the same offers in both classes, only the warnings differ
  rw [plan_withOperations, plan_eq, offers_of_parted hordered htextless]
  cases cls.ownerType with
  | error cause => exact ⟨fun e h => h, nofun⟩
  | ok owner =>
    dsimp only
    cases (cls.resolver options).pushAll (cls.offers (canonicalOrder cls.typeVars kept)) with
    | error e => exact ⟨fun e h => h, nofun⟩
    | ok r =>
      refine ⟨nofun, fun plan hplan => ?_⟩
      obtain rfl := Except.ok.inj hplan
      exact ⟨_, _, rfl, hdropped.append_left r.diagnostics, forall₂_dropped htextless⟩

/-! ## The names that are asked for -/

/-- A run comes to the same operations, but for those that were removed. -/
theorem parted_reached (hparts : Parted ops kept removed)
    (hremoved : ∀ op ∈ removed, ∃ cause, cls.requestedPlan op = .error cause) (r : Resolver) :
    ∃ skipped, Parted (cls.reached r ops) (cls.reached r kept) skipped ∧ skipped ⊆ removed := by
  induction hparts generalizing r with
  | nil => exact ⟨[], .nil, List.nil_subset []⟩
  | @left op ops kept removed rest ih =>
    cases hreq : cls.requestedPlan op with
    | error cause =>
      obtain ⟨skipped, hparted, hskipped⟩ := ih hremoved r
      rw [reached_cons_of_error ops hreq, reached_cons_of_error kept hreq]
      exact ⟨skipped, .left op hparted, hskipped⟩
    | ok plan =>
      cases hpush : r.push op plan with
      | error e =>
        -- both runs end here
        rw [reached_cons_of_taken ops hreq hpush, reached_cons_of_taken kept hreq hpush]
        exact ⟨[], .left op .nil, List.nil_subset removed⟩
      | ok next =>
        obtain ⟨skipped, hparted, hskipped⟩ := ih hremoved next
        rw [reached_cons_of_push ops hreq hpush, reached_cons_of_push kept hreq hpush]
        exact ⟨skipped, .left op hparted, hskipped⟩
  -- a removed operation has no text, so the longer run goes past it in the same state
  | @right op ops kept removed rest ih =>
    obtain ⟨⟨cause, hreq⟩, hrest⟩ := List.forall_mem_cons.1 hremoved
    obtain ⟨skipped, hparted, hskipped⟩ := ih hrest r
    rw [reached_cons_of_error ops hreq]
    exact ⟨op :: skipped, .right op hparted, List.cons_subset_cons op hskipped⟩

theorem reached_withOperations (r : Resolver) (ops : List Operation) :
    (cls.withOperations kept).reached r ops = cls.reached r ops := by
  induction ops generalizing r with
  | nil => rfl
  | cons op rest ih =>
    have hreq : (cls.withOperations kept).requestedPlan op = cls.requestedPlan op := rfl
    simp only [reached, hreq, ih]

theorem ends_withOperations {options : ClassOptions} :
    (cls.withOperations kept).Ends options ↔ ∀ owner, cls.ownerType = .ok owner →
      ∀ op ∈ cls.reached (cls.resolver options) (canonicalOrder cls.typeVars kept),
        op.NameFound cls.typeVars := by
  rw [Ends, reached_withOperations]
  rfl

/-- Without the operations that have no text planning ends where it did.  Where their names are
found, it ends nowhere else. -/
theorem ends_of_parted (hparts : Parted cls.operations kept removed)
    (hremoved : ∀ op ∈ removed, ∃ cause, cls.requestedPlan op = .error cause)
    (options : ClassOptions) :
    (cls.Ends options → (cls.withOperations kept).Ends options) ∧
    ((∀ op ∈ removed, op.NameFound cls.typeVars) →
      (cls.withOperations kept).Ends options → cls.Ends options) := by
  have hordered := parted_canonicalOrder cls.typeVars hparts
  obtain ⟨skipped, hparted, hskipped⟩ := parted_reached hordered
    (fun op hop => hremoved op (mem_canonicalOrder.1 hop)) (cls.resolver options)
  rw [ends_withOperations]
  constructor
  · intro hends owner howner
    exact (hparted.forall_mem.1 (hends owner howner)).1
  · intro hfound hends owner howner
    refine hparted.forall_mem.2 ⟨hends owner howner, fun op hop => ?_⟩
    exact hfound op (mem_canonicalOrder.1 (hskipped hop))

end ClassMetadata

/-- **Operations without a text hardly affect the others.**  Let some of them be removed from a
class.  If planning the class ends, it ends without them: it fails as before, or gives the same plan
but for their warnings, which are missing, one for each of them, while all other diagnostics stay in
order.  If their names are found, then planning also ends for the class if it ends without them; and
where all names are found, it ends. -/
theorem plan_without_textless {cls : ClassMetadata} {kept removed : List Operation}
    (hparts : Parted cls.operations kept removed)
    (hremoved : ∀ op ∈ removed, ∃ name cause, cls.planOperation op name = .error cause)
    (options : ClassOptions) :
    (∀ e, cls.plan? options = some (.error e) →
      (cls.withOperations kept).plan? options = some (.error e)) ∧
    (∀ plan, cls.plan? options = some (.ok plan) → ∃ diagnostics warnings,
      (cls.withOperations kept).plan? options = some (.ok { plan with diagnostics }) ∧
      Parted plan.diagnostics diagnostics warnings ∧
      List.Forall₂ (fun op warning => ∃ cause, cls.requestedPlan op = .error cause ∧
        warning = cls.droppedDiagnostic op cause)
        (canonicalOrder cls.typeVars removed) warnings) ∧
    ((∀ op ∈ removed, op.NameFound cls.typeVars) →
      (cls.plan? options = none ↔ (cls.withOperations kept).plan? options = none)) ∧
    ((∀ op ∈ cls.operations, op.NameFound cls.typeVars) → cls.plan? options ≠ none) := by
  have htextless : ∀ op ∈ removed, ∃ cause, cls.requestedPlan op = .error cause := by
    intro op hop
    obtain ⟨name, cause, h⟩ := hremoved op hop
    exact ⟨cause, ClassMetadata.planOperation_eq_error h _⟩
  obtain ⟨herror, hplan⟩ := ClassMetadata.plan_of_parted hparts htextless options
  obtain ⟨hkept, hback⟩ := ClassMetadata.ends_of_parted hparts htextless options
  refine ⟨fun e he => ?_, fun plan hp => ?_, fun hfound => ?_, fun hfound => ?_⟩
  · -- a result means that planning ended, and then the total plan is the one compared
    obtain ⟨hends, he⟩ := (ClassMetadata.plan?_eq_some_iff _).1 he
    exact (ClassMetadata.plan?_eq_some_iff _).2 ⟨hkept hends, (herror e he.symm).symm⟩
  · obtain ⟨hends, hp⟩ := (ClassMetadata.plan?_eq_some_iff _).1 hp
    obtain ⟨diagnostics, warnings, hsmaller, hparted, hwarnings⟩ := hplan plan hp.symm
    exact ⟨diagnostics, warnings,
      (ClassMetadata.plan?_eq_some_iff _).2 ⟨hkept hends, hsmaller.symm⟩, hparted, hwarnings⟩
  · rw [ClassMetadata.plan?_eq_none_iff, ClassMetadata.plan?_eq_none_iff]
    exact not_congr ⟨hkept, hback hfound⟩
  · rw [ne_eq, ClassMetadata.plan?_eq_none_iff, not_not]
    exact ClassMetadata.ends_of_nameFound hfound

/-- Without `of(?)`, the overloads `of(int)` and `of(String)` have the names that they had. -/
theorem mixedOverloads_without_textless :
    Parted mixedOverloads.operations
        [overloadOf (.primitive .int), overloadOf (.ofClass ⟨"java.lang", "String"⟩ [])]
        [overloadOf .top] ∧
      (∃ cause, mixedOverloads.planOperation (overloadOf .top) "of" = .error cause) ∧
      ∃ plan diagnostics warning, mixedOverloads.plan? {} = some (.ok plan) ∧
        plan.operations.map OperationPlan.generatedName = ["of", "of$Obj"] ∧
        (mixedOverloads.withOperations
          [overloadOf (.primitive .int), overloadOf (.ofClass ⟨"java.lang", "String"⟩ [])]).plan? {} =
            some (.ok { plan with diagnostics }) ∧
        Parted plan.diagnostics diagnostics [warning] := by
  have hparts : Parted mixedOverloads.operations
      [overloadOf (.primitive .int), overloadOf (.ofClass ⟨"java.lang", "String"⟩ [])]
      [overloadOf .top] := .left _ (.right _ (.left _ .nil))
  have htextless : mixedOverloads.planOperation (overloadOf .top) "of" =
      .error ⟨"java.lang.Object", .whole⟩ := by with_unfolding_all rfl
  have hfound : ∀ op ∈ mixedOverloads.operations, op.NameFound mixedOverloads.typeVars := by
    simp [mixedOverloads, nameFound_overloadOf]
  obtain ⟨plan, htotal, hnames⟩ := plan_mixedOverloads
  have hplan : mixedOverloads.plan? {} = some (.ok plan) := by
    rw [ClassMetadata.plan?_of_nameFound hfound, htotal]
  obtain ⟨-, hall, -⟩ := plan_without_textless hparts
    (List.forall_mem_singleton.2 ⟨"of", _, htextless⟩) {}
  obtain ⟨diagnostics, warnings, hsmaller, hdiagnostics, hwarnings⟩ := hall plan hplan
  rw [canonicalOrder_singleton] at hwarnings
  obtain ⟨warning, rest, -, hrest, rfl⟩ := List.forall₂_cons_left_iff.1 hwarnings
  obtain rfl := List.forall₂_nil_left_iff.1 hrest
  exact ⟨hparts, ⟨_, htextless⟩, plan, diagnostics, warning, hplan, hnames, hsmaller, hdiagnostics⟩

def sizeMethod : Operation := .ofMethod .instanceMethod "size" [] (.primitive .int)

/-- The instance method `link`, without a text because of its second parameter. -/
def textlessLink : Operation := linkMethod [⟨"label", .top⟩]

/-- The method `link` without a text keeps the class from being planned, because its parameter is a
variable over an array of itself; without this method the class is planned. -/
theorem chain_without_textless :
    let chain := chainClass [textlessLink, sizeMethod]
    Parted chain.operations [sizeMethod] [textlessLink] ∧
      (∃ name cause, chain.planOperation textlessLink name = .error cause) ∧
      (∃ plan, (chain.withOperations [sizeMethod]).plan? {} = some (.ok plan)) ∧
      chain.plan? {} = none := by
  intro chain
  have hparts : Parted chain.operations [sizeMethod] [textlessLink] := .right _ (.left _ .nil)
  have htextless : chain.requestedPlan textlessLink = .error ⟨"java.lang.Object", .whole⟩ := by
    with_unfolding_all rfl
  have horder : canonicalOrder chain.typeVars chain.operations = [textlessLink, sizeMethod] :=
    canonicalOrder_of_pairwise _ (by simpa [chain, chainClass] using Operation.keyLE_of_name rfl)
  have howner : chain.ownerType = .ok "com.example.Chain" := by with_unfolding_all rfl
  have hrun : ((chain.resolver {}).pushAll (chain.offers [textlessLink, sizeMethod])).map
      (·.kept.map OperationPlan.generatedName) = .ok ["size"] := by with_unfolding_all rfl
  obtain ⟨plan, hplan, -⟩ := ClassMetadata.names_of_run horder howner hrun
  obtain ⟨-, hsmaller⟩ :=
    ClassMetadata.plan_of_parted hparts (List.forall_mem_singleton.2 ⟨_, htextless⟩) {}
  obtain ⟨diagnostics, -, hsize, -, -⟩ := hsmaller plan hplan
  have hfound : ∀ op ∈ [sizeMethod], op.NameFound chain.typeVars :=
    List.forall_mem_singleton.2 fun _ _ => List.forall_mem_nil _
  refine ⟨hparts, ⟨_, _, htextless⟩, ⟨{ plan with diagnostics }, ?_⟩, ?_⟩
  · have hends : (chain.withOperations [sizeMethod]).plan? {} =
        some ((chain.withOperations [sizeMethod]).plan {}) :=
      ClassMetadata.plan?_of_nameFound hfound
    rw [hends, hsize]
  · -- the method without a text comes first, and its name is looked for before its text
    exact ClassMetadata.plan?_eq_none_of_plan hplan List.mem_cons_self
      (not_nameFound_linkMethod _ _)

end FunctionAdapters
