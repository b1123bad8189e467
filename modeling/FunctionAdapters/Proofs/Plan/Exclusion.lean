import FunctionAdapters.Proofs.Plan.Collision
import FunctionAdapters.Proofs.Plan.Ending

/-!
# What exclusion keeps

A resolver that excludes never fails and never renames: of the offers that ask for one name it keeps
the first (`pushAll_of_exclude`).  So a class fails only if it cannot be written itself, which is
when one of its parameters has no entry in the table (`ownerType_eq_error_iff`), and its plan has the
first operation for each name that is asked for.  As nothing stops it, it comes to every operation,
and ends only if the names of all are found.  The main statement is `exclude_keeps_first`.
-/

namespace FunctionAdapters

/-! ## The first of each name -/

/-- Of the elements with one value the first, in order. -/
def firstBy {α β : Type} [DecidableEq β] (f : α → β) : List α → List α
  | [] => []
  | x :: rest => x :: (firstBy f rest).filter fun y => f y ≠ f x

section

variable {α β γ : Type} [DecidableEq β] {f : α → β}

theorem firstBy_sublist (f : α → β) (l : List α) : (firstBy f l).Sublist l := by
  induction l with
  | nil => exact .slnil
  | cons x rest ih => exact (List.filter_sublist.trans ih).cons_cons x

theorem firstBy_map (g : γ → α) (l : List γ) :
    (firstBy (fun x => f (g x)) l).map g = firstBy f (l.map g) := by
  induction l with
  | nil => rfl
  | cons x rest ih =>
    rw [firstBy, List.map_cons, List.map_cons, firstBy, ← ih, List.filter_map]
    rfl

theorem firstBy_congr {g : α → β} {l : List α} (h : ∀ x ∈ l, f x = g x) :
    firstBy f l = firstBy g l := by
  induction l with
  | nil => rfl
  | cons x rest ih =>
    obtain ⟨hx, hrest⟩ := List.forall_mem_cons.1 h
    rw [firstBy, firstBy, ih hrest, hx]
    congr 1
    refine List.filter_congr fun y hy => ?_
    rw [hrest y ((firstBy_sublist g rest).subset hy)]

end

/-! ## The run -/

namespace Resolver

variable {r : Resolver}

/-- **The whole run.**  A resolver that excludes keeps, of the offers that ask for one name, the
first, unless it had the name before. -/
theorem pushAll_of_exclude (hpolicy : r.policy = .exclude)
    (offers : List (Operation × OperationPlan)) :
    ∃ r', r.pushAll offers = .ok r' ∧
      r'.kept = r.kept ++ ((firstBy (fun o => o.2.generatedName) offers).filter
        fun o => o.2.generatedName ∉ r.roster.names).map Prod.snd := by
  induction offers generalizing r with
  | nil => exact ⟨r, rfl, by simp [firstBy]⟩
  | cons offer rest ih =>
    obtain ⟨op, plan⟩ := offer
    by_cases hasked : plan.generatedName ∈ r.roster.names
    · obtain ⟨next, hpush, hsettings, hroster⟩ := push_of_exclude op hpolicy hasked
      have hstep : next.kept = r.kept := congrArg Roster.plans hroster
      obtain ⟨r', hrun, hkept⟩ := ih (hsettings.trans hpolicy)
      refine ⟨r', by simp only [pushAll, hpush, hrun], ?_⟩
      -- later offers under this name are held back by both filters
      rw [hkept, hstep, hroster, firstBy, List.filter_cons, if_neg (by simpa using hasked),
        List.filter_filter]
      congr 2
      refine List.filter_congr fun o _ => ?_
      grind
    · obtain ⟨next, hpush, hsettings, hnames, hstep⟩ := push_of_free op hasked
      obtain ⟨r', hrun, hkept⟩ := ih (hsettings.trans hpolicy)
      refine ⟨r', by simp only [pushAll, hpush, hrun], ?_⟩
      rw [hkept, hstep, hnames, firstBy, List.filter_cons, if_pos (by simpa using hasked),
        List.filter_filter, List.map_cons, List.append_assoc, List.singleton_append]
      congr 3
      refine List.filter_congr fun o _ => ?_
      grind

end Resolver

/-! ## When a class cannot be written -/

theorem Shape.usages_typeVars_eq_error_iff {v : Vocabulary} {position : Position}
    {ids : List TypeVarId} :
    (∃ cause, usages v position (ids.map .typeVar) = .error cause) ↔
      ∃ id ∈ ids, v.table.get? id = none := by
  induction ids with
  | nil => simp [usages]
  | cons id rest ih =>
    rw [List.map_cons, usages, usage, List.exists_mem_cons_iff, ← ih]
    cases v.table.get? id with
    | none => simp [bind, Except.bind]
    | some param =>
      cases usages v position (rest.map .typeVar) <;> simp [bind, Except.bind, pure, Except.pure]

namespace ClassMetadata

variable {cls : ClassMetadata} {options : ClassOptions}

theorem ownerType_eq_error_iff :
    (∃ cause, cls.ownerType = .error cause) ↔
      ∃ id ∈ cls.typeParams, cls.typeVars.get? id = none := by
  unfold ownerType Renderer.usage selfType Shape.ofClass
  rw [Shape.usage, if_neg (by simp), Except.bind_return]
  simp only [Except.map_eq_error]
  exact Shape.usages_typeVars_eq_error_iff

theorem ownerType_eq_ok_iff :
    (∃ owner, cls.ownerType = .ok owner) ↔ ∀ id ∈ cls.typeParams, cls.typeVars.get? id ≠ none := by
  have herror : (∃ cause, cls.ownerType = .error cause) ↔ ¬ ∃ owner, cls.ownerType = .ok owner := by
    cases cls.ownerType <;> simp
  rw [ownerType_eq_error_iff] at herror
  rw [← not_iff_not, ← herror]
  push Not
  rfl

theorem plan_of_exclude {owner : String} (howner : cls.ownerType = .ok owner)
    (hpolicy : options.policy = .exclude) :
    ∃ plan, cls.plan options = .ok plan ∧
      plan.operations = (firstBy (fun o => o.2.generatedName)
        (cls.offers (canonicalOrder cls.typeVars cls.operations))).map Prod.snd := by
  have hstart : (cls.resolver options).policy = .exclude := hpolicy
  obtain ⟨r, hrun, hkept⟩ := Resolver.pushAll_of_exclude hstart
    (cls.offers (canonicalOrder cls.typeVars cls.operations))
  refine ⟨_, plan_eq_ok_iff.2 ⟨owner, r, howner, hrun, rfl⟩, ?_⟩
  simpa [finish, resolver, Resolver.kept, Roster.plans, Roster.names] using hkept

theorem firstBy_candidates (cls : ClassMetadata) :
    firstBy cls.requestedName cls.candidates =
      (firstBy (fun o => o.2.generatedName)
        (cls.offers (canonicalOrder cls.typeVars cls.operations))).map Prod.fst := by
  have hnames : firstBy (fun o => o.2.generatedName)
      (cls.offers (canonicalOrder cls.typeVars cls.operations)) =
      firstBy (fun o => cls.requestedName o.1)
        (cls.offers (canonicalOrder cls.typeVars cls.operations)) :=
    firstBy_congr fun o ho => generatedName_of_mem_offers ho
  rw [hnames, firstBy_map, fst_offers, candidates]

theorem ownerType_of_exclude (hpolicy : options.policy = .exclude) {e : PlanError}
    (h : cls.plan? options = some (.error e)) :
    ∃ cause, cls.ownerType = .error cause ∧ e = .ownerType cls.name.qualified cause := by
  cases howner : cls.ownerType with
  | error cause =>
    rw [plan?_of_ownerType howner] at h
    exact ⟨cause, rfl, (Except.error.inj (Option.some.inj h)).symm⟩
  | ok owner =>
    obtain ⟨plan, hplan, -⟩ := plan_of_exclude howner hpolicy
    obtain ⟨-, he⟩ := (plan?_eq_some_iff _).1 h
    cases he.trans hplan

/-- A class that excludes comes to all its operations, if it can be written. -/
theorem plan?_of_exclude_eq_none_iff (hpolicy : options.policy = .exclude) :
    cls.plan? options = none ↔ (∃ owner, cls.ownerType = .ok owner) ∧
      ∃ op ∈ cls.operations, ¬ op.NameFound cls.typeVars := by
  constructor
  · intro hnone
    rw [plan?_eq_none_iff] at hnone
    constructor
    · by_contra howner
      exact hnone fun owner h => absurd ⟨owner, h⟩ howner
    · by_contra hfound
      push Not at hfound
      exact hnone (ends_of_nameFound hfound)
  · -- without the loop there would be a plan, so the run comes to `op`
    rintro ⟨⟨owner, howner⟩, op, hop, hname⟩
    obtain ⟨plan, hplan, -⟩ := plan_of_exclude howner hpolicy
    exact plan?_eq_none_of_plan hplan hop hname

end ClassMetadata

/-- **Exclusion keeps the first claimants.**  A class that excludes fails exactly if one of its
parameters has no entry in the table, and says that it cannot be written.  Otherwise planning ends
exactly if the names of all operations are found, and the plan has, in canonical order, the first
operation with a text for each name that is asked for, under that name. -/
theorem exclude_keeps_first (cls : ClassMetadata) {options : ClassOptions}
    (hpolicy : options.policy = .exclude) :
    ((∃ e, cls.plan? options = some (.error e)) ↔
      ∃ id ∈ cls.typeParams, cls.typeVars.get? id = none) ∧
    (∀ e, cls.plan? options = some (.error e) → ∃ cause, e = .ownerType cls.name.qualified cause) ∧
    (cls.plan? options = none ↔ (∀ id ∈ cls.typeParams, cls.typeVars.get? id ≠ none) ∧
      ∃ op ∈ cls.operations, ¬ op.NameFound cls.typeVars) ∧
    ((∀ id ∈ cls.typeParams, cls.typeVars.get? id ≠ none) →
      (∀ op ∈ cls.operations, op.NameFound cls.typeVars) →
      ∃ plan, cls.plan? options = some (.ok plan) ∧
        List.Forall₂ (fun op entry => cls.requestedName? op = some entry.generatedName ∧
          cls.planOperation op entry.generatedName = .ok entry)
          (firstBy cls.requestedName cls.candidates) plan.operations) := by
  rw [← ClassMetadata.ownerType_eq_error_iff, ← ClassMetadata.ownerType_eq_ok_iff]
  refine ⟨?_, ?_, ClassMetadata.plan?_of_exclude_eq_none_iff hpolicy, ?_⟩
  · constructor
    · rintro ⟨e, he⟩
      exact (ClassMetadata.ownerType_of_exclude hpolicy he).imp fun _ h => h.1
    · rintro ⟨cause, hcause⟩
      exact ⟨_, ClassMetadata.plan?_of_ownerType hcause⟩
  · intro e he
    exact (ClassMetadata.ownerType_of_exclude hpolicy he).imp fun _ h => h.2
  · rintro ⟨owner, howner⟩ hfound
    obtain ⟨plan, hplan, hoperations⟩ := ClassMetadata.plan_of_exclude howner hpolicy
    refine ⟨plan, ?_, ?_⟩
    · rw [ClassMetadata.plan?_of_nameFound hfound, hplan]
    · -- the first candidates and the entries are the two sides of the first offers
      rw [ClassMetadata.firstBy_candidates, hoperations, List.forall₂_map_left_iff,
        List.forall₂_map_right_iff, List.forall₂_same]
      intro o ho
      have hoffer := (firstBy_sublist _ _).subset ho
      have hname := ClassMetadata.generatedName_of_mem_offers hoffer
      obtain ⟨op, hop, hop'⟩ := List.mem_filterMap.1 hoffer
      obtain ⟨htext, rfl⟩ := ClassMetadata.offer?_eq_some.1 hop'
      rw [hname]
      exact ⟨(Operation.requestedName?_eq_some_iff _).2
        ⟨hfound o.1 (mem_canonicalOrder.1 hop), rfl⟩, htext⟩

/-- Of `of(int)`, `of(?)` and `of(String)` the first is kept; the class over a variable without an
entry has no plan. -/
theorem mixedOverloads_excluded :
    (∃ plan entry, mixedOverloads.plan? { policy := .exclude } = some (.ok plan) ∧
      mixedOverloads.planOperation (overloadOf (.primitive .int)) "of" = .ok entry ∧
      plan.operations = [entry]) ∧
    ∃ e, { mixedOverloads with typeParams := [⟨0⟩] }.plan? { policy := .exclude } =
      some (.error e) := by
  have hfirst : firstBy mixedOverloads.requestedName mixedOverloads.candidates =
      [overloadOf (.primitive .int)] := by
    rw [ClassMetadata.candidates, canonicalOrder_mixedOverloads]
    with_unfolding_all rfl
  have hfound : ∀ op ∈ mixedOverloads.operations, op.NameFound mixedOverloads.typeVars := by
    simp [mixedOverloads, nameFound_overloadOf]
  have hname : mixedOverloads.requestedName? (overloadOf (.primitive .int)) = some "of" :=
    (Operation.requestedName?_eq_some_iff _).2
      ⟨nameFound_overloadOf _ _, (requestedName_overloadOf mixedOverloads _).symm⟩
  have hexclude : ({ policy := .exclude } : ClassOptions).policy = .exclude := rfl
  constructor
  · obtain ⟨-, -, -, hplan⟩ := exclude_keeps_first mixedOverloads hexclude
    obtain ⟨plan, hplan, hoperations⟩ :=
      hplan (fun id hid => absurd hid List.not_mem_nil) hfound
    rw [hfirst] at hoperations
    obtain ⟨entry, rest, ⟨hof, htext⟩, hrest, heq⟩ := List.forall₂_cons_left_iff.1 hoperations
    obtain rfl := List.forall₂_nil_left_iff.1 hrest
    rw [← Option.some.inj (hname.symm.trans hof)] at htext
    exact ⟨plan, entry, hplan, htext, heq⟩
  · have hmissing : ∃ id ∈ [(⟨0⟩ : TypeVarId)], mixedOverloads.typeVars.get? id = none :=
      ⟨⟨0⟩, List.mem_singleton_self _, rfl⟩
    exact (exclude_keeps_first { mixedOverloads with typeParams := [⟨0⟩] } hexclude).1.2 hmissing

/-- All parameters of the class have entries, and yet it has no plan, as the name of `link` is not
found. -/
theorem chain_unplanned :
    (∀ id ∈ (chainClass [linkMethod []]).typeParams,
      (chainClass [linkMethod []]).typeVars.get? id ≠ none) ∧
    (chainClass [linkMethod []]).plan? { policy := .exclude } = none := by
  have hentries : ∀ id ∈ (chainClass [linkMethod []]).typeParams,
      (chainClass [linkMethod []]).typeVars.get? id ≠ none := List.forall_mem_nil _
  refine ⟨hentries, (ClassMetadata.plan?_of_exclude_eq_none_iff rfl).2 ⟨?_, linkMethod [], ?_, ?_⟩⟩
  · exact ClassMetadata.ownerType_eq_ok_iff.2 hentries
  · exact List.mem_singleton_self _
  · exact not_nameFound_linkMethod _ _

end FunctionAdapters
