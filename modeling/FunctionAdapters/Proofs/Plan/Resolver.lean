import FunctionAdapters.Plan.Resolver
import Mathlib.Data.List.Forall2

/-!
# What a resolver does with an operation

`Offered` lists the four things that can become of an operation that is offered to a resolver, each
with its guard; every fact about `Resolver.offer` below is a case analysis of it.

* `offer_entries` — a resolver only ever appends: nothing that it kept is renamed, moved or removed;
* `Named` — the name under which a plan stands in the roster is the name that the plan bears, so
  that the plans kept have pairwise distinct names (`Named.nodup`).  Renaming stores the new name
  twice, in the roster and in the plan, and the invariant says that the two agree;
* `Granted` — what a resolver keeps of an offer: its plan under the name it asks for, or under the
  disambiguated one.
-/

namespace FunctionAdapters

namespace Resolver

variable {r r' : Resolver} {op : Operation} {plan : OperationPlan}

/-! ## One offer -/

section

variable {requested : String}

theorem verdict_eq_keep (op : Operation) (hfree : r.roster.holds requested = false) :
    r.verdict op requested = .keep := by
  simp [verdict, hfree]

theorem verdict_eq_rename (htaken : r.roster.holds requested = true) (hpolicy : r.policy = .rename)
    (hfree : r.roster.holds (op.disambiguated requested) = false) :
    r.verdict op requested = .rename (op.disambiguated requested) := by
  simp [verdict, htaken, hpolicy, hfree]

theorem verdict_eq_exclude (op : Operation) (htaken : r.roster.holds requested = true)
    (hpolicy : r.policy = .exclude) : r.verdict op requested = .exclude := by
  simp [verdict, htaken, hpolicy]

theorem verdict_eq_fail (htaken : r.roster.holds requested = true) (hpolicy : r.policy = .rename)
    (htaken' : r.roster.holds (op.disambiguated requested) = true) :
    r.verdict op requested = .fail (op.disambiguated requested) := by
  simp [verdict, htaken, hpolicy, htaken']

end

/-- What can become of an operation: the answer, and the resolver from then on. -/
inductive Offered (r : Resolver) (op : Operation) (plan : OperationPlan) :
    Except PlanError Unit × Resolver → Prop
  | keep (free : r.roster.holds plan.generatedName = false) :
    Offered r op plan (.ok (), { r with roster := r.roster.insert plan.generatedName plan })
  | rename (taken : r.roster.holds plan.generatedName = true) (policy : r.policy = .rename)
      (free : r.roster.holds (op.disambiguated plan.generatedName) = false) :
    Offered r op plan (.ok (), { r with
      roster := r.roster.insert (op.disambiguated plan.generatedName)
        { plan with generatedName := op.disambiguated plan.generatedName }
      diagnostics := r.diagnostics ++
        [r.renamedDiagnostic op plan.generatedName (op.disambiguated plan.generatedName)] })
  | exclude (taken : r.roster.holds plan.generatedName = true) (policy : r.policy = .exclude) :
    Offered r op plan (.ok (), { r with
      diagnostics := r.diagnostics ++ [r.excludedDiagnostic op plan.generatedName] })
  | fail (taken : r.roster.holds plan.generatedName = true) (policy : r.policy = .rename)
      (taken' : r.roster.holds (op.disambiguated plan.generatedName) = true) :
    Offered r op plan
      (.error (.nameTaken r.cls plan.generatedName (op.disambiguated plan.generatedName)), r)

theorem offered (r : Resolver) (op : Operation) (plan : OperationPlan) :
    Offered r op plan (r.offer op plan) := by
  cases hreq : r.roster.holds plan.generatedName with
  | false =>
    simp only [offer, verdict_eq_keep op hreq]
    exact .keep hreq
  | true =>
    cases hp : r.policy with
    | exclude =>
      simp only [offer, verdict_eq_exclude op hreq hp]
      exact .exclude hreq hp
    | rename =>
      cases htgt : r.roster.holds (op.disambiguated plan.generatedName) with
      | false =>
        simp only [offer, verdict_eq_rename hreq hp htgt]
        exact .rename hreq hp htgt
      | true =>
        simp only [offer, verdict_eq_fail hreq hp htgt]
        exact .fail hreq hp htgt

/-- What a resolver keeps of an offer. -/
def Granted (offer : Operation × OperationPlan) (kept : OperationPlan) : Prop :=
  kept = offer.2 ∨
    kept = { offer.2 with generatedName := offer.1.disambiguated offer.2.generatedName }

/-- **Append only.**  An offer adds nothing to the roster, or one entry at its end, which is what is
kept of the offer, under the name that it bears. -/
theorem offer_entries (r : Resolver) (op : Operation) (plan : OperationPlan) :
    (r.offer op plan).2.roster.entries = r.roster.entries ∨
      ∃ kept, Granted (op, plan) kept ∧
        (r.offer op plan).2.roster.entries = r.roster.entries ++ [(kept.generatedName, kept)] := by
  have h := r.offered op plan
  generalize r.offer op plan = after at h
  cases h with
  | keep free => exact .inr ⟨plan, .inl rfl, Roster.entries_insert free plan⟩
  | rename taken policy free => exact .inr ⟨_, .inr rfl, Roster.entries_insert free _⟩
  | exclude taken policy => exact .inl rfl
  | fail taken policy taken' => exact .inl rfl

theorem offer_settings (r : Resolver) (op : Operation) (plan : OperationPlan) :
    (r.offer op plan).2.cls = r.cls ∧ (r.offer op plan).2.policy = r.policy := by
  have h := r.offered op plan
  generalize r.offer op plan = after at h
  cases h <;> exact ⟨rfl, rfl⟩

/-! ## The name of an entry is the name of its plan -/

/-- Every plan stands under the name that it bears. -/
def Named (r : Resolver) : Prop := ∀ e ∈ r.roster.entries, e.2.generatedName = e.1

theorem Named.start (cls : String) (policy : NamingPolicy) : Named { cls, policy } := by
  intro e he
  simp at he

theorem Named.offer (h : r.Named) (op : Operation) (plan : OperationPlan) :
    (r.offer op plan).2.Named := by
  intro e he
  rcases r.offer_entries op plan with hsame | ⟨kept, -, hnew⟩
  · rw [hsame] at he
    exact h e he
  · rw [hnew, List.mem_append, List.mem_singleton] at he
    rcases he with he | rfl
    · exact h e he
    · rfl

theorem Named.generatedNames (h : r.Named) :
    r.kept.map OperationPlan.generatedName = r.roster.names := by
  unfold kept Roster.plans Roster.names
  rw [List.map_map]
  exact List.map_congr_left h

theorem Named.nodup (h : r.Named) : (r.kept.map OperationPlan.generatedName).Nodup := by
  rw [h.generatedNames]
  exact r.roster.nodup

/-! ## Many offers -/

@[simp] theorem offerAll_nil : r.offerAll [] = r := rfl

@[simp] theorem offerAll_cons (offer : Operation × OperationPlan)
    (rest : List (Operation × OperationPlan)) :
    r.offerAll (offer :: rest) = (r.offer offer.1 offer.2).2.offerAll rest := rfl

theorem Named.offerAll (h : r.Named) (offers : List (Operation × OperationPlan)) :
    (r.offerAll offers).Named := by
  induction offers generalizing r with
  | nil => exact h
  | cons offer rest ih =>
    rw [offerAll_cons]
    exact ih (h.offer offer.1 offer.2)

/-- After any offers the plans kept are those from before, then what was kept of some of the
offers, in the order in which these came. -/
theorem kept_offerAll (r : Resolver) (offers : List (Operation × OperationPlan)) :
    ∃ granted new, granted.Sublist offers ∧ List.Forall₂ Granted granted new ∧
      (r.offerAll offers).kept = r.kept ++ new := by
  induction offers generalizing r with
  | nil => exact ⟨[], [], .refl _, .nil, by simp⟩
  | cons offer rest ih =>
    obtain ⟨granted, new, hsub, hall, hkept⟩ := ih (r.offer offer.1 offer.2).2
    rw [offerAll_cons, hkept]
    rcases r.offer_entries offer.1 offer.2 with hsame | ⟨plan, hplan, hnew⟩
    · refine ⟨granted, new, hsub.cons offer, hall, ?_⟩
      simp [kept, Roster.plans, hsame]
    · refine ⟨offer :: granted, plan :: new, hsub.cons_cons offer, .cons hplan hall, ?_⟩
      simp [kept, Roster.plans, hnew]

end Resolver

end FunctionAdapters
