import FunctionAdapters.Proofs.Plan.Run

/-!
# Resolvers only append

What a resolver keeps and what it has said stay in front of everything that comes later (`Extends`),
whatever is offered to it and whether it takes the offers or not.  One offer adds a plan, a
diagnostic or both (`offer_appends`); one that fails adds nothing and leaves no trace
(`offer_of_error`).

Putting a plan into a roster replaces the one that stands under its name, so this rests on the guards
of the four verdicts: a plan goes in under a free name only.  The main statement is
`offer_append_only`.
-/

namespace FunctionAdapters

namespace Resolver

variable {r r' r'' : Resolver} {op : Operation} {plan : OperationPlan}

/-! ## One offer -/

theorem offer_of_error {e : PlanError} (h : (r.offer op plan).1 = .error e) :
    (r.offer op plan).2 = r := by
  have hoffered := r.offered op plan
  generalize r.offer op plan = after at hoffered h
  cases hoffered with
  | keep free => cases h
  | rename taken policy free => cases h
  | exclude taken policy => cases h
  | fail taken policy taken' => rfl

/-- **What an offer adds**: at most a plan, which is what is kept of the offer, and at most a
diagnostic; if the offer is taken, then one of them at least. -/
theorem offer_appends (r : Resolver) (op : Operation) (plan : OperationPlan) :
    ∃ (kept? : Option OperationPlan) (note? : Option Diagnostic),
      (r.offer op plan).2.kept = r.kept ++ kept?.toList ∧
      (r.offer op plan).2.diagnostics = r.diagnostics ++ note?.toList ∧
      (∀ kept ∈ kept?, Granted (op, plan) kept) ∧
      ((r.offer op plan).1 = .ok () → kept?.isSome ∨ note?.isSome) := by
  have hoffered := r.offered op plan
  generalize r.offer op plan = after at hoffered
  cases hoffered with
  | keep free =>
    refine ⟨some plan, none, ?_, by simp, by simp [Granted], by simp⟩
    simp [kept, Roster.plans, Roster.entries_insert free]
  | rename taken policy free =>
    refine ⟨some { plan with generatedName := op.disambiguated plan.generatedName }, some _, ?_, rfl,
      by simp [Granted], by simp⟩
    simp [kept, Roster.plans, Roster.entries_insert free]
  | exclude taken policy => exact ⟨none, some _, by simp [kept], rfl, by simp, by simp⟩
  | fail taken policy taken' => exact ⟨none, none, by simp, by simp, by simp, by simp⟩

theorem offer_of_new (h : r.Named)
    (hnew : plan.generatedName ∉ r.kept.map OperationPlan.generatedName) :
    (r.offer op plan).1 = .ok () ∧ (r.offer op plan).2.kept = r.kept ++ [plan] := by
  have hfree : r.roster.holds plan.generatedName = false := by
    rw [h.generatedNames, ← Roster.holds_iff, Bool.not_eq_true] at hnew
    exact hnew
  have hverdict : r.verdict op plan.generatedName = .keep := verdict_eq_keep op hfree
  have hplans : (r.roster.insert plan.generatedName plan).plans = r.roster.plans ++ [plan] := by
    simp [Roster.plans, Roster.entries_insert hfree]
  rw [offer, hverdict]
  exact ⟨rfl, hplans⟩

/-! ## Many offers -/

/-- One resolver has all that another has, in front of what else it has. -/
structure Extends (r r' : Resolver) : Prop where
  kept : r.kept <+: r'.kept
  diagnostics : r.diagnostics <+: r'.diagnostics

theorem Extends.refl (r : Resolver) : r.Extends r := ⟨List.prefix_refl _, List.prefix_refl _⟩

theorem Extends.trans (h : r.Extends r') (h' : r'.Extends r'') : r.Extends r'' :=
  ⟨h.kept.trans h'.kept, h.diagnostics.trans h'.diagnostics⟩

theorem extends_offer (r : Resolver) (op : Operation) (plan : OperationPlan) :
    r.Extends (r.offer op plan).2 := by
  obtain ⟨kept?, note?, hkept, hnotes, -, -⟩ := r.offer_appends op plan
  refine ⟨?_, ?_⟩
  · rw [hkept]
    exact List.prefix_append _ _
  · rw [hnotes]
    exact List.prefix_append _ _

theorem offerAll_append (r : Resolver) (xs ys : List (Operation × OperationPlan)) :
    r.offerAll (xs ++ ys) = (r.offerAll xs).offerAll ys := by
  unfold offerAll
  rw [List.foldl_append]

theorem extends_offerAll (r : Resolver) (offers : List (Operation × OperationPlan)) :
    r.Extends (r.offerAll offers) := by
  induction offers generalizing r with
  | nil => exact .refl r
  | cons offer rest ih =>
    rw [offerAll_cons]
    exact (r.extends_offer offer.1 offer.2).trans (ih _)

end Resolver

open Resolver in
/-- **Append only.**  Something is offered to a resolver after any other offers, taken or not.  If
that fails, the resolver is as it was, so that all later offers go as if nothing had happened;
otherwise a plan, a diagnostic or both are added at the end.  Whatever comes later, everything that
was kept or said stays in its place, and an operation that asks for a name which is borne by none of
the plans kept is taken under it. -/
theorem offer_append_only (cls : String) (policy : NamingPolicy)
    (earlier : List (Operation × OperationPlan)) (op : Operation) (plan : OperationPlan) :
    let r := ({ cls, policy } : Resolver).offerAll earlier
    let answer := (r.offer op plan).1
    let after := (r.offer op plan).2
    (∀ e, answer = .error e → after = r ∧
        ∀ later, ({ cls, policy } : Resolver).offerAll (earlier ++ (op, plan) :: later) =
          ({ cls, policy } : Resolver).offerAll (earlier ++ later)) ∧
      (answer = .ok () → ∃ (kept? : Option OperationPlan) (note? : Option Diagnostic),
        after.kept = r.kept ++ kept?.toList ∧
          after.diagnostics = r.diagnostics ++ note?.toList ∧
          (∀ kept ∈ kept?, Granted (op, plan) kept) ∧ (kept?.isSome ∨ note?.isSome)) ∧
      ∀ later, after.Extends (after.offerAll later) ∧ r.Extends (after.offerAll later) ∧
        ∀ (next : Operation) (wanted : OperationPlan),
          wanted.generatedName ∉ (after.offerAll later).kept.map OperationPlan.generatedName →
            ((after.offerAll later).offer next wanted).1 = .ok () ∧
            ((after.offerAll later).offer next wanted).2.kept =
              (after.offerAll later).kept ++ [wanted] := by
  intro r answer after
  -- every plan stands under its own name, so a name that no plan bears is free
  have hnamed : r.Named := (Named.start cls policy).offerAll earlier
  refine ⟨fun e he => ?_, fun htaken => ?_, fun later => ?_⟩
  · have hsame : after = r := offer_of_error he
    refine ⟨hsame, fun later => ?_⟩
    calc ({ cls, policy } : Resolver).offerAll (earlier ++ (op, plan) :: later)
        = after.offerAll later := by rw [offerAll_append, offerAll_cons]
      _ = r.offerAll later := by rw [hsame]
      _ = ({ cls, policy } : Resolver).offerAll (earlier ++ later) := by rw [offerAll_append]
  · obtain ⟨kept?, note?, hkept, hnotes, hgranted, hadded⟩ := r.offer_appends op plan
    exact ⟨kept?, note?, hkept, hnotes, hgranted, hadded htaken⟩
  · have hlater : after.Extends (after.offerAll later) := after.extends_offerAll later
    refine ⟨hlater, (r.extends_offer op plan).trans hlater, fun next wanted hnew => ?_⟩
    exact offer_of_new ((hnamed.offer op plan).offerAll later) hnew

/-- An overload of `of` for a class, whose plan bears the name `of`. -/
def overloadAsking (parameter : ClassName) : Operation × OperationPlan :=
  (overloadOf (.ofClass parameter []), { (default : OperationPlan) with generatedName := "of" })

/-- Of three overloads for classes the third would get the name of the second.  It leaves no trace,
and the next operation is taken. -/
theorem third_overload_untraced :
    let overloads := [overloadAsking ⟨"java.lang", "Integer"⟩, overloadAsking ⟨"java.lang", "String"⟩]
    let third := overloadAsking ⟨"java.util", "List"⟩
    let r := Resolver.offerAll { cls := "com.example.Util", policy := .rename } overloads
    (r.offer third.1 third.2).1 = .error (.nameTaken "com.example.Util" "of" "of$Obj") ∧
      (r.offer third.1 third.2).2 = r ∧
      r.kept.map OperationPlan.generatedName = ["of", "of$Obj"] ∧
      ∀ next wanted, wanted.generatedName = "make" →
        (r.offer next wanted).2.kept = r.kept ++ [wanted] := by
  intro overloads third r
  have hanswer : (r.offer third.1 third.2).1 =
      .error (.nameTaken "com.example.Util" "of" "of$Obj") := by with_unfolding_all rfl
  have hnames : r.kept.map OperationPlan.generatedName = ["of", "of$Obj"] := by
    with_unfolding_all rfl
  obtain ⟨hfailed, -, hlater⟩ :=
    offer_append_only "com.example.Util" .rename overloads third.1 third.2
  have hsame : (r.offer third.1 third.2).2 = r := (hfailed _ hanswer).1
  refine ⟨hanswer, hsame, hnames, fun next wanted hwanted => ?_⟩
  obtain ⟨-, -, htaken⟩ := hlater []
  rw [Resolver.offerAll_nil, hsame] at htaken
  refine (htaken next wanted ?_).2
  rw [hnames, hwanted]
  decide

end FunctionAdapters
