import FunctionAdapters.Proofs.Plan.Run

/-!
# When the order of discovery does not show

Operations are planned in canonical order, and operations with equal keys stay in the order in
which they were found.  Keys are coarser than plans: they box the types of the parameters, write
these types without separators and call variables by their declared names.  So the order of
discovery shows exactly when two operations have one key and planning tells them apart.

* `Resolver.view` — what a resolver sees of an offer;
* `ClassMetadata.Alike` — planning does not tell two operations apart;
* `orderFree_iff_alike` — every selection of the operations of a class plans the same in every
  order, if and only if any two of them with one key are alike;
* `plan_depends_on_discovery` — overloads that differ by boxing alone are not alike.
-/

namespace FunctionAdapters

namespace Resolver

/-! ## What a resolver sees -/

/-- What a resolver sees of an offer: the plan, the declared name, which goes into messages, and,
if it renames, the name it would choose. -/
def view (policy : NamingPolicy) (offer : Operation × OperationPlan) :
    OperationPlan × String × Option String :=
  (offer.2, offer.1.name,
    match policy with
    | .rename => some (offer.1.disambiguated offer.2.generatedName)
    | .exclude => none)

theorem push_congr {r : Resolver} {x y : Operation × OperationPlan}
    (h : view r.policy x = view r.policy y) : r.push x.1 x.2 = r.push y.1 y.2 := by
  obtain ⟨a, plan⟩ := x
  obtain ⟨b, plan'⟩ := y
  simp only [view, Prod.mk.injEq] at h
  obtain ⟨rfl, hname, htarget⟩ := h
  -- the operation itself enters the verdict only through the name it would be given
  have hverdict : r.verdict a plan.generatedName = r.verdict b plan.generatedName := by
    unfold verdict
    cases hp : r.policy with
    | rename =>
      simp only [hp, Option.some.injEq] at htarget
      simp [htarget]
    | exclude => rfl
  have hrenamed : r.renamedDiagnostic a = r.renamedDiagnostic b := by
    funext source target
    simp only [renamedDiagnostic, hname]
  have hexcluded : r.excludedDiagnostic a = r.excludedDiagnostic b := by
    funext name
    simp only [excludedDiagnostic, hname]
  simp only [push, offer, hverdict, hrenamed, hexcluded]

theorem pushAll_congr {r : Resolver} {xs ys : List (Operation × OperationPlan)}
    (h : xs.map (view r.policy) = ys.map (view r.policy)) : r.pushAll xs = r.pushAll ys := by
  induction xs generalizing r ys with
  | nil =>
    have : ys = [] := List.map_eq_nil_iff.1 h.symm
    rw [this]
  | cons x xs ih =>
    obtain _ | ⟨y, ys⟩ := ys
    · simp at h
    · rw [List.map_cons, List.map_cons, List.cons.injEq] at h
      simp only [pushAll, push_congr h.1]
      cases hp : r.push y.1 y.2 with
      | error e => rfl
      | ok next =>
        refine ih ?_
        rw [(settings_of_push hp).2]
        exact h.2

end Resolver

namespace ClassMetadata

variable {cls : ClassMetadata} {options : ClassOptions}

def withOperations (cls : ClassMetadata) (ops : List Operation) : ClassMetadata :=
  { cls with operations := ops }

/-- Planning does not tell two operations apart: if both have a plan, a resolver sees the same, and
if neither has one, the warnings are the same. -/
def Alike (cls : ClassMetadata) (policy : NamingPolicy) (a b : Operation) : Prop :=
  (∀ x ∈ cls.offer? a, ∀ y ∈ cls.offer? b, Resolver.view policy x = Resolver.view policy y) ∧
    ∀ x ∈ cls.warning? a, ∀ y ∈ cls.warning? b, x = y

theorem plan_withOperations (cls : ClassMetadata) (options : ClassOptions) (ops : List Operation) :
    (cls.withOperations ops).plan options =
      match cls.ownerType with
      | .error cause => .error (.ownerType cls.name.qualified cause)
      | .ok owner =>
        ((cls.resolver options).pushAll (cls.offers (canonicalOrder cls.typeVars ops))).map
          fun resolver => cls.finish options owner
            { resolver, dropped := cls.dropped (canonicalOrder cls.typeVars ops) } :=
  (cls.withOperations ops).plan_eq options

/-! ## Alike operations can be swapped -/

theorem plan_perm_of_alike {ops ops' : List Operation} (hperm : ops'.Perm ops)
    (halike : ∀ a ∈ ops, ∀ b ∈ ops, a.canonicalKey cls.typeVars = b.canonicalKey cls.typeVars →
      cls.Alike options.policy a b) :
    (cls.withOperations ops').plan options = (cls.withOperations ops).plan options := by
  -- operations with one key agree about their warnings, and below about what is seen of their
  -- offers
  have hdropped : cls.dropped (canonicalOrder cls.typeVars ops') =
      cls.dropped (canonicalOrder cls.typeVars ops) :=
    filterMap_canonicalOrder _ hperm fun a ha b hb hk => (halike a ha b hb hk).2
  have hview : (cls.offers (canonicalOrder cls.typeVars ops')).map (Resolver.view options.policy) =
      (cls.offers (canonicalOrder cls.typeVars ops)).map (Resolver.view options.policy) := by
    unfold offers
    rw [List.map_filterMap, List.map_filterMap]
    refine filterMap_canonicalOrder _ hperm fun a ha b hb hk v hv w hw => ?_
    obtain ⟨x, hx, rfl⟩ := Option.map_eq_some_iff.1 hv
    obtain ⟨y, hy, rfl⟩ := Option.map_eq_some_iff.1 hw
    exact (halike a ha b hb hk).1 x hx y hy
  have hrun : (cls.resolver options).pushAll (cls.offers (canonicalOrder cls.typeVars ops')) =
      (cls.resolver options).pushAll (cls.offers (canonicalOrder cls.typeVars ops)) :=
    Resolver.pushAll_congr hview
  rw [plan_withOperations, plan_withOperations, hdropped, hrun]

/-! ## Two operations that are not alike -/

/-- What a class that starts with an offer keeps: the plan as it is, then what becomes of the
second offer. -/
theorem kept_pair (cls : ClassMetadata) (options : ClassOptions)
    (x y : Operation × OperationPlan) :
    ∃ r, (cls.resolver options).pushAll [x, y] = .ok r ∧
      r.kept = x.2 ::
        (if x.2.generatedName = y.2.generatedName then
          match options.policy with
          | .rename => [{ y.2 with generatedName := y.1.disambiguated y.2.generatedName }]
          | .exclude => []
        else [y.2]) := by
  obtain ⟨a, p⟩ := x
  obtain ⟨b, q⟩ := y
  by_cases hname : p.generatedName = q.generatedName
  · have hfree : b.disambiguated q.generatedName ≠ q.generatedName := b.disambiguated_ne _
    cases hp : options.policy <;>
      simp [Resolver.pushAll, Resolver.push, Resolver.offer, Resolver.verdict, resolver, hp,
        Roster.holds, Roster.names, Roster.insert, Roster.place, hname, hfree, hfree.symm,
        Except.map, Resolver.kept, Roster.plans]
  · -- different names: both are free when their turn comes
    simp [Resolver.pushAll, Resolver.push, Resolver.offer, Resolver.verdict, resolver,
      Roster.holds, Roster.names, Roster.insert, Roster.place, hname, Ne.symm hname,
      Except.map, Resolver.kept, Roster.plans]

theorem view_of_kept_swap {x y : Operation × OperationPlan} {r r' : Resolver}
    (hname : x.1.name = y.1.name)
    (hr : (cls.resolver options).pushAll [x, y] = .ok r)
    (hr' : (cls.resolver options).pushAll [y, x] = .ok r') (hkept : r.kept = r'.kept) :
    Resolver.view options.policy x = Resolver.view options.policy y := by
  obtain ⟨s, hs, hxy⟩ := cls.kept_pair options x y
  obtain ⟨s', hs', hyx⟩ := cls.kept_pair options y x
  obtain rfl : s = r := Except.ok.inj (hs.symm.trans hr)
  obtain rfl : s' = r' := Except.ok.inj (hs'.symm.trans hr')
  rw [hxy, hyx, List.cons.injEq] at hkept
  obtain ⟨a, p⟩ := x
  obtain ⟨b, q⟩ := y
  -- the first entry is the first plan as it is, so the plans are equal; the second shows the new
  -- name
  obtain ⟨hplan, hrest⟩ := hkept
  simp only at hname hplan
  subst hplan
  cases hp : options.policy with
  | exclude => simp only [Resolver.view, hname]
  | rename =>
    simp only [hp, if_true, List.cons.injEq, and_true] at hrest
    have htarget : b.disambiguated p.generatedName = a.disambiguated p.generatedName :=
      congrArg OperationPlan.generatedName hrest
    simp only [Resolver.view, hname, htarget]

theorem filterMap_pair {α : Type} {f : Operation → Option α} {a b : Operation} {x y : α}
    (hx : f a = some x) (hy : f b = some y) : [a, b].filterMap f = [x, y] := by
  rw [List.filterMap_cons_some hx, List.filterMap_cons_some hy, List.filterMap_nil]

theorem offer?_of_warning? {op : Operation} {d : Diagnostic} (h : cls.warning? op = some d) :
    cls.offer? op = none := by
  unfold warning? at h
  unfold offer?
  cases hreq : cls.requestedPlan op with
  | ok plan => rw [hreq] at h; cases h
  | error cause => rfl

theorem alike_of_plan_swap {a b : Operation} {owner : String} (howner : cls.ownerType = .ok owner)
    (hkey : a.canonicalKey cls.typeVars = b.canonicalKey cls.typeVars)
    (hswap : (cls.withOperations [b, a]).plan options = (cls.withOperations [a, b]).plan options) :
    cls.Alike options.policy a b := by
  rw [plan_withOperations, plan_withOperations, canonicalOrder_pair _ hkey,
    canonicalOrder_pair _ hkey.symm] at hswap
  simp only [howner] at hswap
  constructor
  · -- both have a plan: the entries of the two orders are compared
    intro x hx y hy
    have hname : x.1.name = y.1.name := by
      rw [(offer?_eq_some.1 hx).2, (offer?_eq_some.1 hy).2]
      exact congrArg CanonicalKey.name hkey
    obtain ⟨r, hr, -⟩ := cls.kept_pair options x y
    obtain ⟨r', hr', -⟩ := cls.kept_pair options y x
    simp only [offers, filterMap_pair hx hy, filterMap_pair hy hx, hr, hr'] at hswap
    have hkept : r'.kept = r.kept := congrArg ClassPlan.operations (Except.ok.inj hswap)
    exact view_of_kept_swap hname hr hr' hkept.symm
  · -- neither has a plan: the warnings of the two orders are compared
    intro x hx y hy
    have hab : cls.offers [a, b] = [] := by
      simp [offers, offer?_of_warning? hx, offer?_of_warning? hy]
    have hba : cls.offers [b, a] = [] := by
      simp [offers, offer?_of_warning? hx, offer?_of_warning? hy]
    simp only [hab, hba, dropped, filterMap_pair hx hy, filterMap_pair hy hx] at hswap
    have hdiagnostics : [y, x] ++ (cls.resolver options).diagnostics =
        [x, y] ++ (cls.resolver options).diagnostics :=
      congrArg ClassPlan.diagnostics (Except.ok.inj hswap)
    simp only [List.cons_append, List.cons.injEq] at hdiagnostics
    exact hdiagnostics.1.symm

end ClassMetadata

/-- **Discovery order.**  Whatever operations of a class are taken, their plan is the same in
every order, if and only if the class cannot be written itself, or any two of its operations with
one key are alike. -/
theorem orderFree_iff_alike (cls : ClassMetadata) (options : ClassOptions) :
    (∀ ops ops' : List Operation, ops.Subperm cls.operations → ops'.Perm ops →
      (cls.withOperations ops').plan options = (cls.withOperations ops).plan options) ↔
    (∃ cause, cls.ownerType = .error cause) ∨
      ∀ a ∈ cls.operations, ∀ b ∈ cls.operations,
        a.canonicalKey cls.typeVars = b.canonicalKey cls.typeVars →
          cls.Alike options.policy a b := by
  constructor
  · intro hfree
    cases howner : cls.ownerType with
    | error cause => exact .inl ⟨cause, rfl⟩
    | ok owner =>
      refine .inr fun a ha b hb hkey => ?_
      by_cases hab : a = b
      · subst hab
        refine ⟨fun x hx y hy => ?_, fun x hx y hy => ?_⟩
        · rw [Option.mem_unique hx hy]
        · rw [Option.mem_unique hx hy]
      · -- two operations of one key are a small class in which their order can be swapped
        have hsub : [a, b].Subperm cls.operations := by
          refine List.subperm_of_subset (by simp [hab]) ?_
          simp [ha, hb]
        exact ClassMetadata.alike_of_plan_swap howner hkey
          (hfree [a, b] [b, a] hsub (List.Perm.swap a b []))
  · rintro (⟨cause, howner⟩ | halike) ops ops' hsub hperm
    · rw [ClassMetadata.plan_withOperations, ClassMetadata.plan_withOperations, howner]
    · have hmem : ∀ a ∈ ops, a ∈ cls.operations := fun a ha => hsub.subset ha
      exact ClassMetadata.plan_perm_of_alike hperm fun a ha b hb =>
        halike a (hmem a ha) b (hmem b hb)

/-! ## Overloads that differ by boxing -/

/-- **Boxing ties.**  The key boxes the types of parameters, so of the overloads `of(int)` and
`of(Integer)` the one found first keeps the name. -/
theorem plan_depends_on_discovery :
    boxingOverloads.operations.reverse.Perm boxingOverloads.operations ∧
      (boxingOverloads.withOperations boxingOverloads.operations.reverse).plan {} ≠
        boxingOverloads.plan {} := by
  refine ⟨List.reverse_perm _, fun hswap => ?_⟩
  have howner : boxingOverloads.ownerType = .ok "com.example.Util" := by with_unfolding_all rfl
  have hint : (boxingOverloads.offer? (overloadOf (.primitive .int))).map (·.2.parameters) =
      some (.named [⟨"value", "int", "Integer"⟩]) := by with_unfolding_all rfl
  have hboxed : (boxingOverloads.offer? (overloadOf (.ofClass Primitive.int.boxed []))).map
      (·.2.parameters) = some (.named [⟨"value", "Integer", "Integer"⟩]) := by
    with_unfolding_all rfl
  obtain ⟨x, hx, hxp⟩ := Option.map_eq_some_iff.1 hint
  obtain ⟨y, hy, hyp⟩ := Option.map_eq_some_iff.1 hboxed
  have halike := ClassMetadata.alike_of_plan_swap howner boxingOverloads_key hswap
  have hplans : x.2 = y.2 := congrArg Prod.fst (halike.1 x hx y hy)
  rw [hplans, hyp] at hxp
  exact absurd hxp (by decide)

end FunctionAdapters
