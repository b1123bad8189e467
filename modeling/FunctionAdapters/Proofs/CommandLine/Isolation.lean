import FunctionAdapters.CommandLine.Run
import FunctionAdapters.Proofs.Codec.Plan
import FunctionAdapters.Proofs.Codec.ReadBack
import FunctionAdapters.Proofs.Parted
import FunctionAdapters.Proofs.Plan.Collision
import FunctionAdapters.Proofs.Plan.Ending

/-!
# A class that fails does not touch the others

A run plans each class by itself, and prints the plans that there are.  So the classes fall into
those with a plan and those without (`parted_plans`), what is printed depends on the former alone
(`plans_eq_of_parted`), and the exit code says whether there are any of the latter.

All this is about runs that end.  A class for which planning does not end keeps the run from printing
anything: `chain_not_isolated`.

The main statement is `failing_classes_isolated`.  It also says that both printed forms are texts of
one value, which is the list of the plans.
-/

namespace FunctionAdapters.CommandLine

/-- Planning the class ends without a plan under the configuration. -/
def Fails (config : Config) (cls : ClassMetadata) : Prop :=
  ∃ e, cls.plan? (config.optionsFor cls.name) = some (.error e)

/-- Planning the class ends with the plan under the configuration. -/
def HasPlan (config : Config) (cls : ClassMetadata) (plan : ClassPlan) : Prop :=
  cls.plan? (config.optionsFor cls.name) = some (.ok plan)

/-- Planning ends for every class under the configuration. -/
def AllEnd (config : Config) (classes : List ClassMetadata) : Prop :=
  ∀ cls ∈ classes, cls.Ends (config.optionsFor cls.name)

def results (config : Config) (classes : List ClassMetadata) : List (Except PlanError ClassPlan) :=
  classes.map fun cls => cls.plan (config.optionsFor cls.name)

section

variable {config : Config} {classes others more planned failing : List ClassMetadata}
  {cls : ClassMetadata} {plan : ClassPlan}

/-! ## One class -/

theorem hasPlan_iff : HasPlan config cls plan ↔
    cls.Ends (config.optionsFor cls.name) ∧ .ok plan = cls.plan (config.optionsFor cls.name) :=
  ClassMetadata.plan?_eq_some_iff _

theorem fails_iff : Fails config cls ↔ cls.Ends (config.optionsFor cls.name) ∧
    ∃ e, .error e = cls.plan (config.optionsFor cls.name) := by
  simp only [Fails, ClassMetadata.plan?_eq_some_iff, exists_and_left]

theorem plans_cons_of_hasPlan (h : HasPlan config cls plan) (rest : List ClassMetadata) :
    plans (results config (cls :: rest)) = plan :: plans (results config rest) := by
  obtain ⟨-, hplan⟩ := hasPlan_iff.1 h
  rw [plans, results, List.map_cons, ← hplan]
  rfl

theorem plans_cons_of_fails (h : Fails config cls) (rest : List ClassMetadata) :
    plans (results config (cls :: rest)) = plans (results config rest) := by
  obtain ⟨-, e, he⟩ := fails_iff.1 h
  rw [plans, results, List.map_cons, ← he]
  rfl

theorem hasPlan_or_fails (h : cls.Ends (config.optionsFor cls.name)) :
    (∃ plan, HasPlan config cls plan) ∨ Fails config cls := by
  simp only [hasPlan_iff, fails_iff, and_iff_right h]
  cases cls.plan (config.optionsFor cls.name) with
  | ok plan => exact .inl ⟨plan, rfl⟩
  | error e => exact .inr ⟨e, rfl⟩

/-! ## The run -/

theorem parted_plans (hends : AllEnd config classes) :
    ∃ planned failing, Parted classes planned failing ∧
      List.Forall₂ (HasPlan config) planned (plans (results config classes)) ∧
      ∀ cls ∈ failing, Fails config cls := by
  induction classes with
  | nil => exact ⟨[], [], .nil, .nil, List.forall_mem_nil _⟩
  | cons cls rest ih =>
    obtain ⟨hcls, hrest⟩ := List.forall_mem_cons.1 hends
    obtain ⟨planned, failing, hparted, hplanned, hfailing⟩ := ih hrest
    rcases hasPlan_or_fails hcls with ⟨plan, hplan⟩ | hfails
    · rw [plans_cons_of_hasPlan hplan]
      exact ⟨cls :: planned, failing, .left cls hparted, .cons hplan hplanned, hfailing⟩
    · rw [plans_cons_of_fails hfails]
      exact ⟨planned, cls :: failing, .right cls hparted, hplanned,
        List.forall_mem_cons.2 ⟨hfails, hfailing⟩⟩

/-- **Isolation.**  Classes that fail can be put anywhere. -/
theorem plans_eq_of_parted (h : Parted others classes more) (hends : AllEnd config classes)
    (hmore : ∀ cls ∈ more, Fails config cls) :
    plans (results config others) = plans (results config classes) := by
  induction h with
  | nil => rfl
  | left cls rest ih =>
    obtain ⟨hcls, hrest⟩ := List.forall_mem_cons.1 hends
    rcases hasPlan_or_fails hcls with ⟨plan, hplan⟩ | hfails
    · rw [plans_cons_of_hasPlan hplan, plans_cons_of_hasPlan hplan, ih hrest hmore]
    · rw [plans_cons_of_fails hfails, plans_cons_of_fails hfails, ih hrest hmore]
  | right cls rest ih =>
    obtain ⟨hfails, hmore⟩ := List.forall_mem_cons.1 hmore
    rw [plans_cons_of_fails hfails, ih hends hmore]

theorem allEnd_of_parted (h : Parted others classes more)
    (hmore : ∀ cls ∈ more, Fails config cls) : AllEnd config others ↔ AllEnd config classes := by
  have hends : ∀ cls ∈ more, cls.Ends (config.optionsFor cls.name) :=
    fun cls hcls => (fails_iff.1 (hmore cls hcls)).1
  exact h.forall_mem.trans (and_iff_left hends)

theorem all_isOk_iff {plans : List ClassPlan} (h : Parted classes planned failing)
    (hplanned : List.Forall₂ (HasPlan config) planned plans)
    (hfailing : ∀ cls ∈ failing, Fails config cls) :
    (results config classes).all Except.isOk = true ↔ failing = [] := by
  induction h generalizing plans with
  | nil => exact iff_of_true rfl rfl
  | left cls rest ih =>
    cases hplanned with
    | @cons _ plan _ _ hplan hplanned =>
      obtain ⟨-, hplan⟩ := hasPlan_iff.1 hplan
      rw [results, List.map_cons, List.all_cons, ← hplan]
      exact ih hplanned hfailing
  | right cls rest ih =>
    obtain ⟨-, e, he⟩ := fails_iff.1 (hfailing cls List.mem_cons_self)
    rw [results, List.map_cons, List.all_cons, ← he]
    exact iff_of_false Bool.false_ne_true (List.cons_ne_nil _ _)

/-! ## What is printed -/

def plansJson (plans : List ClassPlan) : Json := .array (plans.map ClassPlan.toJson)

theorem fits_plansJson {plans : List ClassPlan}
    (h : List.Forall₂ (HasPlan config) planned plans) :
    (plansJson plans).Fits Json.maxNesting := by
  have hplans : ∀ plan ∈ plans, plan.toJson.Fits 6 := by
    induction h with
    | nil => exact List.forall_mem_nil _
    | cons hplan rest ih =>
      obtain ⟨-, hplan⟩ := hasPlan_iff.1 hplan
      exact List.forall_mem_cons.2 ⟨ClassMetadata.fits_of_plan hplan.symm, ih⟩
  have hfits : (plansJson plans).Fits 7 := Json.fits_array (List.forall_mem_map.2 hplans)
  exact hfits.mono (by decide)

end

/-- What the command does with its files if one or the other form is asked for. -/
def planRun? (setting : Setting) (args : PlanArgs) (pretty : Bool) : Option Outcome :=
  runCommand setting (.plan { args with pretty })

/-- The outcome of planning some classes where this ends. -/
def plannedOutcome (config : Config) (filter : Log.Filter) (pretty : Bool)
    (classes : List ClassMetadata) : Outcome :=
  outcomeOf filter pretty (classes.map fun cls => cls.planWithEvents (config.optionsFor cls.name))

theorem plannedOutcome_stdout (config : Config) (filter : Log.Filter) (pretty : Bool)
    (classes : List ClassMetadata) :
    (plannedOutcome config filter pretty classes).stdout =
      plansText pretty (plans (results config classes)) := by
  rw [plannedOutcome, outcomeOf, List.map_map]
  rfl

theorem plannedOutcome_code (config : Config) (filter : Log.Filter) (pretty : Bool)
    (classes : List ClassMetadata) :
    (plannedOutcome config filter pretty classes).code =
      if (results config classes).all Except.isOk then 0 else 1 := by
  rw [plannedOutcome, outcomeOf, List.map_map]
  rfl

section

variable {setting : Setting} {args : PlanArgs} {config : Config} {classes : List ClassMetadata}

/-- A run whose files can be read ends where planning ends for every class. -/
theorem planRun?_eq_some_iff (hconfig : loadConfig setting args.config = .ok config)
    (hclasses : loadClasses setting args.metadata = .ok classes) (pretty : Bool)
    (outcome : Outcome) :
    planRun? setting args pretty = some outcome ↔ AllEnd config classes ∧
      outcome =
        plannedOutcome config (config.logging.filter setting.logDirectives) pretty classes := by
  have hload : loadAll setting { args with pretty } = .ok (config, classes) := by
    simp only [loadAll, hconfig, hclasses]
    rfl
  have hclass : ∀ cls run, planConfigured? config cls = some run ↔
      cls.Ends (config.optionsFor cls.name) ∧
        run = cls.planWithEvents (config.optionsFor cls.name) :=
    fun _ => ClassMetadata.planWithEvents?_eq_some_iff
  rw [planRun?, runCommand, runPlan, hload]
  exact map_eq_some_iff_of (mapM_eq_some_iff_of hclass classes) _ _

end

/-- **Failing classes are isolated.**  Suppose that a configuration and some classes can be read.
The run has no outcome exactly if planning one of the classes does not end, which is not so where the
names of all operations are found.  Otherwise the classes fall into those with a plan and those
without.  What is printed is the list of the former's plans, in order, in one of two texts of the same
value; the exit code tells whether there are any of the latter.  If failing classes are put in or
taken out anywhere, the same is printed. -/
theorem failing_classes_isolated {setting : Setting} {args : PlanArgs} {config : Config}
    {classes : List ClassMetadata} (hconfig : loadConfig setting args.config = .ok config)
    (hclasses : loadClasses setting args.metadata = .ok classes) :
    (∀ pretty, planRun? setting args pretty = none ↔
      ∃ cls ∈ classes, cls.plan? (config.optionsFor cls.name) = none) ∧
    ((∀ cls ∈ classes, ∀ op ∈ cls.operations, op.NameFound cls.typeVars) →
      ∀ pretty, planRun? setting args pretty ≠ none) ∧
    ((∀ cls ∈ classes, cls.plan? (config.optionsFor cls.name) ≠ none) →
      ∃ outcome : Bool → Outcome, (∀ pretty, planRun? setting args pretty = some (outcome pretty)) ∧
      ∃ planned failing plans, Parted classes planned failing ∧
      List.Forall₂ (HasPlan config) planned plans ∧
      (∀ cls ∈ failing, Fails config cls) ∧
      (outcome false).stdout = (plansJson plans).compact ++ "\n" ∧
      (outcome true).stdout = (plansJson plans).pretty ++ "\n" ∧
      Json.ofText? (outcome false).stdout = some (plansJson plans) ∧
      Json.ofText? (outcome true).stdout = some (plansJson plans) ∧
      (∀ pretty, (outcome pretty).code = if failing = [] then 0 else 1) ∧
      ∀ (setting' : Setting) (args' : PlanArgs) (others more : List ClassMetadata),
        loadConfig setting' args'.config = .ok config →
        loadClasses setting' args'.metadata = .ok others →
        (Parted others classes more ∨ Parted classes others more) →
        (∀ cls ∈ more, Fails config cls) →
        ∀ pretty, ∃ other, planRun? setting' args' pretty = some other ∧
          other.stdout = (outcome pretty).stdout) := by
  have hrun := planRun?_eq_some_iff hconfig hclasses
  -- no result stands for planning that does not end
  have hnone : ∀ cls : ClassMetadata, cls.plan? (config.optionsFor cls.name) ≠ none ↔
      cls.Ends (config.optionsFor cls.name) := by
    intro cls
    rw [ne_eq, ClassMetadata.plan?_eq_none_iff, not_not]
  refine ⟨fun pretty => ?_, fun hfound pretty => ?_, fun hall => ?_⟩
  · rw [eq_none_iff_of (hrun pretty), AllEnd]
    push Not
    simp only [ClassMetadata.plan?_eq_none_iff]
  · rw [ne_eq, eq_none_iff_of (hrun pretty), not_not]
    exact fun cls hcls => ClassMetadata.ends_of_nameFound (hfound cls hcls)
  · -- planning ends for all classes, and each has a plan or fails
    have hends : AllEnd config classes := fun cls hcls => (hnone cls).1 (hall cls hcls)
    obtain ⟨planned, failing, hparted, hplanned, hfailing⟩ := parted_plans hends
    have hfits := fits_plansJson hplanned
    have hcompact := plannedOutcome_stdout config
      (config.logging.filter setting.logDirectives) false classes
    have hpretty := plannedOutcome_stdout config
      (config.logging.filter setting.logDirectives) true classes
    refine ⟨fun pretty => _, fun pretty => (hrun pretty _).2 ⟨hends, rfl⟩, planned, failing, _,
      hparted, hplanned, hfailing, hcompact, hpretty, ?_, ?_, fun pretty => ?_, ?_⟩
    · rw [hcompact]
      exact (Json.ofText?_line hfits).1
    · rw [hpretty]
      exact (Json.ofText?_line hfits).2
    · simp only [plannedOutcome_code, all_isOk_iff hparted hplanned hfailing]
    · intro setting' args' others more hconfig' hclasses' hothers hmore pretty
      -- the classes in which the two runs differ all fail, so both end and print the same plans
      have hends' : AllEnd config others := by
        rcases hothers with hin | hout
        · exact (allEnd_of_parted hin hmore).2 hends
        · exact (allEnd_of_parted hout hmore).1 hends
      have hsame : plans (results config others) = plans (results config classes) := by
        rcases hothers with hin | hout
        · exact plans_eq_of_parted hin hends hmore
        · exact (plans_eq_of_parted hout hends' hmore).symm
      refine ⟨_, (planRun?_eq_some_iff hconfig' hclasses' pretty _).2 ⟨hends', rfl⟩, ?_⟩
      rw [plannedOutcome_stdout, plannedOutcome_stdout, hsame]

/-- A setting in which every file holds some classes. -/
def settingOf (classes : List ClassMetadata) : Setting where
  read _ := .ok (Json.array (classes.map ClassMetadata.toJson)).compact
  logDirectives := none

theorem loadClasses_settingOf {classes : List ClassMetadata}
    (hdepth : (Json.array (classes.map ClassMetadata.toJson)).depth ≤ Json.maxNesting)
    (path : String) : loadClasses (settingOf classes) path = .ok classes := by
  have hcodes := Json.Codes.list fun (cls : ClassMetadata) (_ : cls ∈ classes) => cls.codes_form
  have htext := (hcodes.printed hdepth).1
  simp only [loadClasses, settingOf, htext]
  rfl

/-- Of two classes the first one fails: it makes the exit code one, and what is printed is what is
printed of the second one alone. -/
theorem objectOverloads_isolated :
    let both := settingOf [objectOverloads, boxingOverloads]
    let alone := settingOf [boxingOverloads]
    let args : PlanArgs := { metadata := "classes.json" }
    loadConfig both args.config = .ok {} ∧ loadConfig alone args.config = .ok {} ∧
      loadClasses both args.metadata = .ok [objectOverloads, boxingOverloads] ∧
      loadClasses alone args.metadata = .ok [boxingOverloads] ∧
      Fails {} objectOverloads ∧
      ∃ outcome other, planRun? both args false = some outcome ∧
        planRun? alone args false = some other ∧
        outcome.code = 1 ∧ outcome.stdout = other.stdout := by
  intro both alone args
  have hconfig : loadConfig both args.config = .ok {} := rfl
  have hconfig' : loadConfig alone args.config = .ok {} := rfl
  have hboth : loadClasses both args.metadata = .ok [objectOverloads, boxingOverloads] :=
    loadClasses_settingOf (by decide) _
  have halone : loadClasses alone args.metadata = .ok [boxingOverloads] :=
    loadClasses_settingOf (by decide) _
  have hfound : ∀ cls ∈ [objectOverloads, boxingOverloads], ∀ op ∈ cls.operations,
      op.NameFound cls.typeVars := by
    simp [objectOverloads, overloadOfClass, boxingOverloads, nameFound_overloadOf]
  have hends : ∀ cls ∈ [objectOverloads, boxingOverloads], ∀ options, cls.plan? options ≠ none := by
    intro cls hcls options
    rw [ClassMetadata.plan?_of_nameFound (hfound cls hcls)]
    exact Option.some_ne_none _
  have hfails : Fails {} objectOverloads := by
    exact fails_iff.2 ⟨ClassMetadata.ends_of_nameFound (hfound _ List.mem_cons_self), _,
      plan_objectOverloads.symm⟩
  obtain ⟨-, -, hisolated⟩ := failing_classes_isolated hconfig hboth
  obtain ⟨outcome, houtcome, planned, failing, _, hparted, hplanned, -, -, -, -, -, hcode, hsame⟩ :=
    hisolated fun cls hcls => hends cls hcls _
  have hout : Parted [objectOverloads, boxingOverloads] [boxingOverloads] [objectOverloads] :=
    .right _ (.left _ .nil)
  obtain ⟨other, hother, hprinted⟩ := hsame alone args _ _ hconfig' halone (.inr hout)
    (List.forall_mem_singleton.2 hfails) false
  refine ⟨hconfig, hconfig', hboth, halone, hfails, outcome false, other, houtcome false, hother,
    ?_, hprinted.symm⟩
  have hfailing : failing ≠ [] := by
    rintro rfl
    obtain rfl := hparted.eq_left
    obtain ⟨e, he⟩ := hfails
    cases hplanned with
    | cons hplan _ => cases he.symm.trans hplan
  rw [hcode false, if_neg hfailing]

/-- Planning the first class does not end, and so nothing is printed of the second one, which has a
plan and is printed alone. -/
theorem chain_not_isolated :
    let chain := chainClass [linkMethod []]
    let both := settingOf [chain, boxingOverloads]
    let alone := settingOf [boxingOverloads]
    let args : PlanArgs := { metadata := "classes.json" }
    loadConfig both args.config = .ok {} ∧ loadConfig alone args.config = .ok {} ∧
      loadClasses both args.metadata = .ok [chain, boxingOverloads] ∧
      loadClasses alone args.metadata = .ok [boxingOverloads] ∧
      (∃ plan, HasPlan {} boxingOverloads plan) ∧
      planRun? both args false = none ∧
      ∃ outcome, planRun? alone args false = some outcome := by
  intro chain both alone args
  have hconfig : loadConfig both args.config = .ok {} := rfl
  have hconfig' : loadConfig alone args.config = .ok {} := rfl
  have hboth : loadClasses both args.metadata = .ok [chain, boxingOverloads] :=
    loadClasses_settingOf (by decide) _
  have halone : loadClasses alone args.metadata = .ok [boxingOverloads] :=
    loadClasses_settingOf (by decide) _
  have hfound : ∀ op ∈ boxingOverloads.operations, op.NameFound boxingOverloads.typeVars := by
    simp [boxingOverloads, nameFound_overloadOf]
  have hends : boxingOverloads.Ends {} := ClassMetadata.ends_of_nameFound hfound
  obtain ⟨plan, hplan, -⟩ := plan_boxingOverloads
  refine ⟨hconfig, hconfig', hboth, halone, ⟨plan, hasPlan_iff.2 ⟨hends, hplan.symm⟩⟩, ?_, ?_⟩
  · rw [eq_none_iff_of (planRun?_eq_some_iff hconfig hboth false)]
    intro hall
    exact ClassMetadata.plan?_eq_none_iff.1 plan?_chainClass_link (hall chain List.mem_cons_self)
  · exact ⟨_, (planRun?_eq_some_iff hconfig' halone false _).2
      ⟨List.forall_mem_singleton.2 hends, rfl⟩⟩

end FunctionAdapters.CommandLine
