import FunctionAdapters.Proofs.Plan.Collision
import FunctionAdapters.Proofs.Plan.Policies

/-!
# What is logged about a class

Planning logs events as it goes along, and it keeps its messages in two lists that are put together
at the end only.  Both come from the fates of the operations: a fate has at most one event
(`Fate.event?`), and this event tells what the message about the same operation says
(`PlanEvent.Tells`).  So the events of one sort, in the order in which they were logged, and the
messages of that sort go together one by one.

`Course` says how the planning of some operations goes, with all that is logged on the way, whether
it ends well or not (`course_planAll`).  The main statement is `trace_matches_plan`.
-/

namespace FunctionAdapters

namespace PlanEvent

/-- A warning about an operation that is dropped. -/
def drops (event : PlanEvent) : Bool :=
  event.level = .warn && event.message = "dropping operation"

/-- A note that an operation is renamed, or a warning that it is excluded. -/
def resolves (event : PlanEvent) : Bool :=
  (event.level = .info && event.message = "renamed overload") ||
    (event.level = .warn && event.message = "excluded overload")

/-- An event tells what a message about an operation of the class says. -/
inductive Tells (cls : String) : PlanEvent → Diagnostic → Prop
  | dropped (operation : String) (cause : UnsupportedShape) :
    Tells cls (.dropped operation cause)
      { severity := .warning
        code := Diagnostic.unsupportedShape
        message := "skipping `" ++ operation ++ "` in `" ++ cls ++ "`: " ++ cause.message
        operation := some operation }
  | renamed (operation source target : String) :
    Tells cls (.renamed cls source target)
      { severity := .info
        code := Diagnostic.renamedOverload
        message := "renaming method in `" ++ cls ++ "` from `" ++ source ++ "` to `" ++ target ++ "`"
        operation := some operation }
  | excluded (operation name : String) :
    Tells cls (.excluded cls name)
      { severity := .warning
        code := Diagnostic.excludedOverload
        message := "filtering ambiguous method `" ++ name ++ "` in `" ++ cls ++ "`"
        operation := some operation }

end PlanEvent

namespace Fate

def event? (cls : String) : Fate → Option PlanEvent
  | dropped op cause => some (.dropped op.name cause)
  | kept .. => none
  | renamed op plan =>
    some (.renamed cls plan.generatedName (op.disambiguated plan.generatedName))
  | excluded _ plan => some (.excluded cls plan.generatedName)

theorem level_of_event? {cls : String} {f : Fate} {event : PlanEvent}
    (h : f.event? cls = some event) : event.level = .warn ∨ event.level = .info := by
  cases f with
  | dropped op cause => obtain rfl := Option.some.inj h; exact .inl rfl
  | kept op plan => cases h
  | renamed op plan => obtain rfl := Option.some.inj h; exact .inr rfl
  | excluded op plan => obtain rfl := Option.some.inj h; exact .inl rfl

theorem tells_warning (cls : ClassMetadata) (f : Fate) :
    Option.Rel (PlanEvent.Tells cls.name.qualified)
      ((f.event? cls.name.qualified).filter PlanEvent.drops) (f.warning? cls) := by
  cases f with
  | dropped op cause =>
    simpa [event?, PlanEvent.drops, PlanEvent.level, PlanEvent.message] using
      .some (.dropped op.name cause)
  | kept op plan => exact .none
  | renamed op plan =>
    simpa [event?, PlanEvent.drops, PlanEvent.level, PlanEvent.message] using .none
  | excluded op plan =>
    simpa [event?, PlanEvent.drops, PlanEvent.level, PlanEvent.message] using .none

theorem tells_note (r : Resolver) (f : Fate) :
    Option.Rel (PlanEvent.Tells r.cls)
      ((f.event? r.cls).filter PlanEvent.resolves) (f.note? r) := by
  cases f with
  | dropped op cause =>
    simpa [event?, PlanEvent.resolves, PlanEvent.level, PlanEvent.message] using .none
  | kept op plan => exact .none
  | renamed op plan =>
    simpa [event?, PlanEvent.resolves, PlanEvent.level, PlanEvent.message] using
      .some (.renamed op.name plan.generatedName _)
  | excluded op plan =>
    simpa [event?, PlanEvent.resolves, PlanEvent.level, PlanEvent.message] using
      .some (.excluded op.name plan.generatedName)

theorem code_of_warning? {cls : ClassMetadata} {f : Fate} {d : Diagnostic}
    (h : f.warning? cls = some d) : d.code = Diagnostic.unsupportedShape := by
  cases f with
  | dropped op cause => obtain rfl := Option.some.inj h; rfl
  | kept op plan => cases h
  | renamed op plan => cases h
  | excluded op plan => cases h

theorem code_of_note? {r : Resolver} {f : Fate} {d : Diagnostic} (h : f.note? r = some d) :
    d.code ≠ Diagnostic.unsupportedShape := by
  cases f with
  | dropped op cause => cases h
  | kept op plan => cases h
  | renamed op plan =>
    obtain rfl := Option.some.inj h
    have hne : Diagnostic.renamedOverload ≠ Diagnostic.unsupportedShape := by decide
    exact hne
  | excluded op plan =>
    obtain rfl := Option.some.inj h
    have hne : Diagnostic.excludedOverload ≠ Diagnostic.unsupportedShape := by decide
    exact hne

theorem levels_of_fates {cls : String} {fates : List Fate} {event : PlanEvent}
    (h : event ∈ fates.filterMap (event? cls)) : event.level = .warn ∨ event.level = .info := by
  obtain ⟨f, -, hf⟩ := List.mem_filterMap.1 h
  exact level_of_event? hf

theorem filter_events (cls : String) {p : PlanEvent → Bool} {last : PlanEvent}
    (h : p last = false) (fates : List Fate) :
    (fates.filterMap (event? cls) ++ [last]).filter p =
      fates.filterMap fun f => (f.event? cls).filter p := by
  rw [List.filter_append, List.filter_filterMap, List.filter_singleton, h]
  exact List.append_nil _

theorem filter_unsupported (cls : ClassMetadata) (r : Resolver) (fates : List Fate) :
    (fates.filterMap (warning? cls) ++ fates.filterMap (note? r)).filter
      (·.code = Diagnostic.unsupportedShape) = fates.filterMap (warning? cls) := by
  rw [List.filter_append, List.filter_eq_self.2, List.filter_eq_nil_iff.2, List.append_nil]
  · intro d hd
    obtain ⟨f, -, hf⟩ := List.mem_filterMap.1 hd
    simpa using code_of_note? hf
  · intro d hd
    obtain ⟨f, -, hf⟩ := List.mem_filterMap.1 hd
    simpa using code_of_warning? hf

theorem filter_supported (cls : ClassMetadata) (r : Resolver) (fates : List Fate) :
    (fates.filterMap (warning? cls) ++ fates.filterMap (note? r)).filter
      (·.code ≠ Diagnostic.unsupportedShape) = fates.filterMap (note? r) := by
  rw [List.filter_append, List.filter_eq_nil_iff.2, List.filter_eq_self.2, List.nil_append]
  · intro d hd
    obtain ⟨f, -, hf⟩ := List.mem_filterMap.1 hd
    simpa using code_of_note? hf
  · intro d hd
    obtain ⟨f, -, hf⟩ := List.mem_filterMap.1 hd
    simpa using code_of_warning? hf

end Fate

theorem forall₂_filterMap {α β γ : Type} {R : β → γ → Prop} {f : α → Option β} {g : α → Option γ}
    (h : ∀ x, Option.Rel R (f x) (g x)) (xs : List α) :
    List.Forall₂ R (xs.filterMap f) (xs.filterMap g) := by
  induction xs with
  | nil => exact .nil
  | cons x rest ih =>
    rw [filterMap_cons_toList, filterMap_cons_toList]
    refine List.rel_append ?_ ih
    have hx := h x
    generalize f x = b, g x = c at hx
    cases hx with
    | some hbc => exact .cons hbc .nil
    | none => exact .nil

/-! ## One step -/

namespace Resolver

variable {r r' : Resolver} {cls : ClassMetadata} {op : Operation} {plan : OperationPlan}

theorem error_of_push {e : PlanError} (h : r.push op plan = .error e) :
    ∃ name renamed, e = .nameTaken r.cls name renamed ∧
      r.events op plan.generatedName = [.taken r.cls name renamed] := by
  have hoffered := r.offered op plan
  unfold push at h
  generalize r.offer op plan = after at hoffered h
  cases hoffered with
  | keep free => cases h
  | rename taken policy free => cases h
  | exclude taken policy => cases h
  | fail taken policy taken' =>
    obtain rfl := Except.error.inj h
    refine ⟨_, _, rfl, ?_⟩
    simp only [events, verdict_eq_fail taken policy taken']

end Resolver

namespace ClassMetadata

variable {cls : ClassMetadata} {options : ClassOptions}

theorem Fates.events_eq {r : Resolver} {fate : Fate} {fates : List Fate} {plan : OperationPlan}
    (h : cls.Fates r.policy r.roster.names (fate :: fates))
    (htext : cls.requestedPlan fate.operation = .ok plan) :
    r.events fate.operation plan.generatedName = (fate.event? r.cls).toList := by
  cases h with
  | dropped text rest => cases text.symm.trans htext
  | kept text free rest =>
    obtain rfl := Except.ok.inj (text.symm.trans htext)
    have hfree := Resolver.not_holds_iff.2 free
    simp only [Resolver.events, Fate.operation, Resolver.verdict_eq_keep _ hfree]
    rfl
  | renamed text asked renames free rest =>
    obtain rfl := Except.ok.inj (text.symm.trans htext)
    have hasked := Roster.holds_iff.2 asked
    have hfree := Resolver.not_holds_iff.2 free
    simp only [Resolver.events, Fate.operation, Resolver.verdict_eq_rename hasked renames hfree]
    rfl
  | excluded text asked excludes rest =>
    obtain rfl := Except.ok.inj (text.symm.trans htext)
    have hasked := Roster.holds_iff.2 asked
    simp only [Resolver.events, Fate.operation, Resolver.verdict_eq_exclude _ hasked excludes]
    rfl

/-! ## The run -/

/-- How the planning of some operations goes: it meets the fates of all of them, or of those before
one whose name cannot be resolved, and logs these fates. -/
inductive Course (cls : ClassMetadata) (r : Resolver) (ops : List Operation) :
    List PlanEvent × Except PlanError Planning → Prop
  | completed {fates : List Fate} {state : Planning}
    (met : cls.Fates r.policy r.roster.names fates) (all : fates.map Fate.operation = ops) :
    Course cls r ops (fates.filterMap (Fate.event? r.cls), .ok state)
  | failed {fates : List Fate} {op : Operation} {rest : List Operation} {name renamed : String}
    (met : cls.Fates r.policy r.roster.names fates)
    (before : fates.map Fate.operation ++ op :: rest = ops) :
    Course cls r ops (fates.filterMap (Fate.event? r.cls) ++ [.taken r.cls name renamed],
      .error (.nameTaken r.cls name renamed))

theorem Course.cons {r r' : Resolver} {ops : List Operation} {fate : Fate}
    {run : List PlanEvent × Except PlanError Planning} (h : cls.Course r' ops run)
    (hcls : r'.cls = r.cls)
    (hmet : ∀ fates, cls.Fates r'.policy r'.roster.names fates →
      cls.Fates r.policy r.roster.names (fate :: fates)) :
    cls.Course r (fate.operation :: ops) ((fate.event? r.cls).toList ++ run.1, run.2) := by
  cases h with
  | completed met all =>
    rw [hcls, ← filterMap_cons_toList]
    exact .completed (hmet _ met) (congrArg (fate.operation :: ·) all)
  | failed met before =>
    rw [hcls, ← List.append_assoc, ← filterMap_cons_toList]
    exact .failed (hmet _ met) (congrArg (fate.operation :: ·) before)

/-- **The course of a run.**  Whatever operations are planned from whatever state, each is logged by
its fate, until one fails or there are no more. -/
theorem course_planAll (cls : ClassMetadata) (ops : List Operation) (state : Planning) :
    cls.Course state.resolver ops (cls.planAll state ops) := by
  induction ops generalizing state with
  | nil => exact .completed .nil rfl
  | cons op rest ih =>
    cases htext : cls.requestedPlan op with
    -- dropped before the resolver sees it, and logged as that
    | error cause =>
      have hmet : ∀ fates, cls.Fates state.resolver.policy state.resolver.roster.names fates →
          cls.Fates state.resolver.policy state.resolver.roster.names
            (.dropped op cause :: fates) := fun _ met => .dropped htext met
      rw [planAll_cons_of_error rest htext]
      exact (ih { state with dropped := state.dropped ++ [cls.droppedDiagnostic op cause] }).cons
        rfl hmet
    | ok plan =>
      cases hpush : state.resolver.push op plan with
      | error e =>
        obtain ⟨name, renamed, rfl, hevents⟩ := Resolver.error_of_push hpush
        rw [planAll_cons_of_taken rest htext hpush, hevents]
        -- the operation that fails has no fate, and the run comes to none after it
        have hmet : cls.Fates state.resolver.policy state.resolver.roster.names [] := .nil
        exact .failed hmet rfl
      | ok next =>
        obtain ⟨fate, rfl, -, -, -, hmet⟩ := Resolver.fate_of_push htext hpush
        -- what is logged depends on the fate of this operation only, whatever comes after
        have hevents := Fates.events_eq (hmet [] .nil) htext
        have hcls : next.cls = state.resolver.cls := (Resolver.settings_of_push hpush).1
        rw [planAll_cons_of_push rest htext hpush, hevents]
        exact (ih { state with resolver := next }).cons hcls hmet

/-- What is logged about a class and what comes of it: its own type has no text; or its operations
have a course to the end, and the plan is logged last; or the course fails. -/
inductive Traced (cls : ClassMetadata) (options : ClassOptions) :
    List PlanEvent × Except PlanError ClassPlan → Prop
  | ownerless {cause : UnsupportedShape} :
    Traced cls options ([], .error (.ownerType cls.name.qualified cause))
  | planned {fates : List Fate} {plan : ClassPlan} (met : cls.Fates options.policy [] fates)
    (all : fates.map Fate.operation = canonicalOrder cls.typeVars cls.operations) :
    Traced cls options (fates.filterMap (Fate.event? cls.name.qualified) ++
      [.planned plan.operations.length plan.diagnostics.length], .ok plan)
  | failed {fates : List Fate} {op : Operation} {rest : List Operation} {name renamed : String}
    (met : cls.Fates options.policy [] fates)
    (before : fates.map Fate.operation ++ op :: rest =
      canonicalOrder cls.typeVars cls.operations) :
    Traced cls options (fates.filterMap (Fate.event? cls.name.qualified) ++
      [.taken cls.name.qualified name renamed],
      .error (.nameTaken cls.name.qualified name renamed))

theorem traced (cls : ClassMetadata) (options : ClassOptions) :
    cls.Traced options (cls.events options, cls.plan options) := by
  change cls.Traced options (cls.planWithEvents options)
  unfold planWithEvents
  cases cls.ownerType with
  | error cause => exact .ownerless
  | ok owner =>
    have hcourse := cls.course_planAll (canonicalOrder cls.typeVars cls.operations)
      (cls.start options)
    dsimp only
    generalize cls.planAll _ _ = run at hcourse ⊢
    cases hcourse with
    | completed met all => exact .planned met all
    | failed met before => exact .failed met before

/-- What is logged about a class with a plan and the messages in the plan come from the same fates. -/
theorem fates_of_plan {plan : ClassPlan} (h : cls.plan options = .ok plan) :
    ∃ fates : List Fate, cls.Fates options.policy [] fates ∧
      fates.map Fate.operation = canonicalOrder cls.typeVars cls.operations ∧
      cls.events options = fates.filterMap (Fate.event? cls.name.qualified) ++
        [.planned plan.operations.length plan.diagnostics.length] ∧
      plan.diagnostics = fates.filterMap (Fate.warning? cls) ++
        fates.filterMap (Fate.note? (cls.resolver options)) := by
  obtain ⟨owner, r, -, hrun, rfl⟩ := plan_eq_ok_iff.1 h
  obtain ⟨fates, hfates, hops, -, hnotes, hdropped⟩ := fates_of_pushAll hrun
  have htraced := cls.traced options
  rw [h] at htraced
  generalize cls.events options = events at htraced ⊢
  cases htraced with
  | planned met all =>
    -- the fates that were logged and those that explain the entries are the same
    obtain rfl := met.unique hfates (all.trans hops.symm)
    refine ⟨_, met, all, rfl, ?_⟩
    simp only [finish]
    rw [hdropped, hnotes]
    rfl

theorem fates_of_nameTaken {c name renamed : String}
    (h : cls.plan options = .error (.nameTaken c name renamed)) :
    ∃ fates : List Fate, cls.Fates options.policy [] fates ∧
      cls.events options = fates.filterMap (Fate.event? cls.name.qualified) ++
        [.taken c name renamed] := by
  have htraced := cls.traced options
  rw [h] at htraced
  generalize cls.events options = events at htraced ⊢
  cases htraced with
  | failed met before => exact ⟨_, met, rfl⟩

theorem events_of_ownerType {c : String} {cause : UnsupportedShape}
    (h : cls.plan options = .error (.ownerType c cause)) : cls.events options = [] := by
  have htraced := cls.traced options
  rw [h] at htraced
  generalize cls.events options = events at htraced ⊢
  cases htraced with
  | ownerless => rfl

end ClassMetadata

open PlanEvent in
/-- **The log tells what the plan says.**  If a class has a plan, then what is logged about it is at
most one event for each operation, in canonical order, and the plan at the end, which is the only
record for debugging.  The warnings that an operation is dropped go together, one by one and in
order, with the messages about types without a text, and the records of renamed and excluded
operations with the other messages.  If a name cannot be resolved, the last record is an error with
the names of the result, after warnings and notes only; if the class itself has no text, nothing is
logged. -/
theorem trace_matches_plan (cls : ClassMetadata) (options : ClassOptions) :
    let text := cls.name.qualified
    let events := cls.events options
    (∀ plan, cls.plan options = .ok plan →
      (∃ fates : List Fate, cls.Fates options.policy [] fates ∧
        fates.map Fate.operation = canonicalOrder cls.typeVars cls.operations ∧
        events = fates.filterMap (Fate.event? text) ++
          [planned plan.operations.length plan.diagnostics.length]) ∧
      events.filter (·.level = .debug) =
        [planned plan.operations.length plan.diagnostics.length] ∧
      List.Forall₂ (Tells text) (events.filter drops)
        (plan.diagnostics.filter (·.code = Diagnostic.unsupportedShape)) ∧
      List.Forall₂ (Tells text) (events.filter resolves)
        (plan.diagnostics.filter (·.code ≠ Diagnostic.unsupportedShape))) ∧
    (∀ c name renamed, cls.plan options = .error (.nameTaken c name renamed) →
      ∃ told, events = told ++ [taken c name renamed] ∧
        ∀ event ∈ told, event.level = Log.Level.warn ∨ event.level = Log.Level.info) ∧
    (∀ c cause, cls.plan options = .error (.ownerType c cause) → events = []) := by
  intro text events
  refine ⟨fun plan hplan => ?_, fun c name renamed herror => ?_, fun c cause herror => ?_⟩
  · obtain ⟨fates, hfates, hops, hevents, hdiagnostics⟩ := ClassMetadata.fates_of_plan hplan
    refine ⟨⟨fates, hfates, hops, hevents⟩, ?_, ?_, ?_⟩
    · -- fates are warned or noted about, so the last record is the only one for debugging
      have hnone : (fates.filterMap (Fate.event? text)).filter (·.level = .debug) = [] := by
        refine List.filter_eq_nil_iff.2 fun event hevent => ?_
        rcases Fate.levels_of_fates hevent with hlevel | hlevel <;> simp [hlevel]
      rw [show events = _ from hevents, List.filter_append, hnone]
      rfl
    · -- the last record is no drop, and the messages about types are those of the drops
      have hdrops : drops (.planned plan.operations.length plan.diagnostics.length) = false := rfl
      rw [show events = _ from hevents, Fate.filter_events text hdrops, hdiagnostics,
        Fate.filter_unsupported]
      exact forall₂_filterMap (Fate.tells_warning cls) fates
    · have hresolves : resolves (.planned plan.operations.length plan.diagnostics.length) = false :=
        rfl
      rw [show events = _ from hevents, Fate.filter_events text hresolves, hdiagnostics,
        Fate.filter_supported]
      exact forall₂_filterMap (Fate.tells_note (cls.resolver options)) fates
  · obtain ⟨fates, -, hevents⟩ := ClassMetadata.fates_of_nameTaken herror
    exact ⟨_, hevents, fun event hevent => Fate.levels_of_fates hevent⟩
  · exact ClassMetadata.events_of_ownerType herror

/-- Of `of(int)`, `of(?)` and `of(String)` one is dropped and one renamed; the third of `of(Integer)`,
`of(String)` and `of(List)` cannot be renamed. -/
theorem mixedOverloads_trace :
    (∃ plan, mixedOverloads.plan {} = .ok plan ∧
      mixedOverloads.events {} = [.dropped "of" ⟨"java.lang.Object", .whole⟩,
        .renamed "com.example.Util" "of" "of$Obj",
        .planned plan.operations.length plan.diagnostics.length] ∧
      List.Forall₂ (PlanEvent.Tells "com.example.Util")
        [.dropped "of" ⟨"java.lang.Object", .whole⟩]
        (plan.diagnostics.filter (·.code = Diagnostic.unsupportedShape)) ∧
      List.Forall₂ (PlanEvent.Tells "com.example.Util")
        [.renamed "com.example.Util" "of" "of$Obj"]
        (plan.diagnostics.filter (·.code ≠ Diagnostic.unsupportedShape))) ∧
    ∃ told, objectOverloads.plan {} = .error (.nameTaken "com.example.Util" "of" "of$Obj") ∧
      objectOverloads.events {} = told ++ [.taken "com.example.Util" "of" "of$Obj"] := by
  constructor
  · have howner : mixedOverloads.ownerType = .ok "com.example.Util" := by with_unfolding_all rfl
    obtain ⟨first, hfirst, hof⟩ := Except.map_eq_ok.1 (show
      (mixedOverloads.requestedPlan (overloadOf (.primitive .int))).map
        OperationPlan.generatedName = .ok "of" by with_unfolding_all rfl)
    have htextless : mixedOverloads.requestedPlan (overloadOf .top) =
        .error ⟨"java.lang.Object", .whole⟩ := by with_unfolding_all rfl
    obtain ⟨last, hlast, hof'⟩ := Except.map_eq_ok.1 (show
      (mixedOverloads.requestedPlan (overloadOfClass "java.lang" "String")).map
        OperationPlan.generatedName = .ok "of" by with_unfolding_all rfl)
    have hfates : mixedOverloads.Fates .rename [] [.kept (overloadOf (.primitive .int)) first,
        .dropped (overloadOf .top) ⟨"java.lang.Object", .whole⟩,
        .renamed (overloadOfClass "java.lang" "String") last] := by
      refine .kept hfirst List.not_mem_nil (.dropped htextless (.renamed hlast ?_ rfl ?_ .nil))
      · rw [hof, hof']
        decide
      · rw [hof, hof']
        decide
    have hstart : (mixedOverloads.resolver {}).policy = .rename := rfl
    obtain ⟨r, hrun, -⟩ := ClassMetadata.pushAll_of_fates hfates hstart rfl
    have hordered : (mixedOverloads.resolver {}).pushAll (mixedOverloads.offers
        (canonicalOrder mixedOverloads.typeVars mixedOverloads.operations)) = .ok r := by
      rw [canonicalOrder_mixedOverloads]
      exact hrun
    have hplan := ClassMetadata.plan_eq_ok_iff.2 ⟨_, r, howner, hordered, rfl⟩
    obtain ⟨⟨fates, hmet, hall, hevents⟩, -, hdrops, hresolves⟩ :=
      (trace_matches_plan mixedOverloads {}).1 _ hplan
    obtain rfl := hmet.unique hfates (hall.trans canonicalOrder_mixedOverloads)
    have hname : (overloadOfClass "java.lang" "String").disambiguated "of" = "of$Obj" := by decide
    simp only [List.filterMap, Fate.event?, hof', hname] at hevents
    rw [hevents] at hdrops hresolves
    exact ⟨_, hplan, hevents, hdrops, hresolves⟩
  · obtain ⟨told, hevents, -⟩ :=
      (trace_matches_plan objectOverloads {}).2.1 _ _ _ plan_objectOverloads
    exact ⟨told, plan_objectOverloads, hevents⟩

end FunctionAdapters
