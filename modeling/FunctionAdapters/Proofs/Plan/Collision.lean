import FunctionAdapters.Proofs.Adapter.Marks
import FunctionAdapters.Proofs.Naming.Disambiguated
import FunctionAdapters.Proofs.Plan.Fates

/-!
# When renaming fails

Suppose that no operation of a class asks for a name with a dollar sign.  Then the names that a
renaming resolver holds fall into two kinds that cannot be confused (`Held`): the names that were
asked for, and the disambiguated names of those operations that came too late for theirs.  So an
operation fails exactly when it comes too late itself and repeats the tags of one that did so before
(`Repeats`), and the first such operation ends the run: `pushAll_of_held`.

The main statement is `rename_fails_iff`.
-/

namespace FunctionAdapters

namespace ClassMetadata

variable {cls : ClassMetadata} {options : ClassOptions}

/-- The operations that have a plan, in canonical order. -/
def candidates (cls : ClassMetadata) : List Operation :=
  (canonicalOrder cls.typeVars cls.operations).filter fun op => (cls.requestedPlan op).isOk

/-- An operation among others that asks for a name for which an earlier one asked. -/
def Later (cls : ClassMetadata) (ops : List Operation) (op : Operation) : Prop :=
  ∃ first, [first, op].Sublist ops ∧ cls.requestedName first = cls.requestedName op

/-- After some operations, one that asks for the name of a later one among them, and has its
tags. -/
def Repeats (cls : ClassMetadata) (ops : List Operation) (op : Operation) : Prop :=
  ∃ later, cls.Later ops later ∧ cls.requestedName later = cls.requestedName op ∧
    later.kindTags = op.kindTags

/-! ## Operations that come later -/

theorem later_append_iff {ops : List Operation} {a b : Operation} :
    cls.Later (ops ++ [a]) b ↔
      cls.Later ops b ∨ b = a ∧ cls.requestedName a ∈ ops.map cls.requestedName := by
  constructor
  · rintro ⟨first, hsub, hname⟩
    obtain ⟨xs, ys, heq, hxs, hys⟩ := List.sublist_append_iff.1 hsub
    -- how many of the two lie in `ops`: none, the first, or both
    match xs, heq with
    | [], heq =>
      rw [List.nil_append] at heq
      have hlength := hys.length_le
      simp [← heq] at hlength
    | [x], heq =>
      obtain ⟨rfl, rfl⟩ : first = x ∧ [b] = ys := by simpa using heq
      obtain rfl : b = a := List.mem_singleton.1 (List.singleton_sublist.1 hys)
      refine .inr ⟨rfl, ?_⟩
      rw [← hname]
      exact List.mem_map_of_mem (List.singleton_sublist.1 hxs)
    | x :: y :: zs, heq =>
      obtain ⟨rfl, rfl, hnil⟩ : first = x ∧ b = y ∧ [] = zs ++ ys := by simpa using heq
      obtain ⟨rfl, rfl⟩ := List.append_eq_nil_iff.1 hnil.symm
      exact .inl ⟨first, hxs, hname⟩
  · rintro (⟨first, hsub, hname⟩ | ⟨rfl, hmem⟩)
    · exact ⟨first, hsub.trans (List.sublist_append_left ops [a]), hname⟩
    · obtain ⟨first, hfirst, hname⟩ := List.mem_map.1 hmem
      exact ⟨first, (List.singleton_sublist.2 hfirst).append (List.Sublist.refl [b]), hname⟩

theorem Later.mem {ops : List Operation} {op : Operation} (h : cls.Later ops op) : op ∈ ops := by
  obtain ⟨first, hsub, -⟩ := h
  exact hsub.subset (by simp)

/-- Among some operations one repeats another exactly if three of them ask for one name and the last
two of these have the same tags. -/
theorem exists_repeats_iff {ops : List Operation} :
    (∃ before op after, ops = before ++ op :: after ∧ cls.Repeats before op) ↔
      ∃ a b c, [a, b, c].Sublist ops ∧ cls.requestedName a = cls.requestedName c ∧
        cls.requestedName b = cls.requestedName c ∧ b.kindTags = c.kindTags := by
  constructor
  · rintro ⟨before, c, after, rfl, b, ⟨a, hsub, hab⟩, hbc, htags⟩
    exact ⟨a, b, c, hsub.append (List.singleton_sublist.2 List.mem_cons_self), hab.trans hbc, hbc,
      htags⟩
  · rintro ⟨a, b, c, hsub, hac, hbc, htags⟩
    have hparts : ([a, b] ++ [c]).Sublist ops := hsub
    obtain ⟨xs, ys, rfl, hxs, hys⟩ := List.append_sublist_iff.1 hparts
    obtain ⟨us, vs, rfl⟩ := List.append_of_mem (List.singleton_sublist.1 hys)
    refine ⟨xs ++ us, c, vs, by simp, b, ⟨a, ?_, hac.trans hbc.symm⟩, hbc, htags⟩
    exact hxs.trans (List.sublist_append_left xs us)

/-! ## The names that are held -/

/-- A renaming resolver after some operations: it holds the names that were asked for, and the
disambiguated names of the operations that came later. -/
structure Held (cls : ClassMetadata) (r : Resolver) (ops : List Operation) : Prop where
  policy : r.policy = .rename
  holds_iff : ∀ name, r.roster.holds name = true ↔
    name ∈ ops.map cls.requestedName ∨
      ∃ op, cls.Later ops op ∧ op.disambiguated (cls.requestedName op) = name

/-- No operation among these asks for a name with a dollar sign. -/
def DollarFree (cls : ClassMetadata) (ops : List Operation) : Prop :=
  ∀ op ∈ ops, '$' ∉ (cls.requestedName op).toList

theorem Held.start (cls : ClassMetadata) (h : options.policy = .rename) :
    cls.Held (cls.resolver options) [] := by
  refine ⟨h, fun name => ?_⟩
  simp [resolver, Roster.holds, Roster.names, Later]

section

variable {r : Resolver} {ops : List Operation} {op : Operation}

theorem Held.holds_of_dollarFree (held : cls.Held r ops) {name : String}
    (hname : '$' ∉ name.toList) :
    r.roster.holds name = true ↔ name ∈ ops.map cls.requestedName := by
  rw [held.holds_iff]
  refine or_iff_left ?_
  rintro ⟨b, -, rfl⟩
  exact hname (b.dollar_mem_disambiguated _)

theorem Held.holds_disambiguated (held : cls.Held r ops) (hops : cls.DollarFree ops)
    (hop : '$' ∉ (cls.requestedName op).toList) :
    r.roster.holds (op.disambiguated (cls.requestedName op)) = true ↔ cls.Repeats ops op := by
  rw [held.holds_iff]
  constructor
  · rintro (hasked | ⟨b, hlater, heq⟩)
    · obtain ⟨a, ha, hname⟩ := List.mem_map.1 hasked
      refine absurd (op.dollar_mem_disambiguated (cls.requestedName op)) ?_
      rw [← hname]
      exact hops a ha
    · obtain ⟨hname, htags⟩ := (Operation.disambiguated_inj (hops b hlater.mem) hop).1 heq
      exact ⟨b, hlater, hname, htags⟩
  · rintro ⟨b, hlater, hname, htags⟩
    exact .inr ⟨b, hlater, (Operation.disambiguated_inj (hops b hlater.mem) hop).2 ⟨hname, htags⟩⟩

theorem Repeats.asked (h : cls.Repeats ops op) :
    cls.requestedName op ∈ ops.map cls.requestedName := by
  obtain ⟨b, hlater, hname, -⟩ := h
  rw [← hname]
  exact List.mem_map_of_mem hlater.mem

theorem Repeats.two_le_length (h : cls.Repeats ops op) : 2 ≤ ops.length := by
  obtain ⟨b, ⟨first, hsub, -⟩, -⟩ := h
  exact hsub.length_le

theorem holds_of_names_append {r r' : Resolver} {new name : String}
    (h : r'.roster.names = r.roster.names ++ [new]) :
    r'.roster.holds name = true ↔ r.roster.holds name = true ∨ name = new := by
  rw [Roster.holds_iff, Roster.holds_iff, h, List.mem_append, List.mem_singleton]

theorem Held.keep {r' : Resolver} (held : cls.Held r ops) (hpolicy : r'.policy = r.policy)
    (hfirst : cls.requestedName op ∉ ops.map cls.requestedName)
    (hnames : r'.roster.names = r.roster.names ++ [cls.requestedName op]) :
    cls.Held r' (ops ++ [op]) := by
  refine ⟨hpolicy.trans held.policy, fun name => ?_⟩
  rw [holds_of_names_append hnames, held.holds_iff]
  simp only [later_append_iff, hfirst, and_false, or_false, List.map_append, List.mem_append,
    List.map_cons, List.map_nil, List.mem_singleton]
  exact or_right_comm

theorem Held.rename {r' : Resolver} (held : cls.Held r ops) (hpolicy : r'.policy = r.policy)
    (hasked : cls.requestedName op ∈ ops.map cls.requestedName)
    (hnames : r'.roster.names = r.roster.names ++ [op.disambiguated (cls.requestedName op)]) :
    cls.Held r' (ops ++ [op]) := by
  refine ⟨hpolicy.trans held.policy, fun name => ?_⟩
  rw [holds_of_names_append hnames, held.holds_iff]
  simp only [later_append_iff, hasked, and_true, List.map_append, List.mem_append,
    List.map_cons, List.map_nil, List.mem_singleton]
  constructor
  · -- the disambiguated name is new, and belongs to `op`
    rintro ((hname | ⟨b, hlater, hname⟩) | rfl)
    · exact .inl (.inl hname)
    · exact .inr ⟨b, .inl hlater, hname⟩
    · exact .inr ⟨op, .inr rfl, rfl⟩
  · rintro ((hname | rfl) | ⟨b, hlater | rfl, hname⟩)
    · exact .inl (.inl hname)
    · exact .inl (.inl hasked)
    · exact .inl (.inr ⟨b, hlater, hname⟩)
    · exact .inr hname.symm

/-- **One step.**  An operation that repeats another fails, and any other is taken. -/
theorem Held.push (held : cls.Held r ops) (hops : cls.DollarFree ops)
    (hop : '$' ∉ (cls.requestedName op).toList) {plan : OperationPlan}
    (hplan : plan.generatedName = cls.requestedName op) :
    cls.Repeats ops op ∧ r.push op plan = .error
        (.nameTaken r.cls (cls.requestedName op) (op.disambiguated (cls.requestedName op))) ∨
      ¬ cls.Repeats ops op ∧ ∃ r', r.push op plan = .ok r' ∧ cls.Held r' (ops ++ [op]) := by
  have hoffered := r.offered op plan
  unfold Resolver.push
  generalize r.offer op plan = after at hoffered ⊢
  -- the four ways an offer can end; a renaming resolver excludes nobody
  cases hoffered with
  | keep free =>
    rw [hplan] at free
    have hfirst : cls.requestedName op ∉ ops.map cls.requestedName := by
      rw [← held.holds_of_dollarFree hop, free]
      exact Bool.false_ne_true
    refine .inr ⟨fun h => hfirst h.asked, _, rfl, held.keep rfl hfirst ?_⟩
    simp [Roster.names, hplan, Roster.entries_insert free]
  | rename taken policy free =>
    rw [hplan] at taken free
    have hnot : ¬ cls.Repeats ops op := by
      rw [← held.holds_disambiguated hops hop, free]
      exact Bool.false_ne_true
    refine .inr ⟨hnot, _, rfl, held.rename rfl ((held.holds_of_dollarFree hop).1 taken) ?_⟩
    simp [Roster.names, hplan, Roster.entries_insert free]
  | exclude taken policy =>
    rw [held.policy] at policy
    cases policy
  | fail taken policy taken' =>
    rw [hplan] at taken'
    -- the disambiguated name is held only if an earlier overload has the same tags
    refine .inl ⟨(held.holds_disambiguated hops hop).1 taken', ?_⟩
    rw [hplan]
    rfl

end

/-! ## The run -/

/-- None of some operations that come after others repeats one before it. -/
def RepeatFree (cls : ClassMetadata) (done ops : List Operation) : Prop :=
  ∀ before op after, ops = before ++ op :: after → ¬ cls.Repeats (done ++ before) op

theorem repeatFree_nil (done : List Operation) : cls.RepeatFree done [] := by
  intro before op after h
  exact absurd h.symm (by simp)

theorem repeatFree_cons {done ops : List Operation} {op : Operation}
    (hop : ¬ cls.Repeats done op) (hops : cls.RepeatFree (done ++ [op]) ops) :
    cls.RepeatFree done (op :: ops) := by
  intro before o after h
  cases before with
  | nil =>
    obtain ⟨rfl, -⟩ := List.cons.inj h
    rwa [List.append_nil]
  | cons first before =>
    obtain ⟨rfl, hrest⟩ := List.cons.inj h
    rw [List.append_cons]
    exact hops before o after hrest

/-- **The whole run.**  Offers fail at the first operation that repeats one before it, and are taken
if there is none. -/
theorem pushAll_of_held {offers : List (Operation × OperationPlan)} {r : Resolver}
    {done : List Operation} (held : cls.Held r done)
    (hfree : cls.DollarFree (done ++ offers.map Prod.fst))
    (hnames : ∀ o ∈ offers, o.2.generatedName = cls.requestedName o.1) :
    (∃ before op after, offers.map Prod.fst = before ++ op :: after ∧
        cls.Repeats (done ++ before) op ∧ cls.RepeatFree done before ∧
        r.pushAll offers = .error
          (.nameTaken r.cls (cls.requestedName op) (op.disambiguated (cls.requestedName op)))) ∨
      cls.RepeatFree done (offers.map Prod.fst) ∧ ∃ r', r.pushAll offers = .ok r' := by
  -- the invariant is what the resolver holds after the operations in `done`
  induction offers generalizing r done with
  | nil => exact .inr ⟨repeatFree_nil done, r, rfl⟩
  | cons offer rest ih =>
    obtain ⟨op, plan⟩ := offer
    have hdone : cls.DollarFree done := fun o ho => hfree o (List.mem_append_left _ ho)
    have hop : '$' ∉ (cls.requestedName op).toList := hfree op (by simp)
    have hplan : plan.generatedName = cls.requestedName op := hnames (op, plan) (by simp)
    rw [List.map_cons]
    rcases held.push hdone hop hplan with ⟨hrepeats, hpush⟩ | ⟨hnot, next, hpush, hnext⟩
    · -- the first offer already repeats one that is done
      refine .inl ⟨[], op, rest.map Prod.fst, rfl, ?_, repeatFree_nil done, ?_⟩
      · rwa [List.append_nil]
      · simp only [Resolver.pushAll, hpush]
    · -- it is taken, and joins the operations that are done
      have hrun : r.pushAll ((op, plan) :: rest) = next.pushAll rest := by
        simp only [Resolver.pushAll, hpush]
      rw [hrun, ← (Resolver.settings_of_push hpush).1]
      rw [List.map_cons, List.append_cons] at hfree
      rcases ih hnext hfree fun o ho => hnames o (List.mem_cons_of_mem _ ho) with
        ⟨before, o, after, hsplit, hrepeats, hbefore, herror⟩ | ⟨hall, hok⟩
      · refine .inl ⟨op :: before, o, after, ?_, ?_, repeatFree_cons hnot hbefore, herror⟩
        · rw [hsplit, List.cons_append]
        · rwa [List.append_cons]
      · exact .inr ⟨repeatFree_cons hnot hall, hok⟩

/-! ## Candidates and offers -/

theorem fst_offers (ops : List Operation) :
    (cls.offers ops).map Prod.fst = ops.filter fun op => (cls.requestedPlan op).isOk := by
  induction ops with
  | nil => rfl
  | cons op rest ih =>
    cases htext : cls.requestedPlan op with
    | error cause =>
      rw [offers_cons_of_error rest htext, ih, List.filter_cons_of_neg]
      simp [htext, Except.isOk, Except.toBool]
    | ok plan =>
      rw [offers_cons_of_ok rest htext, List.map_cons, ih, List.filter_cons_of_pos]
      simp [htext, Except.isOk, Except.toBool]

theorem generatedName_of_mem_offers {ops : List Operation} {o : Operation × OperationPlan}
    (h : o ∈ cls.offers ops) : o.2.generatedName = cls.requestedName o.1 := by
  obtain ⟨op, -, hop⟩ := List.mem_filterMap.1 h
  obtain ⟨hplan, rfl⟩ := offer?_eq_some.1 hop
  exact generatedName_of_planOperation hplan

theorem DollarFree.candidates (h : cls.DollarFree cls.operations) :
    cls.DollarFree cls.candidates := by
  intro op hop
  exact h op ((canonicalOrder_perm _ _).mem_iff.1 (List.mem_of_mem_filter hop))

theorem eq_nil_of_repeats {before between after after' : List Operation} {op op' : Operation}
    (hop : cls.Repeats before op) (hfree : cls.RepeatFree [] (before ++ between))
    (h : op :: after = between ++ op' :: after') : between = [] ∧ op = op' := by
  cases between with
  | nil => exact ⟨rfl, (List.cons.inj h).1⟩
  | cons x rest =>
    obtain ⟨rfl, -⟩ := List.cons.inj h
    exact absurd hop (hfree before op rest rfl)

theorem first_repeat_unique {before before' after after' : List Operation} {op op' : Operation}
    (h : before ++ op :: after = before' ++ op' :: after')
    (hop : cls.Repeats before op) (hop' : cls.Repeats before' op')
    (hbefore : cls.RepeatFree [] before) (hbefore' : cls.RepeatFree [] before') :
    before = before' ∧ op = op' := by
  rcases List.append_eq_append_iff.1 h with ⟨between, rfl, heq⟩ | ⟨between, rfl, heq⟩
  · obtain ⟨rfl, rfl⟩ := eq_nil_of_repeats hop hbefore' heq
    exact ⟨(List.append_nil before).symm, rfl⟩
  · obtain ⟨rfl, rfl⟩ := eq_nil_of_repeats hop' hbefore heq
    exact ⟨List.append_nil before', rfl⟩

end ClassMetadata

/-- **When renaming fails.**  Suppose that a class can be written and that no operation asks for a
name with a dollar sign.  Under renaming the class has no plan if and only if three operations with
a plan ask for one name and the last two of them have the same tags; the error names the first
operation that repeats the tags of a later one. -/
theorem rename_fails_iff {cls : ClassMetadata} {options : ClassOptions} {owner : String}
    (howner : cls.ownerType = .ok owner) (hpolicy : options.policy = .rename)
    (hdollar : ∀ op ∈ cls.operations, '$' ∉ (cls.requestedName op).toList) :
    ((∃ text name renamed, cls.plan options = .error (.nameTaken text name renamed)) ↔
      ∃ a b c, [a, b, c].Sublist cls.candidates ∧
        cls.requestedName a = cls.requestedName c ∧ cls.requestedName b = cls.requestedName c ∧
        b.kindTags = c.kindTags) ∧
    ∀ before op after, cls.candidates = before ++ op :: after → cls.Repeats before op →
      (∀ earlier o later, before = earlier ++ o :: later → ¬ cls.Repeats earlier o) →
      cls.plan options = .error (.nameTaken cls.name.qualified (cls.requestedName op)
        (cls.requestedName op ++ "$" ++ "_".intercalate (op.kindTags.map KindTag.text))) := by
  have hcandidates : (cls.offers (canonicalOrder cls.typeVars cls.operations)).map Prod.fst =
      cls.candidates := ClassMetadata.fst_offers _
  have hfree : cls.DollarFree ([] ++ cls.candidates) :=
    ClassMetadata.DollarFree.candidates hdollar
  rw [← hcandidates] at hfree
  have hrun := ClassMetadata.pushAll_of_held (ClassMetadata.Held.start cls hpolicy) hfree
    fun o ho => ClassMetadata.generatedName_of_mem_offers ho
  have hplan := cls.plan_eq options
  simp only [howner] at hplan
  rw [hcandidates] at hrun
  -- the run stops at the first candidate that repeats one, or there is none
  rcases hrun with ⟨first, o, rest, hsplit, hrepeats, hfirst, herror⟩ | ⟨hnone, r, hok⟩
  · rw [herror] at hplan
    constructor
    · refine iff_of_true ⟨_, _, _, hplan⟩ ?_
      exact ClassMetadata.exists_repeats_iff.1 ⟨first, o, rest, hsplit, hrepeats⟩
    · intro before op after heq hop hbefore
      -- the candidate at which the run stops is the one that was named
      obtain ⟨rfl, rfl⟩ := ClassMetadata.first_repeat_unique (hsplit.symm.trans heq)
        hrepeats hop hfirst hbefore
      exact hplan
  · rw [hok] at hplan
    constructor
    · refine iff_of_false ?_ ?_
      · rintro ⟨_, _, _, h⟩
        rw [hplan] at h
        cases h
      · intro h
        obtain ⟨before, op, after, heq, hop⟩ := ClassMetadata.exists_repeats_iff.2 h
        exact hnone before op after heq hop
    · intro before op after heq hop _
      exact absurd hop (hnone before op after heq)

def overloadOfClass (package simple : String) : Operation :=
  overloadOf (.ofClass ⟨package, simple⟩ [])

/-- A class with the overloads `of(Integer)`, `of(String)` and `of(List)`. -/
def objectOverloads : ClassMetadata :=
  { name := ⟨"com.example", "Util"⟩
    operations := [overloadOfClass "java.lang" "Integer", overloadOfClass "java.lang" "String",
      overloadOfClass "java.util" "List"] }

theorem canonicalOrder_objectOverloads :
    canonicalOrder objectOverloads.typeVars objectOverloads.operations =
      objectOverloads.operations :=
  canonicalOrder_overloads (by decide) (by decide) (by decide)

theorem plan_objectOverloads :
    objectOverloads.plan {} = .error (.nameTaken "com.example.Util" "of" "of$Obj") := by
  have hrun : (objectOverloads.plan {}).map (fun _ => ()) =
      .error (.nameTaken "com.example.Util" "of" "of$Obj") := by
    rw [ClassMetadata.plan_eq, canonicalOrder_objectOverloads]
    with_unfolding_all rfl
  exact Except.map_eq_error.1 hrun

theorem objectOverloads_candidates : objectOverloads.candidates = objectOverloads.operations := by
  rw [ClassMetadata.candidates, canonicalOrder_objectOverloads, List.filter_eq_self]
  simp only [objectOverloads, List.mem_cons, List.not_mem_nil, or_false, forall_eq_or_imp,
    forall_eq]
  refine ⟨by with_unfolding_all rfl, by with_unfolding_all rfl, by with_unfolding_all rfl⟩

/-- Two of three overloads would get the tag of an object. -/
theorem objectOverloads_fail :
    (∀ op ∈ objectOverloads.operations, '$' ∉ (objectOverloads.requestedName op).toList) ∧
      objectOverloads.plan {} = .error (.nameTaken "com.example.Util" "of" "of$Obj") := by
  have howner : objectOverloads.ownerType = .ok "com.example.Util" := by with_unfolding_all rfl
  have hnames : ∀ op ∈ objectOverloads.operations, objectOverloads.requestedName op = "of" := by
    simp [objectOverloads, overloadOfClass, requestedName_overloadOf]
  have hdollar : ∀ op ∈ objectOverloads.operations,
      '$' ∉ (objectOverloads.requestedName op).toList := by
    intro op hop
    rw [hnames op hop]
    decide
  have hfirst : objectOverloads.requestedName (overloadOfClass "java.lang" "Integer") = "of" :=
    requestedName_overloadOf _ _
  have hsecond : objectOverloads.requestedName (overloadOfClass "java.lang" "String") = "of" :=
    requestedName_overloadOf _ _
  have hthird : objectOverloads.requestedName (overloadOfClass "java.util" "List") = "of" :=
    requestedName_overloadOf _ _
  have hrepeats : objectOverloads.Repeats
      [overloadOfClass "java.lang" "Integer", overloadOfClass "java.lang" "String"]
      (overloadOfClass "java.util" "List") :=
    ⟨overloadOfClass "java.lang" "String", ⟨_, .refl _, hfirst.trans hsecond.symm⟩,
      hsecond.trans hthird.symm, rfl⟩
  -- a repeat needs two operations before it
  have hearliest : ∀ earlier o later,
      [overloadOfClass "java.lang" "Integer", overloadOfClass "java.lang" "String"] =
        earlier ++ o :: later → ¬ objectOverloads.Repeats earlier o := by
    intro earlier o later hsplit hearlier
    have hlong := hearlier.two_le_length
    have hlength := congrArg List.length hsplit
    simp only [List.length_append, List.length_cons, List.length_nil] at hlength
    omega
  have hrename : ({} : ClassOptions).policy = .rename := rfl
  have hfail := (rename_fails_iff howner hrename hdollar).2
    [overloadOfClass "java.lang" "Integer", overloadOfClass "java.lang" "String"]
    (overloadOfClass "java.util" "List") [] objectOverloads_candidates hrepeats hearliest
  rw [hthird] at hfail
  exact ⟨hdollar, hfail⟩

end FunctionAdapters
