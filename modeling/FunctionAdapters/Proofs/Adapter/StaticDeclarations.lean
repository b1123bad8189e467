import FunctionAdapters.Order
import FunctionAdapters.Proofs.Adapter.Scoping
import FunctionAdapters.Proofs.Signature.Onward

/-!
# What a static operation declares

A static operation declares the variables that its parameters and its return type lead to.  It
mentions those that are written there, or in the clause of a variable that it mentions
(`MarkedPlan.Mentions`), and it may declare more: what stands behind a bound that is searched but
not written is declared without being mentioned (`hidden_variable_declared`).

`static_declared_iff` says that this is the only way.  A variable is mentioned if and only if
something leads on to it from the signature in writing (`mentions_iff`), and the declared ones are
these and those behind something hidden.
-/

namespace FunctionAdapters

variable {cls : ClassMetadata} {op : Operation} {m : MarkedPlan} {id : TypeVarId}

namespace MarkedPlan

/-- A variable is written in the return type or in a parameter, or in the clause of a variable that
is itself so mentioned. -/
inductive Mentions (m : MarkedPlan) : TypeVarId → Prop where
  | result {id : TypeVarId} (h : id ∈ Piece.typeVars m.returnType) : m.Mentions id
  | parameter {id : TypeVarId} {p : MarkedParameter} (hp : p ∈ m.parameters)
      (h : id ∈ p.typeVars) : m.Mentions id
  | clause {id : TypeVarId} {c : Clause} (hc : c ∈ m.clauses) (hm : m.Mentions c.id)
      (h : id ∈ Piece.typeVars c.bound) : m.Mentions id

theorem Mentions.mem_typeVars (h : m.Mentions id) : id ∈ m.typeVars := by
  simp only [typeVars, List.mem_append, List.mem_flatMap]
  cases h with
  | result h => exact .inl (.inl (.inr h))
  | parameter hp h => exact .inl (.inr ⟨_, hp, h⟩)
  | clause hc _ h => exact .inr ⟨_, hc, h⟩

end MarkedPlan

theorem Operation.Marks.mem_typeVars_iff {table : TypeVarTable} {p : Parameter}
    {mp : MarkedParameter} (h : op.Marks table p mp) :
    id ∈ mp.typeVars ↔ (⟨.whole, p.type⟩ : Placed).Shows id := by
  obtain ⟨hboxed, htype⟩ := h
  rw [← Placed.mem_typeVars_iff (p := ⟨.whole, p.type⟩) hboxed, MarkedParameter.typeVars,
    List.mem_append]
  refine or_iff_right_of_imp fun hid => ?_
  rw [htype] at hid
  cases hkeyword : op.keptKeyword? p.type with
  | none => rwa [hkeyword] at hid
  | some keyword =>
    rw [hkeyword] at hid
    cases hid

/-- A static operation declares what the types of its signature lead to. -/
theorem mem_relevantVars_iff_of_static {table : TypeVarTable} {classParams : List TypeVarId}
    (hs : op.isStatic = true) : id ∈ relevantVars table classParams op ↔
      ∃ s ∈ op.signatureTypes, table.Leads s (.typeVar id) := by
  rw [mem_relevantVars_iff, hs]
  simp [TypeVarTable.mem_reach_iff, Operation.signatureTypes, or_and_right, exists_or]

namespace ClassMetadata

/-! ## In the signature and in the clauses -/

theorem resultType_of_static (hs : op.isStatic = true) : cls.resultType op = op.returnType := by
  refine if_neg fun hk => ?_
  simp [Operation.isStatic, hk] at hs

theorem written_iff_of_static (h : cls.marks op = .ok m) (hs : op.isStatic = true) :
    (id ∈ Piece.typeVars m.returnType ∨ ∃ p ∈ m.parameters, id ∈ p.typeVars) ↔
      ∃ s ∈ op.signatureTypes, (⟨.whole, s⟩ : Placed).Shows id := by
  obtain ⟨_, -, -, hreturn, hparameters, -⟩ := parts_of_marks h
  rw [resultType_of_static hs] at hreturn
  rw [Placed.mem_typeVars_iff (p := ⟨.whole, op.returnType⟩) hreturn]
  unfold Operation.signatureTypes
  constructor
  · rintro (hid | ⟨mp, hmp, hid⟩)
    · exact ⟨op.returnType, List.mem_append_right _ (List.mem_singleton_self _), hid⟩
    · obtain ⟨p, hp, hmarks⟩ := exists_left_of_forall₂ hparameters hmp
      have hsig : p.type ∈ op.parameters.map Parameter.type := List.mem_map_of_mem hp
      exact ⟨p.type, List.mem_append_left _ hsig, hmarks.mem_typeVars_iff.1 hid⟩
  · rintro ⟨s, hsig, hid⟩
    rcases List.mem_append.1 hsig with hsig | hsig
    · obtain ⟨p, hp, rfl⟩ := List.mem_map.1 hsig
      obtain ⟨mp, hmp, hmarks⟩ := exists_right_of_forall₂ hparameters hp
      exact .inr ⟨mp, hmp, hmarks.mem_typeVars_iff.2 hid⟩
    · rw [List.mem_singleton.1 hsig] at hid
      exact .inl hid

theorem mem_clause_iff (h : cls.marks op = .ok m) {c : Clause} (hc : c ∈ m.clauses) :
    id ∈ Piece.typeVars c.bound ↔ ∃ param bound, cls.typeVars.get? c.id = some param ∧
      param.writtenBound = some bound ∧ (⟨.bound, bound⟩ : Placed).Shows id := by
  obtain ⟨_, -, hclauses, -⟩ := parts_of_marks h
  obtain ⟨x, -, hx⟩ := exists_left_of_forall₂ (Clause.forall₂_ofIds hclauses) hc
  obtain ⟨param, hparam, hbound⟩ := Clause.entry_of_ofId hx
  rw [← Clause.id_of_ofId hx] at hparam
  rw [TypeParam.mem_typeVars_boundPieces hbound]
  constructor
  · rintro ⟨bound, hwritten, hid⟩
    exact ⟨param, bound, hparam, hwritten, hid⟩
  · rintro ⟨other, bound, hother, hwritten, hid⟩
    obtain rfl := Option.some.inj (hparam.symm.trans hother)
    exact ⟨bound, hwritten, hid⟩

/-! ## What is mentioned -/

theorem writesOn_of_mentions (h : cls.marks op = .ok m) (hs : op.isStatic = true)
    (hid : m.Mentions id) : ∃ s ∈ op.signatureTypes, ∃ position,
      Placed.WritesOn cls.typeVars ⟨.whole, s⟩ ⟨position, .typeVar id⟩ := by
  have hsignature : ∀ {x}, (∃ s ∈ op.signatureTypes, (⟨.whole, s⟩ : Placed).Shows x) →
      ∃ s ∈ op.signatureTypes, ∃ position,
        Placed.WritesOn cls.typeVars ⟨.whole, s⟩ ⟨position, .typeVar x⟩ := by
    rintro x ⟨s, hsig, position, hx⟩
    exact ⟨s, hsig, position, hx.writesOn⟩
  induction hid with
  | result hid => exact hsignature ((written_iff_of_static h hs).1 (.inl hid))
  | parameter hp hid => exact hsignature ((written_iff_of_static h hs).1 (.inr ⟨_, hp, hid⟩))
  | clause hc _ hid ih =>
    obtain ⟨s, hsig, place, hwritten⟩ := ih
    obtain ⟨param, bound, hparam, hbound, position, hid⟩ := (mem_clause_iff h hc).1 hid
    have hstep := Placed.mem_onward_iff (p := ⟨place, .typeVar _⟩).2
      (.inr ⟨_, param, bound, rfl, hparam, hbound, rfl⟩)
    exact ⟨s, hsig, position, (hwritten.tail hstep).trans hid.writesOn⟩

/-- Of what is led to in writing, every variable that it shows is mentioned. -/
theorem mentions_of_writesOn (h : cls.marks op = .ok m) (hs : op.isStatic = true) {s : Shape}
    (hsig : s ∈ op.signatureTypes) {p : Placed}
    (hp : Placed.WritesOn cls.typeVars ⟨.whole, s⟩ p) (hid : p.Shows id) : m.Mentions id := by
  -- Along the way every variable that is shown is mentioned, so its clause mentions what its bound
  -- shows.
  induction hp generalizing id with
  | refl =>
    rcases (written_iff_of_static h hs).2 ⟨s, hsig, hid⟩ with hid | ⟨mp, hmp, hid⟩
    · exact .result hid
    · exact .parameter hmp hid
  | @tail outer q _ hstep ih =>
    rcases Placed.mem_onward_iff.1 hstep with hpart | ⟨x, param, bound, hx, hparam, hbound, rfl⟩
    · exact ih (hid.of_part hpart)
    · -- what is written next is the bound of a variable, which is shown here and so has a clause
      obtain ⟨position, _⟩ := outer
      obtain rfl := hx
      have hmentioned : m.Mentions x := ih (Placed.shows_typeVar position x)
      have hdeclared := mem_relevantVars_of_marks h hmentioned.mem_typeVars
      rw [← ids_of_marks h] at hdeclared
      obtain ⟨c, hc, rfl⟩ := List.mem_map.1 hdeclared
      exact .clause hc hmentioned ((mem_clause_iff h hc).2 ⟨param, bound, hparam, hbound, hid⟩)

/-- **Mentioned variables.**  They are those that the signature leads on to in writing. -/
theorem mentions_iff (h : cls.marks op = .ok m) (hs : op.isStatic = true) :
    m.Mentions id ↔ ∃ s ∈ op.signatureTypes, ∃ position,
      Placed.WritesOn cls.typeVars ⟨.whole, s⟩ ⟨position, .typeVar id⟩ := by
  refine ⟨writesOn_of_mentions h hs, ?_⟩
  rintro ⟨s, hsig, position, hwritten⟩
  exact mentions_of_writesOn h hs hsig hwritten (Placed.shows_typeVar position id)

end ClassMetadata

/-- **Static operations.**  A static operation declares what the types of its parameters and its
return type lead to.  These are the variables that it mentions, and those behind a bound that is
searched but not written. -/
theorem static_declared_iff {name : String} {plan : OperationPlan}
    (h : cls.planOperation op name = .ok plan) (hs : op.isStatic = true) :
    ∃ m : MarkedPlan, cls.marks op = .ok m ∧ plan = m.plan (cls.vocabulary op) op name ∧
      (∀ id, id ∈ m.clauses.map Clause.id ↔
        ∃ s ∈ op.signatureTypes, cls.typeVars.Leads s (.typeVar id)) ∧
      (∀ id, m.Mentions id ↔ ∃ s ∈ op.signatureTypes, ∃ position,
        Placed.WritesOn cls.typeVars ⟨.whole, s⟩ ⟨position, .typeVar id⟩) ∧
      ∀ id, id ∈ m.clauses.map Clause.id ↔ m.Mentions id ∨
        ∃ s ∈ op.signatureTypes, ∃ p, Placed.WritesOn cls.typeVars ⟨.whole, s⟩ p ∧
          ∃ b ∈ p.hidden cls.typeVars, cls.typeVars.Leads b (.typeVar id) := by
  obtain ⟨m, hm, rfl⟩ := ClassMetadata.planOperation_eq_ok_iff.1 h
  have hdeclared : ∀ id, id ∈ m.clauses.map Clause.id ↔
      ∃ s ∈ op.signatureTypes, cls.typeVars.Leads s (.typeVar id) := by
    intro id
    rw [ClassMetadata.ids_of_marks hm]
    exact mem_relevantVars_iff_of_static hs
  refine ⟨m, hm, rfl, hdeclared, fun id => ClassMetadata.mentions_iff hm hs, fun id => ?_⟩
  -- both sides speak of one type of the signature, from which everything is led to
  rw [hdeclared, ClassMetadata.mentions_iff hm hs, ← exists_or]
  refine exists_congr fun s => ?_
  rw [← and_or_left]
  exact and_congr_right fun _ => Placed.leads_iff (p := ⟨.whole, s⟩)

/-- The static method `<T, U extends List<T>> void clear(U target)`. -/
def clearMethod : Operation :=
  { kind := .staticMethod
    name := "clear"
    parameters := [⟨"target", .typeVar ⟨1⟩⟩]
    typeParams := [⟨0⟩, ⟨1⟩] }

def listsClass : ClassMetadata :=
  { name := ⟨"com.example", "Lists"⟩
    typeVars := ⟨[
      { name := "T" },
      { name := "U", upper := .ofClass ⟨"java.util", "List"⟩ [.typeVar ⟨0⟩] }]⟩ }

/-- `T` is declared because the bound of `U` mentions it. -/
theorem clear_mentions_bound :
    ∃ plan m, listsClass.planOperation clearMethod "clear" = .ok plan ∧
      listsClass.marks clearMethod = .ok m ∧
      plan.generics = ["M1 extends java.util.List<M0>", "M0"] ∧
      ⟨0⟩ ∈ m.clauses.map Clause.id ∧ m.Mentions ⟨0⟩ := by
  have hgenerics : (listsClass.planOperation clearMethod "clear").map (·.generics) =
      .ok ["M1 extends java.util.List<M0>", "M0"] := by with_unfolding_all rfl
  obtain ⟨plan, hplan, hclauses⟩ := Except.map_eq_ok.1 hgenerics
  obtain ⟨m, hm, -, -, hmentions, hdeclared⟩ := static_declared_iff hplan rfl
  have hmentioned : m.Mentions ⟨0⟩ := by
    refine (hmentions ⟨0⟩).2 ⟨.typeVar ⟨1⟩, List.mem_cons_self, .argument, ?_⟩
    exact .tail (.tail .refl (List.mem_singleton_self _)) (List.mem_singleton_self _)
  exact ⟨plan, m, hplan, hm, hclauses, (hdeclared ⟨0⟩).2 (.inl hmentioned), hmentioned⟩

/-! ### What is declared without being mentioned -/

/-- The static method `<T> void show(Comparable<T> & Serializable value)`. -/
def showMethod : Operation :=
  { kind := .staticMethod
    name := "show"
    parameters := [⟨"value", .intersection [
      .ofClass ⟨"java.lang", "Comparable"⟩ [.typeVar ⟨0⟩],
      .ofClass ⟨"java.io", "Serializable"⟩ []]⟩]
    typeParams := [⟨0⟩] }

def utilClass : ClassMetadata :=
  { name := ⟨"com.example", "Util"⟩
    typeVars := ⟨[{ name := "T" }]⟩ }

/-- **A hidden variable is declared.**  As the type of a parameter the intersection is written
`Comparable`, and nothing mentions the variable that is declared. -/
theorem hidden_variable_declared :
    showMethod.isStatic = true ∧
      (utilClass.planOperation showMethod "show").map (fun plan =>
          (plan.generics, plan.parameters.toList.map (·.type), plan.returnType)) =
        .ok (["M0"], ["Comparable"], "void") ∧
      ∃ m, utilClass.marks showMethod = .ok m ∧ m.clauses.map Clause.id = [⟨0⟩] ∧
        ∀ id, ¬ m.Mentions id := by
  have hm : utilClass.marks showMethod = .ok
      { adapter := [.words "Action1", .words "<", .words "Comparable", .words ">"]
        returnType := [.words "void"]
        parameters := [⟨"value", [.words "Comparable"], [.words "Comparable"]⟩]
        clauses := [⟨⟨0⟩, []⟩] } := by with_unfolding_all rfl
  refine ⟨rfl, by with_unfolding_all rfl, _, hm, rfl, fun id hid => ?_⟩
  cases hid with
  | result h => cases h
  | parameter hp h =>
    rw [List.mem_singleton.1 hp] at h
    cases h
  | clause hc _ h =>
    rw [List.mem_singleton.1 hc] at h
    cases h

end FunctionAdapters
