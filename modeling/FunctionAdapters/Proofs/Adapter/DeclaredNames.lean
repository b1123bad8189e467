import FunctionAdapters.Proofs.Adapter.Owner
import FunctionAdapters.Proofs.Plan.Renaming
import FunctionAdapters.Proofs.Signature.DeclaredNames

/-!
# Declared names in a plan

Tables that differ in declared names give an operation the same plan in pieces
(`marks_withTable`), so whether it has a plan does not depend on the names.  A plan writes relevant
variables only, and those that the class or the operation reaches by the names that they were given.
So a declared name shows in a plan exactly if a relevant variable was given no name: the main
statement is `declared_names_hidden`.
-/

namespace FunctionAdapters

variable {table other : TypeVarTable} {cls : ClassMetadata} {op : Operation} {name : String}

/-! ## The plan in pieces -/

theorem Shape.toOption_parameterPieces (h : table.SameBounds other) (s : Shape) :
    (s.parameterPieces other).toOption = (s.parameterPieces table).toOption := by
  cases s with
  | primitive p => rfl
  | _ => exact toOption_pieces h .whole _

namespace Operation

theorem toOption_markParameter (op : Operation) (h : table.SameBounds other) (index : Nat)
    (p : Parameter) :
    (op.markParameter other index p).toOption = (op.markParameter table index p).toOption := by
  unfold markParameter
  rw [Except.toOption_bind, Except.toOption_bind, Shape.toOption_pieces h]
  congr 1
  funext boxed
  split
  · rfl
  · rw [Except.toOption_bind, Except.toOption_bind, Shape.toOption_parameterPieces h]

theorem toOption_markParameters (op : Operation) (h : table.SameBounds other) (index : Nat)
    (ps : List Parameter) :
    (op.markParameters other index ps).toOption = (op.markParameters table index ps).toOption := by
  induction ps generalizing index with
  | nil => rfl
  | cons p rest ih =>
    unfold markParameters
    simp only [Except.toOption_bind, op.toOption_markParameter h, ih]

end Operation

namespace ClassMetadata

/-- **The plan in pieces** does not depend on declared names. -/
theorem marks_withTable (h : cls.typeVars.SameBounds table) {m : MarkedPlan} :
    (cls.withTable table).marks op = .ok m ↔ cls.marks op = .ok m := by
  have hmarks : ((cls.withTable table).marks op).toOption = (cls.marks op).toOption := by
    unfold marks
    simp only [typeVars_withTable, typeParams_withTable, selfType_withTable, h.relevantVars,
      Except.toOption_bind, Clause.toOption_ofIds h, Shape.toOption_pieces h]
    split <;>
      simp only [Except.toOption_bind, op.toOption_markParameters h, Shape.toOption_pieces h]
  rw [← Except.toOption_eq_some, hmarks, Except.toOption_eq_some]

/-! ## Its words -/

theorem names_withTable (h : cls.typeVars.SameBounds table) (op : Operation) :
    ((cls.withTable table).vocabulary op).names = (cls.vocabulary op).names :=
  h.forOperation cls.typeParams op.typeParams

theorem called_withTable (h : cls.typeVars.SameBounds table) {x : TypeVarId}
    (hx : x ∈ cls.namedVars op) :
    ((cls.withTable table).vocabulary op).called x = (cls.vocabulary op).called x := by
  obtain ⟨given, hgiven⟩ := mem_namedVars_iff.1 hx
  have hgiven' : ((cls.withTable table).vocabulary op).names.get? x = some given := by
    rw [names_withTable h, hgiven]
  cases hparam : cls.typeVars.get? x with
  | none =>
    have hother : ((cls.withTable table).vocabulary op).table.get? x = none := h.get?_eq_none hparam
    have hthis : (cls.vocabulary op).table.get? x = none := hparam
    rw [Vocabulary.called, hother, Vocabulary.called, hthis]
    rfl
  | some p =>
    obtain ⟨q, hq, -⟩ := h.get?_eq_some hparam
    have hcalled : ((cls.withTable table).vocabulary op).called x = given.text :=
      called_of_name hq hgiven'
    rw [hcalled, called_of_name hparam hgiven]

theorem called_define {x : TypeVarId} {p : TypeParam} (hparam : cls.typeVars.get? x = some p)
    (hx : x ∉ cls.namedVars op) (text : String) :
    ((cls.withTable (cls.typeVars.define x { p with name := text })).vocabulary op).called x =
      text := by
  have hsame := TypeVarTable.sameBounds_define hparam text
  have hentry : (cls.typeVars.define x { p with name := text }).get? x =
      some { p with name := text } :=
    List.getElem?_set_self (List.getElem?_eq_some_iff.1 hparam).1
  have hnone : ((cls.withTable (cls.typeVars.define x { p with name := text })).vocabulary
      op).names.get? x = none := by
    rw [names_withTable hsame]
    exact get?_names_eq_none.2 hx
  exact called_of_no_name hentry hnone

end ClassMetadata

theorem MarkedPlan.plan_congr {v w : Vocabulary} {m : MarkedPlan}
    (hvars : ∀ id ∈ m.typeVars, v.called id = w.called id)
    (hids : ∀ id ∈ m.clauses.map Clause.id, v.called id = w.called id) :
    m.plan v op name = m.plan w op name := by
  simp only [typeVars, List.mem_append, List.mem_flatMap] at hvars
  have hadapter : Piece.text v m.adapter = Piece.text w m.adapter :=
    Piece.text_congr fun id hid => hvars id (.inl (.inl (.inl hid)))
  have hreturn : Piece.text v m.returnType = Piece.text w m.returnType :=
    Piece.text_congr fun id hid => hvars id (.inl (.inl (.inr hid)))
  have hparameters : m.parameters.map (MarkedParameter.rendered v) =
      m.parameters.map (MarkedParameter.rendered w) := by
    refine List.map_congr_left fun p hp => ?_
    have hvars' : ∀ id ∈ p.typeVars, v.called id = w.called id := fun id hid =>
      hvars id (.inl (.inr ⟨p, hp, hid⟩))
    rw [MarkedParameter.rendered, MarkedParameter.rendered,
      Piece.text_congr fun id hid => hvars' id (List.mem_append_left _ hid),
      Piece.text_congr fun id hid => hvars' id (List.mem_append_right _ hid)]
  have hclauses : m.clauses.map (Clause.text v) = m.clauses.map (Clause.text w) := by
    refine List.map_congr_left fun c hc => ?_
    rw [Clause.text, Clause.text, hids c.id (List.mem_map_of_mem hc),
      Piece.text_congr fun id hid => hvars id (.inr ⟨c, hc, hid⟩)]
  simp only [plan, hadapter, hreturn, hparameters, hclauses]

namespace ClassMetadata

/-- If all relevant variables were given names, then declared names do not show. -/
theorem planOperation_withTable (h : cls.typeVars.SameBounds table)
    (hnamed : ∀ x ∈ relevantVars cls.typeVars cls.typeParams op, x ∈ cls.namedVars op)
    (plan : OperationPlan) :
    (cls.withTable table).planOperation op name = .ok plan ↔
      cls.planOperation op name = .ok plan := by
  rw [planOperation_eq_ok_iff, planOperation_eq_ok_iff]
  refine exists_congr fun m => ?_
  rw [marks_withTable h]
  refine and_congr_right fun hm => ?_
  have hcalled : ∀ x ∈ relevantVars cls.typeVars cls.typeParams op,
      ((cls.withTable table).vocabulary op).called x = (cls.vocabulary op).called x :=
    fun x hx => called_withTable h (hnamed x hx)
  rw [MarkedPlan.plan_congr (fun x hx => hcalled x (mem_relevantVars_of_marks hm hx)) ?_]
  rw [ids_of_marks hm]
  exact hcalled

/-- A relevant variable that was given no name shows its declared name: one that is longer than its
whole clause gives another clause. -/
theorem exists_other_clause {plan : OperationPlan} (h : cls.planOperation op name = .ok plan)
    {x : TypeVarId} (hx : x ∈ relevantVars cls.typeVars cls.typeParams op)
    (hnamed : x ∉ cls.namedVars op) :
    ∃ table, cls.typeVars.SameBounds table ∧
      ∃ other, (cls.withTable table).planOperation op name = .ok other ∧
        other.generics ≠ plan.generics := by
  obtain ⟨m, hm, rfl⟩ := planOperation_eq_ok_iff.1 h
  obtain ⟨p, hparam⟩ := get?_of_marks hm hx
  rw [← ids_of_marks hm] at hx
  obtain ⟨c, hc, rfl⟩ := List.mem_map.1 hx
  -- under a name longer than the whole clause of the variable the clause cannot stay the same
  have hlonger := called_define hparam hnamed (c.text (cls.vocabulary op) ++ "_")
  have hsame := TypeVarTable.sameBounds_define hparam (c.text (cls.vocabulary op) ++ "_")
  refine ⟨_, hsame, _, planOperation_eq_ok_iff.2 ⟨m, (marks_withTable hsame).2 hm, rfl⟩, ?_⟩
  intro hgenerics
  have hclause := List.map_inj_left.1 hgenerics c hc
  have hlength := congrArg String.length hclause
  rw [Clause.text, hlonger, String.length_append, String.length_append] at hlength
  have hmark : "_".length = 1 := rfl
  omega

end ClassMetadata

/-- **Declared names.**  Whether an operation has a plan does not depend on the names that the
variables were declared with.  If the class or the operation reaches all relevant variables, then no
text of the plan depends on them either; and this is needed, for a relevant variable that neither
reaches shows its declared name. -/
theorem declared_names_hidden (cls : ClassMetadata) (op : Operation) (name : String) :
    (∀ table, cls.typeVars.SameBounds table →
        ((∃ plan, (cls.withTable table).planOperation op name = .ok plan) ↔
          ∃ plan, cls.planOperation op name = .ok plan)) ∧
      ((∀ x ∈ relevantVars cls.typeVars cls.typeParams op, x ∈ cls.namedVars op) →
        ∀ table, cls.typeVars.SameBounds table → ∀ plan,
          ((cls.withTable table).planOperation op name = .ok plan ↔
            cls.planOperation op name = .ok plan)) ∧
      ∀ plan, cls.planOperation op name = .ok plan →
        ∀ x ∈ relevantVars cls.typeVars cls.typeParams op, x ∉ cls.namedVars op →
          ∃ table, cls.typeVars.SameBounds table ∧
            ∃ other, (cls.withTable table).planOperation op name = .ok other ∧
              other.generics ≠ plan.generics := by
  refine ⟨fun table h => ?_, fun hnamed table h plan => ?_, fun plan hplan x hx hnamed => ?_⟩
  · simp only [ClassMetadata.planOperation_eq_ok_iff, ClassMetadata.marks_withTable h]
    constructor
    · rintro ⟨_, m, hm, -⟩
      exact ⟨_, m, hm, rfl⟩
    · rintro ⟨_, m, hm, -⟩
      exact ⟨_, m, hm, rfl⟩
  · exact ClassMetadata.planOperation_withTable h hnamed plan
  · exact ClassMetadata.exists_other_clause hplan hx hnamed

/-- The table of `Sorted` with both variables declared as `Element`. -/
def elementTable : TypeVarTable :=
  ⟨[{ name := "Element", upper := .ofClass ⟨"java.lang", "Comparable"⟩ [.typeVar ⟨0⟩] },
    { name := "Element", upper := .typeVar ⟨0⟩ }]⟩

/-- The variables of `insert` are reached, and it has the same plan with either table.  Those of
`pair` are not, and show their declared names. -/
theorem element_names_hidden :
    (∃ plan, sortedClass.planOperation insertMethod "insert" = .ok plan ∧
      plan.generics = ["C0 extends Comparable<C0>", "M0 extends C0"] ∧
      (sortedClass.withTable elementTable).planOperation insertMethod "insert" = .ok plan) ∧
    ∃ plan table other, twoVariables.planOperation pairMethod "pair" = .ok plan ∧
      twoVariables.typeVars.SameBounds table ∧
      (twoVariables.withTable table).planOperation pairMethod "pair" = .ok other ∧
      other.generics ≠ plan.generics := by
  constructor
  · have hgenerics : (sortedClass.planOperation insertMethod "insert").map (·.generics) =
        .ok ["C0 extends Comparable<C0>", "M0 extends C0"] := by with_unfolding_all rfl
    have hrelevant : relevantVars sortedClass.typeVars sortedClass.typeParams insertMethod =
        [⟨0⟩, ⟨1⟩] := by with_unfolding_all rfl
    have hnamed : sortedClass.namedVars insertMethod = [⟨0⟩, ⟨1⟩, ⟨0⟩] := by with_unfolding_all rfl
    obtain ⟨plan, hplan, hclauses⟩ := Except.map_eq_ok.1 hgenerics
    obtain ⟨-, hsame, -⟩ := declared_names_hidden sortedClass insertMethod "insert"
    refine ⟨plan, hplan, hclauses, (hsame ?_ elementTable rfl plan).2 hplan⟩
    intro x hx
    rw [hrelevant] at hx
    rw [hnamed]
    exact List.mem_append_left [⟨0⟩] hx
  · have hgenerics : (twoVariables.planOperation pairMethod "pair").map (·.generics) =
        .ok ["T", "T"] := by with_unfolding_all rfl
    have hrelevant : relevantVars twoVariables.typeVars twoVariables.typeParams pairMethod =
        [⟨0⟩, ⟨1⟩] := by with_unfolding_all rfl
    have hnamed : twoVariables.namedVars pairMethod = [] := by with_unfolding_all rfl
    obtain ⟨plan, hplan, -⟩ := Except.map_eq_ok.1 hgenerics
    obtain ⟨-, -, hother⟩ := declared_names_hidden twoVariables pairMethod "pair"
    obtain ⟨table, htable, other, hplan', hclauses⟩ := hother plan hplan ⟨0⟩
      (by rw [hrelevant]; exact List.mem_cons_self) (by rw [hnamed]; exact List.not_mem_nil)
    exact ⟨plan, table, other, hplan, htable, hplan', hclauses⟩

end FunctionAdapters
