import FunctionAdapters.Proofs.Adapter.Texts

/-!
# The variables of a plan

A plan declares its relevant variables and writes others nowhere: `written_vars_declared`.  The
variables of the class come first, as `C0`, `C1` and so on.

Two variables that the class or the operation reaches are never written alike.  A variable that
neither reaches is written by its declared name, and nothing keeps this name apart from the other
names (`declared_names_clash`); `declared_names_distinct` says when the names are distinct.
-/

namespace FunctionAdapters

variable {cls : ClassMetadata} {op : Operation} {m : MarkedPlan}

namespace ClassMetadata

/-! ## Where the pieces come from -/

theorem ids_of_marks (h : cls.marks op = .ok m) :
    m.clauses.map Clause.id = relevantVars cls.typeVars cls.typeParams op := by
  obtain ⟨_, -, hclauses, -⟩ := parts_of_marks h
  exact Clause.ids_of_ofIds hclauses

theorem mem_relevantVars_of_marks (h : cls.marks op = .ok m) {id : TypeVarId}
    (hid : id ∈ m.typeVars) : id ∈ relevantVars cls.typeVars cls.typeParams op := by
  obtain ⟨owner, howner, hclauses, hreturn, hparameters, hadapter⟩ := parts_of_marks h
  have hself : op.isStatic = false → cls.typeVars.Leads cls.selfType (.typeVar id) →
      id ∈ relevantVars cls.typeVars cls.typeParams op := mem_relevantVars_of_selfType
  have hresult : id ∈ Piece.typeVars m.returnType →
      id ∈ relevantVars cls.typeVars cls.typeParams op := by
    intro hmem
    have hlead := Shape.leads_of_mem_pieces (cls.resultType op) hreturn hmem
    unfold resultType at hlead
    split at hlead
    · next hk => exact hself (by simp [Operation.isStatic, hk]) hlead
    · exact mem_relevantVars_of_returnType hlead
  have hparameter : ∀ p ∈ m.parameters, id ∈ p.typeVars →
      id ∈ relevantVars cls.typeVars cls.typeParams op := by
    intro p hp hmem
    obtain ⟨q, hq, hmarks⟩ := exists_left_of_forall₂ hparameters hp
    exact mem_relevantVars_of_parameter hq (hmarks.leads hmem)
  simp only [MarkedPlan.typeVars, List.mem_append, List.mem_flatMap] at hid
  -- written in the adapter, the return type, a parameter or the bound of a clause
  rcases hid with ((hid | hid) | ⟨p, hp, hid⟩) | ⟨c, hc, hid⟩
  · rw [hadapter] at hid
    rcases Operation.mem_typeVars_markedAdapter hid with ⟨hk, hid⟩ | hid | ⟨p, hp, hid⟩
    · exact hself (by simp [Operation.isStatic, hk])
        (Shape.leads_of_mem_pieces cls.selfType howner hid)
    · exact hresult hid
    · exact hparameter p hp hid
  · exact hresult hid
  · exact hparameter p hp hid
  · -- what a bound shows is reached from the variable of its clause
    have hrelevant : c.id ∈ relevantVars cls.typeVars cls.typeParams op := by
      rw [← ids_of_marks h]
      exact List.mem_map_of_mem hc
    exact mem_relevantVars_of_leads hrelevant (Clause.leads_of_mem_bound hclauses hc hid)

/-- Unless an operation is static, the variables of the class are relevant, and the clauses begin
with theirs, in order. -/
theorem clause_of_class (h : cls.marks op = .ok m) (hs : op.isStatic = false) {i : Nat}
    {id : TypeVarId} (hi : (cls.typeVars.reachIds cls.typeParams)[i]? = some id) :
    id ∈ relevantVars cls.typeVars cls.typeParams op ∧
      ∃ c, m.clauses[i]? = some c ∧ c.id = id := by
  obtain ⟨rest, hrest⟩ := relevantVars_of_not_static cls.typeVars cls.typeParams hs
  have hlt : i < (cls.typeVars.reachIds cls.typeParams).length :=
    (List.getElem?_eq_some_iff.1 hi).1
  have hmap : (m.clauses.map Clause.id)[i]? = some id := by
    rw [ids_of_marks h, hrest, List.getElem?_append_left hlt, hi]
  refine ⟨?_, ?_⟩
  · rw [← ids_of_marks h]
    exact List.mem_of_getElem? hmap
  · rw [List.getElem?_map] at hmap
    exact Option.map_eq_some_iff.1 hmap

theorem get?_of_marks (h : cls.marks op = .ok m) {x : TypeVarId}
    (hx : x ∈ relevantVars cls.typeVars cls.typeParams op) :
    ∃ param, cls.typeVars.get? x = some param := by
  obtain ⟨_, -, hclauses, -⟩ := parts_of_marks h
  exact Clause.get?_of_mem_ids hclauses hx

/-! ## How the variables are called -/

theorem called_of_name {x : TypeVarId} {param : TypeParam} {name : VarName}
    (hparam : cls.typeVars.get? x = some param)
    (hname : (cls.vocabulary op).names.get? x = some name) :
    (cls.vocabulary op).called x = name.text := by
  rw [Vocabulary.called_of_get? hparam, Vocabulary.write, hname]
  rfl

theorem called_of_no_name {x : TypeVarId} {param : TypeParam}
    (hparam : cls.typeVars.get? x = some param)
    (hname : (cls.vocabulary op).names.get? x = none) :
    (cls.vocabulary op).called x = param.name := by
  rw [Vocabulary.called_of_get? hparam, Vocabulary.write, hname]
  rfl

end ClassMetadata

/-- **Scoping.**  Every variable that is written in a plan is relevant and has exactly one clause
there; and unless the operation is static, the clauses begin with `C0`, `C1` and so on, for all
variables that the class reaches. -/
theorem written_vars_declared {name : String} {plan : OperationPlan}
    (h : cls.planOperation op name = .ok plan) :
    ∃ m : MarkedPlan, cls.marks op = .ok m ∧ plan = m.plan (cls.vocabulary op) op name ∧
      m.clauses.map Clause.id = relevantVars cls.typeVars cls.typeParams op ∧
      (∀ id ∈ m.typeVars, id ∈ relevantVars cls.typeVars cls.typeParams op ∧
        (m.clauses.map Clause.id).count id = 1) ∧
      (op.isStatic = false → ∀ (i : Nat) (id : TypeVarId),
        (cls.typeVars.reachIds cls.typeParams)[i]? = some id →
          ∃ bound, m.clauses[i]? = some ⟨id, bound⟩ ∧
            plan.generics[i]? =
              some ("C" ++ toString i ++ Piece.text (cls.vocabulary op) bound)) := by
  rw [ClassMetadata.planOperation_eq_marks] at h
  obtain ⟨m, hm, rfl⟩ := Except.map_eq_ok.1 h
  have hids := ClassMetadata.ids_of_marks hm
  refine ⟨m, hm, rfl, hids, fun id hid => ?_, fun hs i id hi => ?_⟩
  · have hrelevant := ClassMetadata.mem_relevantVars_of_marks hm hid
    refine ⟨hrelevant, ?_⟩
    rw [hids]
    exact List.count_eq_one_of_mem (nodup_relevantVars _ _ _) hrelevant
  · obtain ⟨hrelevant, ⟨_, bound⟩, hc, rfl⟩ := ClassMetadata.clause_of_class hm hs hi
    obtain ⟨param, hparam⟩ := ClassMetadata.get?_of_marks hm hrelevant
    refine ⟨bound, hc, ?_⟩
    have hcalled : (cls.vocabulary op).called _ = "C" ++ toString i :=
      ClassMetadata.called_of_name hparam (TypeVarNames.get?_of_class hi)
    change (m.clauses.map (Clause.text (cls.vocabulary op)))[i]? = _
    rw [List.getElem?_map, hc, Option.map_some, Clause.text, hcalled]

/-- The class `Sorted<T extends Comparable<T>>`, and a variable `U extends T` for its methods. -/
def sortedClass : ClassMetadata :=
  { name := ⟨"com.example", "Sorted"⟩
    typeParams := [⟨0⟩]
    typeVars := ⟨[
      { name := "T", upper := .ofClass ⟨"java.lang", "Comparable"⟩ [.typeVar ⟨0⟩] },
      { name := "U", upper := .typeVar ⟨0⟩ }]⟩ }

/-- The method `<U extends T> T[] insert(U value, int index)`. -/
def insertMethod : Operation :=
  { kind := .instanceMethod
    name := "insert"
    parameters := [⟨"value", .typeVar ⟨1⟩⟩, ⟨"index", .primitive .int⟩]
    returnType := .array (.typeVar ⟨0⟩)
    typeParams := [⟨1⟩] }

/-- The bound of `T` mentions `T` again, and that of `U` a variable of the class. -/
theorem insert_vars_declared :
    ∃ plan m, sortedClass.planOperation insertMethod "insert" = .ok plan ∧
      sortedClass.marks insertMethod = .ok m ∧
      plan.generics = ["C0 extends Comparable<C0>", "M0 extends C0"] ∧
      ∀ id ∈ m.typeVars, (m.clauses.map Clause.id).count id = 1 := by
  have hgenerics : (sortedClass.planOperation insertMethod "insert").map (·.generics) =
      .ok ["C0 extends Comparable<C0>", "M0 extends C0"] := by with_unfolding_all rfl
  obtain ⟨plan, hplan, hclauses⟩ := Except.map_eq_ok.1 hgenerics
  obtain ⟨m, hm, -, -, hvars, -⟩ := written_vars_declared hplan
  exact ⟨plan, m, hplan, hm, hclauses, fun id hid => (hvars id hid).2⟩

/-! ## Names -/

namespace ClassMetadata

/-- The variables that are given names in an operation: those that the parameters of the class
reach and those that its own reach. -/
def namedVars (cls : ClassMetadata) (op : Operation) : List TypeVarId :=
  cls.typeVars.reachIds cls.typeParams ++ cls.typeVars.reachIds op.typeParams

theorem get?_names_eq_none {x : TypeVarId} :
    (cls.vocabulary op).names.get? x = none ↔ x ∉ cls.namedVars op := by
  rw [namedVars, List.mem_append, not_or]
  exact TypeVarNames.get?_forOperation_eq_none

theorem mem_namedVars_iff {x : TypeVarId} :
    x ∈ cls.namedVars op ↔ ∃ name, (cls.vocabulary op).names.get? x = some name := by
  rw [← Option.ne_none_iff_exists', Ne, get?_names_eq_none, not_not]

theorem called_injective (h : cls.marks op = .ok m) {x y : TypeVarId}
    (hx : x ∈ relevantVars cls.typeVars cls.typeParams op) (hxn : x ∈ cls.namedVars op)
    (hy : y ∈ relevantVars cls.typeVars cls.typeParams op) (hyn : y ∈ cls.namedVars op)
    (heq : (cls.vocabulary op).called x = (cls.vocabulary op).called y) : x = y := by
  obtain ⟨p, hp⟩ := get?_of_marks h hx
  obtain ⟨q, hq⟩ := get?_of_marks h hy
  obtain ⟨n, hn⟩ := mem_namedVars_iff.1 hxn
  obtain ⟨k, hk⟩ := mem_namedVars_iff.1 hyn
  rw [called_of_name hp hn, called_of_name hq hk] at heq
  exact TypeVarNames.text_injective_of_get? hn hk heq

theorem called_of_not_named (h : cls.marks op = .ok m) {x : TypeVarId}
    (hx : x ∈ relevantVars cls.typeVars cls.typeParams op) (hxn : x ∉ cls.namedVars op) :
    ∃ param, cls.typeVars.get? x = some param ∧ (cls.vocabulary op).called x = param.name := by
  obtain ⟨param, hparam⟩ := get?_of_marks h hx
  exact ⟨param, hparam, called_of_no_name hparam (get?_names_eq_none.2 hxn)⟩

end ClassMetadata

/-- **Names.**  Two variables that the class or the operation reaches are never written alike in a
plan.  A variable that neither reaches is written as it was declared; and all declarations are of
distinct names, if and only if no such declared name is that of another variable. -/
theorem declared_names_distinct {name : String} {plan : OperationPlan}
    (h : cls.planOperation op name = .ok plan) :
    ∃ m : MarkedPlan, cls.marks op = .ok m ∧ plan = m.plan (cls.vocabulary op) op name ∧
      m.clauses.map Clause.id = relevantVars cls.typeVars cls.typeParams op ∧
      (∀ x ∈ m.clauses.map Clause.id, ∀ y ∈ m.clauses.map Clause.id,
        x ∈ cls.namedVars op → y ∈ cls.namedVars op →
          (cls.vocabulary op).called x = (cls.vocabulary op).called y → x = y) ∧
      (∀ x ∈ m.clauses.map Clause.id, x ∉ cls.namedVars op →
        ∃ param, cls.typeVars.get? x = some param ∧
          (cls.vocabulary op).called x = param.name) ∧
      ((m.clauses.map fun c => (cls.vocabulary op).called c.id).Nodup ↔
        ∀ x ∈ m.clauses.map Clause.id, x ∉ cls.namedVars op →
          ∀ y ∈ m.clauses.map Clause.id, y ≠ x →
            (cls.vocabulary op).called y ≠ (cls.vocabulary op).called x) := by
  rw [ClassMetadata.planOperation_eq_marks] at h
  obtain ⟨m, hm, rfl⟩ := Except.map_eq_ok.1 h
  have hids := ClassMetadata.ids_of_marks hm
  have hcalled : (m.clauses.map fun c => (cls.vocabulary op).called c.id) =
      (m.clauses.map Clause.id).map (cls.vocabulary op).called := by
    rw [List.map_map]
    rfl
  refine ⟨m, hm, rfl, hids, ?_, ?_, ?_⟩
  · rw [hids]
    exact fun x hx y hy hxn hyn heq => ClassMetadata.called_injective hm hx hxn hy hyn heq
  · rw [hids]
    exact fun x hx hxn => ClassMetadata.called_of_not_named hm hx hxn
  · rw [hcalled, hids, List.nodup_map_iff_inj_on (nodup_relevantVars _ _ _)]
    constructor
    · exact fun hinj x hx _ y hy hne heq => hne (hinj y hy x hx heq)
    · intro hapart x hx y hy heq
      -- two variables with names are called differently, so one of the two has none
      by_contra hne
      by_cases hxn : x ∈ cls.namedVars op
      · by_cases hyn : y ∈ cls.namedVars op
        · exact hne (ClassMetadata.called_injective hm hx hxn hy hyn heq)
        · exact hapart y hy hyn x hx hne heq
      · exact hapart x hx hxn y hy (Ne.symm hne) heq.symm

/-- Where all variables are given names, all declarations are of distinct names. -/
theorem insert_names_distinct :
    ∃ plan m, sortedClass.planOperation insertMethod "insert" = .ok plan ∧
      sortedClass.marks insertMethod = .ok m ∧
      (m.clauses.map fun c => (sortedClass.vocabulary insertMethod).called c.id).Nodup := by
  have hgenerics : (sortedClass.planOperation insertMethod "insert").map (·.generics) =
      .ok ["C0 extends Comparable<C0>", "M0 extends C0"] := by with_unfolding_all rfl
  have hrelevant : relevantVars sortedClass.typeVars sortedClass.typeParams insertMethod =
      [⟨0⟩, ⟨1⟩] := by with_unfolding_all rfl
  have hnamed : sortedClass.namedVars insertMethod = [⟨0⟩, ⟨1⟩, ⟨0⟩] := by with_unfolding_all rfl
  obtain ⟨plan, hplan, -⟩ := Except.map_eq_ok.1 hgenerics
  obtain ⟨m, hm, -, hids, -, -, hnodup⟩ := declared_names_distinct hplan
  refine ⟨plan, m, hplan, hm, hnodup.2 fun x hx hxn => absurd ?_ hxn⟩
  rw [hids, hrelevant] at hx
  rw [hnamed]
  exact List.mem_append_left [⟨0⟩] hx

/-! ### Two variables of one declared name -/

/-- A class whose table has two variables, both declared as `T`. -/
def twoVariables : ClassMetadata :=
  { name := ⟨"com.example", "Util"⟩
    typeVars := ⟨[{ name := "T" }, { name := "T" }]⟩ }

/-- A static method `void pair(T first, T second)` over both, which declares neither. -/
def pairMethod : Operation :=
  .ofMethod .staticMethod "pair" [⟨"first", .typeVar ⟨0⟩⟩, ⟨"second", .typeVar ⟨1⟩⟩] .void

/-- **Declared names may clash.**  Two variables that neither the class nor the operation reaches
are declared twice under one name, if they were declared so. -/
theorem declared_names_clash :
    relevantVars twoVariables.typeVars twoVariables.typeParams pairMethod = [⟨0⟩, ⟨1⟩] ∧
      (twoVariables.vocabulary pairMethod).called ⟨0⟩ =
        (twoVariables.vocabulary pairMethod).called ⟨1⟩ ∧
      (twoVariables.planOperation pairMethod "pair").map (·.generics) = .ok ["T", "T"] := by
  refine ⟨by with_unfolding_all rfl, by with_unfolding_all rfl, by with_unfolding_all rfl⟩

end FunctionAdapters
