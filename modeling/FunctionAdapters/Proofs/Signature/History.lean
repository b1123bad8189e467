import FunctionAdapters.Proofs.Signature.Pieces

/-!
# What a renderer remembers

A renderer is asked for texts one after the other.  All that it keeps from one request to the next
is which variables with an entry it was asked to declare (`mem_declared_after`), and all that this
changes is that such a variable is not declared again: it is written by its name alone
(`answer_after`).

It keeps a variable whether or not the declaration had a text.  So a declaration that failed is not
tried again (`failed_declaration_kept`): the second time the variable is written without the bound
that could not be written the first time (`bare_name_after_failure`).
-/

namespace FunctionAdapters.Renderer

/-! ## One request -/

section Step

variable {r : Renderer} {id : TypeVarId} {param : TypeParam}

theorem declare_of_unknown (h : r.table.get? id = none) :
    r.declare id = (.error (Shape.unsupported r.toVocabulary .whole (.typeVar id)), r) := by
  unfold declare
  rw [h]

theorem declare_of_declared (hparam : r.table.get? id = some param) (h : id ∈ r.declared) :
    r.declare id = (.ok (r.write id param), r) := by
  unfold declare
  rw [hparam]
  exact if_pos h

theorem declare_of_new (hparam : r.table.get? id = some param) (h : id ∉ r.declared) :
    r.declare id = ((param.boundClause r.toVocabulary).map (r.write id param ++ ·),
      { r with declared := id :: r.declared }) := by
  unfold declare
  rw [hparam]
  exact if_neg h

theorem declaration_of_usage {s : Shape} (h : s.typeVar? = none) :
    r.declaration s = (r.usage s, r) := by
  unfold declaration
  rw [h]

/-- The variable that a request asks to declare. -/
def Request.declares? : Request → Option TypeVarId
  | .declaration s => s.typeVar?
  | .declare id => some id
  | .usage _ | .parameter _ => none

theorem answer_of_declares {q : Request} (h : q.declares? = some id) :
    r.answer q = r.declare id := by
  cases q with
  | declaration s =>
    obtain rfl := Shape.typeVar?_eq_some.1 h
    rfl
  | declare x =>
    obtain rfl : x = id := Option.some.inj h
    rfl
  | usage s | parameter s => cases h

theorem answer_of_declares_none {q : Request} (h : q.declares? = none) :
    r.answer q = (((start r.table r.names).answer q).1, r) := by
  cases q with
  | declaration s =>
    show r.declaration s = (((start r.table r.names).declaration s).1, r)
    rw [declaration_of_usage h, declaration_of_usage h]
    rfl
  | usage s => rfl
  | parameter s => cases s <;> rfl
  | declare x => cases h

theorem toVocabulary_answer (r : Renderer) (q : Request) :
    (r.answer q).2.toVocabulary = r.toVocabulary := by
  cases hq : q.declares? with
  | none => rw [answer_of_declares_none hq]
  | some id =>
    rw [answer_of_declares hq]
    exact toVocabulary_declare r id

theorem mem_declared_answer {q : Request} {x : TypeVarId} :
    x ∈ (r.answer q).2.declared ↔
      x ∈ r.declared ∨ (∃ param, r.table.get? x = some param) ∧ q.declares? = some x := by
  cases hq : q.declares? with
  | none =>
    rw [answer_of_declares_none hq]
    simp
  | some id =>
    rw [answer_of_declares hq, Option.some.injEq]
    cases hparam : r.table.get? id with
    | none =>
      rw [declare_of_unknown hparam]
      refine ⟨.inl, ?_⟩
      rintro (hx | ⟨⟨param, hx⟩, rfl⟩)
      · exact hx
      · rw [hparam] at hx
        cases hx
    | some param =>
      by_cases hid : id ∈ r.declared
      · rw [declare_of_declared hparam hid]
        refine ⟨.inl, ?_⟩
        rintro (hx | ⟨-, rfl⟩)
        · exact hx
        · exact hid
      · rw [declare_of_new hparam hid, List.mem_cons]
        constructor
        · rintro (rfl | hx)
          · exact .inr ⟨⟨param, hparam⟩, rfl⟩
          · exact .inl hx
        · rintro (hx | ⟨-, rfl⟩)
          · exact .inr hx
          · exact .inl rfl

end Step

/-! ## Many requests -/

def after (r : Renderer) (requests : List Request) : Renderer :=
  requests.foldl (fun r q => (r.answer q).2) r

theorem after_append (r : Renderer) (earlier later : List Request) :
    r.after (earlier ++ later) = (r.after earlier).after later := List.foldl_append

theorem toVocabulary_after (r : Renderer) (requests : List Request) :
    (r.after requests).toVocabulary = r.toVocabulary := by
  induction requests generalizing r with
  | nil => rfl
  | cons q rest ih => exact (ih (r.answer q).2).trans (toVocabulary_answer r q)

/-- **Memory.**  A renderer has declared what it was asked to declare and found an entry for. -/
theorem mem_declared_after {r : Renderer} {requests : List Request} {x : TypeVarId} :
    x ∈ (r.after requests).declared ↔
      x ∈ r.declared ∨
        (∃ param, r.table.get? x = some param) ∧ some x ∈ requests.map Request.declares? := by
  induction requests generalizing r with
  | nil => simp [after]
  | cons q rest ih =>
    have hstep : x ∈ (r.after (q :: rest)).declared ↔ x ∈ ((r.answer q).2.after rest).declared :=
      Iff.rfl
    rw [hstep, ih, mem_declared_answer, toVocabulary_answer, List.map_cons, List.mem_cons,
      eq_comm (a := some x)]
    tauto

theorem answers_append (r : Renderer) (earlier later : List Request) :
    r.answers (earlier ++ later) = r.answers earlier ++ (r.after earlier).answers later := by
  induction earlier generalizing r with
  | nil => rfl
  | cons q rest ih => exact congrArg ((r.answer q).1 :: ·) (ih (r.answer q).2)

theorem length_answers (r : Renderer) (requests : List Request) :
    (r.answers requests).length = requests.length := by
  induction requests generalizing r with
  | nil => rfl
  | cons q rest ih => exact congrArg (· + 1) (ih (r.answer q).2)

/-- What a request gets after others: a variable that was to be declared before is written by its
name, if it has an entry; all else is written as by a fresh renderer. -/
def answerAfter (fresh : Renderer) (earlier : List Request) (q : Request) :
    Except UnsupportedShape String :=
  match q.declares? with
  | none => (fresh.answer q).1
  | some id =>
    if some id ∈ earlier.map Request.declares? ∧ (fresh.table.get? id).isSome then
      .ok (fresh.called id)
    else (fresh.answer q).1

variable {table : TypeVarTable} {names : TypeVarNames}

theorem mem_declared_after_start {requests : List Request} {x : TypeVarId} :
    x ∈ ((start table names).after requests).declared ↔
      (∃ param, table.get? x = some param) ∧ some x ∈ requests.map Request.declares? := by
  rw [mem_declared_after]
  simp [start]

/-- A variable with an entry is declared when it is asked for first; later it is only written. -/
theorem declare_after {earlier : List Request} {id : TypeVarId} {param : TypeParam}
    (h : table.get? id = some param) :
    (((start table names).after earlier).declare id).1 =
      if some id ∈ earlier.map Request.declares? then
        .ok ((start table names).write id param)
      else (param.boundClause ⟨table, names⟩).map ((start table names).write id param ++ ·) := by
  have hwords := toVocabulary_after (start table names) earlier
  have hparam : ((start table names).after earlier).table.get? id = some param := by
    rw [hwords]
    exact h
  by_cases hid : some id ∈ earlier.map Request.declares?
  · rw [if_pos hid, declare_of_declared hparam (mem_declared_after_start.2 ⟨⟨param, h⟩, hid⟩), hwords]
  · have hnew : id ∉ ((start table names).after earlier).declared :=
      fun hmem => hid (mem_declared_after_start.1 hmem).2
    rw [if_neg hid, declare_of_new hparam hnew, hwords]
    rfl

theorem declare_after_unknown (earlier : List Request) {id : TypeVarId}
    (h : table.get? id = none) :
    (((start table names).after earlier).declare id).1 =
      .error (Shape.unsupported ⟨table, names⟩ .whole (.typeVar id)) := by
  have hwords := toVocabulary_after (start table names) earlier
  rw [declare_of_unknown, hwords]
  · rfl
  · rw [hwords]
    exact h

/-- **History.**  What a request gets depends on the requests before it only where it declares. -/
theorem answer_after (earlier : List Request) (q : Request) :
    (((start table names).after earlier).answer q).1 =
      (start table names).answerAfter earlier q := by
  have hwords := toVocabulary_after (start table names) earlier
  unfold answerAfter
  cases hq : q.declares? with
  | none =>
    rw [answer_of_declares_none hq, hwords]
    rfl
  | some id =>
    simp only [answer_of_declares hq]
    cases hparam : table.get? id with
    | none =>
      rw [declare_after_unknown earlier hparam, if_neg (by simp [start, hparam]),
        declare_of_unknown hparam]
      rfl
    | some param =>
      have hentry : ((start table names).table.get? id).isSome = true := by simp [start, hparam]
      have hcalled : (start table names).called id = (start table names).write id param :=
        Vocabulary.called_of_get? hparam
      rw [declare_after hparam, declare_of_new hparam List.not_mem_nil, hcalled]
      simp only [hentry, and_true]
      rfl

/-! ## Declarations that fail -/

/-- **Failures are kept.**  A request that fails leaves the declared variables as they were, if and
only if it does not declare a variable with an entry; such a variable counts as declared from then
on.  So the same declaration fails again where there is no entry, and else gives a bare name: that is
all that is written of a variable whose bound has no text, from the second request on. -/
theorem failed_declaration_kept {earlier : List Request} {q : Request} {e : UnsupportedShape}
    (h : (((start table names).after earlier).answer q).1 = .error e) :
    (((start table names).after (earlier ++ [q])).declared =
        ((start table names).after earlier).declared ↔
      ∀ id, q.declares? = some id → table.get? id = none) ∧
    (∀ id, q.declares? = some id → ∀ later,
      (((start table names).after (earlier ++ q :: later)).declare id).1 =
        match table.get? id with
        | none => .error e
        | some param => .ok ((start table names).write id param)) ∧
    ∀ id param e', table.get? id = some param → param.boundClause ⟨table, names⟩ = .error e' →
      ∀ requests, (((start table names).after requests).declare id).1 =
        if some id ∈ requests.map Request.declares? then .ok ((start table names).write id param)
        else .error e' := by
  have hwords := toVocabulary_after (start table names) earlier
  refine ⟨⟨fun hsame id hid => ?_, fun hunknown => ?_⟩, fun id hid later => ?_, ?_⟩
  · by_contra hentry
    obtain ⟨param, hparam⟩ := Option.ne_none_iff_exists'.1 hentry
    have hmem : id ∈ ((start table names).after (earlier ++ [q])).declared :=
      mem_declared_after_start.2 ⟨⟨param, hparam⟩, by simp [hid]⟩
    -- The variable was declared before, so the request had an answer.
    rw [hsame] at hmem
    rw [answer_of_declares hid, declare_after hparam,
      if_pos (mem_declared_after_start.1 hmem).2] at h
    cases h
  · rw [after_append]
    show (((start table names).after earlier).answer q).2.declared = _
    -- what declares nothing leaves no trace, and neither does a variable without an entry
    cases hq : q.declares? with
    | none => rw [answer_of_declares_none hq]
    | some id =>
      rw [answer_of_declares hq, declare_of_unknown]
      rw [hwords]
      exact hunknown id hq
  · cases hparam : table.get? id with
    | none =>
      rw [answer_of_declares hid, declare_after_unknown earlier hparam] at h
      rw [declare_after_unknown _ hparam, h]
    | some param => rw [declare_after hparam, if_pos (by simp [hid])]
  · intro id param e' hparam hbound requests
    rw [declare_after hparam, hbound]
    rfl

/-- A variable `T extends Comparable<Object>` called `M0`.  The argument is the root bound, which is
never written. -/
def unwritableBound : Vocabulary where
  table := ⟨[⟨"T", .ofClass ⟨"java.lang", "Comparable"⟩ [.top], none⟩]⟩
  names := ⟨[(⟨0⟩, ⟨"M0", .ofOperation⟩)]⟩

/-- A declaration that fails is kept, also where the variable was used before. -/
theorem unwritableBound_kept :
    let r := start unwritableBound.table unwritableBound.names
    ((r.after [.usage (.typeVar ⟨0⟩)]).answer (.declare ⟨0⟩)).1 =
        .error ⟨"java.lang.Object", .argument⟩ ∧
      (r.after [.usage (.typeVar ⟨0⟩), .declare ⟨0⟩]).declared ≠
        (r.after [.usage (.typeVar ⟨0⟩)]).declared ∧
      ((r.after [.usage (.typeVar ⟨0⟩), .declare ⟨0⟩, .parameter .void]).declare ⟨0⟩).1 =
        .ok "M0" := by
  intro r
  have hfails : ((r.after [.usage (.typeVar ⟨0⟩)]).answer (.declare ⟨0⟩)).1 =
      .error ⟨"java.lang.Object", .argument⟩ := rfl
  obtain ⟨hsame, hlater, -⟩ := failed_declaration_kept hfails
  refine ⟨hfails, fun heq => ?_, hlater ⟨0⟩ rfl [.parameter .void]⟩
  have hnone : unwritableBound.table.get? ⟨0⟩ = none := hsame.1 heq ⟨0⟩ rfl
  cases hnone

/-- **A bare name for a bound that has no text.**  The first declaration fails, and the variable
counts as declared; the second gives a name without a bound. -/
theorem bare_name_after_failure :
    let r := start unwritableBound.table unwritableBound.names
    r.answers [.declare ⟨0⟩, .declare ⟨0⟩] =
        [.error ⟨"java.lang.Object", .argument⟩, .ok "M0"] ∧
      r.declared = [] ∧ (r.after [.declare ⟨0⟩]).declared = [⟨0⟩] := by
  intro r
  exact ⟨rfl, rfl, rfl⟩

end FunctionAdapters.Renderer
