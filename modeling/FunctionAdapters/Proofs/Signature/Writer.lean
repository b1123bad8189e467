import FunctionAdapters.Proofs.Signature.History

/-!
# Writing with the declared variables at hand

A renderer treats declarations apart from usage, which does not know of any declared variables.
Here both are one function, `Shape.write`.  It is told whether a type stands at a place that
declares, and hands the declared variables on from each part of a text to the next, so that every
part could look at them and add to them, also before a failure.

No part does: everything inside a type, the bound of a declared variable included, is used where it
stands (`write_eq_usage`).  So requests are answered by the renderer as they are written one after
the other (`run_requests`).
-/

namespace FunctionAdapters

/-- Whether a type stands at a place that declares variables, or at one that uses them. -/
inductive Site where
  | declaring
  | usage
  deriving DecidableEq, Repr

namespace Site

/-- Declarations are written before what they use. -/
def rank : Site → Nat
  | declaring => 1
  | usage => 0

end Site

/-- A text that is written with the declared variables at hand.  What is declared before a failure
stays declared. -/
abbrev Writing := ExceptT UnsupportedShape (StateM (List TypeVarId))

/-- A result that does not look at the declared variables and leaves them as they are. -/
def Writing.settled {α : Type} (x : Except UnsupportedShape α) : Writing α := ExceptT.mk (pure x)

namespace Shape

mutual
/-- Writes a shape.  A variable is declared with its bound unless it was declared before. -/
def write (v : Vocabulary) (site : Site) (position : Position) (s : Shape) : Writing String :=
  match s with
  | .primitive p => return if position = .component then p.keyword else p.boxed.sourceName
  | .declared name args bounds =>
    if position = .bound ∧ standsForBounds args bounds then do
      return " & ".intercalate (← writeAll v .nested bounds)
    else do
      return name.sourceName ++ angled ", " (← writeAll v .argument args)
  | .array component => do return (← component.write v .usage .component) ++ "[]"
  | .wildcard => if position = .argument then return "?" else throw (unsupported v position s)
  | .wildcardExtends bound =>
    if position = .argument then do return "? extends " ++ (← bound.write v .usage .nested)
    else throw (unsupported v position s)
  | .wildcardSuper bound =>
    if position = .argument then do return "? super " ++ (← bound.write v .usage .nested)
    else throw (unsupported v position s)
  | .typeVar id =>
    match v.table.get? id with
    | none => throw (unsupported v position s)
    | some param =>
      match site with
      | .usage => return v.write id param
      | .declaring => do
        if id ∈ (← get) then return v.write id param
        modify (id :: ·)
        match param.writtenBound with
        | none => return v.write id param
        | some bound =>
          return v.write id param ++ (param.boundWord ++ (← bound.write v .usage .bound))
  | .void => if position = .whole then return "void" else throw (unsupported v position s)
  | .top => throw (unsupported v position s)
termination_by (site.rank, 2 * s.size)
decreasing_by
  all_goals first
    | exact Prod.Lex.left _ _ Nat.zero_lt_one
    | refine Prod.Lex.right' _ (Nat.zero_le _) ?_
      simp only [size]
      omega
def writeAll (v : Vocabulary) (position : Position) (shapes : List Shape) : Writing (List String) :=
  match shapes with
  | [] => return []
  | s :: rest => do
    let text ← s.write v .usage position
    let texts ← writeAll v position rest
    return text :: texts
termination_by (0, 2 * sizes shapes + 1)
decreasing_by
  · refine Prod.Lex.right' _ (Nat.zero_le _) ?_
    simp only [sizes]
    omega
  · have := s.size_pos
    refine Prod.Lex.right' _ (Nat.zero_le _) ?_
    simp only [sizes]
    omega
end

variable (v : Vocabulary)

mutual
/-- **Parts are used.**  Where nothing is declared, and inside of everything that is not a bare
variable, the declared variables play no part. -/
theorem write_eq_usage (site : Site) (position : Position) (s : Shape)
    (h : site = .usage ∨ s.typeVar? = none) :
    s.write v site position = .settled (s.usage v position) := by
  cases s with
  | primitive p =>
    rw [write, usage]
    rfl
  | declared name args bounds =>
    rw [write, usage, writeAll_eq_usages .nested bounds, writeAll_eq_usages .argument args]
    split
    · cases usages v .nested bounds <;> rfl
    · cases usages v .argument args <;> rfl
  | array component =>
    rw [write, usage, write_eq_usage .usage .component component (.inl rfl)]
    cases component.usage v .component <;> rfl
  | wildcard =>
    rw [write, usage]
    split <;> rfl
  | wildcardExtends bound | wildcardSuper bound =>
    rw [write, usage, write_eq_usage .usage .nested bound (.inl rfl)]
    split
    · cases bound.usage v .nested <;> rfl
    · rfl
  | typeVar id =>
    -- a bare variable is the one shape that can be declared, and it is not where it is used
    obtain rfl : site = .usage := by simpa [typeVar?] using h
    rw [write, usage]
    cases v.table.get? id <;> rfl
  | void =>
    rw [write, usage]
    split <;> rfl
  | top =>
    rw [write, usage]
    rfl
theorem writeAll_eq_usages (position : Position) (shapes : List Shape) :
    writeAll v position shapes = .settled (usages v position shapes) := by
  cases shapes with
  | nil =>
    rw [writeAll, usages]
    rfl
  | cons s rest =>
    rw [writeAll, usages, write_eq_usage .usage position s (.inl rfl),
      writeAll_eq_usages position rest]
    cases s.usage v position with
    | error e => rfl
    | ok text => cases usages v position rest <;> rfl
end

end Shape

namespace Renderer

def Request.write (v : Vocabulary) : Request → Writing String
  | .usage s => s.write v .usage .whole
  | .declaration s => s.write v .declaring .whole
  | .parameter (.primitive p) => return p.keyword
  | .parameter s => s.write v .usage .whole
  | .declare id => (Shape.typeVar id).write v .declaring .whole

theorem run_write_typeVar (r : Renderer) (id : TypeVarId) :
    ((Shape.typeVar id).write r.toVocabulary .declaring .whole).run.run r.declared =
      ((r.declare id).1, (r.declare id).2.declared) := by
  rw [Shape.write]
  cases hparam : r.table.get? id with
  | none =>
    rw [declare_of_unknown hparam]
    rfl
  | some param =>
    show (ite (id ∈ r.declared) _ _ : Writing String).run.run r.declared = _
    by_cases h : id ∈ r.declared
    · rw [if_pos h, declare_of_declared hparam h]
      rfl
    · rw [if_neg h, declare_of_new hparam h, TypeParam.boundClause_eq]
      cases param.writtenBound with
      | none =>
        rw [Option.elim_none, Except.map, String.append_empty]
        rfl
      | some bound =>
        simp only [Shape.write_eq_usage r.toVocabulary .usage .bound bound (.inl rfl)]
        rw [Option.elim_some]
        cases bound.usage r.toVocabulary .bound <;> rfl

theorem run_write (r : Renderer) (q : Request) :
    (q.write r.toVocabulary).run.run r.declared = ((r.answer q).1, (r.answer q).2.declared) := by
  cases q with
  | usage s =>
    rw [Request.write, Shape.write_eq_usage _ _ _ _ (.inl rfl)]
    rfl
  | declaration s =>
    -- only a bare variable is declared; any other shape is written as it is used
    cases hs : s.typeVar? with
    | none =>
      show (s.write r.toVocabulary .declaring .whole).run.run r.declared =
        ((r.declaration s).1, (r.declaration s).2.declared)
      rw [Shape.write_eq_usage _ _ _ _ (.inr hs), declaration_of_usage hs]
      rfl
    | some id =>
      obtain rfl := Shape.typeVar?_eq_some.1 hs
      exact run_write_typeVar r id
  | parameter s =>
    cases s with
    | primitive p => rfl
    | _ =>
      rw [Request.write, Shape.write_eq_usage _ _ _ _ (.inl rfl)]
      · rfl
      · simp
  | declare id => exact run_write_typeVar r id

/-- **Requests in a row.**  The answers of a renderer, and what it has declared in the end, are
those of writing one request after the other. -/
theorem run_requests (r : Renderer) (requests : List Request) :
    (requests.mapM fun q : Request => (q.write r.toVocabulary).run).run r.declared =
      (r.answers requests, (r.after requests).declared) := by
  induction requests generalizing r with
  | nil => rfl
  | cons q rest ih =>
    have hrest := ih (r.answer q).2
    rw [toVocabulary_answer] at hrest
    rw [List.mapM_cons, StateT.run_bind, run_write]
    show StateT.run (List.mapM _ rest >>= _) _ = _
    rw [StateT.run_bind, hrest]
    rfl

end Renderer

end FunctionAdapters
