import FunctionAdapters.Proofs.Adapter.Marks
import FunctionAdapters.Proofs.Signature.Writer
import Mathlib.Control.Traversable.Basic

/-!
# Plans without a history

The texts of a plan are asked of one renderer, one after the other.  They might as well be asked of a
renderer each (`planOperation_afresh`): the variables to declare are listed once each, and what was
declared does not matter for usage.

The main statement is `history_repeats_only`: of all that was asked before, a request notices only
that the variable which it asks to declare was asked for.
-/

namespace FunctionAdapters

namespace Renderer

variable {table : TypeVarTable} {names : TypeVarNames}

theorem declareAll_cons (r : Renderer) (id : TypeVarId) (rest : List TypeVarId) :
    (r.declareAll (id :: rest)).1 = (r.declare id).1 >>= fun clause =>
      ((r.declare id).2.declareAll rest).1.map (clause :: ·) := by
  rw [declareAll]
  cases r.declare id with
  | mk answer next => cases answer <;> rfl

theorem declareAll_afresh {r : Renderer} {ids : List TypeVarId} (hnodup : ids.Nodup)
    (hnew : ∀ id ∈ ids, id ∉ r.declared) (hwords : r.toVocabulary = ⟨table, names⟩) :
    (r.declareAll ids).1 = ids.mapM fun id => ((start table names).declare id).1 := by
  induction ids generalizing r with
  | nil => rfl
  | cons id rest ih =>
    obtain ⟨hid, hrest⟩ := List.nodup_cons.1 hnodup
    have hfirst : (r.declare id).1 = ((start table names).declare id).1 := by
      rw [declare_eq_clause (hnew id List.mem_cons_self), declare_eq_clause List.not_mem_nil, hwords]
      rfl
    -- the first declaration makes no later one a repetition
    have hlater : ∀ x ∈ rest, x ∉ (r.declare id).2.declared := by
      intro x hx hmem
      rcases mem_declared_declare hmem with rfl | hmem
      · exact hid hx
      · exact hnew x (List.mem_cons_of_mem id hx) hmem
    have hothers := ih hrest hlater ((r.toVocabulary_declare id).trans hwords)
    rw [declareAll_cons, List.mapM_cons, hfirst, hothers]
    simp only [← Except.bind_return]

end Renderer

namespace ClassMetadata

variable (cls : ClassMetadata) (op : Operation)

/-- The plan of an operation with the given clauses, whose other texts are asked of a renderer. -/
def planWith (generatedName : String) (clauses : Except UnsupportedShape (List String))
    (r : Renderer) : Except UnsupportedShape OperationPlan := do
  let generics ← clauses
  let owner ← r.usage cls.selfType
  let returnType ← if op.kind = .constructor then .ok owner else r.usage op.returnType
  let parameters ← op.renderParameters r 0 op.parameters
  return {
    generatedName
    calledName := if op.kind = .constructor then none else some op.name
    callKind := op.kind
    adapter := .ofArgs op.adapterFamily op.adapterArity
      (op.adapterArgs owner returnType parameters)
    returnType
    parameters := if op.isPositional then .positional parameters else .named parameters
    generics
    doc := op.shownDoc
    docComment := op.shownDoc.map DocComment.render }

def freshRenderer : Renderer :=
  .start cls.typeVars (.forOperation cls.typeVars cls.typeParams op.typeParams)

variable {cls op} in
/-- What a renderer has declared does not matter for the texts other than clauses. -/
theorem planWith_congr {generatedName : String} {clauses : Except UnsupportedShape (List String)}
    {r r' : Renderer} (h : r.toVocabulary = r'.toVocabulary) :
    cls.planWith op generatedName clauses r = cls.planWith op generatedName clauses r' := by
  have husage : r.usage = r'.usage := by
    funext s
    rw [Renderer.usage, Renderer.usage, h]
  have hparameters : op.renderParameters r 0 op.parameters =
      op.renderParameters r' 0 op.parameters := by
    rw [Operation.renderParameters_eq_marks, Operation.renderParameters_eq_marks, h]
  unfold planWith
  rw [husage, hparameters]

/-- **Afresh.**  Each text of a plan is the one that a fresh renderer gives, and there is a plan if
and only if fresh renderers give all of them. -/
theorem planOperation_afresh (generatedName : String) :
    cls.planOperation op generatedName = cls.planWith op generatedName
      ((relevantVars cls.typeVars cls.typeParams op).mapM fun id =>
        ((cls.freshRenderer op).declare id).1)
      (cls.freshRenderer op) := by
  have hclauses := Renderer.declareAll_afresh (r := cls.freshRenderer op)
    (nodup_relevantVars cls.typeVars cls.typeParams op) (fun _ _ => List.not_mem_nil) rfl
  have hwords := Renderer.toVocabulary_declareAll (cls.freshRenderer op)
    (relevantVars cls.typeVars cls.typeParams op)
  show cls.planWith op generatedName ((cls.freshRenderer op).declareAll _).1
    ((cls.freshRenderer op).declareAll _).2 = _
  rw [planWith_congr hwords, hclauses]
  rfl

end ClassMetadata

open Renderer in
/-- **History.**  Some requests are written one after the other, each with the variables at hand that
the ones before have declared.  Then each of them is answered as by a fresh renderer; but a variable
with an entry that was to be declared before is written by its name alone.  In particular every text
of a plan is the one that a fresh renderer gives. -/
theorem history_repeats_only (table : TypeVarTable) (names : TypeVarNames)
    (earlier later : List Request) (q : Request) (cls : ClassMetadata) (op : Operation)
    (generatedName : String) :
    (((earlier ++ q :: later).mapM fun q : Request => (q.write ⟨table, names⟩).run).run' [] =
        (start table names).answers (earlier ++ q :: later)) ∧
      ((start table names).answers (earlier ++ q :: later))[earlier.length]? =
        some ((start table names).answerAfter earlier q) ∧
      cls.planOperation op generatedName = cls.planWith op generatedName
        ((relevantVars cls.typeVars cls.typeParams op).mapM fun id =>
          ((cls.freshRenderer op).declare id).1)
        (cls.freshRenderer op) := by
  refine ⟨?_, ?_, cls.planOperation_afresh op generatedName⟩
  · have hrun := run_requests (start table names) (earlier ++ q :: later)
    exact congrArg Prod.fst hrun
  · have hlength := Nat.le_of_eq (length_answers (start table names) earlier)
    rw [answers_append, List.getElem?_append_right hlength, length_answers, Nat.sub_self]
    exact congrArg some (answer_after earlier q)

end FunctionAdapters
