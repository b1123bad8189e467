import FunctionAdapters.Signature.Usage

/-!
Declaration clauses.  A renderer writes the shapes of one signature; it remembers which variables
it was asked to declare, so that the bound of a variable is written at most once.
-/

namespace FunctionAdapters

namespace TypeParam

/-- The bound part of a declaration: the upper bound if it says something, else the lower one. -/
def boundClause (v : Vocabulary) (param : TypeParam) : Except UnsupportedShape String :=
  if param.upper.isTop then
    match param.lower with
    | some lower =>
      if lower.isTop then .ok "" else do return " super " ++ (← lower.usage v .bound)
    | none => .ok ""
  else do return " extends " ++ (← param.upper.usage v .bound)

end TypeParam

/-- A vocabulary and the variables whose declaration was asked for. -/
structure Renderer extends Vocabulary where
  declared : List TypeVarId := []

namespace Renderer

def start (table : TypeVarTable) (names : TypeVarNames) : Renderer := { table, names }

/-- The text of a whole type where it is used. -/
def usage (r : Renderer) (s : Shape) : Except UnsupportedShape String :=
  s.usage r.toVocabulary .whole

/-- The type of a named parameter: as it is used, but a primitive stays a keyword. -/
def parameter (r : Renderer) (s : Shape) : Except UnsupportedShape String :=
  match s with
  | .primitive p => .ok p.keyword
  | s => r.usage s

/-- The declaration clause of a variable, without its bound from the second time on. -/
def declare (r : Renderer) (id : TypeVarId) : Except UnsupportedShape String × Renderer :=
  match r.table.get? id with
  | none => (.error (Shape.unsupported r.toVocabulary .whole (.typeVar id)), r)
  | some param =>
    if id ∈ r.declared then (.ok (r.write id param), r)
    else
      ((param.boundClause r.toVocabulary).map (r.write id param ++ ·),
        { r with declared := id :: r.declared })

/-- A whole type at a place that declares: a bare variable is declared, all else is used. -/
def declaration (r : Renderer) (s : Shape) : Except UnsupportedShape String × Renderer :=
  match s.typeVar? with
  | some id => r.declare id
  | none => (r.usage s, r)

/-- The declaration clauses of some variables, in order, up to the first that has none. -/
def declareAll (r : Renderer) : List TypeVarId → Except UnsupportedShape (List String) × Renderer
  | [] => (.ok [], r)
  | id :: rest =>
    match r.declare id with
    | (.error e, r) => (.error e, r)
    | (.ok clause, r) =>
      let (clauses, r) := r.declareAll rest
      (clauses.map (clause :: ·), r)

/-- What a renderer can be asked for. -/
inductive Request where
  | usage (s : Shape)
  | declaration (s : Shape)
  | parameter (s : Shape)
  | declare (id : TypeVarId)

def answer (r : Renderer) : Request → Except UnsupportedShape String × Renderer
  | .usage s => (r.usage s, r)
  | .declaration s => r.declaration s
  | .parameter s => (r.parameter s, r)
  | .declare id => r.declare id

/-- The answers to some requests, one after the other. -/
def answers (r : Renderer) : List Request → List (Except UnsupportedShape String)
  | [] => []
  | request :: rest =>
    let (text, r) := r.answer request
    text :: r.answers rest

end Renderer

end FunctionAdapters
