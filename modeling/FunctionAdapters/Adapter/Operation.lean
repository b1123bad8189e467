import FunctionAdapters.Adapter.Basic
import FunctionAdapters.DocComment
import FunctionAdapters.Signature.Renderer

/-!
The adapter of one operation: everything that a template needs to write its factory.  An instance
method is adapted as a function of its receiver; the others take their parameters, one by one up to
nine and as one array above.
-/

namespace FunctionAdapters

namespace AdapterType

/-- An adapter type applied to its type arguments. -/
def ofArgs (family : AdapterFamily) (arity : AdapterArity) (args : List String) : AdapterType :=
  { family, arity, text := family.stem ++ arity.suffix ++ angled ", " args }

end AdapterType

structure RenderedParameter where
  /-- Its declared name, or how it is taken out of the array. -/
  name : String
  type : String
  boxedType : String
  deriving DecidableEq, Repr, Inhabited

/-- The parameters of a call, by name or by position in one array. -/
inductive ParameterList where
  | named (parameters : List RenderedParameter)
  | positional (parameters : List RenderedParameter)
  deriving DecidableEq, Repr, Inhabited

namespace ParameterList

def toList : ParameterList → List RenderedParameter
  | named parameters | positional parameters => parameters

def isPositional : ParameterList → Bool
  | named _ => false
  | positional _ => true

end ParameterList

/-- The adapter of an operation, ready for the template. -/
structure OperationPlan where
  generatedName : String
  /-- The operation that is called; a constructor has no name. -/
  calledName : Option String
  callKind : OperationKind
  adapter : AdapterType
  returnType : String
  parameters : ParameterList
  /-- The declaration clauses of the factory's type variables. -/
  generics : List String
  doc : Option String
  docComment : Option String
  deriving DecidableEq, Repr, Inhabited

namespace Operation

/-- Whether the parameters come in one array. -/
def isPositional (op : Operation) : Bool := op.arity > AdapterArity.maxFixed

def adapterFamily (op : Operation) : AdapterFamily :=
  if op.kind ≠ .constructor ∧ op.returnsVoid then .action else .func

/-- The adapter of an instance method takes the receiver alone. -/
def adapterArity (op : Operation) : AdapterArity :=
  if op.kind = .instanceMethod then .fixed 1 else .ofCount op.arity

/-- Documentation that says something. -/
def shownDoc (op : Operation) : Option String := op.doc.filter (· ≠ "")

/-- The parameter at a position of the list. -/
def renderParameter (op : Operation) (r : Renderer) (index : Nat) (p : Parameter) :
    Except UnsupportedShape RenderedParameter := do
  let boxedType ← r.usage p.type
  if op.isPositional then
    return { name := "args[" ++ toString index ++ "]", type := boxedType, boxedType }
  else
    return { name := p.name, type := ← r.parameter p.type, boxedType }

/-- The parameters from a position on. -/
def renderParameters (op : Operation) (r : Renderer) :
    Nat → List Parameter → Except UnsupportedShape (List RenderedParameter)
  | _, [] => .ok []
  | index, p :: rest => do
    let first ← op.renderParameter r index p
    let others ← op.renderParameters r (index + 1) rest
    return first :: others

/-- The type arguments of the adapter. -/
def adapterArgs (op : Operation) (owner returnType : String)
    (parameters : List RenderedParameter) : List String :=
  let inputs :=
    if op.kind = .instanceMethod then [owner]
    else if op.isPositional then [] else parameters.map RenderedParameter.boxedType
  match op.adapterFamily with
  | .action => inputs
  | .func => inputs ++ [returnType]

end Operation

namespace ClassMetadata

/-- The class over its own variables, as a text. -/
def ownerType (cls : ClassMetadata) : Except UnsupportedShape String :=
  (Renderer.start cls.typeVars (.forClass cls.typeVars cls.typeParams)).usage cls.selfType

/-- The adapter of an operation of a class under a name. -/
def planOperation (cls : ClassMetadata) (op : Operation) (generatedName : String) :
    Except UnsupportedShape OperationPlan :=
  let table := cls.typeVars
  let start := Renderer.start table (.forOperation table cls.typeParams op.typeParams)
  let (clauses, r) := start.declareAll (relevantVars table cls.typeParams op)
  do
    let generics ← clauses
    let owner ← r.usage cls.selfType
    let returnType ← if op.kind = .constructor then .ok owner else r.usage op.returnType
    let parameters ← op.renderParameters r 0 op.parameters
    return {
      generatedName
      calledName := if op.kind = .constructor then none else some op.name
      callKind := op.kind
      adapter := .ofArgs op.adapterFamily op.adapterArity
        (op.adapterArgs owner returnType parameters)
      returnType
      parameters := if op.isPositional then .positional parameters else .named parameters
      generics
      doc := op.shownDoc
      docComment := op.shownDoc.map DocComment.render }

end ClassMetadata

end FunctionAdapters
