import FunctionAdapters.Adapter.Operation
import FunctionAdapters.Order
import FunctionAdapters.Proofs.Signature.Renaming
import FunctionAdapters.Proofs.TypeVar.Names
import Mathlib.Data.List.Flatten

/-!
# Operations under other ids

An operation is planned from the types that it mentions and from its class, and under other ids it
has the same plan (`planOperation_rename`): it declares the same variables in the same order, under
the same names.
-/

namespace FunctionAdapters

variable {r : TypeVarId → TypeVarId}

/-! ## Operations and classes -/

def Parameter.rename (r : TypeVarId → TypeVarId) (p : Parameter) : Parameter :=
  { name := p.name, type := p.type.rename r }

namespace Operation

def rename (r : TypeVarId → TypeVarId) (op : Operation) : Operation :=
  { op with
    parameters := op.parameters.map (Parameter.rename r)
    returnType := op.returnType.rename r
    typeParams := op.typeParams.map r }

/-- The shapes that mention variables: the variables it declares itself and its signature types. -/
def mentions (op : Operation) : List Shape := op.typeParams.map .typeVar ++ op.signatureTypes

variable {op : Operation}

@[simp] theorem kind_rename : (op.rename r).kind = op.kind := rfl

@[simp] theorem name_rename : (op.rename r).name = op.name := rfl

@[simp] theorem parameters_rename :
    (op.rename r).parameters = op.parameters.map (Parameter.rename r) := rfl

@[simp] theorem returnType_rename : (op.rename r).returnType = op.returnType.rename r := rfl

@[simp] theorem typeParams_rename : (op.rename r).typeParams = op.typeParams.map r := rfl

@[simp] theorem isStatic_rename : (op.rename r).isStatic = op.isStatic := rfl

@[simp] theorem shownDoc_rename : (op.rename r).shownDoc = op.shownDoc := rfl

@[simp] theorem arity_rename : (op.rename r).arity = op.arity := List.length_map _

@[simp] theorem isPositional_rename : (op.rename r).isPositional = op.isPositional := by
  simp [isPositional]

@[simp] theorem returnsVoid_rename : (op.rename r).returnsVoid = op.returnsVoid :=
  op.returnType.isVoid_rename r

@[simp] theorem adapterFamily_rename : (op.rename r).adapterFamily = op.adapterFamily := by
  unfold adapterFamily
  rw [returnsVoid_rename, kind_rename]

@[simp] theorem adapterArity_rename : (op.rename r).adapterArity = op.adapterArity := by
  unfold adapterArity
  rw [arity_rename, kind_rename]

@[simp] theorem adapterArgs_rename (owner returnType : String)
    (parameters : List RenderedParameter) :
    (op.rename r).adapterArgs owner returnType parameters =
      op.adapterArgs owner returnType parameters := by
  unfold adapterArgs
  rw [adapterFamily_rename, isPositional_rename, kind_rename]

theorem rename_id (op : Operation) : op.rename id = op := by
  have hid : Parameter.rename id = id := by
    funext p
    rw [Parameter.rename, Shape.rename_id, id]
  rw [rename, hid, Shape.rename_id, List.map_id, List.map_id]

theorem signatureTypes_rename :
    (op.rename r).signatureTypes = op.signatureTypes.map (Shape.rename r) := by
  simp [signatureTypes, Parameter.rename]

theorem type_mem_mentions {p : Parameter} (hp : p ∈ op.parameters) : p.type ∈ op.mentions :=
  List.mem_append_right _ (List.mem_append_left _ (List.mem_map_of_mem hp))

theorem returnType_mem_mentions : op.returnType ∈ op.mentions :=
  List.mem_append_right _ (List.mem_append_right _ (List.mem_singleton_self _))

end Operation

namespace ClassMetadata

/-- The shapes of a class and of its operations that mention variables. -/
def mentions (cls : ClassMetadata) : List Shape :=
  cls.typeParams.map .typeVar ++ cls.operations.flatMap Operation.mentions

/-- A class with other ids for its variables.  Of its table only the entries of the variables that
the class reaches are given; ids without an entry have to stay. -/
structure Renamed (r : TypeVarId → TypeVarId) (cls other : ClassMetadata) : Prop where
  injective : Function.Injective r
  name : other.name = cls.name
  typeParams : other.typeParams = cls.typeParams.map r
  operations : other.operations = cls.operations.map (Operation.rename r)
  entries : ∀ id ∈ cls.typeVars.reach cls.mentions,
    other.typeVars.get? (r id) = (cls.typeVars.get? id).map (TypeParam.rename r)
  missing : ∀ id ∈ cls.typeVars.reach cls.mentions, cls.typeVars.get? id = none → r id = id

namespace Renamed

variable {cls other : ClassMetadata} {op : Operation}

theorem carries (h : cls.Renamed r other) {s : Shape} (hs : s ∈ cls.mentions) :
    cls.typeVars.Carries other.typeVars r s := by
  intro id hid
  have hreach : id ∈ cls.typeVars.reach cls.mentions :=
    TypeVarTable.mem_reach_iff.2 ⟨s, hs, hid⟩
  exact ⟨h.entries id hreach, h.missing id hreach⟩

theorem carries_typeParam (h : cls.Renamed r other) {id : TypeVarId} (hid : id ∈ cls.typeParams) :
    cls.typeVars.Carries other.typeVars r (.typeVar id) :=
  h.carries (List.mem_append_left _ (List.mem_map_of_mem hid))

theorem carries_mentions (h : cls.Renamed r other) (hop : op ∈ cls.operations) {s : Shape}
    (hs : s ∈ op.mentions) : cls.typeVars.Carries other.typeVars r s :=
  h.carries (List.mem_append_right _ (List.mem_flatMap.2 ⟨op, hop, hs⟩))

theorem carries_selfType (h : cls.Renamed r other) :
    cls.typeVars.Carries other.typeVars r cls.selfType := by
  intro id hid
  rcases Relation.ReflTransGen.cases_head hid with heq | ⟨t, ht, hlead⟩
  · cases heq
  · have hmem : t ∈ cls.typeParams.map Shape.typeVar ++ [] := ht
    rw [List.append_nil] at hmem
    obtain ⟨x, hx, rfl⟩ := List.mem_map.1 hmem
    exact h.carries_typeParam hx id hlead

theorem selfType (h : cls.Renamed r other) : other.selfType = cls.selfType.rename r := by
  unfold ClassMetadata.selfType
  rw [Shape.rename_ofClass, h.name, h.typeParams, List.map_map, List.map_map]
  rfl

end Renamed

end ClassMetadata

/-! ## Declared variables -/

theorem firstSeen_map {α β : Type} [DecidableEq α] [DecidableEq β] {f : α → β}
    (hf : Function.Injective f) (l : List α) : firstSeen (l.map f) = (firstSeen l).map f := by
  induction l with
  | nil => rfl
  | cons x rest ih =>
    rw [List.map_cons, firstSeen, firstSeen, ih, List.filter_map, List.map_cons]
    congr 3
    funext y
    simp [hf.eq_iff]

section

variable {table other : TypeVarTable} {classParams : List TypeVarId} {op : Operation}

theorem relevantVars_rename (hr : Function.Injective r)
    (hclass : ∀ id ∈ classParams, table.Carries other r (.typeVar id))
    (hop : ∀ s ∈ op.mentions, table.Carries other r s) :
    relevantVars other (classParams.map r) (op.rename r) =
      (relevantVars table classParams op).map r := by
  have hreach : ∀ s ∈ op.mentions, other.reach [s.rename r] = (table.reach [s]).map r :=
    fun s hs => TypeVarTable.reach_rename hr (List.forall_mem_singleton.2 (hop s hs))
  have hparameters : (op.rename r).parameters.flatMap (fun p => other.reach [p.type]) =
      (op.parameters.flatMap fun p => table.reach [p.type]).map r := by
    rw [Operation.parameters_rename, List.flatMap_map, List.map_flatMap]
    exact List.flatMap_congr fun p hp => hreach p.type (Operation.type_mem_mentions hp)
  have hreturn := hreach op.returnType Operation.returnType_mem_mentions
  unfold relevantVars
  rw [hparameters, Operation.returnType_rename, hreturn, Operation.isStatic_rename,
    TypeVarTable.reachIds_rename hr hclass, ← firstSeen_map hr, List.map_append, List.map_append]
  split <;> rfl

end

/-! ## The plan -/

namespace Operation

variable {op : Operation} {other : TypeVarTable} {renderer : Renderer}

theorem renderParameter_rename (hr : Function.Injective r) (index : Nat) {p : Parameter}
    (h : renderer.table.Carries other r p.type) :
    (op.rename r).renderParameter (renderer.rename r other) index (p.rename r) =
      op.renderParameter renderer index p := by
  unfold renderParameter Parameter.rename
  simp only [Renderer.usage_rename hr h, Renderer.parameter_rename hr h, isPositional_rename]

theorem renderParameters_rename (hr : Function.Injective r) (index : Nat) {ps : List Parameter}
    (h : ∀ p ∈ ps, renderer.table.Carries other r p.type) :
    (op.rename r).renderParameters (renderer.rename r other) index (ps.map (Parameter.rename r)) =
      op.renderParameters renderer index ps := by
  induction ps generalizing index with
  | nil => rfl
  | cons p rest ih =>
    rw [List.map_cons, renderParameters, renderParameters,
      renderParameter_rename hr index (h p List.mem_cons_self),
      ih (index + 1) fun q hq => h q (List.mem_cons_of_mem p hq)]

end Operation

namespace ClassMetadata.Renamed

variable {cls other : ClassMetadata} {op : Operation}

theorem carries_relevantVar (h : cls.Renamed r other) (hop : op ∈ cls.operations) {id : TypeVarId}
    (hid : id ∈ relevantVars cls.typeVars cls.typeParams op) :
    cls.typeVars.Carries other.typeVars r (.typeVar id) := by
  rcases mem_relevantVars_iff.1 hid with ⟨-, hid⟩ | ⟨p, hp, hid⟩ | hid
  · obtain ⟨s, hs, hlead⟩ := TypeVarTable.mem_reach_iff.1 hid
    exact (h.carries (List.mem_append_left _ hs)).leads hlead
  · obtain ⟨s, hs, hlead⟩ := TypeVarTable.mem_reach_iff.1 hid
    rw [List.mem_singleton.1 hs] at hlead
    exact (h.carries_mentions hop (Operation.type_mem_mentions hp)).leads hlead
  · obtain ⟨s, hs, hlead⟩ := TypeVarTable.mem_reach_iff.1 hid
    rw [List.mem_singleton.1 hs] at hlead
    exact (h.carries_mentions hop Operation.returnType_mem_mentions).leads hlead

theorem start (h : cls.Renamed r other) (opParams : List TypeVarId)
    (hop : ∀ id ∈ opParams, cls.typeVars.Carries other.typeVars r (.typeVar id)) :
    Renderer.start other.typeVars
        (.forOperation other.typeVars other.typeParams (opParams.map r)) =
      (Renderer.start cls.typeVars
        (.forOperation cls.typeVars cls.typeParams opParams)).rename r other.typeVars := by
  rw [h.typeParams,
    TypeVarNames.forOperation_rename h.injective (fun id hid => h.carries_typeParam hid) hop]
  rfl

theorem ownerType (h : cls.Renamed r other) : other.ownerType = cls.ownerType := by
  have hstart := h.start [] (by simp)
  unfold ClassMetadata.ownerType TypeVarNames.forClass
  rw [List.map_nil] at hstart
  rw [hstart, h.selfType]
  exact Renderer.usage_rename h.injective h.carries_selfType

/-- **The plan of an operation** does not depend on ids. -/
theorem planOperation (h : cls.Renamed r other) (hop : op ∈ cls.operations) (name : String) :
    other.planOperation (op.rename r) name = cls.planOperation op name := by
  have hmentions : ∀ s ∈ op.mentions, cls.typeVars.Carries other.typeVars r s :=
    fun s hs => h.carries_mentions hop hs
  have hstart := h.start op.typeParams fun id hid =>
    hmentions (.typeVar id) (List.mem_append_left _ (List.mem_map_of_mem hid))
  have hrelevant := relevantVars_rename h.injective (fun id hid => h.carries_typeParam hid) hmentions
  have hdeclare := Renderer.declareAll_rename
    (Renderer.start cls.typeVars (.forOperation cls.typeVars cls.typeParams op.typeParams))
    h.injective fun id hid => h.carries_relevantVar hop hid
  have hafter := Renderer.toVocabulary_declareAll
    (Renderer.start cls.typeVars (.forOperation cls.typeVars cls.typeParams op.typeParams))
    (relevantVars cls.typeVars cls.typeParams op)
  unfold ClassMetadata.planOperation
  dsimp only
  rw [Operation.typeParams_rename, hstart, h.typeParams, hrelevant, hdeclare]
  -- from here on both renderers write with the same words, under ids that correspond
  generalize Renderer.declareAll _ _ = step at hafter ⊢
  obtain ⟨clauses, renderer⟩ := step
  dsimp only at hafter ⊢
  have htable : renderer.table = cls.typeVars := congrArg Vocabulary.table hafter
  have howner : (renderer.rename r other.typeVars).usage other.selfType =
      renderer.usage cls.selfType := by
    rw [h.selfType]
    exact Renderer.usage_rename h.injective (htable ▸ h.carries_selfType)
  have hreturn : (renderer.rename r other.typeVars).usage (op.returnType.rename r) =
      renderer.usage op.returnType :=
    Renderer.usage_rename h.injective (htable ▸ hmentions _ Operation.returnType_mem_mentions)
  have hparameters : (op.rename r).renderParameters (renderer.rename r other.typeVars) 0
      (op.parameters.map (Parameter.rename r)) = op.renderParameters renderer 0 op.parameters :=
    Operation.renderParameters_rename h.injective 0 fun p hp =>
      htable ▸ hmentions _ (Operation.type_mem_mentions hp)
  simp only [howner, hreturn, hparameters, Operation.kind_rename, Operation.name_rename,
    Operation.returnType_rename, Operation.parameters_rename, Operation.adapterFamily_rename,
    Operation.adapterArity_rename, Operation.adapterArgs_rename, Operation.isPositional_rename,
    Operation.shownDoc_rename]
  rfl

end ClassMetadata.Renamed

end FunctionAdapters
