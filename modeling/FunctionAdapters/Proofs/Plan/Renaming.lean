import FunctionAdapters.Proofs.Adapter.Renaming
import FunctionAdapters.Proofs.Adapter.Scoping
import FunctionAdapters.Proofs.Plan.Discovery

/-!
# Classes under other ids

The ids of type variables do not show in a plan, and neither do the entries of the table that the
class does not reach (`plan_rename`).  What the order of the operations and the names of the
factories are made of, keys, erasures and tags, is the same under other ids; so the operations come
in the same order, ties included, and the resolver sees the same offers.
-/

namespace FunctionAdapters

variable {r : TypeVarId → TypeVarId}

/-! ## Keys and names -/

theorem KindTag.ofShape_rename (r : TypeVarId → TypeVarId) (s : Shape) :
    KindTag.ofShape (s.rename r) = KindTag.ofShape s := by cases s <;> rfl

theorem TypeVarTable.declarationText_rename {table other : TypeVarTable} {id : TypeVarId}
    (h : table.Carries other r (.typeVar id)) :
    other.declarationText (r id) = table.declarationText id := by
  unfold declarationText
  rw [h.get?]
  cases hp : table.get? id with
  | none => exact h.label
  | some p =>
    have hupper := Shape.canonical_rename p.upper (h.upper hp)
    have hlower : (p.rename r).lower.map (Shape.canonical other) =
        p.lower.map (Shape.canonical table) := by
      unfold TypeParam.rename
      rw [Option.map_map]
      exact Option.map_congr fun s hs => Shape.canonical_rename s (h.lower hp hs)
    simp only [Option.map_some, hlower]
    rw [TypeParam.rename, hupper]

namespace Operation

variable {table other : TypeVarTable} {op a b : Operation}

@[simp] theorem generatedName_rename : (op.rename r).generatedName = op.generatedName := rfl

@[simp] theorem doc_rename : (op.rename r).doc = op.doc := rfl

@[simp] theorem disambiguated_rename (name : String) :
    (op.rename r).disambiguated name = op.disambiguated name := by
  have htags : (op.rename r).kindTags = op.kindTags := by
    simp [kindTags, Parameter.rename, KindTag.ofShape_rename]
  rw [disambiguated, htags, disambiguated]

theorem requestedName_rename (hr : Function.Injective r)
    (h : ∀ s ∈ op.mentions, table.Carries other r s) (cls : ClassName) :
    (op.rename r).requestedName other cls = op.requestedName table cls := by
  have herasures : (op.rename r).erasures other = op.erasures table := by
    unfold erasures
    rw [parameters_rename, List.map_map]
    exact List.map_congr_left fun p hp =>
      TypeVarTable.erasure_rename hr (h p.type (type_mem_mentions hp))
  simp only [requestedName, clashesWithRoot, herasures, kind_rename, name_rename, isStatic_rename,
    generatedName_rename]
  rfl

theorem canonicalKey_rename (hr : Function.Injective r)
    (h : ∀ s ∈ op.mentions, table.Carries other r s) :
    (op.rename r).canonicalKey other = op.canonicalKey table := by
  have hsignature : ∀ s ∈ op.signatureTypes, table.Carries other r s := fun s hs =>
    h s (List.mem_append_right _ hs)
  have hparameters : ((op.parameters.map (Parameter.rename r)).map
      fun p => p.type.boxed.canonical other) =
      op.parameters.map fun p => p.type.boxed.canonical table := by
    rw [List.map_map]
    refine List.map_congr_left fun p hp => ?_
    have hboxed := (h p.type (type_mem_mentions hp)).boxed
    simp only [Function.comp_apply, Parameter.rename, ← Shape.rename_boxed]
    exact Shape.canonical_rename _ hboxed
  -- the same variables are reached in the same order, each declared by the same text
  have hbounds : (other.reach (op.rename r).signatureTypes).map other.declarationText =
      (table.reach op.signatureTypes).map table.declarationText := by
    rw [signatureTypes_rename, TypeVarTable.reach_rename hr hsignature, List.map_map]
    refine List.map_congr_left fun id hid => ?_
    obtain ⟨s, hs, hlead⟩ := TypeVarTable.mem_reach_iff.1 hid
    exact TypeVarTable.declarationText_rename ((hsignature s hs).leads hlead)
  have hreturn := Shape.canonical_rename op.returnType (h _ returnType_mem_mentions)
  have hnames : (op.parameters.map (Parameter.rename r)).map Parameter.name =
      op.parameters.map Parameter.name := by
    rw [List.map_map]
    rfl
  simp only [canonicalKey, hbounds, parameters_rename, hparameters, hnames, returnType_rename,
    hreturn, name_rename, arity_rename, kind_rename, generatedName_rename, doc_rename]

end Operation

/-- **The canonical order** is the same under other ids, ties included. -/
theorem canonicalOrder_rename {table other : TypeVarTable} {ops : List Operation}
    (hr : Function.Injective r)
    (h : ∀ op ∈ ops, ∀ s ∈ op.mentions, table.Carries other r s) :
    canonicalOrder other (ops.map (Operation.rename r)) =
      (canonicalOrder table ops).map (Operation.rename r) := by
  unfold canonicalOrder
  refine (List.map_mergeSort fun a ha b hb => ?_).symm
  rw [Operation.keyLE, Operation.keyLE, Operation.canonicalKey_rename hr (h a ha),
    Operation.canonicalKey_rename hr (h b hb)]

/-! ## The run -/

namespace ClassMetadata

variable {cls other : ClassMetadata} {op : Operation} {ops : List Operation}

namespace Renamed

theorem requestedPlan (h : cls.Renamed r other) (hop : op ∈ cls.operations) :
    other.requestedPlan (op.rename r) = cls.requestedPlan op := by
  have hname : other.requestedName (op.rename r) = cls.requestedName op := by
    unfold requestedName
    rw [h.name, Operation.requestedName_rename h.injective fun s hs => h.carries_mentions hop hs]
  rw [ClassMetadata.requestedPlan, hname, h.planOperation hop, ClassMetadata.requestedPlan]

theorem droppedDiagnostic (h : cls.Renamed r other) (cause : UnsupportedShape) :
    other.droppedDiagnostic (op.rename r) cause = cls.droppedDiagnostic op cause := by
  simp only [ClassMetadata.droppedDiagnostic, Operation.name_rename, h.name]

theorem dropped (h : cls.Renamed r other) (hops : ∀ op ∈ ops, op ∈ cls.operations) :
    other.dropped (ops.map (Operation.rename r)) = cls.dropped ops := by
  unfold ClassMetadata.dropped
  rw [List.filterMap_map]
  refine List.filterMap_congr fun op hop => ?_
  simp only [Function.comp_apply, warning?, h.requestedPlan (hops op hop), h.droppedDiagnostic]

theorem view_offers (h : cls.Renamed r other) (hops : ∀ op ∈ ops, op ∈ cls.operations)
    (policy : NamingPolicy) :
    (other.offers (ops.map (Operation.rename r))).map (Resolver.view policy) =
      (cls.offers ops).map (Resolver.view policy) := by
  unfold offers
  rw [List.filterMap_map, List.map_filterMap, List.map_filterMap]
  refine List.filterMap_congr fun op hop => ?_
  simp only [Function.comp_apply, offer?, h.requestedPlan (hops op hop)]
  cases cls.requestedPlan op with
  | error cause => rfl
  | ok plan => simp [Resolver.view]

/-- **The plan of a class** does not depend on ids. -/
theorem plan (h : cls.Renamed r other) (options : ClassOptions) :
    other.plan options = cls.plan options := by
  have hmem : ∀ op ∈ canonicalOrder cls.typeVars cls.operations, op ∈ cls.operations :=
    fun op hop => mem_canonicalOrder.1 hop
  -- the order is the same, so the two runs can be compared offer by offer
  have horder : canonicalOrder other.typeVars other.operations =
      (canonicalOrder cls.typeVars cls.operations).map (Operation.rename r) := by
    rw [h.operations]
    exact canonicalOrder_rename h.injective fun op hop s hs => h.carries_mentions hop hs
  have hresolver : other.resolver options = cls.resolver options := by
    unfold resolver
    rw [h.name]
  have hrun : (cls.resolver options).pushAll
      (other.offers ((canonicalOrder cls.typeVars cls.operations).map (Operation.rename r))) =
      (cls.resolver options).pushAll
        (cls.offers (canonicalOrder cls.typeVars cls.operations)) :=
    Resolver.pushAll_congr (h.view_offers hmem _)
  have hfinish : other.finish options = cls.finish options := by
    funext owner state
    simp only [finish, generatedClassName, h.name]
  rw [plan_eq, plan_eq, h.ownerType, horder, hresolver, hrun, h.dropped hmem, h.name, hfinish]

end Renamed

def withTable (cls : ClassMetadata) (table : TypeVarTable) : ClassMetadata :=
  { cls with typeVars := table }

@[simp] theorem typeVars_withTable (cls : ClassMetadata) (table : TypeVarTable) :
    (cls.withTable table).typeVars = table := rfl

@[simp] theorem typeParams_withTable (cls : ClassMetadata) (table : TypeVarTable) :
    (cls.withTable table).typeParams = cls.typeParams := rfl

@[simp] theorem selfType_withTable (cls : ClassMetadata) (table : TypeVarTable) :
    (cls.withTable table).selfType = cls.selfType := rfl

/-- A table that has the same entries for what the class reaches renames nothing. -/
theorem renamed_withTable {table : TypeVarTable}
    (h : ∀ id ∈ cls.typeVars.reach cls.mentions, table.get? id = cls.typeVars.get? id) :
    cls.Renamed id (cls.withTable table) where
  injective := Function.injective_id
  name := rfl
  typeParams := (List.map_id _).symm
  operations := by
    have hid : Operation.rename id = id := funext Operation.rename_id
    rw [hid, List.map_id, withTable]
  entries x hx := by
    have hid : TypeParam.rename id = id := funext TypeParam.rename_id
    rw [hid, Option.map_id, id, id]
    exact h x hx
  missing _ _ _ := rfl

end ClassMetadata

/-- **Type variables have no identity.**  If a class has other ids for its variables, and its table
has, at the ids that it reaches, the entries of the first class under the other ids, then both have
the same plan.  In particular entries that a class does not reach can be added, removed and
changed. -/
theorem plan_rename (cls : ClassMetadata) (options : ClassOptions) :
    (∀ (r : TypeVarId → TypeVarId) (other : ClassMetadata), cls.Renamed r other →
      other.plan options = cls.plan options) ∧
    ∀ table : TypeVarTable,
      (∀ id ∈ cls.typeVars.reach cls.mentions, table.get? id = cls.typeVars.get? id) →
        (cls.withTable table).plan options = cls.plan options :=
  ⟨fun _ _ h => h.plan options, fun _ h => (ClassMetadata.renamed_withTable h).plan options⟩

/-- The class `Sorted` with its method `insert`, its two variables the other way round. -/
def renumberedSorted : ClassMetadata :=
  { name := ⟨"com.example", "Sorted"⟩
    typeParams := [⟨1⟩]
    typeVars := ⟨[
      { name := "U", upper := .typeVar ⟨1⟩ },
      { name := "T", upper := .ofClass ⟨"java.lang", "Comparable"⟩ [.typeVar ⟨1⟩] }]⟩
    operations := [
      { kind := .instanceMethod
        name := "insert"
        parameters := [⟨"value", .typeVar ⟨0⟩⟩, ⟨"index", .primitive .int⟩]
        returnType := .array (.typeVar ⟨1⟩)
        typeParams := [⟨0⟩] }] }

/-- The table of `Sorted` can be renumbered, and it can have more entries. -/
theorem renumberedSorted_plan :
    (sortedClass.withOperations [insertMethod]).Renamed (Equiv.swap ⟨0⟩ ⟨1⟩) renumberedSorted ∧
      renumberedSorted.plan {} = (sortedClass.withOperations [insertMethod]).plan {} ∧
      ((sortedClass.withOperations [insertMethod]).withTable
          ⟨sortedClass.typeVars.params ++ [{ name := "V" }]⟩).plan {} =
        (sortedClass.withOperations [insertMethod]).plan {} := by
  have hreach : (sortedClass.withOperations [insertMethod]).typeVars.reach
      (sortedClass.withOperations [insertMethod]).mentions = [⟨0⟩, ⟨1⟩] := by with_unfolding_all rfl
  have hrenamed : (sortedClass.withOperations [insertMethod]).Renamed (Equiv.swap ⟨0⟩ ⟨1⟩)
      renumberedSorted :=
    { injective := Equiv.injective _
      name := rfl
      typeParams := rfl
      operations := rfl
      entries := by
        rw [hreach]
        exact List.forall_mem_cons.2 ⟨rfl, List.forall_mem_singleton.2 rfl⟩
      missing := by
        rw [hreach]
        refine List.forall_mem_cons.2 ⟨fun h => ?_, List.forall_mem_singleton.2 fun h => ?_⟩
        · cases h
        · cases h }
  have hplans := plan_rename (sortedClass.withOperations [insertMethod]) {}
  refine ⟨hrenamed, hplans.1 _ _ hrenamed, hplans.2 _ ?_⟩
  rw [hreach]
  exact List.forall_mem_cons.2 ⟨rfl, List.forall_mem_singleton.2 rfl⟩

end FunctionAdapters
