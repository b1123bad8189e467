import FunctionAdapters.Codec.Operation
import FunctionAdapters.Proofs.Codec.Wildcard

/-!
Classes, and the shapes inside them, as they may be written.

The forms follow the printed values one for one.  In each object that stands for a record, the
fields may stand in any order, with other keys among them, and fields with a usual value may be left
out when they have it; an object that only names its kind stays as it is.  That each value is
decoded from all values of its form, and is printed as one of them, is one induction over shapes
(`Shape.codes_form`) and one step for each kind of record.
-/

namespace FunctionAdapters

open Json Json.Decoder

/-! ## Forms -/

def ClassName.form (name : ClassName) : Form :=
  .record [.needed "package" (.exactly (.string name.package)),
    .needed "simple" (.exactly (.string name.simple))]

def TypeVarId.form (id : TypeVarId) : Form := .exactly id.toJson

namespace Shape

mutual
/-- The values that stand for a shape. -/
def form : Shape → Form
  | .primitive p => .tagged "primitive" (.exactly p.toJson)
  | .declared name args bounds =>
    .tagged "declared" (.record [.needed "name" name.form,
      .optional "args" (.list (forms args)) (args = []),
      .optional "direct_bounds" (.list (forms bounds)) (bounds = [])])
  | .array component => .tagged "array" (form component)
  | .wildcard => .tagged "wildcard" plainForm
  | .wildcardExtends bound => .tagged "wildcard" (wildcardForm "extends" (form bound))
  | .wildcardSuper bound => .tagged "wildcard" (wildcardForm "super" (form bound))
  | .typeVar id => .tagged "type_variable" id.form
  | .void => .exactly (.string "void")
  | .top => .exactly (.string "universal_top")
def forms : List Shape → List Form
  | [] => []
  | s :: rest => form s :: forms rest
end

theorem forms_eq (shapes : List Shape) : forms shapes = shapes.map form := by
  induction shapes with
  | nil => rfl
  | cons s shapes ih => rw [forms, ih, List.map_cons]

theorem toJsons_eq (shapes : List Shape) : toJsons shapes = shapes.map toJson := by
  induction shapes with
  | nil => rfl
  | cons s shapes ih => rw [toJsons, ih, List.map_cons]

end Shape

def TypeParam.form (p : TypeParam) : Form :=
  .record [.needed "name" (.exactly (.string p.name)),
    .optional "upper_bound" p.upper.form (p.upper = .top),
    .optional "lower_bound" (.nullable Shape.form p.lower) (p.lower = none)]

def TypeVarTable.form (table : TypeVarTable) : Form := .list (table.params.map TypeParam.form)

def Parameter.form (p : Parameter) : Form :=
  .record [.needed "name" (.exactly (.string p.name)), .needed "ty" p.type.form]

/-- The texts of an optional field, or `null`. -/
def textForm : Option String → Form := .nullable fun text => .exactly (.string text)

def Operation.form (op : Operation) : Form :=
  .record [.needed "kind" (.exactly op.kind.toJson),
    .needed "name" (.exactly (.string op.name)),
    .optional "parameters" (.list (op.parameters.map Parameter.form)) (op.parameters = []),
    .optional "return_type" op.returnType.form (op.returnType = .void),
    .optional "type_params" (.list (op.typeParams.map TypeVarId.form)) (op.typeParams = []),
    .optional "doc" (textForm op.doc) (op.doc = none),
    .optional "generated_name" (textForm op.generatedName) (op.generatedName = none)]

def ClassMetadata.form (cls : ClassMetadata) : Form :=
  .record [.needed "name" cls.name.form,
    .optional "type_params" (.list (cls.typeParams.map TypeVarId.form)) (cls.typeParams = []),
    .optional "type_vars" cls.typeVars.form (cls.typeVars.params = []),
    .optional "operations" (.list (cls.operations.map Operation.form)) (cls.operations = [])]

/-! ## Codes -/

theorem ClassName.codes_form (name : ClassName) (bound : Nat) :
    Codes bound ClassName.decoder name.form name.toJson name := by
  refine Codes.record "struct ClassName" (⟨"", ""⟩ : ClassName)
    [.needed "package" string (fun a (name : ClassName) => { name with package := a }) _ _
        name.package,
      .needed "simple" string (fun a (name : ClassName) => { name with simple := a }) _ _
        name.simple]
    ?_ ?_ ?_
  · simp [Slot.needed]
  · exact ⟨Slot.sound_needed (.string _), Slot.sound_needed (.string _)⟩
  · simp [Slot.needed, FieldForm.needed]

theorem Primitive.codes (p : Primitive) (bound : Nat) :
    Codes bound Primitive.decoder (.exactly p.toJson) p.toJson p :=
  .nameOf (by cases p <;> rfl)

theorem TypeVarId.codes_form (id : TypeVarId) (bound : Nat) :
    Codes bound TypeVarId.decoder id.form id.toJson id := by
  have hid : (⟨.ofNat id.toNat⟩ : TypeVarId) = id := by
    rw [← TypeVarId.toNat_inj]
    simp [TypeVarId.toNat]
  have hnat : Codes bound (nat "u32" UInt32.size) id.form id.toJson id.toNat :=
    .nat "u32" id.index.toNat_lt (by decide)
  have hcodes := hnat.map fun n => (⟨.ofNat n⟩ : TypeVarId)
  rwa [hid] at hcodes

namespace Shape

theorem not_form_null (s : Shape) (room : Nat) : ¬s.form room .null := by
  cases s <;> simp [form, Form.tagged, Form.exactly, TypeVarId.form]

theorem codes_declared {bound : Nat} {inner : Decoder Shape} (name : ClassName)
    {args bounds : List Shape} (hargs : ∀ s ∈ args, Codes bound inner s.form s.toJson s)
    (hbounds : ∀ s ∈ bounds, Codes bound inner s.form s.toJson s) :
    Codes bound (declaredDecoder inner)
      (.record [.needed "name" name.form,
        .optional "args" (.list (args.map form)) (args = []),
        .optional "direct_bounds" (.list (bounds.map form)) (bounds = [])])
      (.object [("name", name.toJson), ("args", .array (args.map toJson)),
        ("direct_bounds", .array (bounds.map toJson))])
      (.declared name args bounds) := by
  refine Codes.map (Codes.record "struct variant TypeShape::Declared"
    ({ name := ⟨"", ""⟩ } : Declared)
    [.needed "name" ClassName.decoder (fun a (parts : Declared) => { parts with name := a }) _ _
        name,
      .optional "args" (list inner) (fun a (parts : Declared) => { parts with args := a }) _ _ _ args,
      .optional "direct_bounds" (list inner)
        (fun a (parts : Declared) => { parts with bounds := a }) _ _ _ bounds]
    ?_ ?_ ?_)
    fun parts => Shape.declared parts.name parts.args parts.bounds
  · -- the names, the soundness of each field, and the form of the record
    simp [Slot.needed, Slot.optional]
  · exact ⟨Slot.sound_needed (name.codes_form bound),
      Slot.sound_optional (.list hargs) fun h => by rw [h],
      Slot.sound_optional (.list hbounds) fun h => by rw [h]⟩
  · simp [Slot.needed, Slot.optional, FieldForm.needed, FieldForm.optional]

/-- One layer of a shape, from the codes of its parts. -/
theorem codes_layer {bound : Nat} {inner : Decoder Shape} (s : Shape)
    (h : ∀ part ∈ s.children, Codes bound inner part.form part.toJson part) :
    Codes (bound + 1) (layerDecoder inner) s.form s.toJson s := by
  cases s with
  | primitive p => exact .tagged rfl ((p.codes bound).map _)
  | declared name args bounds =>
    rw [form, forms_eq, forms_eq, toJson, toJsons_eq, toJsons_eq]
    exact .tagged rfl (.fields (codes_declared name (fun s hs => h s (List.mem_append_left _ hs))
      fun s hs => h s (List.mem_append_right _ hs)))
  | array component => exact .tagged rfl ((h component (by simp [children])).map _)
  | wildcard => exact .tagged rfl (codes_plain bound inner)
  | wildcardExtends b =>
    have hbound := h b (by simp [children])
    exact .tagged rfl (codes_bounded hbound rfl (WildcardKind.withBound_upper inner))
  | wildcardSuper b =>
    have hbound := h b (by simp [children])
    exact .tagged rfl (codes_bounded hbound rfl (WildcardKind.withBound_lower inner))
  | typeVar id => exact .tagged rfl ((id.codes_form bound).map _)
  | void => exact .alone rfl
  | top => exact .alone rfl

theorem size_le_sizes {s : Shape} {shapes : List Shape} (h : s ∈ shapes) : s.size ≤ sizes shapes := by
  induction shapes with
  | nil => cases h
  | cons first shapes ih =>
    rw [sizes]
    rcases List.mem_cons.mp h with rfl | h
    · exact Nat.le_add_right _ _
    · exact le_trans (ih h) (Nat.le_add_left _ _)

/-- **Every shape is decoded from its forms** that are nested less than there are layers. -/
theorem codes_form (s : Shape) (layers : Nat) :
    Codes layers (decoderWithin layers) s.form s.toJson s := by
  have hlayer (n : Nat) : Codes (n + 1) (decoderWithin (n + 1)) s.form s.toJson s :=
    codes_layer s fun part hpart => codes_form part n
  -- Without a layer nothing is decoded; the form is the same as with one.
  cases layers with
  | zero => exact (hlayer 0).zero
  | succ n => exact hlayer n
termination_by s.size
decreasing_by exact Nat.lt_of_le_of_lt (size_le_sizes hpart) (sizes_children_lt s)

theorem codes (s : Shape) : Codes (maxNesting + 2) decoder s.form s.toJson s :=
  s.codes_form (maxNesting + 2)

end Shape

theorem TypeParam.codes_form (p : TypeParam) :
    Codes (maxNesting + 2) TypeParam.decoder p.form p.toJson p := by
  refine Codes.record "struct TypeParamDef" ({ name := "" } : TypeParam)
    [.needed "name" string (fun a (p : TypeParam) => { p with name := a }) _ _ p.name,
      .optional "upper_bound" Shape.decoder (fun a (p : TypeParam) => { p with upper := a }) _ _ _
        p.upper,
      .optional "lower_bound" (nullable Shape.decoder)
        (fun a (p : TypeParam) => { p with lower := a }) _ _ _ p.lower]
    ?_ ?_ ?_
  · simp [Slot.needed, Slot.optional]
  · exact ⟨Slot.sound_needed (.string _), Slot.sound_optional p.upper.codes fun h => by rw [h],
      Slot.sound_optional (.nullable (fun s _ => s.codes) fun s _ => s.not_form_null)
        fun h => by rw [h]⟩
  · simp [Slot.needed, Slot.optional, FieldForm.needed, FieldForm.optional]

theorem TypeVarTable.codes_form (table : TypeVarTable) :
    Codes (maxNesting + 2) TypeVarTable.decoder table.form table.toJson table :=
  (Codes.list fun p _ => p.codes_form).map TypeVarTable.mk

theorem Parameter.codes_form (p : Parameter) :
    Codes (maxNesting + 2) Parameter.decoder p.form p.toJson p := by
  refine Codes.record "struct Parameter" ({ name := "", type := .void } : Parameter)
    [.needed "name" string (fun a (p : Parameter) => { p with name := a }) _ _ p.name,
      .needed "ty" Shape.decoder (fun a (p : Parameter) => { p with type := a }) _ _ p.type]
    ?_ ?_ ?_
  · simp [Slot.needed]
  · exact ⟨Slot.sound_needed (.string _), Slot.sound_needed p.type.codes⟩
  · simp [Slot.needed, FieldForm.needed]

theorem OperationKind.codes (kind : OperationKind) (bound : Nat) :
    Codes bound OperationKind.decoder (.exactly kind.toJson) kind.toJson kind :=
  .nameOf (by cases kind <;> rfl)

theorem codes_textForm (text : Option String) (bound : Nat) :
    Codes bound (nullable string) (textForm text) (.ofOption .string text) text :=
  .nullable (fun text _ => .string text) fun _ _ _ h => nomatch h

theorem Operation.codes_form (op : Operation) :
    Codes (maxNesting + 2) Operation.decoder op.form op.toJson op := by
  refine Codes.record "struct CandidateOperation"
    ({ kind := .instanceMethod, name := "" } : Operation)
    [.needed "kind" OperationKind.decoder (fun a (op : Operation) => { op with kind := a }) _ _
        op.kind,
      .needed "name" string (fun a (op : Operation) => { op with name := a }) _ _ op.name,
      .optional "parameters" (list Parameter.decoder)
        (fun a (op : Operation) => { op with parameters := a }) _ _ _ op.parameters,
      .optional "return_type" Shape.decoder
        (fun a (op : Operation) => { op with returnType := a }) _ _ _ op.returnType,
      .optional "type_params" (list TypeVarId.decoder)
        (fun a (op : Operation) => { op with typeParams := a }) _ _ _ op.typeParams,
      .optional "doc" (nullable string) (fun a (op : Operation) => { op with doc := a }) _ _ _ op.doc,
      .optional "generated_name" (nullable string)
        (fun a (op : Operation) => { op with generatedName := a }) _ _ _ op.generatedName]
    ?_ ?_ ?_
  · simp [Slot.needed, Slot.optional]
  · -- an omitted field is one with the value it starts with
    exact ⟨Slot.sound_needed (op.kind.codes _), Slot.sound_needed (.string _),
      Slot.sound_optional (.list fun p _ => p.codes_form) fun h => by rw [h],
      Slot.sound_optional op.returnType.codes fun h => by rw [h],
      Slot.sound_optional (.list fun id _ => id.codes_form _) fun h => by rw [h],
      Slot.sound_optional (codes_textForm _ _) fun h => by rw [h],
      Slot.sound_optional (codes_textForm _ _) fun h => by rw [h]⟩
  · simp [Slot.needed, Slot.optional, FieldForm.needed, FieldForm.optional]

namespace ClassMetadata

theorem codes_form (cls : ClassMetadata) :
    Codes (maxNesting + 2) ClassMetadata.decoder cls.form cls.toJson cls := by
  refine Codes.record "struct ClassMetadata" ({ name := ⟨"", ""⟩ } : ClassMetadata)
    [.needed "name" ClassName.decoder (fun a (cls : ClassMetadata) => { cls with name := a }) _ _
        cls.name,
      .optional "type_params" (list TypeVarId.decoder)
        (fun a (cls : ClassMetadata) => { cls with typeParams := a }) _ _ _ cls.typeParams,
      .optional "type_vars" TypeVarTable.decoder
        (fun a (cls : ClassMetadata) => { cls with typeVars := a }) _ _ _ cls.typeVars,
      .optional "operations" (list Operation.decoder)
        (fun a (cls : ClassMetadata) => { cls with operations := a }) _ _ _ cls.operations]
    ?_ ?_ ?_
  · simp [Slot.needed, Slot.optional]
  · exact ⟨Slot.sound_needed (cls.name.codes_form _),
      Slot.sound_optional (.list fun id _ => id.codes_form _) fun h => by rw [h],
      Slot.sound_optional cls.typeVars.codes_form fun h => by
        rw [show cls.typeVars = {} from congrArg TypeVarTable.mk h],
      Slot.sound_optional (.list fun op _ => op.codes_form) fun h => by rw [h]⟩
  · simp [Slot.needed, Slot.optional, FieldForm.needed, FieldForm.optional]

end ClassMetadata

end FunctionAdapters
