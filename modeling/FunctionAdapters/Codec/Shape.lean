import FunctionAdapters.Json.Decoder
import FunctionAdapters.Json.Value
import FunctionAdapters.TypeVar.Table

/-!
Class names, type shapes and tables of type variables as JSON.  A shape is written as its kind,
alone or as the only key of an object; arguments and bounds are written even when there are none,
and may be left out when read.
-/

namespace FunctionAdapters

open Json Json.Decoder

namespace ClassName

def toJson (name : ClassName) : Json :=
  .object [("package", .string name.package), ("simple", .string name.simple)]

def decoder : Decoder ClassName :=
  record "struct ClassName"
    [.needed "package" string fun a name => { name with package := a },
      .needed "simple" string fun a name => { name with simple := a }]
    ⟨"", ""⟩

end ClassName

namespace Primitive

def toJson (p : Primitive) : Json := .string p.keyword

def decoder : Decoder Primitive := nameOf (all.map fun p => (p.keyword, p))

end Primitive

namespace TypeVarId

def toJson (id : TypeVarId) : Json := .ofNat id.toNat

def decoder : Decoder TypeVarId := (nat "u32" UInt32.size).map fun n => ⟨.ofNat n⟩

end TypeVarId

namespace Shape

/-! ## Wildcards -/

inductive WildcardKind where
  | plain
  | upper
  | lower
  deriving DecidableEq, Repr

namespace WildcardKind

def words : List (String × WildcardKind) :=
  [("unbounded", plain), ("extends", upper), ("super", lower)]

def decoder : Decoder WildcardKind := nameOf words

/-- The kind in a list, which is a name by itself. -/
def bareDecoder : Decoder WildcardKind := bareNameOf words

/-- The wildcard of a kind with the bound read by `inner`; a plain one has none. -/
def withBound (kind : WildcardKind) (inner : Decoder Shape) : Decoder Shape := fun access s =>
  match kind with
  | plain =>
    match s with
    | .null => .ok .wildcard
    | s => wrongKind "unit variant WildcardBound::Unbounded" s
  | upper => (inner access s).map .wildcardExtends
  | lower => (inner access s).map .wildcardSuper

end WildcardKind

/-- The next entry that is the kind or the bound of a wildcard, and the entries after it. -/
def nextPart (closing : Option Fault) : List (Key × Source) →
    Except DecodeError (Option (String × Source × List (Key × Source)))
  | [] => do
    noFault closing
    return none
  | (key, value) :: rest => do
    let name ← key.read.mapError .fault
    if name = "kind" ∨ name = "bound" then return some (name, value, rest)
    else
      noFault value.skipFault
      nextPart closing rest

/-- The end of a wildcard of which both parts were seen. -/
def noMoreParts (closing : Option Fault) (rest : List (Key × Source)) :
    Except DecodeError Unit := do
  match ← nextPart closing rest with
  | none => return ()
  | some (name, _, _) => .error (.mismatch (.duplicateField name))

/-- A wildcard from an object.  A bound in front of its kind is kept until the kind is known. -/
def wildcardByName (inner : Decoder Shape) (access : Access) (entries : List (Key × Source))
    (closing : Option Fault) : Except DecodeError Shape := do
  match ← nextPart closing entries with
  | none => .error (.mismatch (.missingField "kind"))
  | some ("kind", tag, rest) =>
    let kind ← WildcardKind.decoder access tag
    match ← nextPart closing rest with
    | none => if kind = .plain then return .wildcard else .error (.mismatch (.missingField "bound"))
    | some ("kind", _, _) => .error (.mismatch (.duplicateField "kind"))
    | some (_, bound, rest) =>
      let shape ← kind.withBound inner access bound
      noMoreParts closing rest
      return shape
  | some (_, bound, rest) =>
    noFault bound.readFault
    match ← nextPart closing rest with
    | none => .error (.mismatch (.missingField "kind"))
    | some ("kind", tag, rest) =>
      let kind ← WildcardKind.decoder access tag
      let shape ← kind.withBound inner .kept bound
      noMoreParts closing rest
      return shape
    | some (name, _, _) => .error (.mismatch (.duplicateField name))

def wildcardName : String := "adjacently tagged enum WildcardBound"

/-- A wildcard from a list of its kind and its bound. -/
def wildcardInOrder (inner : Decoder Shape) (access : Access) (items : List Source)
    (closing : Option Fault) : Except DecodeError Shape :=
  match items with
  | [] => do
    noFault closing
    .error (.mismatch (.length 0 wildcardName))
  | [tag] => do
    let _ ← WildcardKind.bareDecoder access tag
    noFault closing
    .error (.mismatch (.length 1 wildcardName))
  | tag :: bound :: rest => do
    let kind ← WildcardKind.bareDecoder access tag
    let shape ← kind.withBound inner access bound
    leftOver access 2 rest closing
    return shape

def wildcardDecoder (inner : Decoder Shape) : Decoder Shape := fun access s =>
  match s with
  | .object entries closing => wildcardByName inner access entries closing
  | .array items closing => wildcardInOrder inner access items closing
  | s => wrongKind wildcardName s

/-! ## Shapes -/

/-- The parts of a declared type. -/
structure Declared where
  name : ClassName
  args : List Shape := []
  bounds : List Shape := []

def declaredDecoder (inner : Decoder Shape) : Decoder Shape :=
  (record "struct variant TypeShape::Declared"
    [.needed "name" ClassName.decoder fun a parts => { parts with name := a },
      .optional "args" (list inner) fun a parts => { parts with args := a },
      .optional "direct_bounds" (list inner) fun a parts => { parts with bounds := a }]
    ({ name := ⟨"", ""⟩ } : Declared)).map fun parts => .declared parts.name parts.args parts.bounds

/-- A shape whose parts are read by `inner`. -/
def layerDecoder (inner : Decoder Shape) : Decoder Shape :=
  choice
    [("primitive", .value (Primitive.decoder.map .primitive)),
      ("declared", .fields (declaredDecoder inner)),
      ("array", .value (inner.map .array)),
      ("wildcard", .value (wildcardDecoder inner)),
      ("type_variable", .value (TypeVarId.decoder.map .typeVar)),
      ("void", .bare .void),
      ("universal_top", .bare .top)]

/-- A shape with fewer than `layers` shapes around each of its parts. -/
def decoderWithin : Nat → Decoder Shape
  | 0 => fun _ _ => .error (.fault .malformed)
  | layers + 1 => layerDecoder (decoderWithin layers)

/-- A shape.  Each layer nests at least one level deeper, so the nesting bounds the layers. -/
def decoder : Decoder Shape := decoderWithin (maxNesting + 2)

mutual
def toJson : Shape → Json
  | .primitive p => .object [("primitive", p.toJson)]
  | .declared name args bounds =>
    .object [("declared", .object
      [("name", name.toJson), ("args", .array (toJsons args)),
        ("direct_bounds", .array (toJsons bounds))])]
  | .array component => .object [("array", toJson component)]
  | .wildcard => .object [("wildcard", .object [("kind", .string "unbounded")])]
  | .wildcardExtends bound =>
    .object [("wildcard", .object [("kind", .string "extends"), ("bound", toJson bound)])]
  | .wildcardSuper bound =>
    .object [("wildcard", .object [("kind", .string "super"), ("bound", toJson bound)])]
  | .typeVar id => .object [("type_variable", id.toJson)]
  | .void => .string "void"
  | .top => .string "universal_top"
def toJsons : List Shape → List Json
  | [] => []
  | s :: rest => toJson s :: toJsons rest
end

end Shape

namespace TypeParam

def toJson (p : TypeParam) : Json :=
  .object [("name", .string p.name), ("upper_bound", p.upper.toJson),
    ("lower_bound", .ofOption Shape.toJson p.lower)]

def decoder : Decoder TypeParam :=
  record "struct TypeParamDef"
    [.needed "name" string fun a p => { p with name := a },
      .optional "upper_bound" Shape.decoder fun a p => { p with upper := a },
      .optional "lower_bound" (nullable Shape.decoder) fun a p => { p with lower := a }]
    { name := "" }

end TypeParam

namespace TypeVarTable

def toJson (table : TypeVarTable) : Json := .array (table.params.map TypeParam.toJson)

def decoder : Decoder TypeVarTable := (list TypeParam.decoder).map TypeVarTable.mk

end TypeVarTable

end FunctionAdapters
