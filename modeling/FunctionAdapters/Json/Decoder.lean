import FunctionAdapters.Json.Reader
import FunctionAdapters.Mismatch

/-!
Decoders: from a source tree to a value of a given type.  They go through the tree in the order of
the text, and the first fault or mismatch ends them.

A value is either decoded where it stands, or was read before and kept until it was known what it
should be.  What is kept has no faults, so what the grammar would rule out in place is a mismatch.
-/

namespace FunctionAdapters.Json

/-- Why a text does not give a value. -/
inductive DecodeError where
  | fault (f : Fault)
  | mismatch (m : Mismatch)
  deriving DecidableEq, Repr

/-- How the value to decode is at hand. -/
inductive Access where
  | direct
  | kept
  deriving DecidableEq, Repr

abbrev Decoder (α : Type) := Access → Source → Except DecodeError α

namespace Decoder

/-- The report that a value is of the wrong kind, or its fault. -/
def wrongKind {α : Type} (expected : String) (s : Source) : Except DecodeError α :=
  match s.found with
  | .ok found => .error (.mismatch (.type found expected))
  | .error f => .error (.fault f)

/-- Nothing, or the given fault. -/
def noFault : Option Fault → Except DecodeError Unit
  | none => .ok ()
  | some f => .error (.fault f)

/-- Changes what a decoder gives. -/
def map {α β : Type} (f : α → β) (d : Decoder α) : Decoder β := fun access s =>
  (d access s).map f

def string : Decoder String := fun _ s =>
  match s with
  | .string text => .ok text
  | s => wrongKind "a string" s

def boolean : Decoder Bool := fun _ s =>
  match s with
  | .bool b => .ok b
  | s => wrongKind "a boolean" s

/-- A natural number below a limit, by the name of its type. -/
def nat (type : String) (limit : Nat) : Decoder Nat := fun _ s =>
  match s with
  | .number (.int n) =>
    if 0 ≤ n ∧ n < limit then .ok n.toNat
    else .error (.mismatch (.value ("integer `" ++ toString n ++ "`") type))
  | s => wrongKind type s

/-- A value or `null`. -/
def nullable {α : Type} (d : Decoder α) : Decoder (Option α) := fun access s =>
  match s with
  | .null => .ok none
  | .broken b =>
    if b.start = .null then .error (.fault b.reading) else (d access s).map some
  | s => (d access s).map some

/-- The values of some items. -/
def decodeItems {α : Type} (d : Decoder α) (access : Access) :
    List Source → Except DecodeError (List α)
  | [] => .ok []
  | item :: rest => do
    let first ← d access item
    let others ← decodeItems d access rest
    return first :: others

def list {α : Type} (d : Decoder α) : Decoder (List α) := fun access s =>
  match s with
  | .array items closing => do
    let values ← decodeItems d access items
    noFault closing
    return values
  | s => wrongKind "a sequence" s

/-! ## Records -/

/-- A field of a record that is being filled in. -/
structure Field (σ : Type) where
  name : String
  /-- Whether it must be there. -/
  required : Bool
  /-- Decodes its value and stores it. -/
  store : Access → Source → σ → Except DecodeError σ

namespace Field

/-- A field, by how its value is decoded and stored. -/
def of {α σ : Type} (name : String) (required : Bool) (d : Decoder α) (set : α → σ → σ) :
    Field σ :=
  { name, required, store := fun access s record => (d access s).map (set · record) }

/-- A field that must be there. -/
def needed {α σ : Type} (name : String) (d : Decoder α) (set : α → σ → σ) : Field σ :=
  of name true d set

/-- A field that keeps the value of the blank record when it is left out. -/
def optional {α σ : Type} (name : String) (d : Decoder α) (set : α → σ → σ) : Field σ :=
  of name false d set

end Field

/-- What is left over at the end of a list of known length. -/
def leftOver (access : Access) (taken : Nat) (rest : List Source) (closing : Option Fault) :
    Except DecodeError Unit :=
  match rest, access with
  | [], _ => noFault closing
  | _ :: _, .direct => .error (.fault .malformed)
  | _ :: _, .kept =>
    .error (.mismatch (.length (taken + rest.length) (toString taken ++ " elements in sequence")))

/-- Fills a record from a list that holds its fields in order. -/
def fillInOrder {σ : Type} (access : Access) (whole : String) (count : Nat)
    (closing : Option Fault) : List (Field σ) → Nat → List Source → σ → Except DecodeError σ
  | [], _, rest, record => do
    leftOver access count rest closing
    return record
  | field :: fields, index, item :: rest, record => do
    let record ← field.store access item record
    fillInOrder access whole count closing fields (index + 1) rest record
  | field :: fields, index, [], record => do
    noFault closing
    if field.required then .error (.mismatch (.length index whole))
    fillInOrder access whole count closing fields (index + 1) [] record

/-- Fills a record from the entries of an object, and lists the fields that were there.  Entries
that are no field are skipped. -/
def fillByName {σ : Type} (access : Access) (fields : List (Field σ)) :
    List (Key × Source) → List String → σ → Except DecodeError (σ × List String)
  | [], seen, record => .ok (record, seen)
  | (key, value) :: rest, seen, record => do
    let name ← key.read.mapError DecodeError.fault
    match fields.find? (·.name = name) with
    | none => do
      noFault value.skipFault
      fillByName access fields rest seen record
    | some field => do
      if name ∈ seen then .error (.mismatch (.duplicateField name))
      let record ← field.store access value record
      fillByName access fields rest (name :: seen) record

/-- A record: an object with its fields in any order, or a list of them in the given one. -/
def record {σ : Type} (expected : String) (fields : List (Field σ)) (blank : σ) : Decoder σ :=
  fun access s =>
    match s with
    | .object entries closing => do
      let (filled, seen) ← fillByName access fields entries [] blank
      noFault closing
      match fields.find? fun field => field.required && !seen.contains field.name with
      | some field => .error (.mismatch (.missingField field.name))
      | none => return filled
    | .array items closing =>
      let whole := expected ++ " with " ++ toString fields.length ++ " elements"
      fillInOrder access whole fields.length closing fields 0 items blank
    | s => wrongKind expected s

/-! ## Choices -/

/-- What a name of a choice may come with. -/
inductive Content (α : Type) where
  /-- Nothing. -/
  | bare (value : α)
  | value (d : Decoder α)
  | fields (d : Decoder α)

/-- The value of a name that stands alone. -/
def Content.alone {α : Type} : Content α → Except DecodeError α
  | .bare a => .ok a
  | .value _ => .error (.mismatch (.type "unit variant" "newtype variant"))
  | .fields _ => .error (.mismatch (.type "unit variant" "struct variant"))

/-- The value of a name with something after it. -/
def Content.decode {α : Type} (content : Content α) (access : Access) (s : Source) :
    Except DecodeError α :=
  match content with
  | .bare a =>
    match s, access with
    | .null, _ => .ok a
    | .object [] none, .kept => .ok a
    | s, _ => wrongKind "unit" s
  | .value d => d access s
  | .fields d =>
    match s, access with
    | .object .., _ | .array .., _ | _, .direct => d access s
    | s, .kept => wrongKind "struct variant" s

abbrev Variants (α : Type) := List (String × Content α)

/-- The content of a name. -/
def Variants.select {α : Type} (variants : Variants α) (name : String) :
    Except DecodeError (Content α) :=
  match variants.lookup name with
  | some content => .ok content
  | none => .error (.mismatch (.unknownVariant name (variants.map Prod.fst)))

/-- One of some names, alone or as the only key of an object. -/
def choice {α : Type} (variants : Variants α) : Decoder α := fun access s =>
  match s, access with
  | .string name, _ => do (← variants.select name).alone
  | .object [] closing, .direct => .error (.fault (closing.getD .malformed))
  | .object ((key, value) :: rest) closing, .direct => do
    let content ← variants.select (← key.read.mapError .fault)
    let result ← content.decode .direct value
    noFault (if rest.isEmpty then closing else some .malformed)
    return result
  | .object [(key, value)] _, .kept => do
    let content ← variants.select (← key.read.mapError .fault)
    content.decode .kept value
  | .object .., .kept => .error (.mismatch (.value "map" "map with a single key"))
  | .broken b, _ => .error (.fault b.naming)
  | _, .direct => .error (.fault .malformed)
  | s, .kept => wrongKind "string or map" s

/-- One of some names with nothing after them. -/
def nameOf {α : Type} (names : List (String × α)) : Decoder α :=
  choice (names.map fun (name, value) => (name, .bare value))

/-- One of some names where nothing else may stand, not even an object.  Of a value that was kept,
the place among the names will do. -/
def bareNameOf {α : Type} (names : List (String × α)) : Decoder α := fun access s =>
  match s, access with
  | .string name, _ =>
    match names.lookup name with
    | some value => .ok value
    | none => .error (.mismatch (.unknownVariant name (names.map Prod.fst)))
  | .number (.int n), .kept =>
    if n < 0 then wrongKind "variant identifier" s
    else match names[n.toNat]? with
      | some (_, value) => .ok value
      | none =>
        .error (.mismatch (.value ("integer `" ++ toString n ++ "`")
          ("variant index 0 <= i < " ++ toString names.length)))
  | s, _ => wrongKind "variant identifier" s

/-! ## Texts -/

/-- The value of a whole text. -/
def decodeText {α : Type} (d : Decoder α) (text : String) : Except DecodeError α := do
  let (s, rest) := Source.ofText maxNesting text
  let value ← d .direct s
  if (skipBlanks (rest.getD [])).isEmpty then return value else .error (.fault .malformed)

end Decoder

end FunctionAdapters.Json
