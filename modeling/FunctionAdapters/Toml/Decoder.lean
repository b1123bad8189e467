import FunctionAdapters.Decimal.Text
import FunctionAdapters.Mismatch
import FunctionAdapters.Text.Quoted
import FunctionAdapters.Toml.Document

/-!
Decoders: from a node of a document to a value of a given type.  Tables are read in the order of
the text, and the first mismatch ends a decoder.
-/

namespace FunctionAdapters.Toml

abbrev Decoder (α : Type) := Node → Except Mismatch α

namespace Node

/-- The key under which a date is read by one who expects a table. -/
def datetimeKey : String := "$__toml_private_datetime"

/-- The entries of a node that can be read as a table. -/
def entries? : Node → Option Entries
  | table _ entries => some entries
  | datetime text => some [(datetimeKey, .string text)]
  | _ => none

/-- The items of a node that can be read as a list. -/
def items? : Node → Option (List Node)
  | array items => some items
  | tables items => some (items.map (.table .header))
  | _ => none

/-- What a reader says it found, when it expected something else. -/
def found : Node → String
  | string s => "string " ++ Text.Quoted.encode s
  | integer n => "integer `" ++ toString n ++ "`"
  | float x => "floating point `" ++ Decimal.Style.full.write x ++ "`"
  | boolean b => "boolean `" ++ toString b ++ "`"
  | datetime _ | table .. => "map"
  | array _ | tables _ => "sequence"

end Node

namespace Decoder

def wrongKind {α : Type} (expected : String) (node : Node) : Except Mismatch α :=
  .error (.type node.found expected)

def string : Decoder String
  | .string s => .ok s
  | node => wrongKind "a string" node

def boolean : Decoder Bool
  | .boolean b => .ok b
  | node => wrongKind "a boolean" node

/-! ## Records -/

/-- A field of a record; all may be left out. -/
structure Field (σ : Type) where
  name : String
  store : Node → σ → Except Mismatch σ

namespace Field

/-- A field, by how its value is decoded and stored. -/
def of {α σ : Type} (name : String) (d : Decoder α) (set : α → σ → σ) : Field σ :=
  { name, store := fun node record => (d node).map (set · record) }

end Field

/-- Fills a record from entries.  A key that is no field is refused. -/
def fillByName {σ : Type} (fields : List (Field σ)) : Entries → σ → Except Mismatch σ
  | [], record => .ok record
  | (key, node) :: rest, record =>
    match fields.find? (·.name = key) with
    | some field => do fillByName fields rest (← field.store node record)
    | none => .error (.unknownField key (fields.map Field.name))

/-- Fills a record from a list that holds its first fields in order; more items are ignored. -/
def fillInOrder {σ : Type} : List (Field σ) → List Node → σ → Except Mismatch σ
  | field :: fields, item :: rest, record => do
    fillInOrder fields rest (← field.store item record)
  | _, _, record => .ok record

/-- A record: a table with its fields in any order, or a list of them in the given one. -/
def record {σ : Type} (expected : String) (fields : List (Field σ)) (blank : σ) : Decoder σ :=
  fun node =>
    match node.entries?, node.items? with
    | some entries, _ => fillByName fields entries blank
    | none, some items => fillInOrder fields items blank
    | none, none => wrongKind expected node

/-- The values of some entries. -/
def decodeEntries {α : Type} (d : Decoder α) : Entries → Except Mismatch (List (String × α))
  | [] => .ok []
  | (key, node) :: rest => do
    let value ← d node
    let values ← decodeEntries d rest
    return (key, value) :: values

/-- A table whose keys are free. -/
def map {α : Type} (d : Decoder α) : Decoder (List (String × α)) := fun node =>
  match node.entries? with
  | some entries => decodeEntries d entries
  | none => wrongKind "a map" node

/-! ## Choices -/

def select {α : Type} (names : List (String × α)) (name : String) : Except Mismatch α :=
  match names.lookup name with
  | some value => .ok value
  | none => .error (.unknownVariant name (names.map Prod.fst))

/-- What stands after a name that has no content: an empty table or list. -/
def noContent : Node → Except Mismatch Unit
  | .table _ entries => if entries.isEmpty then .ok () else .error (.choiceContent "empty table")
  | .array items => if items.isEmpty then .ok () else .error (.choiceContent "empty table")
  | .tables items => if items.isEmpty then .ok () else .error (.choiceContent "empty array")
  | .string _ => .error (.choiceContent "table, found string")
  | .integer _ => .error (.choiceContent "table, found integer")
  | .float _ => .error (.choiceContent "table, found float")
  | .boolean _ => .error (.choiceContent "table, found boolean")
  | .datetime _ => .error (.choiceContent "table, found datetime")

/-- One of some names, alone or as the only key of a table. -/
def nameOf {α : Type} (names : List (String × α)) : Decoder α
  | .string name => select names name
  | .table _ [] => .error (.choiceCount "found 0 elements")
  | .table _ [(name, node)] => do
    let value ← select names name
    noContent node
    return value
  | .table .. => .error (.choiceCount "more than 1 element")
  | _ => .error .notChoice

end Decoder

end FunctionAdapters.Toml
