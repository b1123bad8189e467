import FunctionAdapters.Decimal.Text
import FunctionAdapters.Text.Quoted

/-!
A JSON text as it is found, faults included.  A text that breaks off or goes wrong still has a
tree: everything before the fault, and the fault where the next piece should stand.  So a reader
that goes through the tree in the order of the text meets whatever comes first, a fault or a value
that does not fit.  Values that a reader skips are held to the grammar alone, hence the two faults
of a break.
-/

namespace FunctionAdapters.Json

/-- What is wrong with a text. -/
inductive Fault where
  /-- It ends too early. -/
  | truncated
  | malformed
  deriving DecidableEq, Repr, Inhabited

/-- What a piece that breaks off starts with. -/
inductive Start where
  /-- Nothing: the text ends in front of it. -/
  | nothing
  | quote
  /-- The first letter of `null`. -/
  | null
  | other
  deriving DecidableEq, Repr, Inhabited

/-- A place where a text cannot be continued. -/
structure Break where
  /-- The fault for one who reads any value. -/
  reading : Fault
  /-- The fault for one who skips a value. -/
  skipping : Fault
  start : Start
  deriving DecidableEq, Repr, Inhabited

namespace Break

/-- A text that ends where a value should stand. -/
def ended : Break := ⟨.truncated, .truncated, .nothing⟩

/-- A character that no value starts with or goes on with. -/
def wrong : Break := ⟨.malformed, .malformed, .other⟩

/-- The fault for one who reads a name, alone or with a value, and looks no further otherwise. -/
def naming (b : Break) : Fault :=
  match b.start with
  | .nothing | .quote => b.reading
  | .null | .other => .malformed

end Break

/-- A number: one that fits 64 bits, with or without sign, or a floating-point one. -/
inductive Number where
  | int (n : Int)
  | float (x : Float)
  deriving Repr, Inhabited

/-- What stands at the place of a key. -/
inductive Key where
  | text (s : String)
  /-- A string without a value, such as one with half a surrogate pair. -/
  | unreadable
  | broken (at_ : Break)
  /-- Something that does not start as a string does. -/
  | other
  deriving Inhabited

inductive Source where
  | null
  | bool (b : Bool)
  | number (n : Number)
  | string (s : String)
  /-- The items, and the fault where the list should go on or end. -/
  | array (items : List Source) (closing : Option Fault)
  | object (entries : List (Key × Source)) (closing : Option Fault)
  /-- A complete value that cannot be read: a number out of range, an unpaired surrogate, too deep
  a nesting. -/
  | unreadable
  | broken (at_ : Break)
  deriving Inhabited

namespace Key

/-- The text of a key. -/
def read : Key → Except Fault String
  | text s => .ok s
  | unreadable => .error .malformed
  | broken b => .error b.reading
  | other => .error .malformed

/-- The fault met by one who skips a key. -/
def skipFault : Key → Option Fault
  | text _ | unreadable => none
  | broken b => some b.skipping
  | other => some .malformed

end Key

namespace Source

mutual
/-- The first fault met by one who skips the value. -/
def skipFault : Source → Option Fault
  | .array items closing => (itemsSkipFault items).or closing
  | .object entries closing => (entriesSkipFault entries).or closing
  | .broken b => some b.skipping
  | .null => none
  | .bool _ => none
  | .number _ => none
  | .string _ => none
  | .unreadable => none
def itemsSkipFault : List Source → Option Fault
  | [] => none
  | item :: rest => (skipFault item).or (itemsSkipFault rest)
def entriesSkipFault : List (Key × Source) → Option Fault
  | [] => none
  | (key, value) :: rest => (key.skipFault.or (skipFault value)).or (entriesSkipFault rest)
end

mutual
/-- The first fault met by one who reads the whole value, whatever it is. -/
def readFault : Source → Option Fault
  | .array items closing => (itemsReadFault items).or closing
  | .object entries closing => (entriesReadFault entries).or closing
  | .unreadable => some .malformed
  | .broken b => some b.reading
  | .null => none
  | .bool _ => none
  | .number _ => none
  | .string _ => none
def itemsReadFault : List Source → Option Fault
  | [] => none
  | item :: rest => (readFault item).or (itemsReadFault rest)
def entriesReadFault : List (Key × Source) → Option Fault
  | [] => none
  | (key, value) :: rest =>
    match key.read with
    | .error fault => some fault
    | .ok _ => (readFault value).or (entriesReadFault rest)
end

/-- What a reader says it found, when it expected something else. -/
def found : Source → Except Fault String
  | .null => .ok "null"
  | .bool b => .ok ("boolean `" ++ toString b ++ "`")
  | .number (.int n) => .ok ("integer `" ++ toString n ++ "`")
  | .number (.float x) => .ok ("floating point `" ++ Decimal.Style.compact.write x ++ "`")
  | .string s => .ok ("string " ++ Text.Quoted.encode s)
  | .array .. => .ok "sequence"
  | .object .. => .ok "map"
  | .unreadable => .error .malformed
  | .broken b => .error b.reading

end Source

end FunctionAdapters.Json
