/-!
JSON values to be written, and their two printed forms: compact, and indented by two spaces.
Objects keep the order of their fields.
-/

namespace FunctionAdapters

inductive Json where
  | null
  | bool (b : Bool)
  | int (n : Int)
  | string (s : String)
  | array (items : List Json)
  | object (fields : List (String × Json))
  deriving Repr, Inhabited

namespace Json

/-- A value, or `null` for none. -/
def ofOption {α : Type} (f : α → Json) : Option α → Json
  | none => .null
  | some a => f a

def ofNat (n : Nat) : Json := .int n

def strings (texts : List String) : Json := .array (texts.map .string)

/-! ## Text -/

/-- A character inside a string: quotes, backslashes and control characters are escaped. -/
def escape (c : Char) : List Char :=
  match c with
  | '"' => ['\\', '"']
  | '\\' => ['\\', '\\']
  | '\x08' => ['\\', 'b']
  | '\x0c' => ['\\', 'f']
  | '\n' => ['\\', 'n']
  | '\r' => ['\\', 'r']
  | '\t' => ['\\', 't']
  | c =>
    if c.toNat < 0x20 then
      ['\\', 'u', '0', '0', Nat.digitChar (c.toNat / 16), Nat.digitChar (c.toNat % 16)]
    else [c]

/-- A string literal. -/
def quote (s : String) : List Char := '"' :: s.toList.flatMap escape ++ ['"']

/-- An integer literal. -/
def intChars (n : Int) : List Char :=
  if n < 0 then '-' :: Nat.toDigits 10 n.natAbs else Nat.toDigits 10 n.natAbs

mutual
/-- The compact form as characters. -/
def chars : Json → List Char
  | .null => ['n', 'u', 'l', 'l']
  | .bool true => ['t', 'r', 'u', 'e']
  | .bool false => ['f', 'a', 'l', 's', 'e']
  | .int n => intChars n
  | .string s => quote s
  | .array [] => ['[', ']']
  | .array (first :: rest) => '[' :: chars first ++ itemsChars rest
  | .object [] => ['{', '}']
  | .object ((key, value) :: rest) => '{' :: quote key ++ ':' :: chars value ++ fieldsChars rest
/-- The items after the first, and the closing bracket. -/
def itemsChars : List Json → List Char
  | [] => [']']
  | item :: rest => ',' :: chars item ++ itemsChars rest
/-- The fields after the first, and the closing brace. -/
def fieldsChars : List (String × Json) → List Char
  | [] => ['}']
  | (key, value) :: rest => ',' :: quote key ++ ':' :: chars value ++ fieldsChars rest
end

/-- A line break and the indentation of a nesting level. -/
def lineBreak (level : Nat) : List Char := '\n' :: List.replicate (2 * level) ' '

mutual
/-- The indented form, at a nesting level, as characters. -/
def prettyChars (level : Nat) : Json → List Char
  | .null => ['n', 'u', 'l', 'l']
  | .bool true => ['t', 'r', 'u', 'e']
  | .bool false => ['f', 'a', 'l', 's', 'e']
  | .int n => intChars n
  | .string s => quote s
  | .array [] => ['[', ']']
  | .array (first :: rest) =>
    '[' :: lineBreak (level + 1) ++ prettyChars (level + 1) first ++ prettyItems level rest
  | .object [] => ['{', '}']
  | .object ((key, value) :: rest) =>
    '{' :: lineBreak (level + 1) ++ quote key ++ ':' :: ' ' :: prettyChars (level + 1) value
      ++ prettyFields level rest
/-- The items after the first, and the closing bracket on a line of its own. -/
def prettyItems (level : Nat) : List Json → List Char
  | [] => lineBreak level ++ [']']
  | item :: rest =>
    ',' :: lineBreak (level + 1) ++ prettyChars (level + 1) item ++ prettyItems level rest
/-- The fields after the first, and the closing brace on a line of its own. -/
def prettyFields (level : Nat) : List (String × Json) → List Char
  | [] => lineBreak level ++ ['}']
  | (key, value) :: rest =>
    ',' :: lineBreak (level + 1) ++ quote key ++ ':' :: ' ' :: prettyChars (level + 1) value
      ++ prettyFields level rest
end

/-- The compact text. -/
def compact (j : Json) : String := String.ofList j.chars

/-- The indented text. -/
def pretty (j : Json) : String := String.ofList (j.prettyChars 0)

mutual
/-- The depth of nested arrays and objects. -/
def depth : Json → Nat
  | .array items => depths items + 1
  | .object fields => fieldDepths fields + 1
  | .null => 0
  | .bool _ => 0
  | .int _ => 0
  | .string _ => 0
/-- The greatest depth among some values. -/
def depths : List Json → Nat
  | [] => 0
  | item :: rest => max (depth item) (depths rest)
/-- The greatest depth among the values of some fields. -/
def fieldDepths : List (String × Json) → Nat
  | [] => 0
  | (_, value) :: rest => max (depth value) (fieldDepths rest)
end

end Json

end FunctionAdapters
