import FunctionAdapters.Text.Hidden

/-!
Text quoted for a message: between double quotes, with escapes for quotes, backslashes and every
character that does not show by itself.
-/

namespace FunctionAdapters.Text

/-- The lowercase hexadecimal digits of a number. -/
def hexDigits (n : Nat) : List Char := Nat.toDigits 16 n

namespace Quoted

/-- A character inside the quotes. -/
def escape (c : Char) : List Char :=
  match c with
  | '"' => ['\\', '"']
  | '\\' => ['\\', '\\']
  | '\n' => ['\\', 'n']
  | '\r' => ['\\', 'r']
  | '\t' => ['\\', 't']
  | '\x00' => ['\\', '0']
  | c => if isHidden c then ['\\', 'u', '{'] ++ hexDigits c.toNat ++ ['}'] else [c]

/-- The quoted text. -/
def encode (s : String) : String :=
  String.ofList ('"' :: s.toList.flatMap escape ++ ['"'])

example : encode "a\n\"é\u0007" = "\"a\\n\\\"é\\u\x7b7\x7d\"" := by decide

end Quoted

end FunctionAdapters.Text
