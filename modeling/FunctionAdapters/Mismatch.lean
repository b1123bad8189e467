/-!
What can be wrong with a well-formed value that is read as a given type, and how it is said.
-/

namespace FunctionAdapters

inductive Mismatch where
  /-- Another kind of value is expected. -/
  | type (found expected : String)
  /-- The kind is right and the value is not allowed. -/
  | value (found expected : String)
  /-- A list is too short or too long. -/
  | length (count : Nat) (expected : String)
  | missingField (name : String)
  | duplicateField (name : String)
  | unknownField (name : String) (known : List String)
  | unknownVariant (name : String) (known : List String)
  /-- A choice is neither a name nor a table. -/
  | notChoice
  /-- A table that should name one choice has no entry, or more than one. -/
  | choiceCount (found : String)
  /-- The entry of a named choice is not as it should be. -/
  | choiceContent (expected : String)
  deriving DecidableEq, Repr

namespace Mismatch

def quoted (name : String) : String := "`" ++ name ++ "`"

/-- A list of names to choose from. -/
def oneOf : List String → String
  | [a] => quoted a
  | [a, b] => quoted a ++ " or " ++ quoted b
  | names => "one of " ++ ", ".intercalate (names.map quoted)

def message : Mismatch → String
  | type found expected => "invalid type: " ++ found ++ ", expected " ++ expected
  | value found expected => "invalid value: " ++ found ++ ", expected " ++ expected
  | length count expected => "invalid length " ++ toString count ++ ", expected " ++ expected
  | missingField name => "missing field " ++ quoted name
  | duplicateField name => "duplicate field " ++ quoted name
  | unknownField name known => "unknown field " ++ quoted name ++ ", expected " ++ oneOf known
  | unknownVariant name known =>
    "unknown variant " ++ quoted name ++ ", expected " ++ oneOf known
  | notChoice => "wanted string or table"
  | choiceCount found => "wanted exactly 1 element, " ++ found
  | choiceContent expected => "expected " ++ expected

end Mismatch

end FunctionAdapters
