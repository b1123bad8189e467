import FunctionAdapters.Toml.Scan

/-!
From a TOML text to its lines, and from these to its document.
-/

namespace FunctionAdapters.Toml

/-- The word `true` or `false`. -/
def booleanValue : Scanner Bool
  | 't' :: 'r' :: 'u' :: 'e' :: rest => some (true, rest)
  | 'f' :: 'a' :: 'l' :: 's' :: 'e' :: rest => some (false, rest)
  | _ => none

/-- A date or a number: a date if it reads as one, else a number with point or exponent, else an
infinity, else an integer. -/
def numberValue (cs : List Char) : Option (Node × List Char) :=
  match datetime cs, decimalFloat cs, specialFloat cs with
  | some (text, rest), _, _ => some (.datetime text, rest)
  | none, some (x, rest), _ => some (.float x, rest)
  | none, none, some (x, rest) => some (.float x, rest)
  | none, none, none => (integer cs).map fun (n, rest) => (.integer n, rest)

mutual
/-- A value inside at most `room` arrays and tables. -/
def value : Nat → Nat → Scanner Node
  | 0, _, _ => none
  | steps + 1, room, cs =>
    match cs with
    | [] => none
    | '[' :: rest =>
      match room with
      | 0 => none
      | room + 1 => (arrayItems steps room rest).map fun (items, rest) => (.array items, rest)
    | '{' :: rest =>
      match room with
      | 0 => none
      | room + 1 => do
        let (entries, rest) ← inlineEntries steps room rest
        return (← Node.inlineTable entries, rest)
    | c :: _ =>
      if c = '"' ∨ c = '\'' then (stringValue cs).map fun (s, rest) => (.string s, rest)
      else if c = 't' ∨ c = 'f' then (booleanValue cs).map fun (b, rest) => (.boolean b, rest)
      else if c = 'i' ∨ c = 'n' then (specialFloat cs).map fun (x, rest) => (.float x, rest)
      else if c.isDigit ∨ c = '+' ∨ c = '-' then numberValue cs
      else none
/-- The items of an array, after its opening bracket or a comma. -/
def arrayItems : Nat → Nat → Scanner (List Node)
  | 0, _, _ => none
  | steps + 1, room, cs =>
    match skipLines cs.length cs with
    | ']' :: rest => some ([], rest)
    | cs => do
      let (item, rest) ← value steps room cs
      match skipLines rest.length rest with
      | ']' :: rest => return ([item], rest)
      | ',' :: rest =>
        let (items, rest) ← arrayItems steps room rest
        return (item :: items, rest)
      | _ => none
/-- The entries of a table in place, after its opening brace. -/
def inlineEntries : Nat → Nat → Scanner (List (List String × String × Node))
  | 0, _, _ => none
  | steps + 1, room, cs =>
    match skipBlanks cs with
    | '}' :: rest => some ([], rest)
    | cs => moreEntries steps room cs
/-- One entry of a table in place, and those after it. -/
def moreEntries : Nat → Nat → Scanner (List (List String × String × Node))
  | 0, _, _ => none
  | steps + 1, room, cs => do
    let ((path, key), rest) ← keyPath limit cs
    let (node, rest) ← value steps room (skipBlanks (← expect '=' rest))
    match skipBlanks rest with
    | '}' :: rest => return ([(path, key, node)], rest)
    | ',' :: rest =>
      let (entries, rest) ← moreEntries steps room rest
      return ((path, key, node) :: entries, rest)
    | _ => none
end

/-- A header, after its opening brackets, with the brackets that close it. -/
def header (closing : List Char) : Scanner (List String × String) := fun cs => do
  let (path, rest) ← keyPath limit cs
  if closing.isPrefixOf rest then return (path, rest.drop closing.length) else none

/-- The line at the start of a text, which is neither blank nor a comment. -/
def line (cs : List Char) : Option (Line × List Char) :=
  match cs with
  | '[' :: '[' :: rest => do
    let ((path, key), rest) ← header [']', ']'] rest
    return (.repeatedHeader path key, ← lineEnd? rest)
  | '[' :: rest => do
    let ((path, key), rest) ← header [']'] rest
    return (.header path key, ← lineEnd? rest)
  | _ => do
    let ((path, key), rest) ← keyPath limit cs
    let rest ← expect '=' rest
    let (node, rest) ← value (3 * rest.length + 3) limit (skipBlanks rest)
    return (.entry path key node, ← lineEnd? rest)

/-- The lines of a text that say something.  Each takes at least one character. -/
def lines : Nat → List Char → Option (List Line)
  | 0, cs => if cs.isEmpty then some [] else none
  | steps + 1, cs =>
    match skipBlanks cs with
    | [] => some []
    | cs =>
      match newline? cs with
      | some rest => lines steps rest
      | none =>
        if cs.head? = some '#' then do lines steps (← lineEnd? cs)
        else do
          let (first, rest) ← line cs
          return first :: (← lines steps rest)

/-- The document that a text stands for; nothing if it is not well-formed.  A byte order mark at the
start is no part of it. -/
def document? (text : String) : Option Entries := do
  let cs := match text.toList with
    | '\ufeff' :: rest => rest
    | cs => cs
  Entries.ofLines (← lines (cs.length + 1) cs)

end FunctionAdapters.Toml
