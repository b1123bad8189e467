import FunctionAdapters.Json.Literal

/-!
From a text to its source tree.  Three steps of the reader take at least one character, so the
length of the text bounds the number of steps.
-/

namespace FunctionAdapters.Json

/-- The depth to which values may be nested. -/
def maxNesting : Nat := 127

def isBlank (c : Char) : Bool := c = ' ' || c = '\n' || c = '\t' || c = '\r'

def skipBlanks (cs : List Char) : List Char := cs.dropWhile isBlank

/-- A literal word, after its first character. -/
def readWord (value : Source) (start : Start) :
    List Char → List Char → Source × Option (List Char)
  | [], cs => (value, some cs)
  | _ :: _, [] => (.broken ⟨.truncated, .truncated, start⟩, none)
  | w :: word, c :: cs =>
    if c = w then readWord value start word cs
    else (.broken ⟨.malformed, .malformed, start⟩, none)

/-- A value where no further nesting is allowed: it can be skipped but not read. -/
def tooDeep : Source × Option (List Char) → Source × Option (List Char)
  | (_, some rest) => (.unreadable, some rest)
  | (s, none) => (.broken ⟨.malformed, s.skipFault.getD .malformed, .other⟩, none)

mutual
/-- The value at the start of a text, with room for some levels of nesting, and the text that
follows unless it breaks off. -/
def readValue : Nat → Nat → List Char → Source × Option (List Char)
  | 0, _, _ => (.broken .ended, none)
  | fuel + 1, room, cs =>
    match skipBlanks cs with
    | [] => (.broken .ended, none)
    | '"' :: rest => readString rest
    | '[' :: rest =>
      match room with
      | 0 => tooDeep (readArray fuel 0 rest)
      | room + 1 => readArray fuel room rest
    | '{' :: rest =>
      match room with
      | 0 => tooDeep (readObject fuel 0 rest)
      | room + 1 => readObject fuel room rest
    | 'n' :: rest => readWord .null .null ['u', 'l', 'l'] rest
    | 't' :: rest => readWord (.bool true) .other ['r', 'u', 'e'] rest
    | 'f' :: rest => readWord (.bool false) .other ['a', 'l', 's', 'e'] rest
    | '-' :: rest => readNumber true rest
    | c :: rest =>
      if c.isDigit then readNumber false (c :: rest) else (.broken .wrong, none)
/-- An array after its opening bracket. -/
def readArray : Nat → Nat → List Char → Source × Option (List Char)
  | 0, _, _ => (.broken .ended, none)
  | fuel + 1, room, cs =>
    match skipBlanks cs with
    | [] => (.array [] (some .truncated), none)
    | ']' :: rest => (.array [] none, some rest)
    | cs =>
      match readItems fuel room cs with
      | (items, .error closing) => (.array items closing, none)
      | (items, .ok rest) => (.array items none, some rest)
/-- The items of an array up to its closing bracket; the error says why it is not reached, unless
the last item does. -/
def readItems : Nat → Nat → List Char → List Source × Except (Option Fault) (List Char)
  | 0, _, _ => ([], .error (some .truncated))
  | fuel + 1, room, cs =>
    match readValue fuel room cs with
    | (item, none) => ([item], .error none)
    | (item, some rest) =>
      match skipBlanks rest with
      | [] => ([item], .error (some .truncated))
      | ']' :: rest => ([item], .ok rest)
      | ',' :: rest => (readItems fuel room rest).map (item :: ·) id
      | _ => ([item], .error (some .malformed))
/-- An object after its opening brace. -/
def readObject : Nat → Nat → List Char → Source × Option (List Char)
  | 0, _, _ => (.broken .ended, none)
  | fuel + 1, room, cs =>
    match skipBlanks cs with
    | [] => (.object [] (some .truncated), none)
    | '}' :: rest => (.object [] none, some rest)
    | cs =>
      match readEntries fuel room cs with
      | (entries, .error closing) => (.object entries closing, none)
      | (entries, .ok rest) => (.object entries none, some rest)
/-- The entries of an object up to its closing brace, likewise. -/
def readEntries : Nat → Nat → List Char →
    List (Key × Source) × Except (Option Fault) (List Char)
  | 0, _, _ => ([], .error (some .truncated))
  | fuel + 1, room, cs =>
    match skipBlanks cs with
    | [] => ([(.broken .ended, .unreadable)], .error none)
    | '"' :: rest =>
      match readKey rest with
      | (key, none) => ([(key, .unreadable)], .error none)
      | (key, some rest) =>
        match skipBlanks rest with
        | [] => ([(key, .broken .ended)], .error none)
        | ':' :: rest =>
          match readValue fuel room rest with
          | (value, none) => ([(key, value)], .error none)
          | (value, some rest) =>
            match skipBlanks rest with
            | [] => ([(key, value)], .error (some .truncated))
            | '}' :: rest => ([(key, value)], .ok rest)
            | ',' :: rest => (readEntries fuel room rest).map ((key, value) :: ·) id
            | _ => ([(key, value)], .error (some .malformed))
        | _ => ([(key, .broken .wrong)], .error none)
    | _ => ([(.other, .unreadable)], .error none)
end

/-- The value that a text starts with, and what follows it. -/
def Source.ofText (room : Nat) (text : String) : Source × Option (List Char) :=
  let cs := text.toList
  readValue (3 * cs.length + 3) room cs

end FunctionAdapters.Json
