import FunctionAdapters.Toml.Document

/-!
The pieces of TOML text: blanks, comments, keys, strings, numbers and dates.  A scanner takes the
text and gives what it found and the text that follows, or nothing.
-/

namespace FunctionAdapters.Toml

abbrev Scanner (α : Type) := List Char → Option (α × List Char)

/-! ## Characters -/

def isBlank (c : Char) : Bool := c = ' ' || c = '\t'

/-- A character of a comment or string: a tab, or no control character. -/
def isPlain (c : Char) : Bool := c = '\t' || (0x20 ≤ c.toNat && c.toNat ≠ 0x7F)

def isKeyChar (c : Char) : Bool := c.isAlphanum || c = '-' || c = '_'

def isHexDigit (c : Char) : Bool :=
  c.isDigit || ('a' ≤ c && c ≤ 'f') || ('A' ≤ c && c ≤ 'F')

def isOctalDigit (c : Char) : Bool := '0' ≤ c && c ≤ '7'

def isBinaryDigit (c : Char) : Bool := c = '0' || c = '1'

def digitValue (c : Char) : Nat :=
  if c.isDigit then c.toNat - '0'.toNat
  else if 'a' ≤ c then c.toNat - 'a'.toNat + 10
  else c.toNat - 'A'.toNat + 10

/-- The value of digits in a base. -/
def natOf (base : Nat) (digits : List Char) : Nat :=
  digits.foldl (fun n c => base * n + digitValue c) 0

def skipBlanks (cs : List Char) : List Char := cs.dropWhile isBlank

/-- The text after a line break, at its start. -/
def newline? : List Char → Option (List Char)
  | '\n' :: rest => some rest
  | '\r' :: '\n' :: rest => some rest
  | _ => none

/-- The text after a comment, up to its line break. -/
def skipComment (cs : List Char) : List Char :=
  match cs with
  | '#' :: rest => rest.dropWhile isPlain
  | _ => cs

/-- The rest of a line that has said what it says. -/
def lineEnd? (cs : List Char) : Option (List Char) :=
  match skipComment (skipBlanks cs) with
  | [] => some []
  | cs => newline? cs

/-- Blanks, line breaks and comments, as they may stand inside an array. -/
def skipLines : Nat → List Char → List Char
  | 0, cs => cs
  | steps + 1, cs =>
    match skipComment (skipBlanks cs) with
    | [] => []
    | cs =>
      match newline? cs with
      | some rest => skipLines steps rest
      | none => cs

/-! ## Strings -/

/-- A character given by the hexadecimal digits of its code point. -/
def codePoint (count : Nat) : Scanner Char := fun cs =>
  let digits := cs.take count
  let n := natOf 16 digits
  if digits.length = count ∧ digits.all isHexDigit ∧ n.isValidChar then
    some (Char.ofNat n, cs.drop count)
  else none

/-- The character that an escape stands for, after the backslash. -/
def escaped : Scanner Char
  | 'b' :: rest => some ('\x08', rest)
  | 'f' :: rest => some ('\x0c', rest)
  | 'n' :: rest => some ('\n', rest)
  | 'r' :: rest => some ('\r', rest)
  | 't' :: rest => some ('\t', rest)
  | '"' :: rest => some ('"', rest)
  | '\\' :: rest => some ('\\', rest)
  | 'u' :: rest => codePoint 4 rest
  | 'U' :: rest => codePoint 8 rest
  | _ => none

/-- Puts a character in front of what a scanner found. -/
def consFound (c : Char) (found : Option (List Char × List Char)) :
    Option (List Char × List Char) :=
  found.map fun (s, rest) => (c :: s, rest)

/-- A string in double quotes, after the opening one. -/
def basicString : Nat → Scanner (List Char)
  | 0, _ => none
  | steps + 1, cs =>
    match cs with
    | '"' :: rest => some ([], rest)
    | '\\' :: rest => do
      let (c, rest) ← escaped rest
      consFound c (basicString steps rest)
    | c :: rest => if isPlain c then consFound c (basicString steps rest) else none
    | [] => none

/-- A string in single quotes, after the opening one. -/
def literalString : Scanner (List Char)
  | '\'' :: rest => some ([], rest)
  | c :: rest => if isPlain c then consFound c (literalString rest) else none
  | [] => none

/-- The quotes in front of the three that close a string of several lines: two at most. -/
def closingQuotes (quote : Char) (cs : List Char) : Option (List Char × List Char) :=
  let count := (cs.takeWhile (· == quote)).length
  if count < 3 then none
  else
    let kept := min (count - 3) 2
    some (List.replicate kept quote, cs.drop (kept + 3))

/-- Where a line goes on after a backslash at its end: at the next character that is no blank and
no line break. -/
def continuation? (cs : List Char) : Option (List Char) := do
  let rest ← newline? (skipBlanks cs)
  return rest.dropWhile fun c => isBlank c || c = '\n' || c = '\r'

/-- Whether every carriage return in a text is part of a line break. -/
def returnsPaired : List Char → Bool
  | [] => true
  | '\r' :: '\n' :: rest => returnsPaired rest
  | '\r' :: _ => false
  | _ :: rest => returnsPaired rest

/-- A string of several lines in double quotes, after the opening ones. -/
def multilineBasic : Nat → Scanner (List Char)
  | 0, _ => none
  | steps + 1, cs =>
    match closingQuotes '"' cs, newline? cs with
    | some found, _ => some found
    | none, some rest => consFound '\n' (multilineBasic steps rest)
    | none, none =>
      match cs with
      | '\\' :: rest =>
        match continuation? rest with
        | some after =>
          if returnsPaired (rest.take (rest.length - after.length)) then multilineBasic steps after
          else none
        | none => do
          let (c, rest) ← escaped rest
          consFound c (multilineBasic steps rest)
      | c :: rest => if isPlain c then consFound c (multilineBasic steps rest) else none
      | [] => none

/-- A string of several lines in single quotes, after the opening ones. -/
def multilineLiteral : Nat → Scanner (List Char)
  | 0, _ => none
  | steps + 1, cs =>
    match closingQuotes '\'' cs, newline? cs with
    | some found, _ => some found
    | none, some rest => consFound '\n' (multilineLiteral steps rest)
    | none, none =>
      match cs with
      | c :: rest => if isPlain c then consFound c (multilineLiteral steps rest) else none
      | [] => none

/-- The text without a line break at its start. -/
def dropNewline (cs : List Char) : List Char := (newline? cs).getD cs

/-- A string of any form. -/
def stringValue (cs : List Char) : Option (String × List Char) :=
  let steps := cs.length
  (match cs with
    | '"' :: '"' :: '"' :: rest => multilineBasic steps (dropNewline rest)
    | '\'' :: '\'' :: '\'' :: rest => multilineLiteral steps (dropNewline rest)
    | '"' :: rest => basicString steps rest
    | '\'' :: rest => literalString rest
    | _ => none).map fun (s, rest) => (String.ofList s, rest)

/-! ## Keys -/

/-- One key of a path: bare or quoted. -/
def simpleKey : Scanner String
  | '"' :: rest => (basicString rest.length rest).map fun (s, rest) => (String.ofList s, rest)
  | '\'' :: rest => (literalString rest).map fun (s, rest) => (String.ofList s, rest)
  | cs =>
    let name := cs.takeWhile isKeyChar
    if name.isEmpty then none else some (String.ofList name, cs.dropWhile isKeyChar)

/-- The greatest length of a path, and the greatest depth of values in values. -/
def limit : Nat := 79

/-- A dotted path of at most so many keys; the last one stands apart. -/
def keyPath : Nat → Scanner (List String × String)
  | 0, _ => none
  | steps + 1, cs => do
    let (key, rest) ← simpleKey (skipBlanks cs)
    match skipBlanks rest with
    | '.' :: rest =>
      let ((path, last), rest) ← keyPath steps rest
      return ((key :: path, last), rest)
    | rest => return (([], key), rest)

/-! ## Numbers -/

/-- Digits that may be separated by single underscores, without them.  An underscore that no digit
follows is wrong. -/
def digitGroups (isDigit : Char → Bool) : List Char → Option (List Char × List Char)
  | [] => some ([], [])
  | '_' :: c :: rest =>
    if isDigit c then consFound c (digitGroups isDigit rest) else none
  | c :: rest =>
    if isDigit c then consFound c (digitGroups isDigit rest)
    else if c = '_' then none
    else some ([], c :: rest)

/-- Digits as above, of which there is at least one in front. -/
def digits (isDigit : Char → Bool) (cs : List Char) : Option (List Char × List Char) :=
  if cs.head?.any isDigit then digitGroups isDigit cs else none

/-- A sign, if there is one. -/
def sign : List Char → Bool × List Char
  | '+' :: rest => (false, rest)
  | '-' :: rest => (true, rest)
  | cs => (false, cs)

/-- The digits of a decimal integer: a leading zero stands alone. -/
def decimalDigits : List Char → Option (List Char × List Char)
  | '0' :: rest => some (['0'], rest)
  | cs => digits Char.isDigit cs

/-- An integer that fits 64 bits. -/
def fit (n : Int) : Option Int :=
  if -0x8000000000000000 ≤ n ∧ n ≤ 0x7FFFFFFFFFFFFFFF then some n else none

/-- An integer in another base, after the zero and the letter that say so. -/
def basedInteger (base : Nat) (isDigit : Char → Bool) (cs : List Char) :
    Option (Int × List Char) := do
  let (ds, rest) ← digits isDigit cs
  return (← fit (natOf base ds), rest)

def integer (cs : List Char) : Option (Int × List Char) :=
  match cs with
  | '0' :: 'x' :: rest => basedInteger 16 isHexDigit rest
  | '0' :: 'o' :: rest => basedInteger 8 isOctalDigit rest
  | '0' :: 'b' :: rest => basedInteger 2 isBinaryDigit rest
  | _ => do
    let (negative, cs) := sign cs
    let (ds, rest) ← decimalDigits cs
    let n : Int := natOf 10 ds
    return (← fit (if negative then -n else n), rest)

/-- The digits after a point. -/
def fraction : List Char → Option (List Char × List Char)
  | '.' :: rest => digits Char.isDigit rest
  | _ => none

/-- The exponent after its letter, or zero if there is none. -/
def exponent (cs : List Char) : Option (Int × List Char) :=
  match cs with
  | [] => some (0, [])
  | e :: rest =>
    if e = 'e' ∨ e = 'E' then do
      let (negative, rest) := sign rest
      let (ds, rest) ← digits Char.isDigit rest
      let n : Int := natOf 10 ds
      return (if negative then -n else n, rest)
    else some (0, cs)

/-- The nearest floating-point number to `n * 10 ^ e`; far outside their range, zero or infinity
without computing the power. -/
def nearest (n : Nat) (e : Int) : Float :=
  let size := (Nat.toDigits 10 n).length + e
  if n = 0 ∨ size < -400 then 0.0
  else if 400 < size then 1.0 / 0.0
  else if 0 ≤ e then Float.ofScientific n false e.toNat
  else Float.ofScientific n true (-e).toNat

/-- A number with a point or an exponent.  One that is too large is no number, unless it is
negative. -/
def decimalFloat (cs : List Char) : Option (Float × List Char) := do
  let (negative, cs) := sign cs
  let (whole, rest) ← decimalDigits cs
  if rest.head?.any (fun c => c = '.' || c = 'e' || c = 'E') then
    let (part, rest) ← if rest.head? = some '.' then fraction rest else some ([], rest)
    let (e, rest) ← exponent rest
    let x := nearest (natOf 10 (whole ++ part)) (e - part.length)
    if negative then return (-x, rest) else if x.isInf then none else return (x, rest)
  else none

/-- Infinity or no number, with a sign in front or not. -/
def specialFloat (cs : List Char) : Option (Float × List Char) :=
  let (negative, cs) := sign cs
  match cs with
  | 'i' :: 'n' :: 'f' :: rest => some (if negative then -1.0 / 0.0 else 1.0 / 0.0, rest)
  | 'n' :: 'a' :: 'n' :: rest => some (0.0 / 0.0, rest)
  | _ => none

/-! ## Dates and times -/

/-- Exactly so many digits. -/
def fixedDigits (count : Nat) (cs : List Char) : Option (Nat × List Char) :=
  let ds := cs.take count
  if ds.length = count ∧ ds.all Char.isDigit then some (natOf 10 ds, cs.drop count) else none

/-- The text after a character that has to be there. -/
def expect (c : Char) : List Char → Option (List Char)
  | d :: rest => if d = c then some rest else none
  | [] => none

/-- A number with leading zeros. -/
def padded (width n : Nat) : List Char :=
  let ds := Nat.toDigits 10 n
  List.replicate (width - ds.length) '0' ++ ds

def isLeap (year : Nat) : Bool := year % 4 = 0 && (year % 100 ≠ 0 || year % 400 = 0)

def daysIn (year month : Nat) : Nat :=
  if month = 2 then if isLeap year then 29 else 28
  else if month = 4 ∨ month = 6 ∨ month = 9 ∨ month = 11 then 30
  else 31

/-- A date. -/
def date (cs : List Char) : Option (List Char × List Char) := do
  let (year, cs) ← fixedDigits 4 cs
  let (month, cs) ← fixedDigits 2 (← expect '-' cs)
  let (day, cs) ← fixedDigits 2 (← expect '-' cs)
  if 1 ≤ month ∧ month ≤ 12 ∧ 1 ≤ day ∧ day ≤ daysIn year month then
    return (padded 4 year ++ '-' :: padded 2 month ++ '-' :: padded 2 day, cs)
  else none

/-- Parts of a second, to nine digits, without the zeros at their end. -/
def secondParts (cs : List Char) : List Char × List Char :=
  match cs with
  | '.' :: rest =>
    let ds := rest.takeWhile Char.isDigit
    if ds.isEmpty then ([], cs)
    else
      let shown := ((ds.take 9).reverse.dropWhile (· == '0')).reverse
      (if shown.isEmpty then [] else '.' :: shown, rest.dropWhile Char.isDigit)
  | _ => ([], cs)

/-- A time of day. -/
def time (cs : List Char) : Option (List Char × List Char) := do
  let (hour, cs) ← fixedDigits 2 cs
  let (minute, cs) ← fixedDigits 2 (← expect ':' cs)
  let (second, cs) ← fixedDigits 2 (← expect ':' cs)
  if hour ≤ 23 ∧ minute ≤ 59 ∧ second ≤ 60 then
    let (parts, cs) := secondParts cs
    return (padded 2 hour ++ ':' :: padded 2 minute ++ ':' :: padded 2 second ++ parts, cs)
  else none

/-- The offset of a time, if there is one. -/
def timeOffset (cs : List Char) : Option (List Char × List Char) :=
  match cs with
  | c :: rest =>
    if c = 'Z' ∨ c = 'z' then some (['Z'], rest)
    else if c = '+' ∨ c = '-' then do
      let (hour, rest) ← fixedDigits 2 rest
      let (minute, rest) ← fixedDigits 2 (← expect ':' rest)
      if hour ≤ 23 ∧ minute ≤ 59 then
        let shown := if hour = 0 ∧ minute = 0 then '+' else c
        return (shown :: padded 2 hour ++ ':' :: padded 2 minute, rest)
      else none
    else some ([], cs)
  | [] => some ([], [])

/-- The time after a date, if there is one. -/
def timeAfterDate (cs : List Char) : Option (List Char × List Char) :=
  match cs with
  | c :: rest =>
    if c = 'T' ∨ c = 't' ∨ c = ' ' then
      match time rest with
      | some (text, rest) => do
        let (offset, rest) ← timeOffset rest
        return ('T' :: text ++ offset, rest)
      | none => some ([], cs)
    else some ([], cs)
  | [] => some ([], [])

/-- A date, a time or both. -/
def datetime (cs : List Char) : Option (String × List Char) :=
  match date cs with
  | some (day, rest) => do
    let (rest', after) ← timeAfterDate rest
    return (String.ofList (day ++ rest'), after)
  | none => (time cs).map fun (text, rest) => (String.ofList text, rest)

end FunctionAdapters.Toml
