import FunctionAdapters.Json.Source

/-!
String and number literals.  A string is first cut into characters and 16-bit units, then units are
paired; a number is first cut into its digits, then given a value, integer if it has no point or
exponent and fits 64 bits.
-/

namespace FunctionAdapters.Json

/-! ## Strings -/

/-- A piece of a string literal. -/
inductive Piece where
  | char (c : Char)
  /-- A 16-bit unit written with four hexadecimal digits. -/
  | unit (n : Nat)
  deriving DecidableEq, Repr

/-- The value of a hexadecimal digit. -/
def hexValue? (c : Char) : Option Nat :=
  if '0' ≤ c ∧ c ≤ '9' then some (c.toNat - '0'.toNat)
  else if 'a' ≤ c ∧ c ≤ 'f' then some (c.toNat - 'a'.toNat + 10)
  else if 'A' ≤ c ∧ c ≤ 'F' then some (c.toNat - 'A'.toNat + 10)
  else none

/-- The value of four hexadecimal digits. -/
def unitValue? (a b c d : Char) : Option Nat := do
  return (((← hexValue? a) * 16 + (← hexValue? b)) * 16 + (← hexValue? c)) * 16 + (← hexValue? d)

/-- The character after a backslash, other than `u`. -/
def escaped? : Char → Option Char
  | '"' => some '"'
  | '\\' => some '\\'
  | '/' => some '/'
  | 'b' => some '\x08'
  | 'f' => some '\x0c'
  | 'n' => some '\n'
  | 'r' => some '\r'
  | 't' => some '\t'
  | _ => none

/-- Whether fewer than four bytes are left. -/
def nearEnd (cs : List Char) : Bool := (cs.take 4).foldl (fun n c => n + c.utf8Size) 0 < 4

/-- The pieces of a string literal after its opening quote, and the text after the closing one or
the fault that comes first. -/
def pieces : List Char → List Piece × Except Fault (List Char)
  | [] => ([], .error .truncated)
  | '"' :: rest => ([], .ok rest)
  | ['\\'] => ([], .error .truncated)
  | '\\' :: 'u' :: a :: b :: c :: d :: rest =>
    match unitValue? a b c d with
    | some n => ((pieces rest).map (.unit n :: ·) id)
    | none => ([], .error .malformed)
  | '\\' :: 'u' :: rest => ([], .error (if nearEnd rest then .truncated else .malformed))
  | '\\' :: e :: rest =>
    match escaped? e with
    | some c => ((pieces rest).map (.char c :: ·) id)
    | none => ([], .error .malformed)
  | c :: rest =>
    if c.toNat < 0x20 then ([], .error .malformed) else ((pieces rest).map (.char c :: ·) id)

/-- The first half of a surrogate pair. -/
def isLeading (n : Nat) : Bool := 0xD800 ≤ n && n < 0xDC00

/-- The second half of a surrogate pair. -/
def isTrailing (n : Nat) : Bool := 0xDC00 ≤ n && n < 0xE000

/-- The characters that pieces stand for, up to the given fault if there is one; half a surrogate
pair is a fault of its own. -/
def assemble (fault : Option Fault) : List Piece → Except Fault (List Char)
  | [] => match fault with
    | none => .ok []
    | some f => .error f
  | .char c :: rest => (assemble fault rest).map (c :: ·)
  | [.unit n] =>
    if isTrailing n then .error .malformed
    else if isLeading n then .error (fault.getD .malformed)
    else match fault with
      | none => .ok [Char.ofNat n]
      | some f => .error f
  | .unit n :: .unit m :: rest =>
    if isTrailing n then .error .malformed
    else if isLeading n then
      if isTrailing m then
        (assemble fault rest).map (Char.ofNat (0x10000 + (n - 0xD800) * 0x400 + (m - 0xDC00)) :: ·)
      else .error .malformed
    else (assemble fault (.unit m :: rest)).map (Char.ofNat n :: ·)
  | .unit n :: .char c :: rest =>
    if isTrailing n || isLeading n then .error .malformed
    else (assemble fault (.char c :: rest)).map (Char.ofNat n :: ·)

/-- A key from the text after its opening quote, and the text that follows unless it breaks off. -/
def readKey (cs : List Char) : Key × Option (List Char) :=
  match pieces cs with
  | (found, .ok rest) =>
    match assemble none found with
    | .ok s => (.text (String.ofList s), some rest)
    | .error _ => (.unreadable, some rest)
  | (found, .error fault) =>
    match assemble (some fault) found with
    | .ok _ => (.broken ⟨fault, fault, .quote⟩, none)
    | .error first => (.broken ⟨first, fault, .quote⟩, none)

/-- A string value, likewise. -/
def readString (cs : List Char) : Source × Option (List Char) :=
  match readKey cs with
  | (.text s, rest) => (.string s, rest)
  | (.unreadable, rest) => (.unreadable, rest)
  | (.broken b, rest) => (.broken b, rest)
  | (.other, rest) => (.unreadable, rest)

/-! ## Numbers -/

/-- A number literal cut into its parts. -/
structure NumberLiteral where
  negative : Bool
  whole : List Char
  /-- The digits after the point. -/
  fraction : Option (List Char)
  /-- Whether the exponent is negative, and its digits. -/
  exponent : Option (Bool × List Char)
  deriving DecidableEq, Repr

namespace NumberLiteral

def digit (c : Char) : Nat := c.toNat - '0'.toNat

/-- The value of some digits. -/
def natOf (digits : List Char) : Nat := digits.foldl (fun n c => 10 * n + digit c) 0

/-- Appends digits to a significand while it stays below `2 ^ 64`, and counts them. -/
def absorb (significand : Nat) : List Char → Nat × Nat
  | [] => (significand, 0)
  | c :: rest =>
    let next := significand * 10 + digit c
    if next < Nat.pow 2 64 then
      let (s, n) := absorb next rest
      (s, n + 1)
    else (significand, 0)

/-- The greatest exponent, and one more than the depth of the least. -/
def exponentLimit : Nat := Nat.pow 2 31

/-- A power of ten as a floating-point number. -/
def power (n : Nat) : Float := Float.ofScientific 1 false n

/-- Multiplies or divides by a power of ten, in one step where the power is finite; nothing if the
result is too large. -/
def scale : Nat → Float → Int → Option Float
  | 0, x, _ => some x
  | steps + 1, x, exponent =>
    if exponent.natAbs ≤ 308 then
      if 0 ≤ exponent then
        let y := x * power exponent.natAbs
        if y.isInf then none else some y
      else some (x / power exponent.natAbs)
    else if x == 0 then some x
    else if 0 ≤ exponent then none
    else scale steps (x / power 308) (exponent + 308)

/-- A floating-point number from a significand below `2 ^ 64` and an exponent.  Three divisions
bring every significand to zero. -/
def toFloat (negative : Bool) (significand : Nat) (exponent : Int) : Option Number :=
  (scale 4 (UInt64.ofNat significand).toFloat exponent).map fun x =>
    .float (if negative then -x else x)

/-- An integer: one that fits 64 bits, else the nearest floating-point number. -/
def ofInteger (negative : Bool) (n : Nat) : Number :=
  if !negative then .int n
  else if 0 < n ∧ n ≤ Nat.pow 2 63 then .int (-n)
  else .float (-(UInt64.ofNat n).toFloat)

/-- The value of a literal; nothing if it is too large. -/
def value (l : NumberLiteral) : Option Number :=
  let (s, n) := absorb 0 l.whole
  let dropped : Int := l.whole.length - n
  let (t, m) := absorb s (l.fraction.getD [])
  let start : Int := dropped - m
  match l.exponent with
  | none =>
    if l.fraction.isNone ∧ dropped = 0 then some (ofInteger l.negative s)
    else toFloat l.negative t start
  | some (down, digits) =>
    let e := natOf digits
    if exponentLimit ≤ e then
      if t ≠ 0 ∧ !down then none else some (.float (if l.negative then -0.0 else 0.0))
    else
      let shifted : Int := if down then start - e else start + e
      toFloat l.negative t (max (-exponentLimit) (min (exponentLimit - 1) shifted))

end NumberLiteral

/-- A break inside a number: at the end of the text it reads as too short, but skips as wrong. -/
def numberBreak (rest : List Char) : Break :=
  ⟨if rest.isEmpty then .truncated else .malformed, .malformed, .other⟩

def leadingDigits (cs : List Char) : List Char := cs.takeWhile Char.isDigit

def afterDigits (cs : List Char) : List Char := cs.dropWhile Char.isDigit

/-- The digits before the point; a leading zero stands alone. -/
def wholePart (cs : List Char) : Except Break (List Char × List Char) :=
  match cs with
  | '0' :: rest =>
    if rest.head?.any Char.isDigit then .error .wrong else .ok (['0'], rest)
  | _ =>
    if (leadingDigits cs).isEmpty then .error (numberBreak cs)
    else .ok (leadingDigits cs, afterDigits cs)

/-- The digits after the point, if there is one. -/
def fractionPart (cs : List Char) : Except Break (Option (List Char) × List Char) :=
  match cs with
  | '.' :: rest =>
    if (leadingDigits rest).isEmpty then .error (numberBreak rest)
    else .ok (some (leadingDigits rest), afterDigits rest)
  | _ => .ok (none, cs)

/-- The sign in front of an exponent's digits. -/
def exponentSign : List Char → Bool × List Char
  | '+' :: rest => (false, rest)
  | '-' :: rest => (true, rest)
  | rest => (false, rest)

/-- The exponent, if there is one. -/
def exponentPart (cs : List Char) : Except Break (Option (Bool × List Char) × List Char) :=
  match cs with
  | e :: rest =>
    if e = 'e' ∨ e = 'E' then
      let (down, rest) := exponentSign rest
      if (leadingDigits rest).isEmpty then .error (numberBreak rest)
      else .ok (some (down, leadingDigits rest), afterDigits rest)
    else .ok (none, cs)
  | [] => .ok (none, cs)

/-- The parts of a number literal, and the text that follows. -/
def numberLiteral (negative : Bool) (cs : List Char) :
    Except Break (NumberLiteral × List Char) := do
  let (whole, cs) ← wholePart cs
  let (fraction, cs) ← fractionPart cs
  let (exponent, cs) ← exponentPart cs
  return ({ negative, whole, fraction, exponent }, cs)

/-- A number value, and the text that follows unless it breaks off. -/
def readNumber (negative : Bool) (cs : List Char) : Source × Option (List Char) :=
  match numberLiteral negative cs with
  | .error b => (.broken b, none)
  | .ok (l, rest) =>
    match l.value with
    | some n => (.number n, some rest)
    | none => (.unreadable, some rest)

end FunctionAdapters.Json
