/-!
The shortest decimal of a binary floating-point number: of the decimals with the fewest digits that
round to it, the nearest one.  All comparisons are exact, in natural numbers.
-/

namespace FunctionAdapters.Decimal

/-- A finite positive binary number `significand * 2 ^ exponent`. -/
structure Binary where
  significand : Nat
  exponent : Int
  deriving DecidableEq, Repr

/-- A decimal number `digits * 10 ^ exponent`. -/
structure Scaled where
  digits : Nat
  exponent : Int
  deriving DecidableEq, Repr

/-- Which of two equally near neighbours stands for a number. -/
inductive Tie where
  /-- The one whose last digit is even. -/
  | even
  /-- The greater one. -/
  | up
  deriving DecidableEq, Repr

/-- What a 64-bit pattern stands for. -/
inductive Parts where
  | nan
  | infinite (negative : Bool)
  | zero (negative : Bool)
  | finite (negative : Bool) (value : Binary)
  deriving DecidableEq, Repr

namespace Parts

/-- The parts of a 64-bit pattern: a sign, eleven bits of exponent, 52 bits of significand. -/
def ofBits (bits : Nat) : Parts :=
  let negative := Nat.pow 2 63 ≤ bits
  let biased : Nat := bits / Nat.pow 2 52 % Nat.pow 2 11
  let fraction : Nat := bits % Nat.pow 2 52
  if biased = 2047 then if fraction = 0 then infinite negative else nan
  else if biased = 0 then
    if fraction = 0 then zero negative else finite negative ⟨fraction, -1074⟩
  else finite negative ⟨Nat.pow 2 52 + fraction, (biased : Int) - 1075⟩

end Parts

namespace Binary

/-- Compares `n / 4 * 2 ^ exponent` with a decimal. -/
def compareQuarters (n : Nat) (exponent : Int) (d : Scaled) : Ordering :=
  let left := n * Nat.pow 2 exponent.toNat * Nat.pow 10 (-d.exponent).toNat
  let right := 4 * d.digits * Nat.pow 10 d.exponent.toNat * Nat.pow 2 (-exponent).toNat
  compare left right

/-- Whether a decimal rounds to the number: it lies half a unit or less from it, and the ends
count only for an even significand.  Below a power of two the unit is half as large. -/
def rounds (x : Binary) (d : Scaled) : Bool :=
  let narrow := x.significand = Nat.pow 2 52 ∧ -1074 < x.exponent
  let low := compareQuarters (4 * x.significand - if narrow then 1 else 2) x.exponent d
  let high := compareQuarters (4 * x.significand + 2) x.exponent d
  let even := x.significand % 2 = 0
  (low == .lt || even && low == .eq) && (high == .gt || even && high == .eq)

/-- The whole part of the number divided by `10 ^ k`. -/
def quotient (x : Binary) (k : Int) : Nat :=
  x.significand * Nat.pow 2 x.exponent.toNat * Nat.pow 10 (-k).toNat
    / (Nat.pow 2 (-x.exponent).toNat * Nat.pow 10 k.toNat)

/-- The place of the first digit: the greatest `k` with `10 ^ k` at most the number. -/
def firstPlace (x : Binary) : Int :=
  ((Nat.toDigits 10 (x.quotient (-400))).length : Int) - 401

/-- Whether the lower of two neighbours on a decimal grid stands for the number. -/
def takesLow (x : Binary) (tie : Tie) (d : Scaled) : Bool :=
  match compareQuarters (8 * x.significand) x.exponent ⟨2 * d.digits + 1, d.exponent⟩ with
  | .lt => true
  | .eq => tie = .even && d.digits % 2 = 0
  | .gt => false

/-- The decimal with `n` digits that rounds to the number, if there is one. -/
def withDigits (x : Binary) (tie : Tie) (n : Nat) : Option Scaled :=
  let place := x.firstPlace - n + 1
  let low : Scaled := ⟨x.quotient place, place⟩
  let high : Scaled := ⟨low.digits + 1, place⟩
  match x.rounds low, x.rounds high with
  | true, true => some (if x.takesLow tie low then low else high)
  | true, false => some low
  | false, true => some high
  | false, false => none

/-- The shortest decimal that rounds to the number; seventeen digits always do. -/
def shortest (x : Binary) (tie : Tie) : Scaled :=
  ((List.range' 1 17).findSome? (x.withDigits tie)).getD ⟨0, 0⟩

/-- A quarter above `2223485380030542` is halfway between two decimals with seventeen digits. -/
example :
    shortest ⟨8893941520122169, -2⟩ .even = ⟨22234853800305422, -1⟩ ∧
      shortest ⟨8893941520122169, -2⟩ .up = ⟨22234853800305423, -1⟩ := by decide +kernel

end Binary

end FunctionAdapters.Decimal
