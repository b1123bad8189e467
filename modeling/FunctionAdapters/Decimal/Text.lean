import FunctionAdapters.Decimal.Shortest

/-!
Floating-point numbers as texts in messages, with the fewest digits that read back.
-/

namespace FunctionAdapters.Decimal

/-- How numbers are written. -/
structure Style where
  /-- The least and greatest place of the point, counted from the first digit, without exponent;
  `none` stands for no limit. -/
  places : Option (Int × Int)
  tie : Tie
  deriving Repr

namespace Scaled

/-- The digits without the zeros at their end. -/
def trimmed (d : Scaled) : List Char × Int :=
  let digits := Nat.toDigits 10 d.digits
  let zeros := (digits.reverse.takeWhile (· == '0')).length
  (digits.take (digits.length - zeros), d.exponent + zeros)

/-- The digits around a decimal point, with at least one digit on each side. -/
def positional (digits : List Char) (exponent : Int) : List Char :=
  if 0 ≤ exponent then digits ++ List.replicate exponent.toNat '0' ++ ['.', '0']
  else
    let after := (-exponent).toNat
    if after < digits.length then
      digits.take (digits.length - after) ++ '.' :: digits.drop (digits.length - after)
    else ['0', '.'] ++ List.replicate (after - digits.length) '0' ++ digits

/-- The first digit, the others after a point, and the place of the first digit with its sign. -/
def scientific (digits : List Char) (place : Int) : List Char :=
  digits.take 1 ++ (if digits.length ≤ 1 then [] else '.' :: digits.drop 1)
    ++ 'e' :: (if 0 ≤ place then '+' else '-') :: Nat.toDigits 10 place.natAbs

def chars (style : Style) (d : Scaled) : List Char :=
  let (digits, exponent) := d.trimmed
  let point : Int := digits.length + exponent
  match style.places with
  | none => positional digits exponent
  | some (least, greatest) =>
    if least ≤ point ∧ point ≤ greatest then positional digits exponent
    else scientific digits (point - 1)

end Scaled

namespace Style

/-- Messages about JSON write an exponent outside `0.00001` to `9999999999999999`, and a tie goes to
the even digit. -/
def compact : Style := ⟨some (-4, 16), .even⟩

/-- Messages about configuration files write all digits, and a tie goes up. -/
def full : Style := ⟨none, .up⟩

/-- The text of a 64-bit pattern. -/
def ofBits (style : Style) (bits : Nat) : String :=
  let signed (negative : Bool) (text : List Char) : String :=
    String.ofList (if negative then '-' :: text else text)
  match Parts.ofBits bits with
  | .nan => "NaN"
  | .infinite negative => signed negative ['i', 'n', 'f']
  | .zero negative => signed negative ['0', '.', '0']
  | .finite negative value => signed negative ((value.shortest style.tie).chars style)

/-- The text of a number. -/
def write (style : Style) (x : Float) : String := style.ofBits x.toBits.toNat

example : compact.ofBits 0x46293E5939A08CEA = "1e+30" := by decide +kernel

end Style

end FunctionAdapters.Decimal
