import Formula.Binary

/-!
Reading a decimal as the nearest floating-point number, and finding the
shortest decimal that is read as a given number.
-/

namespace Formula

/-- A nonnegative decimal number: a coefficient times a power of ten. -/
structure Decimal where
  coefficient : Nat
  exponent : Int
  deriving DecidableEq, Repr

namespace Decimal

def digits (decimal : Decimal) : List Char :=
  Nat.toDigits 10 decimal.coefficient

/-- The power of ten of the first digit. -/
def leadingExponent (decimal : Decimal) : Int :=
  decimal.digits.length - 1 + decimal.exponent

def withoutTrailingZeros (coefficient : Nat) (exponent : Int) : Decimal :=
  if 0 < coefficient ∧ coefficient % 10 = 0 then
    withoutTrailingZeros (coefficient / 10) (exponent + 1)
  else ⟨coefficient, exponent⟩
termination_by coefficient
decreasing_by omega

end Decimal

namespace Binary

variable {format : FloatFormat}

/-! ## Reading -/

/-- The number nearest to a decimal. A first digit beyond the range of every
number, or below half of the least one, settles the result without the power
of ten. -/
def ofDecimal (negative : Bool) (decimal : Decimal) : Binary format :=
  if decimal.coefficient = 0 then zero negative
  else if (1 <<< format.exponentBits : Nat) ≤ decimal.leadingExponent then
    infinity negative
  else if decimal.leadingExponent < -(format.resolution + 2 : Int) then
    zero negative
  else
    ofRatio negative
      ((decimal.coefficient * Nat.pow 10 decimal.exponent.toNat) <<<
        format.resolution)
      (Nat.pow 10 (-decimal.exponent).toNat)

/-! ## Writing -/

def exactDecimal (x : Binary format) : Decimal :=
  ⟨x.units * Nat.pow 5 format.resolution, -format.resolution⟩

def isReadFrom (x : Binary format) (decimal : Decimal) : Bool :=
  ofDecimal x.isNegative decimal = x

/-- The decimal next to a number on the grid of a power of ten that is read as
that number, if there is one: of two, the nearer, and at equal distances the
greater. -/
def neighbour? (x : Binary format) (power : Nat) : Option Decimal :=
  let exact := x.exactDecimal
  let unit := Nat.pow 10 power
  let exponent := exact.exponent + power
  let below : Decimal := ⟨exact.coefficient / unit, exponent⟩
  let above : Decimal := ⟨exact.coefficient / unit + 1, exponent⟩
  let distance := exact.coefficient % unit
  if x.isReadFrom below && (2 * distance < unit || !x.isReadFrom above) then
    some below
  else if x.isReadFrom above then some above
  else none

def neighbourFrom (x : Binary format) : Nat → Decimal
  | 0 => x.exactDecimal
  | power + 1 => (x.neighbour? power).getD (x.neighbourFrom power)

/-- The shortest decimal that is read as the absolute value of a finite
number. -/
def shortestDecimal (x : Binary format) : Decimal :=
  let nearest := x.neighbourFrom x.exactDecimal.digits.length
  .withoutTrailingZeros nearest.coefficient nearest.exponent

end Binary

/-! ## Text -/

/-- How numbers are written: the first digits' powers of ten for which the
point stands among the digits, the mark before other powers, and whether a
lone first digit is followed by `.0`. -/
structure FloatNotation where
  infinity : String
  plainFrom : Int
  plainBelow : Int
  exponentMark : String
  alwaysPoint : Bool

namespace FloatNotation

/-- Digits with a point after the first digit and every digit kept. -/
def pointed (whole fraction : List Char) : String :=
  String.ofList (whole ++ '.' :: if fraction.isEmpty then ['0'] else fraction)

def plain (digits : List Char) (leadingExponent : Int) : String :=
  if 0 ≤ leadingExponent then
    let wholeLength := leadingExponent.toNat + 1
    pointed
      (digits.take wholeLength ++
        List.replicate (wholeLength - digits.length) '0')
      (digits.drop wholeLength)
  else
    pointed ['0']
      (List.replicate ((-leadingExponent).toNat - 1) '0' ++ digits)

/-- Digits with the point after the first one, and the power of ten. -/
def scientific (style : FloatNotation) (digits : List Char)
    (leadingExponent : Int) : String :=
  let mantissa :=
    if style.alwaysPoint || 1 < digits.length then
      pointed (digits.take 1) (digits.drop 1)
    else String.ofList digits
  mantissa ++ style.exponentMark ++ toString leadingExponent

def magnitudeText {format : FloatFormat} (style : FloatNotation)
    (x : Binary format) : String :=
  if x.isInfinite then style.infinity
  else if x.isZero then "0.0"
  else
    let decimal := x.shortestDecimal
    let leadingExponent := decimal.leadingExponent
    if style.plainFrom ≤ leadingExponent ∧
        leadingExponent < style.plainBelow then
      plain decimal.digits leadingExponent
    else style.scientific decimal.digits leadingExponent

def text {format : FloatFormat} (style : FloatNotation)
    (x : Binary format) : String :=
  if x.isNaN then "NaN"
  else if x.isNegative then "-" ++ style.magnitudeText x
  else style.magnitudeText x

/-- Values are written plainly from a thousandth up to ten millions. -/
def value : FloatNotation := ⟨"Infinity", -3, 7, "E", true⟩

/-- Listings write plainly from a ten-thousandth up to `10 ^ 16`. -/
def listing : FloatNotation := ⟨"inf", -4, 16, "e", false⟩

end FloatNotation

end Formula
