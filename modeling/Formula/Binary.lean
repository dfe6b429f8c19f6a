/-!
Binary interchange floating point in a chosen format. Every finite number is a
natural multiple of the least positive number of its format, up to sign, so that
values, comparison and rounding are statements about natural numbers.
-/

namespace Formula

/-- The widths of the two fields below the sign bit. -/
structure FloatFormat where
  fractionBits : Nat
  exponentBits : Nat
  deriving DecidableEq, Repr

namespace FloatFormat

def single : FloatFormat := ⟨23, 8⟩

def double : FloatFormat := ⟨52, 11⟩

def magnitudeWidth (format : FloatFormat) : Nat :=
  format.exponentBits + format.fractionBits

def width (format : FloatFormat) : Nat :=
  format.magnitudeWidth + 1

/-- The least positive number is two to the minus this power. -/
def resolution (format : FloatFormat) : Nat :=
  (1 <<< (format.exponentBits - 1)) - 2 + format.fractionBits

def infinityMagnitude (format : FloatFormat) : Nat :=
  ((1 <<< format.exponentBits) - 1) <<< format.fractionBits

/-- The encoding of the quiet not-a-number with an otherwise empty payload. -/
def quietMagnitude (format : FloatFormat) : Nat :=
  format.infinityMagnitude + (1 <<< (format.fractionBits - 1))

end FloatFormat

/-- A floating-point datum, held as its encoding. -/
structure Binary (format : FloatFormat) where
  bits : BitVec format.width
  deriving DecidableEq, Hashable, Repr

abbrev Single := Binary .single

abbrev Double := Binary .double

namespace Binary

variable {format : FloatFormat}

/-! ## Reading an encoding -/

/-- Whether the sign bit is set. -/
def isNegative (x : Binary format) : Bool :=
  x.bits.msb

/-- The encoding without its sign. It grows with the absolute value. -/
def magnitude (x : Binary format) : Nat :=
  x.bits.toNat % (1 <<< format.magnitudeWidth)

def isNaN (x : Binary format) : Bool :=
  format.infinityMagnitude < x.magnitude

def isInfinite (x : Binary format) : Bool :=
  x.magnitude = format.infinityMagnitude

def isFinite (x : Binary format) : Bool :=
  x.magnitude < format.infinityMagnitude

def isZero (x : Binary format) : Bool :=
  x.magnitude = 0

/-- The absolute value of a finite datum, counted in least positive numbers. -/
def units (x : Binary format) : Nat :=
  let exponent := x.magnitude >>> format.fractionBits
  let fraction := x.magnitude % (1 <<< format.fractionBits)
  if exponent = 0 then fraction
  else ((1 <<< format.fractionBits) + fraction) <<< (exponent - 1)

/-- The value of a finite datum, counted in least positive numbers. -/
def signedUnits (x : Binary format) : Int :=
  if x.isNegative then -x.units else x.units

/-! ## Building an encoding -/

def ofMagnitude (negative : Bool) (magnitude : Nat) : Binary format :=
  ⟨BitVec.ofNat _
    (magnitude + if negative then 1 <<< format.magnitudeWidth else 0)⟩

def zero (negative : Bool) : Binary format :=
  ofMagnitude negative 0

def infinity (negative : Bool) : Binary format :=
  ofMagnitude negative format.infinityMagnitude

/-- The quiet not-a-number without a payload. -/
def nan : Binary format :=
  ofMagnitude false format.quietMagnitude

/-- The integer nearest to a quotient; a quotient half-way between two integers
goes to the even one. -/
def divideToNearest (numerator denominator : Nat) : Nat :=
  let quotient := numerator / denominator
  match compare (2 * (numerator % denominator)) denominator with
  | .lt => quotient
  | .gt => quotient + 1
  | .eq => if quotient % 2 = 0 then quotient else quotient + 1

/-- The magnitude nearest to a quotient of least positive numbers, as if the
exponent had no bound. All but the leading bits of the quotient are rounded
away; the carry of that rounding moves into the exponent by itself. -/
def nearestMagnitude (format : FloatFormat) (numerator denominator : Nat) :
    Nat :=
  let excess := (numerator / denominator).log2 - format.fractionBits
  (excess <<< format.fractionBits) +
    divideToNearest numerator (denominator <<< excess)

def ofRatio (negative : Bool) (numerator denominator : Nat) : Binary format :=
  ofMagnitude negative <|
    min format.infinityMagnitude
      (nearestMagnitude format numerator denominator)

def ofInt (value : Int) : Binary format :=
  ofRatio (value < 0) (value.natAbs <<< format.resolution) 1

/-- The same number in another format, rounded where that format is coarser. -/
def convert {source : FloatFormat} (x : Binary source) : Binary format :=
  if x.isNaN then nan
  else if x.isInfinite then infinity x.isNegative
  else
    ofRatio x.isNegative (x.units <<< format.resolution)
      (1 <<< source.resolution)

/-! ## Arithmetic -/

def negate (x : Binary format) : Binary format :=
  ofMagnitude (!x.isNegative) x.magnitude

/-- The rounded sum. A sum of zero is negative only if both sides are. -/
def add (left right : Binary format) : Binary format :=
  if left.isNaN || right.isNaN then nan
  else if left.isInfinite then
    if right.isInfinite && left.isNegative != right.isNegative then nan
    else left
  else if right.isInfinite then right
  else
    let sum := left.signedUnits + right.signedUnits
    if sum = 0 then zero (left.isNegative && right.isNegative)
    else ofRatio (sum < 0) sum.natAbs 1

def subtract (left right : Binary format) : Binary format :=
  left.add right.negate

def multiply (left right : Binary format) : Binary format :=
  let negative := left.isNegative != right.isNegative
  if left.isNaN || right.isNaN then nan
  else if left.isInfinite || right.isInfinite then
    if left.isZero || right.isZero then nan else infinity negative
  else
    ofRatio negative (left.units * right.units) (1 <<< format.resolution)

/-- The rounded quotient; a nonzero number divided by zero is infinite. -/
def divide (left right : Binary format) : Binary format :=
  let negative := left.isNegative != right.isNegative
  if left.isNaN || right.isNaN then nan
  else if left.isInfinite then
    if right.isInfinite then nan else infinity negative
  else if right.isInfinite then zero negative
  else if right.isZero then
    if left.isZero then nan else infinity negative
  else
    ofRatio negative (left.units <<< format.resolution) right.units

/-- The remainder of the quotient cut off toward zero. It is exact and keeps
the sign of the dividend. -/
def remainder (left right : Binary format) : Binary format :=
  if left.isNaN || right.isNaN || left.isInfinite || right.isZero then nan
  else if right.isInfinite then left
  else ofRatio left.isNegative (left.units % right.units) 1

/-! ## Order -/

/-- The position of a number among the numbers of its format; both zeros share
one position. -/
def rank (x : Binary format) : Int :=
  if x.isNegative then -x.magnitude else x.magnitude

def compare? (left right : Binary format) : Option Ordering :=
  if left.isNaN || right.isNaN then none
  else some (compare left.rank right.rank)

end Binary

end Formula
