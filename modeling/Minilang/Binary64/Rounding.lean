import Minilang.Binary64.Basic

/-!
# Rounding to the nearest floating-point number

A positive fraction is rounded to the nearest number whose significand has at most 53 bits and whose
exponent is at least the least one; of two nearest numbers the one with the even significand is taken.
Too large fractions become infinite, too small ones zero.
-/

namespace Minilang.Binary64

/-- The quotient rounded to the nearest whole number, a half going to the even neighbour. -/
def divNearestEven (numerator denominator : Nat) : Nat :=
  let quotient := numerator / denominator
  let remainder := numerator % denominator
  if 2 * remainder < denominator then quotient
  else if denominator < 2 * remainder then quotient + 1
  else if quotient % 2 = 0 then quotient else quotient + 1

/-- A fraction divided by a power of two, as a numerator and a denominator. -/
def scaleDown (numerator denominator : Nat) (exponent : Int) : Nat × Nat :=
  (numerator <<< (-exponent).toNat, denominator <<< exponent.toNat)

/-- The exponent at which a positive fraction has a 53-bit significand, or the least exponent. -/
def exponentOf (numerator denominator : Nat) : Int :=
  let guess : Int := max minExponent (numerator.log2 - denominator.log2 - 52)
  let scaled := scaleDown numerator denominator guess
  if scaled.1 / scaled.2 < hiddenBit then max minExponent (guess - 1) else guess

/-- The number nearest to a fraction. A carry out of the significand moves into the exponent bits by
itself, because the patterns of neighbouring numbers are neighbours. -/
def ofRatio (negative : Bool) (numerator denominator : Nat) : Binary64 :=
  if numerator = 0 then
    ofMagnitude negative 0
  else
    let exponent := exponentOf numerator denominator
    let scaled := scaleDown numerator denominator exponent
    let significand := divNearestEven scaled.1 scaled.2
    let pattern := (exponent - minExponent).toNat * hiddenBit + significand
    ofMagnitude negative (min pattern infinityBits)

/-- A power of ten. -/
def powerOfTen (exponent : Nat) : Nat := Nat.pow 10 exponent

@[simp] theorem powerOfTen_zero : powerOfTen 0 = 1 := rfl

theorem powerOfTen_succ (exponent : Nat) :
    powerOfTen (exponent + 1) = powerOfTen exponent * 10 := rfl

/-- The number of decimal digits of a natural number, at least one. -/
def decimalLength (value : Nat) : Nat := (Nat.toDigits 10 value).length

/-- The number nearest to `± digits * 10 ^ exponent`. Exponents far outside the range of the format
are decided by the order of magnitude alone. -/
def ofDecimal (negative : Bool) (digits : Nat) (exponent : Int) : Binary64 :=
  if digits = 0 then
    ofMagnitude negative 0
  else
    let magnitude := exponent + decimalLength digits
    if 400 < magnitude then infinity negative
    else if magnitude < -400 then ofMagnitude negative 0
    else ofRatio negative (digits * powerOfTen exponent.toNat) (powerOfTen (-exponent).toNat)

end Minilang.Binary64
