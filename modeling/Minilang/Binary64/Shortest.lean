import Minilang.Binary64.Rounding

/-!
# Shortest decimals

A positive floating-point number is written with the fewest decimal digits that read back to it. The
decimals that read back form an interval around the number; its ends belong to it exactly when the
significand is even. For one, two, three … digits the two neighbours of the number on that decimal
grid are tried, and the first grid with a hit wins; of two hits the nearer one is taken, and the
greater one when both are equally near.
-/

namespace Minilang.Binary64

/-- The number `digits * 10 ^ exponent`. -/
structure Decimal where
  /-- The digits, read as one whole number. -/
  digits : Nat
  /-- The power of ten that the last digit counts. -/
  exponent : Int
deriving DecidableEq, Repr

namespace Decimal

/-- Drop trailing zeros, at most as many as the fuel allows. -/
def trimmed : Nat → Decimal → Decimal
  | 0, decimal => decimal
  | fuel + 1, decimal =>
    if decimal.digits % 10 = 0 then trimmed fuel ⟨decimal.digits / 10, decimal.exponent + 1⟩
    else decimal

end Decimal

/-- The fractions that round to one number: the number itself and how far the interval reaches below
and above it, all counted in the same unit `numerator / denominator`. -/
structure RoundingInterval where
  /-- The number, in units. -/
  center : Nat
  /-- Distance of the lower end, in units. -/
  below : Nat
  /-- Distance of the upper end, in units. -/
  above : Nat
  /-- Numerator of the unit. -/
  numerator : Nat
  /-- Denominator of the unit. -/
  denominator : Nat
  /-- Whether the ends round to the number too. -/
  closed : Bool
deriving DecidableEq, Repr

namespace RoundingInterval

/-- The interval around `significand * 2 ^ exponent`. Below a power of two the numbers lie twice as
dense, so there the interval reaches only half as far down. -/
def around (significand : Nat) (exponent : Int) : RoundingInterval where
  center := 4 * significand
  below := if significand = hiddenBit then 1 else 2
  above := 2
  numerator := 1 <<< (exponent - 2).toNat
  denominator := 1 <<< (2 - exponent).toNat
  closed := significand % 2 = 0

/-- Whether `index * 10 ^ exponent` reads back to the number. -/
def containsPoint (interval : RoundingInterval) (index : Nat) (exponent : Int) : Bool :=
  let point := index * powerOfTen exponent.toNat * interval.denominator
  let unit := interval.numerator * powerOfTen (-exponent).toNat
  let lower := (interval.center - interval.below) * unit
  let upper := (interval.center + interval.above) * unit
  if interval.closed then lower ≤ point && point ≤ upper else lower < point && point < upper

/-- The greatest point of the grid of multiples of `10 ^ exponent` that is not above the number. -/
def floorIndex (interval : RoundingInterval) (exponent : Int) : Nat :=
  interval.center * interval.numerator * powerOfTen (-exponent).toNat /
    (interval.denominator * powerOfTen exponent.toNat)

/-- Whether the number lies nearer to the grid point below it than to the one above it. -/
def nearerBelow (interval : RoundingInterval) (index : Nat) (exponent : Int) : Bool :=
  2 * (interval.center * interval.numerator * powerOfTen (-exponent).toNat) <
    (2 * index + 1) * (interval.denominator * powerOfTen exponent.toNat)

/-- The better of the number's two neighbours on the grid of multiples of `10 ^ exponent`, if one of
them reads back. -/
def gridPoint? (interval : RoundingInterval) (exponent : Int) : Option Decimal :=
  let index := interval.floorIndex exponent
  match interval.containsPoint index exponent, interval.containsPoint (index + 1) exponent with
  | true, true =>
    some ⟨if interval.nearerBelow index exponent then index else index + 1, exponent⟩
  | true, false => some ⟨index, exponent⟩
  | false, true => some ⟨index + 1, exponent⟩
  | false, false => none

/-- The first grid with a hit, from the given exponent downwards. -/
def search (interval : RoundingInterval) : Nat → Int → Option Decimal
  | 0, _ => none
  | fuel + 1, exponent =>
    match interval.gridPoint? exponent with
    | some decimal => some decimal
    | none => search interval fuel (exponent - 1)

/-- Whether the number is at least `10 ^ exponent`. -/
def reaches (interval : RoundingInterval) (exponent : Int) : Bool :=
  powerOfTen exponent.toNat * interval.denominator ≤
    interval.center * interval.numerator * powerOfTen (-exponent).toNat

end RoundingInterval

/-- The greatest exponent with `10 ^ exponent` not above `significand * 2 ^ exponent`, found from the
binary order of magnitude: the estimate is exact or one too small. -/
def decimalOrder (interval : RoundingInterval) (significand : Nat) (exponent : Int) : Int :=
  let estimate := (significand.log2 + exponent) * 30103 / 100000
  if interval.reaches (estimate + 1) then estimate + 1 else estimate

/-- The shortest decimal that reads back to `significand * 2 ^ exponent`. Seventeen digits always
read back, so the search never fails. -/
def shortest (significand : Nat) (exponent : Int) : Decimal :=
  let interval := RoundingInterval.around significand exponent
  match interval.search 17 (decimalOrder interval significand exponent) with
  | some decimal => decimal.trimmed 17
  | none => ⟨0, 0⟩

end Minilang.Binary64
