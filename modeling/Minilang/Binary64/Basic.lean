/-!
# Floating-point numbers

A floating-point number of the language is the bit pattern of a 64-bit binary number: one sign bit,
eleven exponent bits and 52 fraction bits. Numbers are compared by their bits, so the two zeros differ
and a number that is none equals itself.
-/

namespace Minilang

/-- A 64-bit binary floating-point number, given by its bit pattern. -/
structure Binary64 where
  /-- Sign bit, eleven exponent bits and 52 fraction bits. -/
  bits : UInt64
deriving DecidableEq, Repr

namespace Binary64

/-- What a bit pattern stands for. -/
inductive Meaning where
  /-- No number at all. -/
  | nan
  /-- A number beyond every finite one. -/
  | infinite (negative : Bool)
  /-- The number `± significand * 2 ^ exponent`. -/
  | finite (negative : Bool) (significand : Nat) (exponent : Int)
deriving DecidableEq, Repr

/-- The least exponent of a finite number. -/
def minExponent : Int := -1074

/-- The place of the sign bit, above the exponent and fraction bits. -/
def signBit : Nat := 1 <<< 63

/-- The place of the lowest exponent bit, which is that of the hidden leading one of a significand. -/
def hiddenBit : Nat := 1 <<< 52

/-- Bit pattern of the positive infinite number: all exponent bits are one. -/
def infinityBits : Nat := 2047 * hiddenBit

/-- Bit pattern of the number with the given sign and unsigned pattern. -/
def ofMagnitude (negative : Bool) (magnitude : Nat) : Binary64 :=
  ⟨UInt64.ofNat (if negative then signBit + magnitude else magnitude)⟩

/-- The infinite number of the given sign. -/
def infinity (negative : Bool) : Binary64 := ofMagnitude negative infinityBits

/-- The pattern that stands for no number. -/
def nan : Binary64 := ofMagnitude false (infinityBits + hiddenBit / 2)

/-- Positive zero. -/
def zero : Binary64 := ⟨0⟩

/-- Decode a bit pattern. Normal numbers carry a hidden leading one in front of their fraction bits. -/
def meaning (number : Binary64) : Meaning :=
  let pattern := number.bits.toNat
  let negative := decide (signBit ≤ pattern)
  let exponentBits : Nat := pattern / hiddenBit % 2048
  let fraction : Nat := pattern % hiddenBit
  if exponentBits = 2047 then
    if fraction = 0 then .infinite negative else .nan
  else if exponentBits = 0 then
    .finite negative fraction minExponent
  else
    .finite negative (hiddenBit + fraction) (minExponent + (exponentBits : Int) - 1)

end Binary64

end Minilang
