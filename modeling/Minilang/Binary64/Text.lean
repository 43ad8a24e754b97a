import Minilang.Binary64.Shortest

/-!
# Texts of floating-point numbers

A number is written with its shortest digits, either positionally or with a power of ten behind an
`e`. A style says which orders of magnitude are written positionally and whether a whole number gets
a fraction. Reading accepts an optional sign, digits with an optional point and exponent, and the
words for the infinite number and for no number.
-/

namespace Minilang.Binary64

/-- How finite numbers are laid out. -/
structure Style where
  /-- The orders of magnitude written positionally, both ends included; all of them if absent. -/
  positional : Option (Int × Int)
  /-- Whether a whole number written positionally ends in `.0`. -/
  wholeFraction : Bool
deriving DecidableEq, Repr

namespace Style

/-- The style of constants: positional from `0.0001` up to below `10 ^ 16`, always with a fraction. -/
def constant : Style := ⟨some (-4, 15), true⟩

/-- The style of messages: always positional, whole numbers without a fraction. -/
def plain : Style := ⟨none, false⟩

/-- Whether a number of the given order of magnitude is written positionally. -/
def isPositional (style : Style) (order : Int) : Bool :=
  match style.positional with
  | none => true
  | some (least, greatest) => decide (least ≤ order) && decide (order ≤ greatest)

end Style

/-- Zeros in a row. -/
def zeros (count : Nat) : List Char := List.replicate count '0'

/-- The digits `digits * 10 ^ exponent` with a point in its place. -/
def positionalText (style : Style) (digits : List Char) (exponent : Int) : List Char :=
  let point := digits.length + exponent
  if 0 ≤ exponent then
    digits ++ zeros exponent.toNat ++ (if style.wholeFraction then ['.', '0'] else [])
  else if 0 < point then
    digits.take point.toNat ++ ['.'] ++ digits.drop point.toNat
  else
    ['0', '.'] ++ zeros (-point).toNat ++ digits

/-- The digits with a point behind the first one and the power of ten behind an `e`. -/
def scientificText (digits : List Char) (order : Int) : List Char :=
  let fraction := digits.drop 1
  digits.take 1 ++ (if fraction.isEmpty then [] else '.' :: fraction) ++
    'e' :: (toString order).toList

/-- Text of a finite number without its sign. -/
def magnitudeText (style : Style) (significand : Nat) (exponent : Int) : List Char :=
  if significand = 0 then
    positionalText style ['0'] 0
  else
    let decimal := shortest significand exponent
    let digits := Nat.toDigits 10 decimal.digits
    let order := digits.length + decimal.exponent - 1
    if style.isPositional order then positionalText style digits decimal.exponent
    else scientificText digits order

/-- Text of a number in the given style. -/
def text (style : Style) (number : Binary64) : String :=
  match number.meaning with
  | .nan => "NaN"
  | .infinite negative => if negative then "-inf" else "inf"
  | .finite negative significand exponent =>
    let magnitude := magnitudeText style significand exponent
    String.ofList (if negative then '-' :: magnitude else magnitude)

/-- The whole number that a run of decimal digits spells. -/
def digitsValue (digits : List Char) : Nat :=
  digits.foldl (fun value digit => 10 * value + (digit.toNat - '0'.toNat)) 0

/-- The number nearest to the decimal with the given digits before and behind its point. -/
def ofDigits (negative : Bool) (whole fraction : List Char) : Binary64 :=
  ofDecimal negative (digitsValue (whole ++ fraction)) (-fraction.length)

/-- The exponent that follows the digits of a number: nothing, or an `e` with an optional sign and at
least one digit. -/
def exponent? : List Char → Option Int
  | [] => some 0
  | mark :: rest =>
    if mark = 'e' ∨ mark = 'E' then
      let (negative, digits) := match rest with
        | '-' :: digits => (true, digits)
        | '+' :: digits => (false, digits)
        | digits => (false, digits)
      if digits.isEmpty ∨ ¬ digits.all Char.isDigit then none
      else some (if negative then -(digitsValue digits : Int) else digitsValue digits)
    else
      none

/-- Read the text of a number without its sign. -/
def magnitude? (negative : Bool) (text : List Char) : Option Binary64 :=
  let word := String.ofList (text.map Char.toLower)
  if word = "inf" ∨ word = "infinity" then some (infinity negative)
  else if word = "nan" then some (if negative then ⟨nan.bits ||| 0x8000000000000000⟩ else nan)
  else
    let whole := text.takeWhile Char.isDigit
    let behindWhole := text.dropWhile Char.isDigit
    let (fraction, behind) := match behindWhole with
      | '.' :: rest => (rest.takeWhile Char.isDigit, rest.dropWhile Char.isDigit)
      | rest => ([], rest)
    if whole.isEmpty ∧ fraction.isEmpty then none
    else (exponent? behind).map fun exponent =>
      ofDecimal negative (digitsValue (whole ++ fraction)) (exponent - fraction.length)

/-- Read the text of a number. -/
def ofText? (text : String) : Option Binary64 :=
  match text.toList with
  | '-' :: rest => magnitude? true rest
  | '+' :: rest => magnitude? false rest
  | rest => magnitude? false rest

end Minilang.Binary64
