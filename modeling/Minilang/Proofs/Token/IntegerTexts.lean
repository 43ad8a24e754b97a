import Minilang.Proofs.Parsing.ReadingAhead
import Minilang.Proofs.Token.Writing

/-!
# Integer literals in texts

A run of digits, behind the marker of its base, is read as its number, and as no token from 2^63 on. In front
of it there may be a minus sign, which is a token of its own.
-/

namespace Minilang

namespace Lexeme

/-- The number that digits of a base denote. -/
def numberOf (radix : Radix) (digits : List Char) : Nat :=
  Nat.ofDigits radix.base (digits.reverse.map digitValue)

/-- Whether a text is an integer literal in front of another text: a run of digits, behind the marker of their
base unless that is ten. What follows is no further digit and makes no other number of the run. -/
inductive IntegerText : Radix → List Char → List Char → List Char → Prop
  | decimal {digits rest : List Char} (solid : digits ≠ [])
      (all_digits : ∀ digit ∈ digits, digit.isDigit = true)
      (stopped : rest.takeWhile Char.isDigit = []) (whole : fractionOf rest = [])
      (unmarked : ∀ radix letter tail, (radix, letter) ∈ markers →
        digits ++ rest ≠ '0' :: letter :: tail) : IntegerText .decimal digits digits rest
  | marked {radix : Radix} {letter : Char} {digits rest : List Char}
      (marker : (radix, letter) ∈ markers) (solid : digits ≠ [])
      (all_digits : ∀ digit ∈ digits, isDigitOf radix digit = true)
      (stopped : rest.takeWhile (isDigitOf radix) = []) :
      IntegerText radix ('0' :: letter :: digits) digits rest

/-- What stands in front of an expression that is an integer literal: a gap, and behind it a minus sign with
another gap where the literal is negated. -/
inductive Front (literal : List Char) : (negative : Bool) → (gap front : List Char) → Prop
  | plain {gap : List Char} (is_gap : IsGap gap literal) : Front literal false gap gap
  | minus {gap inner : List Char} (is_gap : IsGap gap ('-' :: (inner ++ literal)))
      (inner_gap : IsGap inner literal) : Front literal true gap (gap ++ '-' :: inner)

variable {radix : Radix} {text digits rest : List Char}

theorem integerOf_of_lt (small : numberOf radix digits < 2 ^ 63) :
    integerOf radix digits = .ok (.integer (Int64.ofNat (numberOf radix digits)) radix) := by
  rw [integerOf_eq_ite, digitsValue_eq]
  exact if_pos small

theorem integerOf_of_le (large : 2 ^ 63 ≤ numberOf radix digits) :
    integerOf radix digits = .error (.integerOverflow (radix.marker ++ String.ofList digits)) := by
  rw [integerOf_eq_ite, digitsValue_eq]
  exact if_neg (Nat.not_lt.2 large)

namespace IntegerText

theorem denotes (written : IntegerText radix text digits rest) : Denotes text (integer? radix digits) := by
  cases written with
  | decimal solid all_digits => exact .decimal solid all_digits
  | marked marker solid all_digits => exact .marked marker solid all_digits

theorem read_eq (written : IntegerText radix text digits rest) :
    read (text ++ rest) = ⟨integerOf radix digits, text.length⟩ := by
  cases written with
  | decimal solid all_digits stopped whole unmarked =>
      rw [read_of_digits solid all_digits unmarked, decimal_eq all_digits stopped, if_pos whole]
  | marked marker solid all_digits stopped =>
      rw [List.cons_append, List.cons_append, read_marked marker solid all_digits, stopped,
        List.append_nil, List.length_cons, List.length_cons, Nat.add_comm]

theorem isDigit_head (written : IntegerText radix text digits rest) :
    (text ++ rest).head?.all Char.isDigit = true := by
  cases written with
  | decimal solid all_digits =>
      cases text with
      | nil => exact absurd rfl solid
      | cons first others => exact all_digits first List.mem_cons_self
  | marked => rfl

end IntegerText

/-- A minus sign that is no part of an arrow is read as such. -/
theorem read_minus {rest : List Char} (apart : rest.head? ≠ some '>') :
    read ('-' :: rest) = ⟨.ok (.arithmetic .sub), 1⟩ := by
  refine read_short_of_alone (by decide) rfl fun other long spelled => ?_
  have only_arrow : ∀ other ∈ TokenKind.longOperators, other.spelling?.all fun spelling =>
      spelling.toList.head? = some '-' → spelling.toList = ['-', '>'] := by decide
  have arrow := only_arrow other long
  rw [spelled, Option.all_some, String.toList_ofList] at arrow
  cases rest with
  | nil => cases of_decide_eq_true arrow rfl
  | cons next others =>
      cases of_decide_eq_true arrow rfl
      exact apart rfl

end Lexeme

open Lexeme

namespace Scanner

variable {scanner : Scanner} {radix : Radix} {text digits rest : List Char}

theorem scan_integer (written : IntegerText radix text digits rest) {gap : List Char}
    (is_gap : IsGap gap (text ++ rest)) (text_eq : scanner.rest = gap ++ (text ++ rest)) :
    scanner.scan.1 =
      located (.inFile scanner.file (scanner.position.afterText gap)) (integerOf radix digits) := by
  rw [scan_eq_of_gap text_eq is_gap (written.denotes.solid rest), written.read_eq]

/-- A minus sign in front of an integer literal is read as such. -/
theorem scan_minus (written : IntegerText radix text digits rest) {gap inner : List Char}
    (is_gap : IsGap gap ('-' :: (inner ++ (text ++ rest)))) (inner_gap : IsGap inner (text ++ rest))
    (text_eq : scanner.rest = gap ++ '-' :: (inner ++ (text ++ rest))) :
    scanner.scan = (.ok ⟨.arithmetic .sub, .inFile scanner.file (scanner.position.afterText gap)⟩,
      ⟨scanner.file, inner ++ (text ++ rest), scanner.position.afterText (gap ++ ['-'])⟩) := by
  -- Only an arrow would take the sign away, and neither a gap nor a number goes on with its second character.
  have apart : (inner ++ (text ++ rest)).head? ≠ some '>' := by
    intro arrow
    cases inner_gap with
    | nil =>
        have digit := written.isDigit_head
        rw [List.nil_append] at arrow
        rw [arrow] at digit
        cases digit
    | blank is_blank =>
        cases arrow
        cases is_blank
    | comment => cases arrow
  have solid : Solid ('-' :: (inner ++ (text ++ rest))) := by
    rintro character ⟨⟩
    exact ⟨rfl, by decide⟩
  rw [scan_eq_of_gap text_eq is_gap solid, read_minus apart]
  rfl

end Scanner

namespace TokenStream

variable {scanner : Scanner} {stream : TokenStream} {radix : Radix} {text digits rest gap front : List Char}
  {negative : Bool}

/-- The next token is the one that is scanned. -/
theorem ReadBy.lookahead_eq (readBy : ReadBy scanner stream) : stream.lookahead 0 = scanner.scan.1 := by
  cases readBy with
  | token scanned | finished scanned | failed scanned =>
      rw [scanned]
      rfl

/-- An integer literal is found behind the minus sign, if there is one. -/
theorem ReadBy.lookahead_integer (written : IntegerText radix text digits rest)
    (fronted : Front (text ++ rest) negative gap front) (text_eq : scanner.rest = front ++ (text ++ rest))
    (readBy : ReadBy scanner stream) :
    (negative = true → stream.lookahead 0 =
      .ok ⟨.arithmetic .sub, .inFile scanner.file (scanner.position.afterText gap)⟩) ∧
    stream.lookahead negative.toNat =
      located (.inFile scanner.file (scanner.position.afterText front)) (integerOf radix digits) := by
  cases fronted with
  | plain is_gap => exact ⟨nofun, readBy.lookahead_eq.trans (Scanner.scan_integer written is_gap text_eq)⟩
  | @minus _ inner is_gap inner_gap =>
      rw [List.append_assoc, List.cons_append] at text_eq
      obtain ⟨sign_found, behind⟩ :=
        readBy.scan_ok (Scanner.scan_minus written is_gap inner_gap text_eq)
      have literal_found := behind.lookahead_eq.trans (Scanner.scan_integer written inner_gap rfl)
      rw [lookahead_rest, ← Position.afterText_append, List.append_assoc] at literal_found
      exact ⟨fun _ => sign_found, literal_found⟩

end TokenStream

end Minilang
