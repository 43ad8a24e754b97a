import Minilang.Binary64.Text
import Minilang.Proofs.Binary64.Intervals

/-!
# Texts of numbers

The text of a constant spells the shortest decimal of the number, wherever its point stands. Since the
shortest decimals of different numbers differ, so do their texts.
-/

namespace Minilang.Binary64

/-! ## Digits -/

theorem digitsValue_eq_ofDigitChars (digits : List Char) :
    digitsValue digits = Nat.ofDigitChars 10 digits 0 := rfl

theorem digitsValue_append (front back : List Char) :
    digitsValue (front ++ back) = digitsValue front * 10 ^ back.length + digitsValue back := by
  rw [digitsValue_eq_ofDigitChars, Nat.ofDigitChars_append, Nat.ofDigitChars_eq_ofDigitChars_zero, mul_comm]
  rfl

@[simp]
theorem digitsValue_zeros (count : ℕ) : digitsValue (zeros count) = 0 := by
  rw [zeros]
  induction count with
  | zero => rfl
  | succ count induction =>
      rw [List.replicate_succ', digitsValue_append, induction]
      rfl

@[simp]
theorem digitsValue_toDigits (number : ℕ) : digitsValue (Nat.toDigits 10 number) = number :=
  Nat.ofDigitChars_toDigits (by decide) (by decide)

theorem all_isDigit_zeros (count : ℕ) : (zeros count).all Char.isDigit = true :=
  List.all_eq_true.2 fun digit member => by rw [List.eq_of_mem_replicate member]; rfl

theorem all_isDigit_toDigits (number : ℕ) : (Nat.toDigits 10 number).all Char.isDigit = true :=
  List.all_eq_true.2 fun _ member => Nat.isDigit_of_mem_toDigits (by decide) (by decide) member

/-! ## Decimals spelled by texts -/

/-- The decimal that digits before a point, digits behind it and an exponent spell. -/
def spelled (text : List Char) : Decimal :=
  let whole := text.takeWhile Char.isDigit
  match text.dropWhile Char.isDigit with
  | '.' :: rest =>
    let fraction := rest.takeWhile Char.isDigit
    ⟨digitsValue (whole ++ fraction),
      (exponent? (rest.dropWhile Char.isDigit)).getD 0 - fraction.length⟩
  | behind => ⟨digitsValue whole, (exponent? behind).getD 0⟩

section Spelling

variable {digits whole fraction : List Char}

theorem span_digits (all : digits.all Char.isDigit = true) (behind : List Char)
    (ended : behind.head?.any Char.isDigit = false) :
    (digits ++ behind).takeWhile Char.isDigit = digits ∧
      (digits ++ behind).dropWhile Char.isDigit = behind := by
  have digit := List.all_eq_true.1 all
  rw [List.takeWhile_append_of_pos digit, List.dropWhile_append_of_pos digit]
  cases behind with
  | nil => simp
  | cons head behind =>
      have head_eq : head.isDigit = false := ended
      simp [head_eq]

theorem spelled_point (all : whole.all Char.isDigit = true)
    (fractional : fraction.all Char.isDigit = true) (behind : List Char)
    (ended : behind.head?.any Char.isDigit = false) :
    spelled (whole ++ '.' :: (fraction ++ behind)) =
      ⟨digitsValue (whole ++ fraction), (exponent? behind).getD 0 - fraction.length⟩ := by
  obtain ⟨whole_eq, rest_eq⟩ := span_digits all ('.' :: (fraction ++ behind)) rfl
  obtain ⟨fraction_eq, behind_eq⟩ := span_digits fractional behind ended
  simp only [spelled, whole_eq, rest_eq, fraction_eq, behind_eq]

/-- A point divides a number by a power of ten. -/
theorem value_point (all : whole.all Char.isDigit = true)
    (fractional : fraction.all Char.isDigit = true) :
    (spelled (whole ++ '.' :: fraction)).value =
      digitsValue (whole ++ fraction) * 10 ^ (-fraction.length : ℤ) := by
  have spelled_eq := spelled_point all fractional [] rfl
  rw [List.append_nil] at spelled_eq
  rw [spelled_eq, Decimal.value, exponent?, Option.getD_some, zero_sub]

/-- Digits with a point between them are read as the number that they spell. -/
theorem ofText?_point (nonempty : whole ≠ []) (all : whole.all Char.isDigit = true)
    (fractional : fraction.all Char.isDigit = true) :
    ofText? (String.ofList (whole ++ '.' :: fraction)) = some (ofDigits false whole fraction) := by
  obtain ⟨whole_eq, rest_eq⟩ := span_digits all ('.' :: fraction) rfl
  obtain ⟨fraction_eq, behind_eq⟩ := span_digits fractional [] rfl
  rw [List.append_nil] at fraction_eq behind_eq
  obtain ⟨first, others, rfl⟩ := List.exists_cons_of_ne_nil nonempty
  have first_digit := (Bool.and_eq_true_iff.1 all).1
  have unlike {mark : Char} (no_digit : mark.isDigit = false) : first ≠ mark := by
    rintro rfl
    rw [no_digit] at first_digit
    cases first_digit
  have no_word {word : String} (letter : word.toList.head?.all (fun mark => !mark.isDigit) = true) :
      String.ofList ((first :: others ++ '.' :: fraction).map Char.toLower) ≠ word := by
    rintro rfl
    have no_capital : ¬ (first.val ≥ 'A'.val ∧ first.val ≤ 'Z'.val) := fun capital =>
      absurd (UInt32.le_trans capital.1 (of_decide_eq_true (Bool.and_eq_true_iff.1 first_digit).2))
        (by decide)
    have lower_eq : first.toLower = first := dif_neg no_capital
    simp [lower_eq, first_digit] at letter
  have unsigned : ofText? (String.ofList (first :: others ++ '.' :: fraction)) =
      magnitude? false (first :: others ++ '.' :: fraction) := by
    rw [ofText?, String.toList_ofList]
    split
    · next negative => exact absurd (List.cons.inj negative).1 (unlike rfl)
    · next positive => exact absurd (List.cons.inj positive).1 (unlike rfl)
    · rfl
  rw [unsigned, magnitude?, if_neg (not_or.2 ⟨no_word rfl, no_word rfl⟩), if_neg (no_word rfl)]
  simp only [whole_eq, rest_eq, fraction_eq, behind_eq]
  rw [if_neg (by simp), exponent?, Option.map_some, ofDigits, zero_sub]

theorem spelled_mark (all : whole.all Char.isDigit = true) (behind : List Char) :
    spelled (whole ++ 'e' :: behind) = ⟨digitsValue whole, (exponent? ('e' :: behind)).getD 0⟩ := by
  obtain ⟨whole_eq, rest_eq⟩ := span_digits all ('e' :: behind) rfl
  rw [spelled, whole_eq, rest_eq]
  rfl

/-- A text with a point in the place that the exponent says spells the digits with that exponent. -/
theorem value_positionalText (all : digits.all Char.isDigit = true) (exponent : ℤ) :
    (spelled (positionalText .constant digits exponent)).value = digitsValue digits * 10 ^ exponent := by
  rw [positionalText]
  split
  · next nonneg =>
    obtain ⟨count, rfl⟩ := Int.eq_ofNat_of_zero_le nonneg
    have padded : (digits ++ zeros count).all Char.isDigit = true := by
      rw [List.all_append, all, all_isDigit_zeros]
      rfl
    change (spelled (digits ++ zeros count ++ '.' :: ['0'])).value = _
    rw [value_point padded (by rfl), digitsValue_append, digitsValue_append, digitsValue_zeros, zeros,
      List.length_replicate]
    simp [digitsValue]
  · split
    · next negative within =>
      obtain ⟨place, place_eq⟩ := Int.eq_ofNat_of_zero_le within.le
      have front : (digits.take place).all Char.isDigit = true :=
        List.all_eq_true.2 fun digit member =>
          List.all_eq_true.1 all digit (List.mem_of_mem_take member)
      have back : (digits.drop place).all Char.isDigit = true :=
        List.all_eq_true.2 fun digit member =>
          List.all_eq_true.1 all digit (List.mem_of_mem_drop member)
      have exponent_eq : -((digits.drop place).length : ℤ) = exponent := by
        rw [List.length_drop]
        omega
      rw [place_eq, Int.toNat_natCast, List.append_assoc, List.singleton_append, value_point front back,
        List.take_append_drop, exponent_eq]
    · next negative without =>
      obtain ⟨count, count_eq⟩ := Int.eq_ofNat_of_zero_le (Int.neg_nonneg_of_nonpos (not_lt.1 without))
      have padded : (zeros count ++ digits).all Char.isDigit = true := by
        rw [List.all_append, all, all_isDigit_zeros]
        rfl
      have exponent_eq : -((zeros count ++ digits).length : ℤ) = exponent := by
        rw [List.length_append, zeros, List.length_replicate]
        omega
      rw [count_eq, Int.toNat_natCast]
      change (spelled (['0'] ++ '.' :: (zeros count ++ digits))).value = _
      rw [value_point (by rfl) padded, exponent_eq, digitsValue_append, digitsValue_append,
        digitsValue_zeros, show digitsValue ['0'] = 0 from rfl, zero_mul, zero_mul, zero_add, zero_add]

theorem exponent_minus (all : digits.all Char.isDigit = true) (nonempty : digits ≠ []) :
    exponent? ('e' :: '-' :: digits) = some (-(digitsValue digits : ℤ)) := by
  simp [exponent?, all, nonempty]

theorem exponent_digits (all : digits.all Char.isDigit = true) (nonempty : digits ≠ []) :
    exponent? ('e' :: digits) = some (digitsValue digits : ℤ) := by
  obtain ⟨first, rest, rfl⟩ := List.exists_cons_of_ne_nil nonempty
  have first_digit := (Bool.and_eq_true_iff.1 all).1
  have first_ne {mark : Char} (unlike : mark.isDigit = false) : first ≠ mark := by
    rintro rfl
    rw [unlike] at first_digit
    cases first_digit
  simp [exponent?, all, first_ne]

/-- A power of ten behind an `e` reads back. -/
theorem exponent_toString (order : ℤ) : exponent? ('e' :: (toString order).toList) = some order := by
  cases order with
  | ofNat number =>
      change exponent? ('e' :: number.repr.toList) = some (number : ℤ)
      rw [Nat.toList_repr, exponent_digits (all_isDigit_toDigits number) Nat.toDigits_ne_nil,
        digitsValue_toDigits]
  | negSucc number =>
      change exponent? ('e' :: ("-" ++ (number + 1).repr).toList) = _
      rw [String.toList_append, Nat.toList_repr]
      change exponent? ('e' :: '-' :: Nat.toDigits 10 (number + 1)) = _
      rw [exponent_minus (all_isDigit_toDigits _) Nat.toDigits_ne_nil, digitsValue_toDigits]
      rfl

/-- A text with a power of ten spells the digits with that power of their first place. -/
theorem value_scientificText (all : digits.all Char.isDigit = true) (nonempty : digits ≠ [])
    (order : ℤ) : (spelled (scientificText digits order)).value =
      digitsValue digits * 10 ^ (order - (digits.length - 1)) := by
  obtain ⟨first, rest, rfl⟩ := List.exists_cons_of_ne_nil nonempty
  obtain ⟨first_digit, rest_digits⟩ := Bool.and_eq_true_iff.1 all
  have first_all : [first].all Char.isDigit = true := by rw [List.all_cons, first_digit]; rfl
  cases rest with
  | nil =>
      change (spelled ([first] ++ 'e' :: (toString order).toList)).value = _
      rw [spelled_mark first_all, exponent_toString, Decimal.value, Option.getD_some]
      simp
  | cons second rest =>
      have text_eq : scientificText (first :: second :: rest) order =
          [first] ++ '.' :: ((second :: rest) ++ 'e' :: (toString order).toList) := by
        simp [scientificText]
      rw [text_eq, spelled_point first_all rest_digits _ (by rfl), exponent_toString, Decimal.value,
        Option.getD_some]
      simp

end Spelling

/-! ## Magnitudes -/

section Magnitudes

variable {significand other : ℕ} {exponent power : ℤ}

/-- The text of a number spells its shortest decimal. -/
theorem value_magnitudeText (significand_ne : significand ≠ 0) (exponent : ℤ) :
    (spelled (magnitudeText .constant significand exponent)).value =
      (shortest significand exponent).value := by
  have all := all_isDigit_toDigits (shortest significand exponent).digits
  rw [magnitudeText, if_neg significand_ne]
  dsimp only
  split
  · rw [value_positionalText all, digitsValue_toDigits]
    rfl
  · rw [value_scientificText all Nat.toDigits_ne_nil, digitsValue_toDigits, Decimal.value]
    congr 2
    omega

theorem spelled_magnitudeText_zero (exponent : ℤ) :
    (spelled (magnitudeText .constant 0 exponent)).value = 0 := by
  rw [magnitudeText, if_pos rfl, value_positionalText (by rfl)]
  simp [digitsValue]

theorem IsNormal.value_shortest_pos (normal : IsNormal significand exponent) :
    0 < (shortest significand exponent).value := by
  have one_le : (1 : ℚ) ≤ significand := by exact_mod_cast normal.pos
  have unit_pos : (0 : ℚ) < 2 ^ (exponent - 2) := by positivity
  calc (0 : ℚ)
    _ < (4 * significand - 2) * 2 ^ (exponent - 2) := by
      apply mul_pos _ unit_pos
      linarith
    _ ≤ _ := le_lower_around normal.pos exponent
    _ ≤ _ := normal.contains_shortest.le.1

/-- Magnitudes are told by their texts. -/
theorem magnitudeText_inj (normal : significand = 0 ∧ exponent = minExponent ∨ IsNormal significand exponent)
    (otherNormal : other = 0 ∧ power = minExponent ∨ IsNormal other power)
    (same : magnitudeText .constant significand exponent = magnitudeText .constant other power) :
    significand = other ∧ exponent = power := by
  have value_eq := congrArg (fun text => (spelled text).value) same
  rcases normal with ⟨rfl, rfl⟩ | normal
  · rcases otherNormal with ⟨rfl, rfl⟩ | otherNormal
    · exact ⟨rfl, rfl⟩
    · rw [spelled_magnitudeText_zero, value_magnitudeText otherNormal.pos.ne'] at value_eq
      exact absurd value_eq otherNormal.value_shortest_pos.ne
  · rw [value_magnitudeText normal.pos.ne'] at value_eq
    rcases otherNormal with ⟨rfl, rfl⟩ | otherNormal
    · rw [spelled_magnitudeText_zero] at value_eq
      exact absurd value_eq normal.value_shortest_pos.ne'
    · rw [value_magnitudeText otherNormal.pos.ne'] at value_eq
      exact normal.shortest_inj otherNormal value_eq

/-- The text of a magnitude starts with a digit. -/
theorem head_magnitudeText (significand : ℕ) (exponent : ℤ) :
    (magnitudeText .constant significand exponent).head?.any Char.isDigit = true := by
  have head_append {front : List Char} (nonempty : front ≠ []) (all : front.all Char.isDigit = true)
      (back : List Char) : (front ++ back).head?.any Char.isDigit = true := by
    obtain ⟨first, rest, rfl⟩ := List.exists_cons_of_ne_nil nonempty
    exact (Bool.and_eq_true_iff.1 all).1
  have positional {digits : List Char} (nonempty : digits ≠ []) (all : digits.all Char.isDigit = true)
      (exponent : ℤ) : (positionalText .constant digits exponent).head?.any Char.isDigit = true := by
    rw [positionalText]
    split
    · rw [List.append_assoc]
      exact head_append nonempty all _
    · split
      · next within =>
        have front : (digits.take (digits.length + exponent).toNat).all Char.isDigit = true :=
          List.all_eq_true.2 fun digit member =>
            List.all_eq_true.1 all digit (List.mem_of_mem_take member)
        rw [List.append_assoc]
        refine head_append ?_ front _
        simp only [ne_eq, List.take_eq_nil_iff, nonempty, or_false]
        omega
      · rfl
  have digits_ne := @Nat.toDigits_ne_nil (shortest significand exponent).digits 10
  have all := all_isDigit_toDigits (shortest significand exponent).digits
  rw [magnitudeText]
  split
  · exact positional (by simp) rfl 0
  · dsimp only
    split
    · exact positional digits_ne all _
    · obtain ⟨first, rest, digits_eq⟩ := List.exists_cons_of_ne_nil digits_ne
      rw [digits_eq] at all ⊢
      exact (Bool.and_eq_true_iff.1 all).1

end Magnitudes

/-! ## Numbers -/

/-- Whether a bit pattern stands for a number. -/
def IsNumber (number : Binary64) : Prop := number.meaning ≠ .nan

instance (number : Binary64) : Decidable number.IsNumber := inferInstanceAs (Decidable (_ ≠ _))

section Numbers

variable {number other : Binary64} {negative : Bool} {significand : ℕ} {exponent : ℤ}

/-- A finite number is zero or has the form of a normal number. -/
theorem isNormal_of_meaning (meaning_eq : number.meaning = .finite negative significand exponent) :
    significand = 0 ∧ exponent = minExponent ∨ IsNormal significand exponent := by
  have fraction_lt : number.bits.toNat % hiddenBit < hiddenBit := Nat.mod_lt _ (by decide)
  have exponent_lt : number.bits.toNat / hiddenBit % 2048 < 2048 := Nat.mod_lt _ (by decide)
  have hidden_pos : 0 < hiddenBit := by decide
  rw [meaning] at meaning_eq
  split at meaning_eq
  · split at meaning_eq <;> cases meaning_eq
  · split at meaning_eq
    · obtain ⟨-, rfl, rfl⟩ := Meaning.finite.inj meaning_eq
      rcases Nat.eq_zero_or_pos (number.bits.toNat % hiddenBit) with zero | pos
      · exact Or.inl ⟨zero, rfl⟩
      · exact Or.inr ⟨pos, by omega, Or.inr rfl, le_rfl, by decide⟩
    · obtain ⟨-, rfl, rfl⟩ := Meaning.finite.inj meaning_eq
      rw [minExponent]
      exact Or.inr ⟨by omega, by omega, Or.inl (Nat.le_add_right _ _), by rw [minExponent]; omega,
        by omega⟩

/-- The parts of a bit pattern tell it. -/
theorem bits_inj
    (sign_eq : decide (signBit ≤ number.bits.toNat) = decide (signBit ≤ other.bits.toNat))
    (exponent_eq : number.bits.toNat / hiddenBit % 2048 = other.bits.toNat / hiddenBit % 2048)
    (fraction_eq : number.bits.toNat % hiddenBit = other.bits.toNat % hiddenBit) :
    number = other := by
  have lt := number.bits.toNat_lt
  have other_lt := other.bits.toNat_lt
  rw [decide_eq_decide, show signBit = 9223372036854775808 from rfl] at sign_eq
  rw [hiddenBit_eq] at exponent_eq fraction_eq
  have bits_eq : number.bits = other.bits := by
    apply UInt64.toNat_inj.1
    omega
  cases number
  cases other
  exact congrArg mk bits_eq

/-- Patterns that stand for one number are equal. -/
theorem meaning_inj (isNumber : number.IsNumber) (same : number.meaning = other.meaning) :
    number = other := by
  have fraction_lt : number.bits.toNat % hiddenBit < hiddenBit := Nat.mod_lt _ (by decide)
  have other_lt : other.bits.toNat % hiddenBit < hiddenBit := Nat.mod_lt _ (by decide)
  rw [IsNumber, meaning] at isNumber
  rw [meaning, meaning] at same
  by_cases special : number.bits.toNat / hiddenBit % 2048 = 2047
  · rw [if_pos special] at isNumber same
    have whole : number.bits.toNat % hiddenBit = 0 := by
      by_contra fraction
      exact isNumber (if_neg fraction)
    rw [if_pos whole] at same
    split at same
    · next otherSpecial =>
      split at same
      · next otherWhole =>
        exact bits_inj (Meaning.infinite.inj same) (special.trans otherSpecial.symm)
          (whole.trans otherWhole.symm)
      · cases same
    · split at same <;> cases same
  · rw [if_neg special] at same
    split at same
    · next subnormal =>
      split at same
      · split at same <;> cases same
      · split at same
        · next otherSubnormal =>
          obtain ⟨sign_eq, fraction_eq, -⟩ := Meaning.finite.inj same
          exact bits_inj sign_eq (subnormal.trans otherSubnormal.symm) fraction_eq
        · have fraction_eq := (Meaning.finite.inj same).2.1
          omega
    · split at same
      · split at same <;> cases same
      · split at same
        · have fraction_eq := (Meaning.finite.inj same).2.1
          omega
        · obtain ⟨sign_eq, fraction_eq, exponent_eq⟩ := Meaning.finite.inj same
          exact bits_inj sign_eq (by omega) (by omega)

/-- A minus sign in front of negative numbers. -/
def signText (negative : Bool) : List Char := if negative then ['-'] else []

theorem signText_append_inj {more : Bool} {body rest : List Char} (unsigned : body.head? ≠ some '-')
    (otherUnsigned : rest.head? ≠ some '-') (same : signText negative ++ body = signText more ++ rest) :
    negative = more ∧ body = rest := by
  cases negative with
  | false =>
      cases more with
      | false => exact ⟨rfl, same⟩
      | true => exact absurd (congrArg List.head? same) unsigned
  | true =>
      cases more with
      | false => exact absurd (congrArg List.head? same).symm otherUnsigned
      | true => exact ⟨rfl, (List.cons.inj same).2⟩

/-- The text of a number without its sign. -/
inductive Unsigned : Meaning → Bool → List Char → Prop
  | infinite (negative : Bool) : Unsigned (.infinite negative) negative ['i', 'n', 'f']
  | finite (negative : Bool) (significand : ℕ) (exponent : ℤ) :
      Unsigned (.finite negative significand exponent) negative
        (magnitudeText .constant significand exponent)

theorem exists_unsigned (isNumber : number.IsNumber) : ∃ negative body,
    Unsigned number.meaning negative body ∧
      (number.text .constant).toList = signText negative ++ body ∧ body.head? ≠ some '-' := by
  rw [IsNumber] at isNumber
  rw [text]
  cases meaning_eq : number.meaning with
  | nan => exact absurd meaning_eq isNumber
  | infinite negative => cases negative <;> exact ⟨_, _, .infinite _, rfl, by decide⟩
  | finite negative significand exponent =>
      refine ⟨negative, _, .finite _ _ _, ?_, fun head_eq => ?_⟩
      · cases negative <;> exact String.toList_ofList
      · have digit := head_magnitudeText significand exponent
        rw [head_eq] at digit
        cases digit

theorem Unsigned.meaning_eq {value more : Meaning} {body : List Char}
    (unsigned : Unsigned value negative body) (otherUnsigned : Unsigned more negative body)
    (normal : ∀ significand exponent, value = .finite negative significand exponent →
      significand = 0 ∧ exponent = minExponent ∨ IsNormal significand exponent)
    (otherNormal : ∀ significand exponent, more = .finite negative significand exponent →
      significand = 0 ∧ exponent = minExponent ∨ IsNormal significand exponent) : value = more := by
  have special_ne (significand : ℕ) (exponent : ℤ) :
      ['i', 'n', 'f'] ≠ magnitudeText .constant significand exponent := by
    intro body_eq
    have digit := head_magnitudeText significand exponent
    rw [← body_eq] at digit
    cases digit
  generalize body_eq : body = other at otherUnsigned
  cases unsigned with
  | infinite =>
      cases otherUnsigned with
      | infinite => rfl
      | finite => exact absurd body_eq (special_ne _ _)
  | finite =>
      cases otherUnsigned with
      | infinite => exact absurd body_eq.symm (special_ne _ _)
      | finite =>
          obtain ⟨rfl, rfl⟩ := magnitudeText_inj (normal _ _ rfl) (otherNormal _ _ rfl) body_eq
          rfl

/-- Numbers are told by their texts. -/
theorem text_inj (isNumber : number.IsNumber) (otherIsNumber : other.IsNumber)
    (same : number.text .constant = other.text .constant) : number = other := by
  obtain ⟨negative, body, unsigned, text_eq, plain⟩ := exists_unsigned isNumber
  obtain ⟨more, rest, otherUnsigned, other_eq, otherPlain⟩ := exists_unsigned otherIsNumber
  rw [same, other_eq] at text_eq
  obtain ⟨rfl, rfl⟩ := signText_append_inj otherPlain plain text_eq
  exact meaning_inj isNumber (unsigned.meaning_eq otherUnsigned
    (fun _ _ => isNormal_of_meaning) fun _ _ => isNormal_of_meaning)

end Numbers

end Minilang.Binary64
