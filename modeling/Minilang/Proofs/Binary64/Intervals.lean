import Mathlib
import Minilang.Binary64.Shortest

/-!
# Intervals of rounding

The fractions that round to one number form an interval, and the intervals of different numbers have no
point in common. With seventeen digits a decimal lies in the interval of every number, so the shortest
digits of a number exist and belong to no other number.
-/

namespace Minilang.Binary64

/-! ## Decimals -/

/-- The number that a decimal stands for. -/
def Decimal.value (decimal : Decimal) : ℚ := decimal.digits * 10 ^ decimal.exponent

/-- Zeros at the end do not count. -/
@[simp]
theorem Decimal.value_trimmed (fuel : Nat) (decimal : Decimal) :
    (decimal.trimmed fuel).value = decimal.value := by
  induction fuel generalizing decimal with
  | zero => rfl
  | succ fuel induction =>
      rw [trimmed]
      split
      · next round =>
        have digits_eq : (decimal.digits : ℚ) = (decimal.digits / 10 : ℕ) * 10 := by
          exact_mod_cast (Nat.div_mul_cancel (Nat.dvd_of_mod_eq_zero round)).symm
        rw [induction, value, value, zpow_add_one₀ (by norm_num), digits_eq]
        ring
      · rfl

/-- A power is one with a natural exponent, divided by another one. -/
theorem pow_toNat {base : ℚ} (base_ne : base ≠ 0) (exponent : ℤ) :
    base ^ exponent.toNat = base ^ exponent * base ^ (-exponent).toNat := by
  rw [← zpow_natCast, ← zpow_natCast, ← zpow_add₀ base_ne]
  congr 1
  omega

theorem cast_powerOfTen (exponent : Nat) : (powerOfTen exponent : ℚ) = 10 ^ exponent := by
  exact_mod_cast rfl

/-! ## Points of intervals -/

namespace RoundingInterval

variable (interval : RoundingInterval)

/-- The unit in which an interval is measured. -/
def unit : ℚ := interval.numerator / interval.denominator

/-- The lower end of an interval. -/
def lower : ℚ := (interval.center - interval.below : ℕ) * interval.unit

/-- The upper end of an interval. -/
def upper : ℚ := (interval.center + interval.above : ℕ) * interval.unit

/-- Whether a fraction belongs to an interval. -/
def Contains (value : ℚ) : Prop :=
  if interval.closed then interval.lower ≤ value ∧ value ≤ interval.upper
  else interval.lower < value ∧ value < interval.upper

variable {interval : RoundingInterval} {value : ℚ}

theorem Contains.le (contains : interval.Contains value) :
    interval.lower ≤ value ∧ value ≤ interval.upper := by
  rw [Contains] at contains
  split at contains
  · exact contains
  · exact ⟨contains.1.le, contains.2.le⟩

theorem Contains.lt (contains : interval.Contains value) (opened : interval.closed = false) :
    interval.lower < value ∧ value < interval.upper := by
  rwa [Contains, opened, if_neg Bool.false_ne_true] at contains

section Points

variable (positive : 0 < interval.denominator)
include positive

/-- Multiples of the unit and of a power of ten are whole numbers on a common scale. -/
theorem exists_scale (exponent : ℤ) : ∃ scale : ℚ, 0 < scale ∧
    (∀ count : ℕ, ((count * (interval.numerator * powerOfTen (-exponent).toNat) : ℕ) : ℚ) =
      count * interval.unit * scale) ∧
    ∀ index : ℕ, ((index * powerOfTen exponent.toNat * interval.denominator : ℕ) : ℚ) =
      index * 10 ^ exponent * scale := by
  have denominator_pos : (0 : ℚ) < interval.denominator := by exact_mod_cast positive
  refine ⟨interval.denominator * 10 ^ (-exponent).toNat, by positivity, fun count => ?_,
    fun index => ?_⟩
  · rw [unit]
    push_cast [cast_powerOfTen]
    field_simp
  · push_cast [cast_powerOfTen]
    rw [pow_toNat (by norm_num) exponent]
    ring

theorem containsPoint_iff {index : ℕ} {exponent : ℤ} :
    interval.containsPoint index exponent = true ↔ interval.Contains (index * 10 ^ exponent) := by
  obtain ⟨scale, scale_pos, count_eq, index_eq⟩ := exists_scale positive exponent
  have le_index (count : ℕ) : count * (interval.numerator * powerOfTen (-exponent).toNat) ≤
      index * powerOfTen exponent.toNat * interval.denominator ↔
        count * interval.unit ≤ index * 10 ^ exponent := by
    rw [← @Nat.cast_le ℚ, count_eq, index_eq, mul_le_mul_iff_left₀ scale_pos]
  have index_le (count : ℕ) : index * powerOfTen exponent.toNat * interval.denominator ≤
      count * (interval.numerator * powerOfTen (-exponent).toNat) ↔
        index * 10 ^ exponent ≤ count * interval.unit := by
    rw [← @Nat.cast_le ℚ, count_eq, index_eq, mul_le_mul_iff_left₀ scale_pos]
  rw [containsPoint, Contains, lower, upper]
  split
  · rw [Bool.and_eq_true, decide_eq_true_eq, decide_eq_true_eq, le_index, index_le]
  · rw [Bool.and_eq_true, decide_eq_true_eq, decide_eq_true_eq, ← not_le, ← not_le, index_le, le_index,
      not_le, not_le]

/-- The greatest point of a grid below a number and the next one enclose the number. -/
theorem floorIndex_le (exponent : ℤ) :
    interval.floorIndex exponent * 10 ^ exponent ≤ interval.center * interval.unit ∧
      interval.center * interval.unit < (interval.floorIndex exponent + 1) * 10 ^ exponent := by
  obtain ⟨scale, scale_pos, count_eq, index_eq⟩ := exists_scale positive exponent
  have grid_pos : 0 < interval.denominator * powerOfTen exponent.toNat :=
    Nat.mul_pos positive (Nat.pow_pos (by decide))
  have reordered (index : ℕ) : index * powerOfTen exponent.toNat * interval.denominator =
      index * (interval.denominator * powerOfTen exponent.toNat) := by ring
  rw [← mul_le_mul_iff_left₀ scale_pos, ← mul_lt_mul_iff_left₀ scale_pos, ← Nat.cast_add_one,
    ← index_eq, ← index_eq, ← count_eq, Nat.cast_le, Nat.cast_lt, reordered, reordered, floorIndex,
    mul_assoc interval.center]
  exact ⟨Nat.div_mul_le_self _ _, (Nat.div_lt_iff_lt_mul grid_pos).1 (Nat.lt_succ_self _)⟩

theorem reaches_iff {exponent : ℤ} :
    interval.reaches exponent = true ↔ 10 ^ exponent ≤ interval.center * interval.unit := by
  obtain ⟨scale, scale_pos, count_eq, index_eq⟩ := exists_scale positive exponent
  rw [reaches, decide_eq_true_eq, mul_assoc, ← one_mul (powerOfTen exponent.toNat), ← @Nat.cast_le ℚ,
    count_eq, index_eq, mul_le_mul_iff_left₀ scale_pos, Nat.cast_one, one_mul]

/-! ## Decimals in intervals -/

theorem contains_of_gridPoint {exponent : ℤ} {decimal : Decimal}
    (found : interval.gridPoint? exponent = some decimal) : interval.Contains decimal.value := by
  rw [gridPoint?] at found
  split at found
  · next below above =>
    obtain rfl := Option.some.inj found
    rw [Decimal.value]
    split
    · exact (containsPoint_iff positive).1 below
    · exact (containsPoint_iff positive).1 above
  · next below _ =>
    obtain rfl := Option.some.inj found
    exact (containsPoint_iff positive).1 below
  · next _ above =>
    obtain rfl := Option.some.inj found
    exact (containsPoint_iff positive).1 above
  · cases found

theorem contains_of_search {fuel : ℕ} {exponent : ℤ} {decimal : Decimal}
    (found : interval.search fuel exponent = some decimal) : interval.Contains decimal.value := by
  induction fuel generalizing exponent with
  | zero => cases found
  | succ fuel induction =>
      rw [search] at found
      split at found
      · next hit =>
        obtain rfl := Option.some.inj found
        exact contains_of_gridPoint positive hit
      · exact induction found

end Points

/-- A search that gets as far as a grid with a hit finds a decimal. -/
theorem isSome_search {exponent : ℤ} {steps fuel : ℕ} (steps_lt : steps < fuel)
    (hit : (interval.gridPoint? (exponent - steps)).isSome) :
    (interval.search fuel exponent).isSome := by
  induction fuel generalizing exponent steps with
  | zero => exact absurd steps_lt (Nat.not_lt_zero _)
  | succ fuel induction =>
      rw [search]
      split
      · rfl
      · next none =>
        cases steps with
        | zero =>
            rw [Nat.cast_zero, sub_zero, none] at hit
            cases hit
        | succ steps =>
            apply induction (Nat.lt_of_succ_lt_succ steps_lt)
            rwa [sub_sub, add_comm, ← Nat.cast_succ]

/-- A grid that is finer than an interval is long has a hit. -/
theorem isSome_gridPoint (positive : 0 < interval.denominator) {exponent : ℤ}
    (below_le : interval.below ≤ interval.center) (below_pos : 0 < interval.below)
    (above_pos : 0 < interval.above) (unit_pos : 0 < interval.unit)
    (finer : 10 ^ exponent < (interval.below + interval.above) * interval.unit) :
    (interval.gridPoint? exponent).isSome := by
  obtain ⟨floor_le, lt_next⟩ := floorIndex_le positive exponent
  have below_ge : (1 : ℚ) ≤ interval.below := by exact_mod_cast below_pos
  have above_ge : (1 : ℚ) ≤ interval.above := by exact_mod_cast above_pos
  have lower_eq : interval.lower = (interval.center - interval.below) * interval.unit := by
    rw [lower, Nat.cast_sub below_le]
  have upper_eq : interval.upper = (interval.center + interval.above) * interval.unit := by
    rw [upper, Nat.cast_add]
  have either : interval.Contains (interval.floorIndex exponent * 10 ^ exponent) ∨
      interval.Contains ((interval.floorIndex exponent + 1 : ℕ) * 10 ^ exponent) := by
    rw [Nat.cast_add_one]
    by_cases reaches : interval.lower < interval.floorIndex exponent * 10 ^ exponent
    · left
      have floor_lt : interval.floorIndex exponent * 10 ^ exponent < interval.upper := by nlinarith
      rw [Contains]
      split
      · exact ⟨reaches.le, floor_lt.le⟩
      · exact ⟨reaches, floor_lt⟩
    · right
      have lower_lt : interval.lower < (interval.floorIndex exponent + 1) * 10 ^ exponent := by nlinarith
      have next_lt : (interval.floorIndex exponent + 1) * 10 ^ exponent < interval.upper := by nlinarith
      rw [Contains]
      split
      · exact ⟨lower_lt.le, next_lt.le⟩
      · exact ⟨lower_lt, next_lt⟩
  rw [← containsPoint_iff positive, ← containsPoint_iff positive] at either
  rw [gridPoint?]
  split <;> simp_all

end RoundingInterval

/-! ## Intervals of numbers -/

/-- Whether a number with a positive significand has the form that its bit pattern decodes to. -/
structure IsNormal (significand : ℕ) (exponent : ℤ) : Prop where
  /-- The number is not zero. -/
  pos : 0 < significand
  /-- The significand has at most 53 bits. -/
  lt : significand < 2 * hiddenBit
  /-- Only numbers of the least exponent have fewer bits. -/
  hidden : hiddenBit ≤ significand ∨ exponent = minExponent
  /-- The exponent is at least the least one. -/
  le : minExponent ≤ exponent
  /-- The exponent is at most that of the greatest numbers. -/
  exponent_le : exponent ≤ 971

open RoundingInterval

section Around

variable {significand other : ℕ} {exponent power : ℤ} {value : ℚ}

theorem denominator_around (significand : ℕ) (exponent : ℤ) :
    0 < (around significand exponent).denominator := by
  change 0 < 1 <<< _
  rw [Nat.one_shiftLeft]
  exact Nat.two_pow_pos _

theorem unit_around (significand : ℕ) (exponent : ℤ) :
    (around significand exponent).unit = 2 ^ (exponent - 2) := by
  rw [unit, around, Nat.one_shiftLeft, Nat.one_shiftLeft]
  push_cast
  rw [pow_toNat (by norm_num), neg_sub]
  field_simp

theorem upper_around (significand : ℕ) (exponent : ℤ) :
    (around significand exponent).upper = (4 * significand + 2) * 2 ^ (exponent - 2) := by
  rw [upper, unit_around, around]
  push_cast
  rfl

theorem le_lower_around (pos : 0 < significand) (exponent : ℤ) :
    (4 * significand - 2) * 2 ^ (exponent - 2) ≤ (around significand exponent).lower := by
  have unit_pos : (0 : ℚ) < 2 ^ (exponent - 2) := by positivity
  have below_le : (around significand exponent).below ≤ 2 := by
    rw [around]
    dsimp only
    split <;> decide
  have center_eq : (around significand exponent).center = 4 * significand := rfl
  rw [lower, unit_around, mul_le_mul_iff_left₀ unit_pos, center_eq, Nat.cast_sub (by omega)]
  push_cast
  gcongr
  exact_mod_cast below_le

theorem hiddenBit_eq : hiddenBit = 4503599627370496 := rfl

/-- Below a power of two an interval does not reach as far down as elsewhere. -/
theorem le_lower_of_hiddenBit_le (hidden : hiddenBit ≤ significand) (exponent : ℤ) :
    (4 * hiddenBit - 1) * 2 ^ (exponent - 2) ≤ (around significand exponent).lower := by
  have unit_pos : (0 : ℚ) < 2 ^ (exponent - 2) := by positivity
  have counted : 4 * hiddenBit - 1 ≤ 4 * significand - (around significand exponent).below := by
    rw [around]
    dsimp only
    rw [hiddenBit_eq] at hidden ⊢
    split <;> omega
  have center_eq : (around significand exponent).center = 4 * significand := rfl
  have counted_cast : ((4 * hiddenBit - 1 : ℕ) : ℚ) ≤ _ := Nat.cast_le.2 counted
  rw [lower, unit_around, mul_le_mul_iff_left₀ unit_pos, center_eq]
  rwa [Nat.cast_sub (by decide), Nat.cast_mul, Nat.cast_ofNat, Nat.cast_one] at counted_cast

theorem closed_around (significand : ℕ) (exponent : ℤ) :
    (around significand exponent).closed = decide (significand % 2 = 0) := rfl

/-- Intervals of numbers with one exponent have no point in common. -/
theorem not_contains_of_lt (lt : significand < other)
    (contains : (around significand exponent).Contains value) :
    ¬ (around other exponent).Contains value := by
  intro otherContains
  have unit_pos : (0 : ℚ) < 2 ^ (exponent - 2) := by positivity
  have upper_eq := upper_around significand exponent
  have le_lower := le_lower_around (Nat.zero_lt_of_lt lt) exponent
  have le_upper := contains.le.2
  have lower_le := otherContains.le.1
  have next_le : (significand + 1 : ℚ) ≤ other := by exact_mod_cast lt
  -- Of two neighbours one is odd, and the ends of its interval do not belong to it.
  by_cases next : other = significand + 1
  · subst next
    by_cases even : significand % 2 = 0
    · have lower_lt := (otherContains.lt (by rw [closed_around, decide_eq_false_iff_not]; omega)).1
      push_cast at le_lower
      nlinarith
    · have lt_upper := (contains.lt (by rw [closed_around, decide_eq_false_iff_not]; omega)).2
      push_cast at le_lower
      nlinarith
  · have apart : (significand + 2 : ℚ) ≤ other := by
      exact_mod_cast (by omega : significand + 2 ≤ other)
    nlinarith

/-- Intervals of numbers with different exponents have no point in common. -/
theorem not_contains_of_exponent_lt (small : significand < 2 * hiddenBit)
    (hidden : hiddenBit ≤ other) (lt : exponent < power)
    (contains : (around significand exponent).Contains value) :
    ¬ (around other power).Contains value := by
  intro otherContains
  have unit_pos : (0 : ℚ) < 2 ^ (exponent - 2) := by positivity
  have upper_eq := upper_around significand exponent
  have le_upper := contains.le.2
  have lower_le := otherContains.le.1
  have double_le : (2 : ℚ) * 2 ^ (exponent - 2) ≤ 2 ^ (power - 2) := by
    rw [mul_comm, ← zpow_add_one₀ (by norm_num)]
    exact zpow_le_zpow_right₀ (by norm_num) (by omega)
  have le_lower := le_lower_of_hiddenBit_le hidden power
  rw [hiddenBit_eq] at small le_lower
  push_cast at le_lower
  -- The greatest significand is odd.
  by_cases greatest : significand = 9007199254740991
  · have lt_upper := (contains.lt (by rw [closed_around, greatest]; rfl)).2
    rw [greatest] at upper_eq lt_upper
    push_cast at upper_eq
    nlinarith
  · have significand_le : (significand : ℚ) ≤ 9007199254740990 := by
      exact_mod_cast (by omega : significand ≤ 9007199254740990)
    nlinarith

/-- No fraction rounds to two numbers. -/
theorem IsNormal.eq_of_contains (normal : IsNormal significand exponent)
    (otherNormal : IsNormal other power) (contains : (around significand exponent).Contains value)
    (otherContains : (around other power).Contains value) :
    significand = other ∧ exponent = power := by
  rcases lt_trichotomy exponent power with lt | rfl | gt
  · have hidden := otherNormal.hidden.resolve_right (by have := normal.le; omega)
    exact absurd otherContains (not_contains_of_exponent_lt normal.lt hidden lt contains)
  · rcases lt_trichotomy significand other with lt | rfl | gt
    · exact absurd otherContains (not_contains_of_lt lt contains)
    · exact ⟨rfl, rfl⟩
    · exact absurd contains (not_contains_of_lt gt otherContains)
  · have hidden := normal.hidden.resolve_right (by have := otherNormal.le; omega)
    exact absurd contains (not_contains_of_exponent_lt otherNormal.lt hidden gt otherContains)

/-! ## Shortest decimals -/

/-- The decimal order of magnitude is not above the one that the binary one amounts to. -/
theorem ten_pow_le {order : ℤ} (le : minExponent ≤ order) (lt : order < 1024) :
    (10 : ℚ) ^ (order * 30103 / 100000) ≤ 2 ^ order := by
  have upward : ∀ count < 1024, 10 ^ (count * 30103 / 100000) ≤ 2 ^ count := by decide +kernel
  have downward : ∀ count < 1075, 2 ^ count ≤ 10 ^ ((count * 30103 + 99999) / 100000) := by
    decide +kernel
  rcases Int.eq_nat_or_neg order with ⟨count, rfl | rfl⟩
  · have counted := upward count (by omega)
    have exponent_eq : (count : ℤ) * 30103 / 100000 = (count * 30103 / 100000 : ℕ) := by omega
    rw [exponent_eq, zpow_natCast, zpow_natCast]
    exact_mod_cast counted
  · have counted := downward count (by rw [minExponent] at le; omega)
    have exponent_eq : -(count : ℤ) * 30103 / 100000 = -((count * 30103 + 99999) / 100000 : ℕ) := by
      omega
    rw [exponent_eq, zpow_neg, zpow_neg, zpow_natCast, zpow_natCast]
    gcongr
    exact_mod_cast counted

theorem center_mul_unit (significand : ℕ) (exponent : ℤ) :
    (around significand exponent).center * (around significand exponent).unit =
      significand * 2 ^ exponent := by
  have center_eq : (around significand exponent).center = 4 * significand := rfl
  rw [unit_around, center_eq, zpow_sub₀ (by norm_num)]
  push_cast
  ring

/-- The order of magnitude of a number is not too great. -/
theorem IsNormal.ten_pow_decimalOrder_le (normal : IsNormal significand exponent) :
    (10 : ℚ) ^ decimalOrder (around significand exponent) significand exponent ≤
      significand * 2 ^ exponent := by
  have significand_ne : significand ≠ 0 := Nat.ne_of_gt normal.pos
  have log_lt : significand.log2 < 53 := (Nat.log2_lt significand_ne).2 normal.lt
  have least := normal.le
  have greatest := normal.exponent_le
  rw [decimalOrder]
  split
  · next reached =>
    rw [← center_mul_unit]
    exact (reaches_iff (denominator_around _ _)).1 reached
  · calc (10 : ℚ) ^ ((significand.log2 + exponent) * 30103 / 100000)
      _ ≤ 2 ^ (significand.log2 + exponent) := ten_pow_le (by omega) (by omega)
      _ = (2 ^ significand.log2 : ℕ) * 2 ^ exponent := by
        rw [zpow_add₀ (by norm_num), zpow_natCast]
        push_cast
        rfl
      _ ≤ significand * 2 ^ exponent := by
        gcongr
        exact Nat.log2_self_le significand_ne

/-- Seventeen digits are enough for every number. -/
theorem IsNormal.finer (normal : IsNormal significand exponent) :
    (10 : ℚ) ^ (decimalOrder (around significand exponent) significand exponent - 16) <
      ((around significand exponent).below + (around significand exponent).above) *
        (around significand exponent).unit := by
  have order_le := normal.ten_pow_decimalOrder_le
  have unit_pos : (0 : ℚ) < 2 ^ (exponent - 2) := by positivity
  have significand_lt : (significand : ℚ) < 9007199254740992 := by exact_mod_cast normal.lt
  have power_eq : (2 : ℚ) ^ exponent = 4 * 2 ^ (exponent - 2) := by
    rw [zpow_sub₀ (by norm_num)]
    ring
  have above_eq : (around significand exponent).above = 2 := rfl
  rw [zpow_sub₀ (by norm_num), unit_around, above_eq, div_lt_iff₀ (by norm_num)]
  apply order_le.trans_lt
  rw [power_eq]
  by_cases hidden : significand = hiddenBit
  · have below_eq : (around significand exponent).below = 1 := by rw [around]; exact if_pos hidden
    rw [below_eq, hidden, hiddenBit_eq]
    push_cast
    nlinarith
  · have below_eq : (around significand exponent).below = 2 := by rw [around]; exact if_neg hidden
    rw [below_eq]
    push_cast
    nlinarith

/-- The shortest decimal of a number reads back to it. -/
theorem IsNormal.contains_shortest (normal : IsNormal significand exponent) :
    (around significand exponent).Contains (shortest significand exponent).value := by
  have positive := denominator_around significand exponent
  have pos := normal.pos
  have below_pos : 0 < (around significand exponent).below := by
    rw [around]
    dsimp only
    split <;> decide
  have below_le : (around significand exponent).below ≤ (around significand exponent).center := by
    rw [around]
    dsimp only
    split <;> omega
  have unit_pos : 0 < (around significand exponent).unit := by
    rw [unit_around]
    positivity
  have hit := isSome_gridPoint positive below_le below_pos Nat.two_pos unit_pos normal.finer
  obtain ⟨decimal, found⟩ := Option.isSome_iff_exists.1 (isSome_search (by decide : 16 < 17) hit)
  rw [shortest, found, Decimal.value_trimmed]
  exact contains_of_search positive found

/-- The shortest decimal of a number tells the number. -/
theorem IsNormal.shortest_inj (normal : IsNormal significand exponent)
    (otherNormal : IsNormal other power)
    (same : (shortest significand exponent).value = (shortest other power).value) :
    significand = other ∧ exponent = power :=
  normal.eq_of_contains otherNormal normal.contains_shortest (same ▸ otherNormal.contains_shortest)

end Around

end Minilang.Binary64
