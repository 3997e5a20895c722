/-
# Shortest decimals

The shortest decimal of a floating-point number rounds to the number, since seventeen
digits always do. No decimal rounds to two numbers, so the shortest decimal tells them
all apart.
-/

import Mathlib
import GlyphCompiler.Number.Basic

namespace GlyphCompiler

/-- The value of a decimal. -/
def Decimal.value (decimal : Decimal) : ℚ := decimal.digits * (10 : ℚ) ^ decimal.exponent

namespace Binary64

/-- A whole number times a power of two, in the field of fractions. -/
theorem scaled_eq (whole exponent : Int) : scaled whole exponent = whole * (2 : ℚ) ^ exponent := by
  unfold scaled
  split
  · next positive =>
    obtain ⟨places, rfl⟩ := Int.eq_ofNat_of_zero_le positive
    push_cast [Int.toNat_natCast, zpow_natCast, Nat.pow_eq]
    rfl
  · next negative =>
    obtain ⟨places, same⟩ := Int.eq_ofNat_of_zero_le (by omega : 0 ≤ -exponent)
    obtain rfl : exponent = -places := by omega
    rw [neg_neg, Int.toNat_natCast, Rat.mkRat_eq_div, zpow_neg, zpow_natCast, div_eq_mul_inv]
    push_cast [Nat.pow_eq]
    rfl

end Binary64

namespace Shortest

/-- The value of a fraction. -/
def Fraction.value (fraction : Fraction) : ℚ := fraction.numerator / fraction.denominator

theorem value_binary (units : Nat) (exponent : Int) :
    (binary units exponent).value = units * (2 : ℚ) ^ exponent := by
  unfold binary Fraction.value
  split
  · next positive =>
    obtain ⟨places, rfl⟩ := Int.eq_ofNat_of_zero_le positive
    simp
  · next negative =>
    obtain ⟨places, same⟩ := Int.eq_ofNat_of_zero_le (by omega : 0 ≤ -exponent)
    obtain rfl : exponent = -places := by omega
    simp [div_eq_mul_inv]

theorem value_decimal (decimal : Decimal) : (Shortest.decimal decimal).value = decimal.value := by
  unfold Shortest.decimal Fraction.value Decimal.value
  split
  · next positive =>
    obtain ⟨places, same⟩ := Int.eq_ofNat_of_zero_le positive
    simp [same]
  · next negative =>
    obtain ⟨places, same⟩ := Int.eq_ofNat_of_zero_le (by omega : 0 ≤ -decimal.exponent)
    have exponent : decimal.exponent = -places := by omega
    simp [exponent, div_eq_mul_inv]

theorem denominator_binary (units : Nat) (exponent : Int) : 0 < (binary units exponent).denominator := by
  unfold binary
  split
  · exact one_pos
  · exact Nat.pow_pos (by decide)

theorem denominator_decimal (decimal : Decimal) : 0 < (Shortest.decimal decimal).denominator := by
  unfold Shortest.decimal
  split
  · exact one_pos
  · exact Nat.pow_pos (by decide)

theorem below_iff {first second : Fraction} (one : 0 < first.denominator)
    (other : 0 < second.denominator) : below first second = true ↔ first.value < second.value := by
  unfold below Fraction.value
  rw [decide_eq_true_eq, div_lt_div_iff₀ (by exact_mod_cast one) (by exact_mod_cast other)]
  exact_mod_cast Iff.rfl

/-! ## The interval of a number -/

/-- How many quarters of a unit the interval of a number reaches down. -/
def reach (mantissa : Nat) (exponent : Int) : Nat :=
  if mantissa = Nat.pow 2 52 && -1074 < exponent then 1 else 2

/-- A fraction rounds to a number if it is not nearer to the next ones. Halfway it rounds
to the even one. -/
structure Rounds (mantissa : Nat) (exponent : Int) (value : ℚ) : Prop where
  lower : (4 * mantissa - reach mantissa exponent) * (2 : ℚ) ^ (exponent - 2) ≤ value
  upper : value ≤ (4 * mantissa + 2) * (2 : ℚ) ^ (exponent - 2)
  aboveLower : mantissa % 2 = 1 →
    (4 * mantissa - reach mantissa exponent) * (2 : ℚ) ^ (exponent - 2) < value
  belowUpper : mantissa % 2 = 1 → value < (4 * mantissa + 2) * (2 : ℚ) ^ (exponent - 2)

theorem one_le_reach (mantissa : Nat) (exponent : Int) : 1 ≤ reach mantissa exponent := by
  unfold reach
  split <;> decide

theorem reach_le (mantissa : Nat) (exponent : Int) : reach mantissa exponent ≤ 2 := by
  unfold reach
  split <;> decide

theorem value_lower {mantissa : Nat} (exponent : Int) (positive : 0 < mantissa) :
    (interval mantissa exponent).lower.value =
      (4 * mantissa - reach mantissa exponent) * (2 : ℚ) ^ (exponent - 2) := by
  have small := reach_le mantissa exponent
  have cast : ((4 * mantissa - reach mantissa exponent : Nat) : ℚ) =
      4 * mantissa - reach mantissa exponent := by
    rw [Nat.cast_sub (by omega)]
    push_cast
    rfl
  rw [← cast]
  exact value_binary _ _

theorem value_upper (mantissa : Nat) (exponent : Int) :
    (interval mantissa exponent).upper.value = (4 * mantissa + 2) * (2 : ℚ) ^ (exponent - 2) := by
  refine (value_binary _ _).trans ?_
  push_cast
  rfl

/-- A decimal that the interval of a number holds rounds to the number. -/
theorem rounds_iff {mantissa : Nat} {exponent : Int} (positive : 0 < mantissa) (decimal : Decimal) :
    (interval mantissa exponent).holds (Shortest.decimal decimal) = true ↔
      Rounds mantissa exponent decimal.value := by
  have low := below_iff (denominator_decimal decimal)
    (denominator_binary (4 * mantissa - reach mantissa exponent) (exponent - 2))
  have low' := below_iff (denominator_binary (4 * mantissa - reach mantissa exponent) (exponent - 2))
    (denominator_decimal decimal)
  have high := below_iff (denominator_binary (4 * mantissa + 2) (exponent - 2))
    (denominator_decimal decimal)
  have high' := below_iff (denominator_decimal decimal)
    (denominator_binary (4 * mantissa + 2) (exponent - 2))
  rw [value_decimal] at low low' high high'
  have lowest : (binary (4 * mantissa - reach mantissa exponent) (exponent - 2)).value = _ :=
    value_lower exponent positive
  have highest : (binary (4 * mantissa + 2) (exponent - 2)).value = _ := value_upper mantissa exponent
  rw [lowest] at low low'
  rw [highest] at high high'
  change (if (mantissa % 2 == 0) = true then
      !below (Shortest.decimal decimal) (binary (4 * mantissa - reach mantissa exponent) (exponent - 2)) &&
        !below (binary (4 * mantissa + 2) (exponent - 2)) (Shortest.decimal decimal)
    else below (binary (4 * mantissa - reach mantissa exponent) (exponent - 2)) (Shortest.decimal decimal) &&
      below (Shortest.decimal decimal) (binary (4 * mantissa + 2) (exponent - 2))) = true ↔ _
  split
  · next even =>
    rw [beq_iff_eq] at even
    rw [Bool.and_eq_true, Bool.not_eq_true', Bool.not_eq_true', ← Bool.not_eq_true, ← Bool.not_eq_true,
      low, high, not_lt, not_lt]
    exact ⟨fun within => ⟨within.1, within.2, by omega, by omega⟩,
      fun rounds => ⟨rounds.lower, rounds.upper⟩⟩
  · next odd =>
    have isOdd : mantissa % 2 = 1 := by
      rw [beq_iff_eq] at odd
      omega
    rw [Bool.and_eq_true, low', high']
    exact ⟨fun within => ⟨within.1.le, within.2.le, fun _ => within.1, fun _ => within.2⟩,
      fun rounds => ⟨rounds.aboveLower isOdd, rounds.belowUpper isOdd⟩⟩

/-! ## No decimal rounds to two numbers -/

/-- The mantissas and exponents that floating-point numbers have. -/
structure Canonical (mantissa : Nat) (exponent : Int) : Prop where
  least : -1074 ≤ exponent
  small : mantissa < Nat.pow 2 53
  normal : -1074 < exponent → Nat.pow 2 52 ≤ mantissa

section

variable {mantissa other : Nat} {exponent later : Int} {value : ℚ}

/-- The interval of a normal number begins after that of every number of a smaller exponent. -/
theorem least_le_of_normal (canonical : Canonical other later) (normal : -1074 < later) :
    (2 * Nat.pow 2 53 - 1 : ℚ) ≤ 4 * other - reach other later := by
  have large := canonical.normal normal
  have small : (reach other later : ℚ) ≤ 2 := by exact_mod_cast reach_le other later
  have large' : (Nat.pow 2 52 : ℚ) ≤ other := by exact_mod_cast large
  by_cases least : other = Nat.pow 2 52
  · have reaches : reach other later = 1 := by
      unfold reach
      rw [if_pos (by simp [least, normal])]
    rw [reaches, least]
    norm_num
  · have more : 4503599627370497 ≤ other := Nat.lt_of_le_of_ne large (Ne.symm least)
    have more' : (4503599627370497 : ℚ) ≤ other := by exact_mod_cast more
    norm_num
    linarith

/-- The interval of a number ends where that of a larger one begins, or before if both
mantissas are even. -/
theorem upper_le_lower (canonical : Canonical mantissa exponent)
    (canonicalOther : Canonical other later)
    (larger : exponent < later ∨ exponent = later ∧ mantissa < other) :
    (4 * mantissa + 2 : ℚ) * 2 ^ (exponent - 2) ≤
        (4 * other - reach other later) * 2 ^ (later - 2) ∧
      (mantissa % 2 = 0 → other % 2 = 0 → (4 * mantissa + 2 : ℚ) * 2 ^ (exponent - 2) <
        (4 * other - reach other later) * 2 ^ (later - 2)) := by
  have unit : (0 : ℚ) < 2 ^ (exponent - 2) := zpow_pos (by norm_num) _
  obtain after | ⟨rfl, more⟩ := larger
  · have least := least_le_of_normal canonicalOther (by have := canonical.least; omega)
    have double : (2 : ℚ) * 2 ^ (exponent - 2) ≤ 2 ^ (later - 2) := by
      rw [← zpow_one_add₀ (by norm_num)]
      exact zpow_le_zpow_right₀ (by norm_num) (by omega)
    have begins : (2 * Nat.pow 2 53 - 1 : ℚ) * (2 * 2 ^ (exponent - 2)) ≤
        (4 * other - reach other later) * 2 ^ (later - 2) :=
      mul_le_mul least double (by positivity) (by norm_num at least ⊢; linarith)
    have small : mantissa < 9007199254740992 := canonical.small
    refine ⟨begins.trans' ?_, fun even _ => begins.trans_lt' ?_⟩
    · have bound : (mantissa : ℚ) + 1 ≤ 9007199254740992 := by exact_mod_cast small
      rw [← mul_assoc]
      refine mul_le_mul_of_nonneg_right ?_ unit.le
      norm_num
      linarith
    · have least : mantissa + 2 ≤ 9007199254740992 := by omega
      have bound : (mantissa : ℚ) + 2 ≤ 9007199254740992 := by exact_mod_cast least
      rw [← mul_assoc]
      refine mul_lt_mul_of_pos_right ?_ unit
      norm_num
      linarith
  · have small : (reach other exponent : ℚ) ≤ 2 := by exact_mod_cast reach_le other exponent
    refine ⟨mul_le_mul_of_nonneg_right ?_ unit.le, fun even evenOther =>
      mul_lt_mul_of_pos_right ?_ unit⟩
    · have next : (mantissa : ℚ) + 1 ≤ other := by exact_mod_cast more
      linarith
    · have next : mantissa + 2 ≤ other := by omega
      have next' : (mantissa : ℚ) + 2 ≤ other := by exact_mod_cast next
      linarith

/-- A decimal that rounds to a number does not round to a larger one. -/
theorem not_rounds_of_rounds (canonical : Canonical mantissa exponent)
    (canonicalOther : Canonical other later)
    (larger : exponent < later ∨ exponent = later ∧ mantissa < other)
    (rounds : Rounds mantissa exponent value) : ¬ Rounds other later value := by
  intro roundsOther
  obtain ⟨touch, apart⟩ := upper_le_lower canonical canonicalOther larger
  obtain even | odd := Nat.mod_two_eq_zero_or_one mantissa
  · obtain evenOther | oddOther := Nat.mod_two_eq_zero_or_one other
    · exact absurd (rounds.upper.trans_lt (apart even evenOther)) roundsOther.lower.not_gt
    · exact absurd (rounds.upper.trans touch) (roundsOther.aboveLower oddOther).not_ge
  · exact absurd ((rounds.belowUpper odd).trans_le touch) roundsOther.lower.not_gt

/-- A decimal rounds to one number only. -/
theorem eq_of_rounds (canonical : Canonical mantissa exponent)
    (canonicalOther : Canonical other later) (rounds : Rounds mantissa exponent value)
    (roundsOther : Rounds other later value) : mantissa = other ∧ exponent = later := by
  have notSmaller : ¬(later < exponent ∨ later = exponent ∧ other < mantissa) :=
    fun smaller => not_rounds_of_rounds canonicalOther canonical smaller roundsOther rounds
  have notLarger : ¬(exponent < later ∨ exponent = later ∧ mantissa < other) :=
    fun larger => not_rounds_of_rounds canonical canonicalOther larger rounds roundsOther
  omega

end

/-! ## Seventeen digits are enough -/

/-- A quotient of whole numbers is cut down to the next whole number. -/
theorem div_le_and_lt (numerator denominator : Nat) :
    ((numerator / denominator : Nat) : ℚ) ≤ numerator / denominator ∧
      (numerator / denominator : ℚ) < (numerator / denominator : Nat) + 1 := by
  rw [← Nat.floor_div_eq_div (K := ℚ)]
  exact ⟨Nat.floor_le (by positivity), Nat.lt_floor_add_one _⟩

/-- A fraction lies between its neighbours, and above the lower one. -/
theorem neighbours_bounds (fraction : Fraction) (place : Int) :
    (neighbours fraction place).1.value ≤ fraction.value ∧
      fraction.value < (neighbours fraction place).2.value ∧
        (neighbours fraction place).2.value = (neighbours fraction place).1.value + 10 ^ place := by
  have unit : (0 : ℚ) < 10 ^ place := zpow_pos (by norm_num) _
  have bounds : ∀ whole : Nat, (whole : ℚ) ≤ fraction.value / 10 ^ place ∧
      fraction.value / 10 ^ place < whole + 1 →
        (⟨whole, place⟩ : Decimal).value ≤ fraction.value ∧
          fraction.value < (⟨whole + 1, place⟩ : Decimal).value ∧
            (⟨whole + 1, place⟩ : Decimal).value = (⟨whole, place⟩ : Decimal).value + 10 ^ place := by
    intro whole between
    rw [le_div_iff₀ unit, div_lt_iff₀ unit] at between
    refine ⟨between.1, ?_, ?_⟩
    · simpa [Decimal.value] using between.2
    · simp only [Decimal.value]
      push_cast
      ring
  refine bounds _ ?_
  split
  · next positive =>
    obtain ⟨places, rfl⟩ := Int.eq_ofNat_of_zero_le positive
    have same : fraction.value / 10 ^ (places : Int) =
        fraction.numerator / ((fraction.denominator * Nat.pow 10 places : Nat) : ℚ) := by
      simp [Fraction.value, div_div]
    rw [same]
    exact div_le_and_lt _ _
  · next negative =>
    obtain ⟨places, opposite⟩ := Int.eq_ofNat_of_zero_le (by omega : 0 ≤ -place)
    obtain rfl : place = -places := by omega
    have same : fraction.value / 10 ^ (-places : Int) =
        ((fraction.numerator * Nat.pow 10 places : Nat) : ℚ) / fraction.denominator := by
      simp [Fraction.value, div_mul_eq_mul_div]
    rw [same, opposite]
    exact div_le_and_lt _ _

theorem holds_of_onGrid {bounds : Interval} {place : Int} {found : Decimal}
    (hit : onGrid bounds place = some found) : bounds.holds (Shortest.decimal found) = true := by
  unfold onGrid at hit
  simp only at hit
  split at hit
  · split at hit <;> cases hit <;> assumption
  · cases hit
    assumption
  · cases hit
    assumption
  · cases hit

theorem holds_of_search {bounds : Interval} {grids : Nat} {place : Int} {found : Decimal}
    (hit : search bounds grids place = some found) :
    bounds.holds (Shortest.decimal found) = true := by
  induction grids generalizing place with
  | zero => cases hit
  | succ grids ih =>
    unfold search at hit
    split at hit
    · next here =>
      cases hit
      exact holds_of_onGrid here
    · exact ih hit

/-- A search that comes to a grid with a hit finds one. -/
theorem isSome_search {bounds : Interval} {grids step : Nat} {place : Int} (within : step < grids)
    (hit : (onGrid bounds (place - step)).isSome) : (search bounds grids place).isSome := by
  induction grids generalizing place step with
  | zero => cases within
  | succ grids ih =>
    unfold search
    cases here : onGrid bounds place with
    | some found => rfl
    | none =>
      cases step with
      | zero =>
        rw [Nat.cast_zero, sub_zero, here] at hit
        cases hit
      | succ step =>
        refine @ih step (place - 1) (Nat.lt_of_succ_lt_succ within) ?_
        rw [show place - 1 - (step : Int) = place - (step + 1 : Nat) by push_cast; ring]
        exact hit

section

variable {mantissa : Nat} {exponent : Int}

theorem value_interval (mantissa : Nat) (exponent : Int) :
    (interval mantissa exponent).value.value = 4 * mantissa * (2 : ℚ) ^ (exponent - 2) := by
  refine (value_binary _ _).trans ?_
  push_cast
  rfl

/-- A grid that is finer than the interval of a number hits it. -/
theorem isSome_onGrid (positive : 0 < mantissa) {place : Int}
    (fine : (10 : ℚ) ^ place < (reach mantissa exponent + 2) * 2 ^ (exponent - 2)) :
    (onGrid (interval mantissa exponent) place).isSome := by
  obtain ⟨below, above, apart⟩ := neighbours_bounds (interval mantissa exponent).value place
  rw [value_interval] at below above
  have unit : (0 : ℚ) < 2 ^ (exponent - 2) := zpow_pos (by norm_num) _
  have reaches : (1 : ℚ) ≤ reach mantissa exponent := by
    exact_mod_cast one_le_reach mantissa exponent
  have hits : (interval mantissa exponent).holds
        (Shortest.decimal (neighbours (interval mantissa exponent).value place).1) = true ∨
      (interval mantissa exponent).holds
        (Shortest.decimal (neighbours (interval mantissa exponent).value place).2) = true := by
    rw [rounds_iff positive, rounds_iff positive]
    by_cases near : (4 * mantissa - reach mantissa exponent) * (2 : ℚ) ^ (exponent - 2) <
        (neighbours (interval mantissa exponent).value place).1.value
    · have upper : (neighbours (interval mantissa exponent).value place).1.value <
          (4 * mantissa + 2) * (2 : ℚ) ^ (exponent - 2) := by nlinarith
      exact .inl ⟨near.le, upper.le, fun _ => near, fun _ => upper⟩
    · have lower : (4 * mantissa - reach mantissa exponent) * (2 : ℚ) ^ (exponent - 2) <
          (neighbours (interval mantissa exponent).value place).2.value := by nlinarith
      have upper : (neighbours (interval mantissa exponent).value place).2.value <
          (4 * mantissa + 2) * (2 : ℚ) ^ (exponent - 2) := by
        rw [apart]
        nlinarith
      exact .inr ⟨lower.le, upper.le, fun _ => lower, fun _ => upper⟩
  unfold onGrid
  simp only
  obtain low | high := hits
  · rw [low]
    split
    · split <;> rfl
    · rfl
    · simp_all
    · simp_all
  · rw [high]
    split
    · split <;> rfl
    · simp_all
    · rfl
    · simp_all

/-- A number of one digit or more is at least the power of ten with its leading digit. -/
theorem pow_le_of_decimalLength {number : Nat} (positive : 0 < number) :
    Nat.pow 10 (decimalLength number - 1) ≤ number := by
  have long := @Nat.length_toDigits_pos 10 number
  by_cases single : decimalLength number = 1
  · rw [single]
    exact positive
  · have more : 0 < decimalLength number - 1 := by
      unfold decimalLength at single ⊢
      omega
    have fits : (Nat.toDigits 10 number).length ≤ decimalLength number - 1 ↔
        number < Nat.pow 10 (decimalLength number - 1) :=
      Nat.length_toDigits_le_iff (by decide) more
    unfold decimalLength at fits more ⊢
    omega

/-- The power of ten with the leading digit of a fraction is at most the fraction, unless
the fraction is too small. -/
theorem pow_leadingExponent_le {fraction : Fraction} (large : 1 ≤ fraction.value * 10 ^ 350) :
    (10 : ℚ) ^ leadingExponent fraction ≤ fraction.value := by
  have same (places : Nat) : ((fraction.numerator * Nat.pow 10 places : Nat) : ℚ) /
      fraction.denominator = fraction.value * 10 ^ places := by
    simp only [Fraction.value, Nat.pow_eq]
    push_cast
    ring
  obtain ⟨below, above⟩ := div_le_and_lt (fraction.numerator * Nat.pow 10 350) fraction.denominator
  rw [same] at below above
  have positive : 0 < fraction.numerator * Nat.pow 10 350 / fraction.denominator := by
    have : (0 : ℚ) < (fraction.numerator * Nat.pow 10 350 / fraction.denominator : Nat) := by linarith
    exact_mod_cast this
  have digits := pow_le_of_decimalLength positive
  unfold leadingExponent
  generalize fraction.numerator * Nat.pow 10 350 / fraction.denominator = whole at *
  have long : 0 < decimalLength whole := Nat.length_toDigits_pos
  have digits' : (10 : ℚ) ^ (decimalLength whole - 1) ≤ whole := by exact_mod_cast digits
  have split : (10 : ℚ) ^ ((decimalLength whole : Int) - 351) * 10 ^ 350 =
      10 ^ (decimalLength whole - 1) := by
    rw [← zpow_natCast, ← zpow_natCast, ← zpow_add₀ (by norm_num)]
    congr 1
    omega
  refine le_of_mul_le_mul_right ?_ (by positivity : (0 : ℚ) < 10 ^ 350)
  rw [split]
  exact digits'.trans below

/-- The least floating-point number has a digit among the first 350 places. -/
theorem one_le_tiny : (1 : ℚ) ≤ 4 * 2 ^ (-1076 : Int) * 10 ^ 350 := by
  have places : Nat.pow 2 1076 ≤ 4 * Nat.pow 10 350 := by decide +kernel
  have places' : (2 : ℚ) ^ 1076 ≤ 4 * 10 ^ 350 := by exact_mod_cast places
  rw [zpow_neg, mul_right_comm, ← div_eq_mul_inv, one_le_div (zpow_pos (by decide) _)]
  exact places'

/-- The search for the shortest decimal finds one. -/
theorem isSome_search_interval (canonical : Canonical mantissa exponent) (positive : 0 < mantissa) :
    (search (interval mantissa exponent) 17
      (leadingExponent (interval mantissa exponent).value)).isSome := by
  have unit : (0 : ℚ) < 2 ^ (exponent - 2) := zpow_pos (by norm_num) _
  have leading := @pow_leadingExponent_le (interval mantissa exponent).value (by
    rw [value_interval]
    have one : (1 : ℚ) ≤ mantissa := by exact_mod_cast positive
    have least : (2 : ℚ) ^ (-1076 : Int) ≤ 2 ^ (exponent - 2) :=
      zpow_le_zpow_right₀ (by norm_num) (by have := canonical.least; omega)
    have tiny : (1 : ℚ) ≤ 4 * 2 ^ (-1076 : Int) * 10 ^ 350 := one_le_tiny
    have product : (4 : ℚ) * 2 ^ (-1076 : Int) ≤ 4 * mantissa * 2 ^ (exponent - 2) := by
      nlinarith
    exact tiny.trans (mul_le_mul_of_nonneg_right product (by positivity)))
  rw [value_interval] at leading
  refine isSome_search (by decide : 16 < 17) (isSome_onGrid positive ?_)
  rw [zpow_sub₀ (by norm_num), div_lt_iff₀ (by positivity)]
  refine leading.trans_lt ?_
  have enough : (4 * mantissa : ℚ) < (reach mantissa exponent + 2) * 10 ^ 16 := by
    unfold reach
    split
    · next least =>
      simp only [Bool.and_eq_true, decide_eq_true_eq] at least
      rw [least.1]
      norm_num
    · have small : mantissa < 9007199254740992 := canonical.small
      have small' : (mantissa : ℚ) < 9007199254740992 := by exact_mod_cast small
      norm_num
      linarith
  have scaled := mul_lt_mul_of_pos_right enough unit
  calc (4 * mantissa : ℚ) * 2 ^ (exponent - 2)
      < (reach mantissa exponent + 2) * 10 ^ 16 * 2 ^ (exponent - 2) := scaled
    _ = (reach mantissa exponent + 2) * 2 ^ (exponent - 2) * 10 ^ ((16 : Nat) : Int) := by
      rw [zpow_natCast]
      ring

theorem value_trim (fuel : Nat) (decimal : Decimal) : (trim fuel decimal).value = decimal.value := by
  induction fuel generalizing decimal with
  | zero => rfl
  | succ fuel ih =>
    unfold trim
    split
    · next multiple =>
      have whole : decimal.digits = 10 * (decimal.digits / 10) := by omega
      have whole' : (decimal.digits : ℚ) = 10 * (decimal.digits / 10 : Nat) := by
        exact_mod_cast whole
      rw [ih, Decimal.value, Decimal.value, whole', zpow_add_one₀ (by norm_num)]
      ring
    · rfl

end

end Shortest

open Shortest (Canonical)

section

variable {mantissa other : Nat} {exponent later : Int}

/-- The shortest decimal of a number rounds to it. -/
theorem rounds_shortestDecimal (canonical : Canonical mantissa exponent) (positive : 0 < mantissa) :
    Shortest.Rounds mantissa exponent (shortestDecimal mantissa exponent).value := by
  obtain ⟨found, hit⟩ := Option.isSome_iff_exists.mp
    (Shortest.isSome_search_interval canonical positive)
  rw [shortestDecimal, if_neg (by omega)]
  simp only [hit, Option.getD_some, Shortest.value_trim]
  exact (Shortest.rounds_iff positive found).mp (Shortest.holds_of_search hit)

/-- The shortest decimal of a number that is not zero is not zero. -/
theorem value_shortestDecimal_pos (canonical : Canonical mantissa exponent)
    (positive : 0 < mantissa) : 0 < (shortestDecimal mantissa exponent).value := by
  refine (rounds_shortestDecimal canonical positive).lower.trans_lt' ?_
  have one : (1 : ℚ) ≤ mantissa := by exact_mod_cast positive
  have small : (Shortest.reach mantissa exponent : ℚ) ≤ 2 := by
    exact_mod_cast Shortest.reach_le mantissa exponent
  exact mul_pos (by linarith) (zpow_pos (by norm_num) _)

/-- Different numbers have different shortest decimals. -/
theorem eq_of_shortestDecimal (canonical : Canonical mantissa exponent)
    (canonicalOther : Canonical other later)
    (same : (shortestDecimal mantissa exponent).value = (shortestDecimal other later).value) :
    mantissa = other ∧ exponent = later := by
  have least {mantissa : Nat} {exponent : Int} (canonical : Canonical mantissa exponent)
      (zero : mantissa = 0) : exponent = -1074 := by
    have := canonical.normal
    have := canonical.least
    have : 0 < Nat.pow 2 52 := by decide
    omega
  have zero (exponent : Int) : (shortestDecimal 0 exponent).value = 0 := by
    simp [shortestDecimal, Decimal.value]
  obtain none | positive := Nat.eq_zero_or_pos mantissa
  · obtain noneOther | positive := Nat.eq_zero_or_pos other
    · exact ⟨by omega, by rw [least canonical none, least canonicalOther noneOther]⟩
    · rw [none, zero] at same
      exact absurd same.symm (value_shortestDecimal_pos canonicalOther positive).ne'
  · obtain noneOther | positiveOther := Nat.eq_zero_or_pos other
    · rw [noneOther, zero] at same
      exact absurd same (value_shortestDecimal_pos canonical positive).ne'
    · have rounds := rounds_shortestDecimal canonical positive
      rw [same] at rounds
      exact Shortest.eq_of_rounds canonical canonicalOther rounds
        (rounds_shortestDecimal canonicalOther positiveOther)

/-- The mantissa and the exponent that a floating-point number is read as. -/
theorem canonical_of_read {value : Float} {negative : Bool}
    (finite : Binary64.read value = .finite negative mantissa exponent) :
    Canonical mantissa exponent := by
  unfold Binary64.read at finite
  have places : 0 < Nat.pow 2 52 := by decide
  have fraction := Nat.mod_lt value.toBits.toNat places
  have scale := Nat.mod_lt (value.toBits.toNat / Nat.pow 2 52) (by decide : 0 < 2048)
  have double : Nat.pow 2 53 = 2 * Nat.pow 2 52 := by decide
  simp only at finite
  split at finite
  · split at finite <;> cases finite
  · split at finite
    · cases finite
      exact ⟨le_rfl, by omega, by omega⟩
    · next notInfinite normal =>
      cases finite
      exact ⟨by omega, by omega, by omega⟩

end

end GlyphCompiler
