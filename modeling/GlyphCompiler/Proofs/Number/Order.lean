/-
# The order of numbers

Numbers are compared by their exact values, so whole numbers are compared as such. A number
between zero and a length is less than the length and has no fraction just if it is the
position of something in a list of that length.
-/

import GlyphCompiler.Number.Arithmetic
import Mathlib.Data.Rat.Cast.Order

namespace GlyphCompiler

namespace Number

section

variable {left right : Int}

@[simp]
theorem place?_int (value : Int) : (int value).place? = some (0, (value : Rat)) := rfl

theorem lt_int : (int left).lt (int right) = decide (left < right) := by
  simp [lt]

theorem eq_int : (int left).eq (int right) = (left == right) := by
  rw [Bool.eq_iff_iff]
  simp [eq]

theorem le_int : (int left).le (int right) = decide (left ≤ right) := by
  rw [Bool.eq_iff_iff, le, lt_int, eq_int]
  simp [Int.le_iff_lt_or_eq]

theorem isNegative_int (value : Int) : (int value).isNegative = decide (value < 0) :=
  lt_int

end

/-- A number lies between two whole numbers just if it is finite and its exact value does. -/
theorem between_iff (number : Number) (least greatest : Int) :
    ((int least).le number && number.le (int greatest)) = true ↔
      ∃ exact : Rat, number.place? = some (0, exact) ∧ (least : Rat) ≤ exact ∧
        exact ≤ (greatest : Rat) := by
  simp only [le, lt, eq, place?_int]
  cases number.place? with
  | none => simp
  | some place =>
    obtain ⟨side, exact⟩ := place
    simp
    grind

section

variable {number : Number} {exact : Rat}

theorem isNegative_iff (place : number.place? = some (0, exact)) :
    number.isNegative = true ↔ exact < 0 := by
  simp [isNegative, lt, place]

theorem isWhole_iff : number.isWhole = true ↔
    ∃ exact, number.place? = some (0, exact) ∧ exact.den = 1 := by
  cases number with
  | int value => simp [isWhole]
  | float value =>
    simp only [isWhole, Binary64.value?, place?]
    cases Binary64.read value with
    | notANumber => simp
    | infinite negative => cases negative <;> simp
    | finite negative mantissa exponent => simp

/-- A number that is neither negative nor past the end is a position if it has no fraction. -/
theorem exists_position_iff {length : Nat} (notNegative : number.isNegative = false)
    (within : (int length).le number = false) :
    (∃ position < length, number.eq (.int (position : Nat)) = true) ↔ number.isWhole = true := by
  rw [isWhole_iff]
  constructor
  · rintro ⟨position, -, same⟩
    unfold eq at same
    cases place : number.place? with
    | none => simp [place] at same
    | some found =>
      simp only [place, place?_int, beq_iff_eq] at same
      exact ⟨_, by rw [same], Rat.den_intCast _⟩
  · rintro ⟨exact, place, whole⟩
    obtain ⟨value, rfl⟩ : ∃ value : Int, exact = value :=
      ⟨exact.num, ((Rat.den_eq_one_iff exact).mp whole).symm⟩
    have nonnegative : 0 ≤ value := by
      have notBelow := mt (isNegative_iff place).mpr (by simp [notNegative])
      exact_mod_cast not_lt.mp notBelow
    have bounded : value < length := by
      simp only [le, lt, eq, place, place?_int, Bool.or_eq_false_iff] at within
      simp at within
      exact_mod_cast lt_of_le_of_ne within.1 (Ne.symm within.2)
    refine ⟨value.toNat, by omega, ?_⟩
    simp only [eq, place, place?_int, beq_iff_eq]
    rw [Int.toNat_of_nonneg nonnegative]

end

end Number

end GlyphCompiler
