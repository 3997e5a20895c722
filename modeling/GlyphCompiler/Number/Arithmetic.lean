/-
# Arithmetic on numbers

Whole numbers are added, subtracted and multiplied exactly. As soon as one
operand is a floating-point number both are, and a whole number that does not
fit is a fault. Division by zero, and a power that is not a real number or too
large, have no value.
-/

import GlyphCompiler.Number.Basic

namespace GlyphCompiler

namespace Number

/-- A number as a floating-point number. A whole number is rounded to the nearest. -/
def toFloat : Number → Except Fault Float
  | .float value => .ok value
  | .int value =>
    let nearest := Binary64.nearest (value < 0) value.natAbs 1
    if Binary64.isFinite nearest then .ok nearest else .error .integerTooLarge

/-- The opposite of a number. -/
def neg : Number → Number
  | .int value => .int (-value)
  | .float value => .float (-value)

/-- A number without its sign. -/
def abs (number : Number) : Number :=
  if number.isNegative then number.neg else number

/-- Apply an operation: exactly to two whole numbers, otherwise in floating point. -/
def combine (exact : Int → Int → Int) (rounded : Float → Float → Float)
    (left right : Number) : Except Fault Number :=
  match left, right with
  | .int left, .int right => .ok (.int (exact left right))
  | _, _ => do return .float (rounded (← left.toFloat) (← right.toFloat))

/-- The sum of two numbers. -/
def add : Number → Number → Except Fault Number :=
  combine (· + ·) (· + ·)

/-- The difference of two numbers. -/
def sub : Number → Number → Except Fault Number :=
  combine (· - ·) (· - ·)

/-- The product of two numbers. -/
def mul : Number → Number → Except Fault Number :=
  combine (· * ·) (· * ·)

/-- The quotient of two whole numbers, rounded once. -/
def floatQuotient (left right : Int) : Except Fault Float :=
  let quotient := Binary64.nearest ((left < 0) != (right < 0)) left.natAbs right.natAbs
  if Binary64.isFinite quotient then .ok quotient else .error .integerTooLarge

/-- The quotient of two numbers, unless the divisor is zero. Where exact quotients
are asked for, whole numbers that divide evenly have a whole quotient. -/
def div (exact : Bool) (left right : Number) : Except Fault (Option Number) :=
  if right.isZero then .ok none
  else match left, right with
    | .int left, .int right =>
      if exact && left % right == 0 then .ok (some (.int (left / right)))
      else do return some (.float (← floatQuotient left right))
    | _, _ => do return some (.float ((← left.toFloat) / (← right.toFloat)))

/-- The remainder of a floating-point division that rounds its quotient toward
zero. It has the sign of the dividend, and is exact. -/
def floatRemainder (left right : Float) : Except Fault Float :=
  match Binary64.read left, Binary64.read right with
  | .notANumber, _ => .ok left
  | _, .notANumber => .ok right
  | .infinite _, _ => .error .undefinedRemainder
  | _, .infinite _ => .ok left
  | .finite negative dividend exponent, .finite _ divisor otherExponent =>
    let common := min exponent otherExponent
    let rest := (dividend * Nat.pow 2 (exponent - common).toNat) %
      (divisor * Nat.pow 2 (otherExponent - common).toNat)
    .ok (if 0 ≤ common then Binary64.nearest negative (rest * Nat.pow 2 common.toNat) 1
      else Binary64.nearest negative rest (Nat.pow 2 (-common).toNat))

/-- The remainder of a division that rounds its quotient toward zero, unless the
divisor is zero. -/
def rem (left right : Number) : Except Fault (Option Number) :=
  if right.isZero then .ok none
  else match left, right with
    | .int left, .int right => .ok (some (.int (left.tmod right)))
    | _, _ => do return some (.float (← floatRemainder (← left.toFloat) (← right.toFloat)))

/-- Larger exponents are left to run time, unless the base is at most one in size. -/
def exponentLimit : Nat := 1024

/-- A power of a whole number. The powers of zero and of one in size are known
without multiplying. -/
def intPower (base : Int) (exponent : Nat) : Int :=
  if exponent = 0 || base = 1 then 1
  else if base = 0 then 0
  else if base = -1 then (if exponent % 2 = 0 then 1 else -1)
  else base.pow exponent

/-- A floating-point power, unless it is not real or too large. -/
def floatPower (base exponent : Float) : Option Float :=
  let bothFinite := Binary64.isFinite base && Binary64.isFinite exponent
  if bothFinite && (float base).isNegative && !(float exponent).isWhole then none
  else
    let power := Float.pow base exponent
    if bothFinite && !Binary64.isFinite power then none else some power

/-- A power of a number, where it has a value that is not left to run time. -/
def pow (base exponent : Number) : Option Number :=
  if (int exponentLimit).lt exponent.abs && (int 1).lt base.abs then none
  else if base.isZero && exponent.isNegative then none
  else match base, exponent with
    | .int whole, .int (.ofNat count) => some (.int (intPower whole count))
    | _, _ =>
      match base.toFloat, exponent.toFloat with
      | .ok base, .ok exponent => (floatPower base exponent).map .float
      | _, _ => none

private theorem one_pow_int (exponent : Nat) : Int.pow 1 exponent = 1 := by
  induction exponent with
  | zero => rfl
  | succ exponent ih => exact (Int.pow_succ 1 exponent).trans ((Int.mul_one _).trans ih)

private theorem minusOne_pow_int (exponent : Nat) :
    Int.pow (-1) exponent = if exponent % 2 = 0 then 1 else -1 := by
  induction exponent with
  | zero => rfl
  | succ exponent ih =>
    refine (Int.pow_succ (-1) exponent).trans ((congrArg (· * (-1)) ih).trans ?_)
    split <;> split <;> omega

/-- A power of a whole number is found by multiplying. -/
theorem intPower_eq (base : Int) (exponent : Nat) :
    intPower base exponent = base.pow exponent := by
  unfold intPower
  split
  · next trivial =>
    simp only [Bool.or_eq_true, decide_eq_true_eq] at trivial
    rcases trivial with rfl | rfl
    · exact (Int.pow_zero base).symm
    · exact (one_pow_int exponent).symm
  · next nontrivial =>
    simp only [Bool.or_eq_true, decide_eq_true_eq, not_or] at nontrivial
    split
    · next nil =>
      subst nil
      cases exponent with
      | zero => exact absurd rfl nontrivial.1
      | succ exponent => exact ((Int.pow_succ 0 exponent).trans (Int.mul_zero _)).symm
    · split
      · next unit => rw [unit, minusOne_pow_int]
      · rfl

end Number

end GlyphCompiler
