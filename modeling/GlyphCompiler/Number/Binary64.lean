/-
# Binary floating-point numbers exactly

A floating-point number is read as what it stands for: not a number, an
infinity, or a sign with a whole multiple of a power of two. In the other
direction a quotient of whole numbers is rounded to the nearest floating-point
number, a tie going to the even one, and beyond the largest to infinity.
-/

namespace GlyphCompiler

/-- What a floating-point number stands for. A finite one is its mantissa times
two to its exponent. -/
inductive Reading
  | notANumber
  | infinite (negative : Bool)
  | finite (negative : Bool) (mantissa : Nat) (exponent : Int)
  deriving DecidableEq, Repr

namespace Binary64

/-- Read a floating-point number from its sign, exponent and fraction. -/
def read (number : Float) : Reading :=
  let bits := number.toBits.toNat
  let fraction := bits % Nat.pow 2 52
  let scale : Nat := bits / Nat.pow 2 52 % 2048
  let negative := bits / Nat.pow 2 63 == 1
  if scale = 2047 then
    if fraction = 0 then .infinite negative else .notANumber
  else if scale = 0 then .finite negative fraction (-1074)
  else .finite negative (Nat.pow 2 52 + fraction) ((scale : Int) - 1075)

/-- A whole number times a power of two, as an exact fraction. -/
def scaled (whole : Int) (exponent : Int) : Rat :=
  if 0 ≤ exponent then (whole * Nat.pow 2 exponent.toNat : Int)
  else mkRat whole (Nat.pow 2 (-exponent).toNat)

/-- The exact value of a finite floating-point number. -/
def value? (number : Float) : Option Rat :=
  match read number with
  | .finite negative mantissa exponent =>
    some (scaled (if negative then -mantissa else mantissa) exponent)
  | _ => none

/-- Is a floating-point number finite? -/
def isFinite (number : Float) : Bool :=
  (value? number).isSome

/-- The quotient of two whole numbers to the nearest whole number, a tie going to
the even one. -/
def roundQuotient (numerator denominator : Nat) : Nat :=
  let quotient := numerator / denominator
  let double := 2 * (numerator % denominator)
  if denominator < double || (double == denominator && quotient % 2 == 1) then quotient + 1
  else quotient

/-- The quotient of two positive whole numbers, in units of two to an exponent,
as a numerator and a denominator. -/
def inUnits (numerator denominator : Nat) (exponent : Int) : Nat × Nat :=
  if 0 ≤ exponent then (numerator, denominator * Nat.pow 2 exponent.toNat)
  else (numerator * Nat.pow 2 (-exponent).toNat, denominator)

/-- The exponent of the last binary place that is kept of a positive quotient:
53 binary digits are kept, fewer only below the smallest normal number. -/
def lastPlace (numerator denominator : Nat) : Int :=
  let estimate := (Nat.log2 numerator : Int) - Nat.log2 denominator - 52
  let (above, below) := inUnits numerator denominator estimate
  max (-1074) (if above / below < Nat.pow 2 52 then estimate - 1 else estimate)

/-- The floating-point number nearest to a quotient of whole numbers. -/
def nearest (negative : Bool) (numerator denominator : Nat) : Float :=
  let magnitude :=
    if numerator = 0 then 0
    else
      let exponent := lastPlace numerator denominator
      let (above, below) := inUnits numerator denominator exponent
      -- A mantissa of 53 digits carries its leading digit into the scale.
      min (2047 * Nat.pow 2 52) ((exponent + 1074).toNat * Nat.pow 2 52 + roundQuotient above below)
  Float.ofBits (UInt64.ofNat (if negative then Nat.pow 2 63 + magnitude else magnitude))

end Binary64

end GlyphCompiler
