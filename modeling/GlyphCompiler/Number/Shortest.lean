/-
# The shortest decimal of a floating-point number

Many decimals read back as the same floating-point number: those of an interval
around it, whose ends belong to it when the mantissa is even. The shortest
decimal has the fewest digits among them, and is the nearest to the number
among those with as few digits. On the grid of decimals with a given last place,
only the two neighbours of the number need to be looked at.
-/

import GlyphCompiler.Number.Binary64

namespace GlyphCompiler

/-- A decimal: a whole number times a power of ten. -/
structure Decimal where
  digits : Nat
  exponent : Int
  deriving DecidableEq, Repr

namespace Shortest

/-- A positive fraction of whole numbers. -/
structure Fraction where
  numerator : Nat
  denominator : Nat

/-- A whole number of units of two to an exponent. -/
def binary (units : Nat) (exponent : Int) : Fraction :=
  if 0 ≤ exponent then ⟨units * Nat.pow 2 exponent.toNat, 1⟩
  else ⟨units, Nat.pow 2 (-exponent).toNat⟩

/-- The value of a decimal. -/
def decimal (value : Decimal) : Fraction :=
  if 0 ≤ value.exponent then ⟨value.digits * Nat.pow 10 value.exponent.toNat, 1⟩
  else ⟨value.digits, Nat.pow 10 (-value.exponent).toNat⟩

/-- Is one fraction below another? -/
def below (first second : Fraction) : Bool :=
  first.numerator * second.denominator < second.numerator * first.denominator

/-- The distance between two fractions. -/
def distance (first second : Fraction) : Fraction :=
  let here := first.numerator * second.denominator
  let there := second.numerator * first.denominator
  ⟨if here < there then there - here else here - there,
    first.denominator * second.denominator⟩

/-- The reals that round to a floating-point number: its value, the two ends, and
whether the ends belong to the interval. -/
structure Interval where
  value : Fraction
  lower : Fraction
  upper : Fraction
  closed : Bool

/-- The interval of a finite positive number. Below a power of two the numbers
lie twice as close, so the interval is narrower on that side. -/
def interval (mantissa : Nat) (exponent : Int) : Interval where
  value := binary (4 * mantissa) (exponent - 2)
  lower :=
    binary (4 * mantissa - if mantissa = Nat.pow 2 52 && -1074 < exponent then 1 else 2)
      (exponent - 2)
  upper := binary (4 * mantissa + 2) (exponent - 2)
  closed := mantissa % 2 == 0

/-- Does a fraction round to the number of an interval? -/
def Interval.holds (interval : Interval) (candidate : Fraction) : Bool :=
  if interval.closed then !below candidate interval.lower && !below interval.upper candidate
  else below interval.lower candidate && below candidate interval.upper

/-- How many decimal digits a number has. -/
def decimalLength (number : Nat) : Nat :=
  (Nat.toDigits 10 number).length

/-- The decimal exponent of the leading digit of a positive fraction. No
floating-point number is so small that 350 places would not show it. -/
def leadingExponent (value : Fraction) : Int :=
  decimalLength (value.numerator * Nat.pow 10 350 / value.denominator) - 351

/-- The neighbours of a fraction among the decimals with a given last place. -/
def neighbours (value : Fraction) (lastPlace : Int) : Decimal × Decimal :=
  let whole :=
    if 0 ≤ lastPlace then value.numerator / (value.denominator * Nat.pow 10 lastPlace.toNat)
    else value.numerator * Nat.pow 10 (-lastPlace).toNat / value.denominator
  (⟨whole, lastPlace⟩, ⟨whole + 1, lastPlace⟩)

/-- The decimal with a given last place that rounds to the number, if there is one:
the nearer of the two, and of two as near the even one. -/
def onGrid (interval : Interval) (lastPlace : Int) : Option Decimal :=
  let (low, high) := neighbours interval.value lastPlace
  match interval.holds (decimal low), interval.holds (decimal high) with
  | true, true =>
    let toLow := distance interval.value (decimal low)
    let toHigh := distance interval.value (decimal high)
    if below toLow toHigh || (!below toHigh toLow && low.digits % 2 == 0) then some low
    else some high
  | true, false => some low
  | false, true => some high
  | false, false => none

/-- The first hit on the grids with more and more digits. -/
def search (interval : Interval) : Nat → Int → Option Decimal
  | 0, _ => none
  | grids + 1, lastPlace =>
    match onGrid interval lastPlace with
    | some found => some found
    | none => search interval grids (lastPlace - 1)

/-- Drop the zeros at the end of a decimal. -/
def trim : Nat → Decimal → Decimal
  | 0, value => value
  | fuel + 1, value =>
    if value.digits % 10 = 0 then trim fuel ⟨value.digits / 10, value.exponent + 1⟩
    else value

end Shortest

/-- The shortest decimal that reads back as a mantissa times two to an exponent.
Seventeen digits tell all floating-point numbers apart. -/
def shortestDecimal (mantissa : Nat) (exponent : Int) : Decimal :=
  if mantissa = 0 then ⟨0, 0⟩
  else
    let interval := Shortest.interval mantissa exponent
    Shortest.trim 17
      ((Shortest.search interval 17 (Shortest.leadingExponent interval.value)).getD ⟨0, 0⟩)

end GlyphCompiler
