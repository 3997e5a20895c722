/-
# Numbers

A number is a whole number of any size or a floating-point number. The two kinds
are compared by their exact values, never after rounding one of them.
-/

import GlyphCompiler.Fault
import GlyphCompiler.Number.Shortest

namespace GlyphCompiler

/-- A number of the Glyph language. -/
inductive Number
  | int (value : Int)
  | float (value : Float)
  deriving DecidableEq, Repr

namespace Number

/-! ## Order -/

/-- The place of a number on the extended line: the first part tells the two
infinities from the finite numbers between them. What is not a number has no place. -/
def place? : Number → Option (Int × Rat)
  | .int value => some (0, value)
  | .float value =>
    match Binary64.read value with
    | .notANumber => none
    | .infinite negative => some (if negative then (-1, 0) else (1, 0))
    | .finite negative mantissa exponent =>
      some (0, Binary64.scaled (if negative then -mantissa else mantissa) exponent)

/-- Is a number less than another? Nothing compares with what is not a number. -/
def lt (first second : Number) : Bool :=
  match first.place?, second.place? with
  | some (side, value), some (otherSide, otherValue) =>
    side < otherSide || (side == otherSide && value < otherValue)
  | _, _ => false

/-- Do two numbers have the same value? -/
def eq (first second : Number) : Bool :=
  match first.place?, second.place? with
  | some place, some otherPlace => place == otherPlace
  | _, _ => false

/-- Is a number at most another? -/
def le (first second : Number) : Bool :=
  first.lt second || first.eq second

/-- Is a number zero? Both signs of zero are. -/
def isZero (number : Number) : Bool :=
  number.eq (.int 0)

/-- Is a number below zero? -/
def isNegative (number : Number) : Bool :=
  number.lt (.int 0)

/-- Is a number finite and without a fractional part? -/
def isWhole : Number → Bool
  | .int _ => true
  | .float value =>
    match Binary64.value? value with
    | some exact => exact.den == 1
    | none => false

/-- Is a number finite? -/
def isFinite : Number → Bool
  | .int _ => true
  | .float value => Binary64.isFinite value

/-! ## Text -/

/-- The greatest number of decimal digits that is read or written. -/
def digitLimit : Nat := 4300

/-- The decimal text of a whole number, of at most `digitLimit` digits. -/
def intText (value : Int) : Except Fault String :=
  if Nat.pow 10 digitLimit ≤ value.natAbs then .error .tooManyDigits else .ok (toString value)

/-- The text of a decimal exponent: a sign and at least two digits. -/
def exponentText (exponent : Int) : String :=
  (if exponent < 0 then "e-" else "e+") ++ (if exponent.natAbs < 10 then "0" else "") ++
    toString exponent.natAbs

/-- The text of a decimal. It is positional from 0.0001 up to sixteen digits
before the point and has at least one digit after the point; otherwise it has an
exponent. -/
def decimalText (value : Decimal) : String :=
  let digits := Nat.toDigits 10 value.digits
  let leading := (digits.length : Int) - 1 + value.exponent
  if leading < -4 || 16 ≤ leading then
    let fraction := digits.drop 1
    String.ofList (digits.take 1 ++ if fraction.isEmpty then [] else '.' :: fraction) ++
      exponentText leading
  else if 0 ≤ value.exponent then
    String.ofList (digits ++ List.replicate value.exponent.toNat '0' ++ ['.', '0'])
  else if 0 ≤ leading then
    String.ofList (digits.take (leading.toNat + 1) ++ '.' :: digits.drop (leading.toNat + 1))
  else
    String.ofList ('0' :: '.' :: (List.replicate (-leading - 1).toNat '0' ++ digits))

/-- The text of a floating-point number: the shortest decimal that reads back. -/
def floatText (value : Float) : String :=
  match Binary64.read value with
  | .notANumber => "nan"
  | .infinite negative => if negative then "-inf" else "inf"
  | .finite negative mantissa exponent =>
    (if negative then "-" else "") ++ decimalText (shortestDecimal mantissa exponent)

/-- The text of a number. -/
def text : Number → Except Fault String
  | .int value => intText value
  | .float value => .ok (floatText value)

end Number

end GlyphCompiler
