/-
# Conversion between types

A value may flow from one type into another if the types say so, or if the value
is known and happens to fit. A known number fits into a type whose range holds
it; into an integer type only when it is whole. Functions take their parameters
the other way round: what the target is given, the source must accept.
-/

import GlyphCompiler.Ty.Basic
import GlyphCompiler.Value

namespace GlyphCompiler

namespace Numeric

/-- Does a number lie in the range of a type, and is it whole if the type asks for that? -/
def fits (kind : Numeric) (number : Number) : Bool :=
  !(kind.isIntegral && !number.isWhole) &&
    (Number.int kind.least).le number && number.le (.int kind.greatest)

/-- Does a known value fit into a numeric type? Only numbers do. -/
def admits (kind : Numeric) : Value → Bool
  | .number number => kind.fits number
  | _ => false

/-- May numbers of one family flow into another? Any number may become fractional. -/
def familiesCompatible (source target : Numeric) : Bool :=
  source.family == target.family || !target.isIntegral

/-- May a number of one type, with what is known of its value, flow into another?
A wider type of a compatible family needs no value. -/
def canConvert (source target : Numeric) (value : Value) : Bool :=
  source.familiesCompatible target &&
    (source.width.bits < target.width.bits || target.admits value)

end Numeric

namespace Ty

/-- The type of a whole literal: the narrowest of the signed integer types from 32
bits on that holds it, or the widest of all. -/
def ofInt (value : Int) : Ty :=
  .int (([Width.w32, .w64].find? fun width =>
    Numeric.fits ⟨.int, false, width⟩ (.int value)).getD .w128)

mutual

/-- May a value of one type, with what is known of it, flow into another type? -/
def canConvert (source target : Ty) (value : Value) : Bool :=
  if source = target || source = any || target = any then true
  else match source, target with
    | .primitive .glyph, .primitive .string => true
    | .optional sourceInner, .optional targetInner =>
      match value with
      | .null => true
      | _ => canConvert sourceInner targetInner value
    | source, .optional targetInner =>
      match value with
      | .null => true
      | _ => canConvert source targetInner value
    | .array sourceElement, .array targetElement =>
      match value with
      | .list elements => elements.all fun element =>
          canConvert sourceElement targetElement element
      | _ => canConvert sourceElement targetElement .unknown
    | .function sourceParameters sourceResult, .function targetParameters targetResult =>
      canConvertAll targetParameters sourceParameters &&
        canConvert sourceResult targetResult .unknown
    | .numeric sourceKind, .numeric targetKind => sourceKind.canConvert targetKind value
    | _, _ => false
termination_by sizeOf source + sizeOf target

/-- May values of some types flow into as many other types, one by one? -/
def canConvertAll (sources targets : List Ty) : Bool :=
  match sources, targets with
  | [], [] => true
  | source :: sources, target :: targets =>
    canConvert source target .unknown && canConvertAll sources targets
  | _, _ => false
termination_by sizeOf sources + sizeOf targets

end

theorem canConvert_self (type : Ty) (value : Value) : type.canConvert type value = true := by
  unfold canConvert
  simp

theorem canConvert_any (type : Ty) (value : Value) : type.canConvert any value = true := by
  unfold canConvert
  simp

/-- May values of two types be compared or combined? One must convert to the
other, or both are of one family and width, signedness aside. -/
def areCompatible (left right : Ty) (leftValue rightValue : Value) : Bool :=
  left.canConvert right leftValue || right.canConvert left rightValue ||
    match left, right with
    | .numeric left, .numeric right => left.family == right.family && left.width == right.width
    | _, _ => false

end Ty

end GlyphCompiler
