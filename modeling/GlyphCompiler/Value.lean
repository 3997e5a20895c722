/-
# Values known before a program runs

The compiler works out the values of expressions that are built from literals.
An unknown value is one that only running the program would tell; it is not the
null of the language, which is a known value. The elements of a known list may
be unknown in turn.
-/

import GlyphCompiler.Number.Arithmetic
import GlyphCompiler.Operator

namespace GlyphCompiler

/-- What is known of a value before a program runs. -/
inductive Value
  | unknown
  | null
  | bool (value : Bool)
  | number (value : Number)
  | text (value : String)
  | list (elements : List Value)
  deriving Repr

namespace Value

/-- Is a value unknown? -/
def isUnknown : Value → Bool
  | .unknown => true
  | _ => false

/-- The number that a value is, if it is one. -/
def number? : Value → Option Number
  | .number value => some value
  | _ => none

/-- An optional number as a value. -/
def ofNumber? : Option Number → Value
  | some value => .number value
  | none => .unknown

/-- Apply an operator to one value. -/
def unary : UnaryOperator → Value → Value
  | .neg, .number value => .number value.neg
  | .not, .bool value => .bool !value
  | _, _ => .unknown

/-- Are two values equal? Lists are not compared, nor a number with anything else. -/
def equal? : Value → Value → Option Bool
  | .unknown, _ | _, .unknown => none
  | .list _, _ | _, .list _ => none
  | .number left, .number right => some (left.eq right)
  | .number _, _ | _, .number _ => none
  | .null, .null => some true
  | .bool left, .bool right => some (left == right)
  | .text left, .text right => some (left == right)
  | _, _ => some false

/-- Apply an arithmetic operator to two numbers. With exact quotients, whole
numbers that divide evenly have a whole quotient. -/
def arithmetic (operator : BinaryOperator) (left right : Number) (exact : Bool) :
    Except Fault (Option Number) :=
  match operator with
  | .add => return some (← left.add right)
  | .sub => return some (← left.sub right)
  | .mul => return some (← left.mul right)
  | .div => left.div exact right
  | .rem => left.rem right
  | .pow => .ok (left.pow right)
  | _ => .ok none

/-- Apply an operator to two values. `exact` asks for whole quotients where
whole numbers divide evenly. -/
def binary (operator : BinaryOperator) (left right : Value) (exact : Bool) :
    Except Fault Value :=
  match operator, left, right with
  | .or, .bool left, .bool right => .ok (.bool (left || right))
  | .and, .bool left, .bool right => .ok (.bool (left && right))
  | .eq, left, right =>
    .ok (match equal? left right with
      | some same => .bool same
      | none => .unknown)
  | .ne, left, right =>
    .ok (match equal? left right with
      | some same => .bool !same
      | none => .unknown)
  | .lt, .number left, .number right => .ok (.bool (left.lt right))
  | .le, .number left, .number right => .ok (.bool (left.le right))
  | .gt, .number left, .number right => .ok (.bool (right.lt left))
  | .ge, .number left, .number right => .ok (.bool (right.le left))
  | .add, .text left, .text right => .ok (.text (left ++ right))
  | operator, .number left, .number right =>
    return ofNumber? (← arithmetic operator left right exact)
  | _, _, _ => .ok .unknown

end Value

end GlyphCompiler
