/-
# Simplifying operators

An operator whose operands have been optimized is folded if both are literals,
and otherwise simplified by the laws of its neutral and absorbing operands. A law
is used only where the type of the whole is kept, and an operand is dropped only
if evaluating it has no effect.
-/

import GlyphCompiler.Program.Walk
import GlyphCompiler.Value

namespace GlyphCompiler

namespace Optimizer

/-- The value of a number or truth literal. -/
def literalValue : Expr → Value
  | .number _ value => .number value
  | .bool _ value => .bool value
  | _ => .unknown

/-- Is an expression the literal of a given whole number? -/
def isNumber (expression : Expr) (number : Int) : Bool :=
  match expression with
  | .number _ value => value.eq (.int number)
  | _ => false

/-- A literal of a number, if one of its type can hold the number: whole numbers for
the integer types, finite ones for the others. -/
def numberLiteral (info : Info) (value : Number) : Except Fault (Option Expr) :=
  match info.type with
  | .numeric kind =>
    if kind.isIntegral then
      match value with
      | .int _ => .ok (some (.number info value))
      | .float _ => .ok none
    else do
      let rounded ← value.toFloat
      return if Binary64.isFinite rounded then some (.number info value) else none
  | _ => .ok none

/-- The literal that two literals and an operator between them fold to. -/
def fold (info : Info) (operator : BinaryOperator) (left right : Expr) :
    Except Fault (Option Expr) := do
  match ← Value.binary operator (literalValue left) (literalValue right) info.type.isIntegral with
  | .number value => numberLiteral info value
  | .bool value => return some (.bool ⟨.bool, info.position⟩ value)
  | _ => return none

/-- The first result that there is, or else a given expression. -/
def firstOr (otherwise : Expr) : List (Except Fault (Option Expr)) → Except Fault Expr
  | [] => .ok otherwise
  | attempt :: rest => do
    match ← attempt with
    | some result => return result
    | none => firstOr otherwise rest

/-- An expression, if a condition holds. -/
def when (condition : Bool) (result : Expr) : Except Fault (Option Expr) :=
  .ok (if condition then some result else none)

/-- The literal of a number, if a condition holds. -/
def literalWhen (condition : Bool) (info : Info) (value : Number) :
    Except Fault (Option Expr) :=
  if condition then numberLiteral info value else .ok none

/-- The number of a literal, or zero. -/
def numberOf : Expr → Number
  | .number _ value => value
  | _ => .int 0

/-- Apply the laws of neutral and absorbing operands to two operands that do not fold. -/
def applyLaws (info : Info) (operator : BinaryOperator) (left right : Expr) :
    Except Fault Expr :=
  let keeps (expression : Expr) := expression.type == info.type
  firstOr (.binary info operator left right) <|
    match operator with
    | .add => [when (isNumber left 0 && keeps right) right,
        when (isNumber right 0 && keeps left) left]
    | .sub => [when (isNumber right 0 && keeps left) left,
        when (isNumber left 0 && keeps right && info.type.isNumeric) (.unary info .neg right)]
    | .mul => [when (isNumber left 1 && keeps right) right,
        when (isNumber right 1 && keeps left) left,
        literalWhen (isNumber right 0 && left.isPure) info (numberOf right),
        literalWhen (isNumber left 0 && right.isPure) info (numberOf left)]
    | .pow => [literalWhen (isNumber left 1 && right.isPure) info (numberOf left),
        literalWhen (isNumber right 0 && left.isPure) info (.int 1)]
    | .and =>
      match left with
      | .bool _ value => [when (!value) left, when (keeps right) right]
      | _ => []
    | .or =>
      match left with
      | .bool _ value => [when value left, when (keeps right) right]
      | _ => []
    | _ => []

/-- Simplify an operator between two optimized operands. -/
def simplifyBinary (info : Info) (operator : BinaryOperator) (left right : Expr) :
    Except Fault Expr := do
  match ← fold info operator left right with
  | some result => return result
  | none => applyLaws info operator left right

/-- Simplify an operator before an optimized operand. -/
def simplifyUnary (info : Info) (operator : UnaryOperator) (operand : Expr) :
    Except Fault Expr := do
  match Value.unary operator (literalValue operand) with
  | .bool value => return .bool ⟨.bool, info.position⟩ value
  | .number value => return (← numberLiteral info value).getD (.unary info operator operand)
  | _ => return .unary info operator operand

/-- Simplify what an optimized pointer points to. The address of a variable is not
taken only to be followed. -/
def simplifyDereference (info : Info) (operand : Expr) : Expr :=
  match operand with
  | .addressOf _ use => use.toExpr
  | _ => .dereference info operand

end Optimizer

end GlyphCompiler
