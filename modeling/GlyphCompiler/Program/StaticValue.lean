/-
# The values of literal expressions

An expression that is built from literals and operators has a value before the
program runs. The elements of an array literal may be unknown one by one; any
other expression has no value until it runs.
-/

import GlyphCompiler.Program.Basic
import GlyphCompiler.Value

namespace GlyphCompiler

mutual

/-- The value of an expression, as far as it is known before the program runs. -/
def Expr.staticValue : Expr → Except Fault Value
  | .number _ value => .ok (.number value)
  | .bool _ value => .ok (.bool value)
  | .string _ value => .ok (.text value)
  | .glyph _ value => .ok (.text (String.singleton value))
  | .codepoint _ value => .ok (.number (.int value))
  | .null _ => .ok .null
  | .array _ elements => return .list (← staticValues elements)
  | .unary _ operator operand => return Value.unary operator (← operand.staticValue)
  | .binary info operator left right => do
    let left ← left.staticValue
    let right ← right.staticValue
    Value.binary operator left right info.type.isIntegral
  | _ => .ok .unknown

/-- The values of some expressions in order. -/
def staticValues : List Expr → Except Fault (List Value)
  | [] => .ok []
  | expression :: rest => return (← expression.staticValue) :: (← staticValues rest)

end

end GlyphCompiler
