/-
# JavaScript literals

A string literal stands between double quotes. The characters that would end it
or break its line are escaped, and every other character stands for itself. A
negative number stands in parentheses, so that it can follow any operator.
-/

import GlyphCompiler.Number.Arithmetic

namespace GlyphCompiler

namespace JavaScript

/-- One character as it stands in a string literal. -/
def escapeChar (character : Char) : List Char :=
  match character with
  | '\\' => ['\\', '\\']
  | '"' => ['\\', '"']
  | '\n' => ['\\', 'n']
  | '\t' => ['\\', 't']
  | '\r' => ['\\', 'r']
  | '\x0c' => ['\\', 'f']
  | '\x0b' => ['\\', 'v']
  | '\x00' => ['\\', 'x', '0', '0']
  | '\u2028' => ['\\', 'u', '2', '0', '2', '8']
  | '\u2029' => ['\\', 'u', '2', '0', '2', '9']
  | other => [other]

/-- A text as it stands between the quotes of a string literal. -/
def escape (text : String) : String :=
  String.ofList (text.toList.flatMap escapeChar)

/-- The string literal of a text. -/
def stringLiteral (text : String) : String :=
  "\"" ++ escape text ++ "\""

/-- From this size on a whole floating-point number is written with an exponent. -/
def wholeLimit : Number := .int (Nat.pow 10 16)

/-- The digits of a number. A whole floating-point number below the limit is written
like a whole number, without the sign of a zero. -/
def numberText (number : Number) : Except Fault String :=
  match number with
  | .int value => Number.intText value
  | .float value =>
    match Binary64.value? value with
    | some exact =>
      if exact.den = 1 && number.abs.lt wholeLimit then .ok (toString exact.num)
      else .ok (Number.floatText value)
    | none => .ok (Number.floatText value)

/-- The literal of a number. -/
def numberLiteral (number : Number) : Except Fault String := do
  let text ← numberText number
  return if number.isNegative then "(" ++ text ++ ")" else text

end JavaScript

end GlyphCompiler
