/-
# Plain data as JSON text

The text is indented by two spaces for each level, with one element or field on
a line; an empty list or record stands on its line. Only printable characters of
the basic alphabet are written as they are. Any other is escaped by its code
unit, or by two where it needs a surrogate pair.
-/

import GlyphCompiler.Data
import GlyphCompiler.Text.Quoted

namespace GlyphCompiler

namespace Json

/-- A sixteen-bit code unit in hexadecimal. -/
def unitEscape (unit : Nat) : List Char :=
  '\\' :: 'u' :: Quoted.hexDigits 4 unit

/-- One character as it stands in a string. -/
def escapeChar (character : Char) : List Char :=
  match character with
  | '"' => ['\\', '"']
  | '\\' => ['\\', '\\']
  | '\n' => ['\\', 'n']
  | '\r' => ['\\', 'r']
  | '\t' => ['\\', 't']
  | '\x0c' => ['\\', 'f']
  | '\x08' => ['\\', 'b']
  | other =>
    let code := other.toNat
    if 0x20 ≤ code && code ≤ 0x7E then [other]
    else if code < 0x10000 then unitEscape code
    else
      unitEscape (0xD800 + (code - 0x10000) / 0x400) ++
        unitEscape (0xDC00 + (code - 0x10000) % 0x400)

/-- A text as a string. -/
def string (text : String) : String :=
  "\"" ++ String.ofList (text.toList.flatMap escapeChar) ++ "\""

/-- A number. The names of what no decimal stands for are those of JavaScript. -/
def number (value : Number) : Except Fault String :=
  match value with
  | .int _ => value.text
  | .float float =>
    match Binary64.read float with
    | .notANumber => .ok "NaN"
    | .infinite negative => .ok (if negative then "-Infinity" else "Infinity")
    | .finite _ _ _ => value.text

/-- The start of a line. -/
def newLine (level : Nat) : String :=
  "\n" ++ String.ofList (List.replicate (2 * level) ' ')

mutual

/-- Data at a level of indentation. -/
def render (level : Nat) : Data → Except Fault String
  | .null => .ok "null"
  | .bool value => .ok (if value then "true" else "false")
  | .number value => number value
  | .text value => .ok (string value)
  | .list [] => .ok "[]"
  | .list (first :: rest) => do
    let head ← render (level + 1) first
    let tail ← renderElements (level + 1) rest
    return "[" ++ newLine (level + 1) ++ head ++ tail ++ newLine level ++ "]"
  | .record [] => .ok "\x7b\x7d"
  | .record ((name, first) :: rest) => do
    let head ← render (level + 1) first
    let tail ← renderFields (level + 1) rest
    return "\x7b" ++ newLine (level + 1) ++ string name ++ ": " ++ head ++ tail ++
      newLine level ++ "\x7d"

/-- Elements after the first. -/
def renderElements (level : Nat) : List Data → Except Fault String
  | [] => .ok ""
  | element :: rest => do
    let head ← render level element
    return "," ++ newLine level ++ head ++ (← renderElements level rest)

/-- Fields after the first. -/
def renderFields (level : Nat) : List (String × Data) → Except Fault String
  | [] => .ok ""
  | (name, value) :: rest => do
    let head ← render level value
    return "," ++ newLine level ++ string name ++ ": " ++ head ++ (← renderFields level rest)

end

end Json

/-- Plain data as JSON text. -/
def Data.toJson (data : Data) : Except Fault String :=
  Json.render 0 data

end GlyphCompiler
