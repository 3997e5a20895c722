/-
# Text quoted in messages

A message quotes a piece of source text so that every character of it can be
seen. The text stands between single quotes, or between double quotes when it
holds a single quote and no double one. A backslash and the enclosing quote are
escaped, the three common controls have letters of their own, and any other
character that is not printable shows its code point in hexadecimal, with two,
four or eight digits.
-/

import GlyphCompiler.Text.Printable

namespace GlyphCompiler

namespace Quoted

/-- The lower-case hexadecimal digit of a number below sixteen. -/
def hexDigit (value : Nat) : Char :=
  if value < 10 then Char.ofNat ('0'.toNat + value) else Char.ofNat ('a'.toNat + (value - 10))

/-- The last hexadecimal digits of a number, as many as asked for. -/
def hexDigits : Nat → Nat → List Char
  | 0, _ => []
  | count + 1, value => hexDigits count (value / 16) ++ [hexDigit (value % 16)]

/-- A code point in hexadecimal, in the shortest of the three widths that holds it. -/
def codeEscape (code : Nat) : List Char :=
  if code < 0x100 then '\\' :: 'x' :: hexDigits 2 code
  else if code < 0x10000 then '\\' :: 'u' :: hexDigits 4 code
  else '\\' :: 'U' :: hexDigits 8 code

/-- One character as it stands between two quotes. -/
def escape (quote character : Char) : List Char :=
  if character = quote || character = '\\' then ['\\', character]
  else if character = '\n' then ['\\', 'n']
  else if character = '\r' then ['\\', 'r']
  else if character = '\t' then ['\\', 't']
  else if isPrintable character then [character]
  else codeEscape character.toNat

/-- The quote that encloses a text. -/
def quoteFor (characters : List Char) : Char :=
  if characters.contains '\'' && !characters.contains '"' then '"' else '\''

end Quoted

/-- A text between quotes, with every character made visible. -/
def quoted (text : String) : String :=
  let characters := text.toList
  let quote := Quoted.quoteFor characters
  String.ofList (quote :: (characters.flatMap (Quoted.escape quote) ++ [quote]))

end GlyphCompiler
