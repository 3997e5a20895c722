/-
# Escapes in string literals

Between the quotes of a literal a backslash stands before a letter or digit for
a control character, and before any other character for that character. A
backslash at the very end stands for itself.
-/

namespace GlyphCompiler

namespace Escape

/-- The character that a backslash and a character stand for. -/
def meaning (character : Char) : Char :=
  match character with
  | 'n' => '\n'
  | 't' => '\t'
  | 'r' => '\r'
  | '0' => '\x00'
  | other => other

/-- Resolve the escapes in a run of characters. -/
def resolve : List Char → List Char
  | '\\' :: character :: rest => meaning character :: resolve rest
  | character :: rest => character :: resolve rest
  | [] => []

end Escape

/-- The text that is written between the quotes of a literal. -/
def unescape (text : String) : String :=
  String.ofList (Escape.resolve text.toList)

/-- The text of a literal: what stands between its first and last character,
escapes resolved. -/
def literalText (literal : String) : String :=
  String.ofList (Escape.resolve (literal.toList.drop 1).dropLast)

end GlyphCompiler
