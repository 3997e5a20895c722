/-
# Reading tokens

Which terminals are tried depends on the state of the parser: those that it
admits, and ignored text. They are tried in a fixed order, and the first that
matches is taken: decimals and code points, then the classes of unbounded
length, then the fixed texts from the longest to the shortest.

Where a name is admitted, a keyword is not tried on its own: the whole name is
read, and it is the keyword if that keyword is admitted too. Elsewhere a
keyword is a fixed text like any other, and more letters may follow it.
-/

import GlyphCompiler.Position
import GlyphCompiler.Token.Pattern

namespace GlyphCompiler

/-- A word of the source text: its class, its text and where it starts. -/
structure Token where
  kind : Terminal
  text : String
  position : Position
  deriving DecidableEq, Repr

namespace Lexer

/-- The order in which terminals are tried. -/
def order : List Terminal :=
  [.decimal, .codepoint,
    .comment, .doubleQuoted, .singleQuoted, .name, .integer, .blank,
    .exscribeWord, .conjureWord, .invokeWord, .returnWord,
    .affixWord, .breakWord, .constWord, .evokeWord, .falseWord, .whileWord,
    .elseWord, .mainWord, .nullWord, .trueWord, .letWord,
    .ifWord, .or, .and, .comparison, .power, .arrow, .plusPlus, .minusMinus,
    .plus, .minus, .star, .slash, .percent, .bang, .ampersand,
    .leftParen, .rightParen, .leftBracket, .rightBracket, .leftBrace, .rightBrace,
    .comma, .colon, .semicolon, .equal, .atSign, .question]

/-- The terminals tried where some are admitted, in order. -/
def candidates (admitted : List Terminal) : List Terminal :=
  order.filter fun terminal =>
    (terminal.isIgnored || admitted.contains terminal) &&
      !(terminal.isKeyword && admitted.contains .name)

/-- The class of a name: the admitted keyword of the same spelling, if there is one. -/
def classify (admitted : List Terminal) (text : List Char) : Terminal :=
  (admitted.find? fun terminal =>
    terminal.isKeyword && terminal.fixedText? == some (String.ofList text)).getD .name

/-- The class and the length of the first token, or of the first ignored text. -/
def next? (admitted : List Terminal) (input : List Char) : Option (Terminal × Nat) :=
  ((candidates admitted).findSome? fun terminal =>
    (terminal.match? input).map fun length => (terminal, length)).map
  fun (terminal, length) =>
    if terminal = .name then (classify admitted (input.take length), length)
    else (terminal, length)

/-- Every token has at least one character. -/
theorem next?_pos {admitted : List Terminal} {input : List Char} {kind : Terminal}
    {length : Nat} (found : next? admitted input = some (kind, length)) : 0 < length := by
  obtain ⟨⟨terminal, count⟩, matched, same⟩ := Option.map_eq_some_iff.mp found
  obtain ⟨tried, -, here⟩ := List.exists_of_findSome?_eq_some matched
  obtain ⟨size, fits, pair⟩ := Option.map_eq_some_iff.mp here
  have positive := Terminal.match?_pos fits
  grind

end Lexer

end GlyphCompiler
