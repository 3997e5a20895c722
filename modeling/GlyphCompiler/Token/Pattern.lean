/-
# What each terminal matches

A terminal is either a fixed text or a class of texts described by a pattern.
`Terminal.match?` gives the length of the longest text of the terminal at the
front of the input. Every match has at least one character, and a terminal's
text is found by looking at the input alone, whatever comes after the text.
-/

import GlyphCompiler.Grammar.Symbol
import GlyphCompiler.Text.DecimalDigit

namespace GlyphCompiler

namespace Pattern

/-- A character that may begin a name. -/
def isNameStart (character : Char) : Bool :=
  character.isAlpha || character = '_'

/-- A character that may continue a name. -/
def isNamePart (character : Char) : Bool :=
  character.isAlphanum || character = '_'

/-- The white space that the grammar skips. -/
def isSkipped (character : Char) : Bool :=
  character = ' ' || character = '\t' || character = '\x0c' || character = '\r' ||
    character = '\n'

/-- A hexadecimal digit. -/
def isHexDigit (character : Char) : Bool :=
  character.isDigit || ('a' ≤ character && character ≤ 'f') ||
    ('A' ≤ character && character ≤ 'F')

/-- How many characters at the front of the input pass a test. -/
def run (test : Char → Bool) (input : List Char) : Nat :=
  (input.takeWhile test).length

/-- A run of at least one character. -/
def someRun (test : Char → Bool) (input : List Char) : Option Nat :=
  if run test input = 0 then none else some (run test input)

/-- A name: a letter or underscore, then letters, digits and underscores. -/
def name : List Char → Option Nat
  | [] => none
  | first :: rest => if isNameStart first then some (1 + run isNamePart rest) else none

/-- Digits, a point, digits. -/
def decimal (input : List Char) : Option Nat :=
  match someRun isDecimalDigit input with
  | none => none
  | some whole =>
    match input.drop whole with
    | '.' :: rest => (someRun isDecimalDigit rest).map fun places => whole + 1 + places
    | _ => none

/-- A code point: `U+` and four to six hexadecimal digits. -/
def codepoint : List Char → Option Nat
  | 'U' :: '+' :: rest =>
    let digits := min 6 (run isHexDigit rest)
    if 4 ≤ digits then some (2 + digits) else none
  | _ => none

/-- The length of the text up to and including a closing quote. A backslash takes
the next character with it, and no line feed may stand inside. -/
def closing (quote : Char) : List Char → Option Nat
  | [] => none
  | '\\' :: '\n' :: _ => none
  | '\\' :: _ :: rest => (closing quote rest).map (2 + ·)
  | character :: rest =>
    if character = quote then some 1
    else if character = '\\' || character = '\n' then none
    else (closing quote rest).map (1 + ·)

/-- A text between two quotes. -/
def quotedText (quote : Char) : List Char → Option Nat
  | [] => none
  | first :: rest => if first = quote then (closing quote rest).map (1 + ·) else none

/-- The length of the text up to and including the end of a comment. -/
def commentEnd : List Char → Option Nat
  | '@' :: '/' :: _ => some 2
  | _ :: rest => (commentEnd rest).map (1 + ·)
  | [] => none

/-- A comment: from `/@` to the first `@/` after it. -/
def comment : List Char → Option Nat
  | '/' :: '@' :: rest => (commentEnd rest).map (2 + ·)
  | _ => none

/-- A comparison operator. The longer ones are tried first. -/
def comparison : List Char → Option Nat
  | '=' :: '=' :: _ => some 2
  | '!' :: '=' :: _ => some 2
  | '<' :: '=' :: _ => some 2
  | '>' :: '=' :: _ => some 2
  | '<' :: _ => some 1
  | '>' :: _ => some 1
  | _ => none

/-- A fixed text. -/
def fixed (text : List Char) (input : List Char) : Option Nat :=
  if text.isPrefixOf input then some text.length else none

/-! Whatever a pattern matches has at least one character. -/

theorem someRun_pos {test : Char → Bool} {input : List Char} {length : Nat}
    (found : someRun test input = some length) : 0 < length := by
  grind [someRun]

theorem name_pos {input : List Char} {length : Nat} (found : name input = some length) :
    0 < length := by
  cases input with
  | nil => exact absurd found nofun
  | cons first rest => grind [name]

theorem decimal_pos {input : List Char} {length : Nat} (found : decimal input = some length) :
    0 < length := by
  revert found
  fun_cases decimal input <;> grind [Option.map_eq_some_iff]

theorem codepoint_pos {input : List Char} {length : Nat}
    (found : codepoint input = some length) : 0 < length := by
  revert found
  fun_cases codepoint input <;> grind

theorem quotedText_pos {quote : Char} {input : List Char} {length : Nat}
    (found : quotedText quote input = some length) : 0 < length := by
  revert found
  fun_cases quotedText quote input <;> grind [Option.map_eq_some_iff]

theorem comment_pos {input : List Char} {length : Nat} (found : comment input = some length) :
    0 < length := by
  revert found
  fun_cases comment input <;> grind [Option.map_eq_some_iff]

theorem comparison_pos {input : List Char} {length : Nat}
    (found : comparison input = some length) : 0 < length := by
  revert found
  fun_cases comparison input <;> grind

theorem fixed_pos {text input : List Char} {length : Nat} (nonempty : 0 < text.length)
    (found : fixed text input = some length) : 0 < length := by
  grind [fixed]

end Pattern

namespace Terminal

/-- The text of a terminal that has only one. -/
def fixedText? : Terminal → Option String
  | mainWord => some "main"
  | affixWord => some "affix"
  | evokeWord => some "evoke"
  | letWord => some "let"
  | constWord => some "const"
  | ifWord => some "if"
  | elseWord => some "else"
  | whileWord => some "while"
  | breakWord => some "break"
  | returnWord => some "return"
  | invokeWord => some "invoke"
  | exscribeWord => some "exscribe"
  | conjureWord => some "conjure"
  | trueWord => some "true"
  | falseWord => some "false"
  | nullWord => some "null"
  | or => some "||"
  | and => some "&&"
  | plus => some "+"
  | minus => some "-"
  | star => some "*"
  | power => some "**"
  | slash => some "/"
  | percent => some "%"
  | bang => some "!"
  | ampersand => some "&"
  | leftParen => some "("
  | rightParen => some ")"
  | leftBracket => some "["
  | rightBracket => some "]"
  | leftBrace => some "\x7b"
  | rightBrace => some "\x7d"
  | comma => some ","
  | colon => some ":"
  | semicolon => some ";"
  | equal => some "="
  | atSign => some "@"
  | question => some "?"
  | arrow => some "->"
  | plusPlus => some "++"
  | minusMinus => some "--"
  | comparison | name | integer | decimal | codepoint | doubleQuoted | singleQuoted
  | comment | blank | endOfInput => none

/-- The length of the text of a terminal at the front of the input. -/
def match? (terminal : Terminal) (input : List Char) : Option Nat :=
  match terminal with
  | comparison => Pattern.comparison input
  | name => Pattern.name input
  | integer => Pattern.someRun isDecimalDigit input
  | decimal => Pattern.decimal input
  | codepoint => Pattern.codepoint input
  | doubleQuoted => Pattern.quotedText '"' input
  | singleQuoted => Pattern.quotedText '\'' input
  | comment => Pattern.comment input
  | blank => Pattern.someRun Pattern.isSkipped input
  | endOfInput => none
  | _ => terminal.fixedText?.bind fun text => Pattern.fixed text.toList input

/-- Every match has at least one character. -/
theorem match?_pos {terminal : Terminal} {input : List Char} {length : Nat}
    (found : terminal.match? input = some length) : 0 < length := by
  cases terminal <;> simp only [match?, fixedText?, Option.bind_some] at found <;>
    first
    | exact Pattern.fixed_pos (by decide) found
    | exact Pattern.comparison_pos found
    | exact Pattern.name_pos found
    | exact Pattern.someRun_pos found
    | exact Pattern.decimal_pos found
    | exact Pattern.codepoint_pos found
    | exact Pattern.quotedText_pos found
    | exact Pattern.comment_pos found
    | exact absurd found nofun

/-- Is a terminal a keyword? Keywords are the fixed texts that are spelled like names. -/
def isKeyword : Terminal → Bool
  | mainWord | affixWord | evokeWord | letWord | constWord | ifWord | elseWord | whileWord
  | breakWord | returnWord | invokeWord | exscribeWord | conjureWord | trueWord | falseWord
  | nullWord => true
  | _ => false

/-- A keyword is exactly a fixed text that would be a name from end to end. -/
theorem isKeyword_iff (terminal : Terminal) :
    terminal.isKeyword ↔ ∃ text, terminal.fixedText? = some text ∧
      Pattern.name text.toList = some text.toList.length := by
  cases terminal <;> simp only [isKeyword, fixedText?] <;> decide

/-- Is a terminal ignored wherever it stands? -/
def isIgnored : Terminal → Bool
  | comment | blank => true
  | _ => false

end Terminal

end GlyphCompiler
