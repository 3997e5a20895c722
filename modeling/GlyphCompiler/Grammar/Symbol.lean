/-
# Grammar symbols

The terminals of the Glyph language are its keywords, its operators and
punctuation marks, the classes of words and literals, the two kinds of ignored
text, and the end of the input. The nonterminals are the syntactic categories;
those named `more…` are the left-recursive helpers behind a repetition.
-/

namespace GlyphCompiler

/-- The classes into which the lexer sorts the words of a source text. -/
inductive Terminal
  -- Keywords.
  | mainWord | affixWord | evokeWord | letWord | constWord | ifWord | elseWord
  | whileWord | breakWord | returnWord | invokeWord | exscribeWord | conjureWord
  | trueWord | falseWord | nullWord
  -- Operators.
  | or | and | comparison | plus | minus | star | power | slash | percent | bang
  | ampersand
  -- Punctuation.
  | leftParen | rightParen | leftBracket | rightBracket | leftBrace | rightBrace
  | comma | colon | semicolon | equal | atSign | question | arrow | plusPlus | minusMinus
  -- Names and literals.
  | name | integer | decimal | codepoint | doubleQuoted | singleQuoted
  -- Ignored text.
  | comment | blank
  -- The end of the input, which no text spells.
  | endOfInput
  deriving DecidableEq, Repr, Inhabited

namespace Terminal

/-- Every terminal, once. -/
def all : List Terminal :=
  [mainWord, affixWord, evokeWord, letWord, constWord, ifWord, elseWord, whileWord,
    breakWord, returnWord, invokeWord, exscribeWord, conjureWord, trueWord, falseWord,
    nullWord, or, and, comparison, plus, minus, star, power, slash, percent, bang,
    ampersand, leftParen, rightParen, leftBracket, rightBracket, leftBrace, rightBrace,
    comma, colon, semicolon, equal, atSign, question, arrow, plusPlus, minusMinus, name,
    integer, decimal, codepoint, doubleQuoted, singleQuoted, comment, blank, endOfInput]

theorem mem_all (terminal : Terminal) : terminal ∈ all := by
  cases terminal <;> decide

/-- The name under which diagnostics and parse trees show a terminal. -/
def label : Terminal → String
  | mainWord => "MAIN"
  | affixWord => "AFFIX"
  | evokeWord => "EVOKE"
  | letWord => "LET"
  | constWord => "CONST"
  | ifWord => "IF"
  | elseWord => "ELSE"
  | whileWord => "WHILE"
  | breakWord => "BREAK"
  | returnWord => "RETURN"
  | invokeWord => "INVOKE"
  | exscribeWord => "EXSCRIBE"
  | conjureWord => "CONJURE"
  | trueWord => "TRUE"
  | falseWord => "FALSE"
  | nullWord => "NULL"
  | or => "OR"
  | and => "AND"
  | comparison => "CMP_OP"
  | plus => "PLUS"
  | minus => "MINUS"
  | star => "STAR"
  | power => "POW"
  | slash => "SLASH"
  | percent => "PERCENT"
  | bang => "BANG"
  | ampersand => "AMP"
  | leftParen => "LPAR"
  | rightParen => "RPAR"
  | leftBracket => "LSQB"
  | rightBracket => "RSQB"
  | leftBrace => "LBRACE"
  | rightBrace => "RBRACE"
  | comma => "COMMA"
  | colon => "COLON"
  | semicolon => "SEMICOLON"
  | equal => "EQUAL"
  | atSign => "AT"
  | question => "QMARK"
  | arrow => "__ANON_0"
  | plusPlus => "__ANON_1"
  | minusMinus => "__ANON_2"
  | name => "NAME"
  | integer => "INT"
  | decimal => "FLOAT"
  | codepoint => "CODEPOINT"
  | doubleQuoted => "DQ_STRING"
  | singleQuoted => "SQ_STRING"
  | comment => "COMMENT"
  | blank => "WS"
  | endOfInput => "$END"

end Terminal

/-- The syntactic categories of the Glyph language. -/
inductive Nonterminal
  -- Programs and statements.
  | start | moreItems | item | mainStatement | statement | importStatement | symbol
  | functionDeclaration | functionBody | expressionBody | parameters | moreParameters
  | parameter | variableDeclaration | mutability | conjureBinding | assignment
  | increment | decrement | ifStatement | elseClause | whileStatement | breakStatement
  | returnStatement | exscribeStatement | invokeStatement | callStatement | block
  | moreStatements
  -- Expressions, weakest operator first.
  | expression | orExpression | andExpression | comparisonExpression | addExpression
  | multiplyExpression | unaryExpression | powerExpression | postfixExpression | call
  | arguments | moreArguments | atom | conjure
  -- Types.
  | type | postfixType | atomType | moreTypes
  deriving DecidableEq, Repr, Inhabited

namespace Nonterminal

/-- Every nonterminal, once. -/
def all : List Nonterminal :=
  [start, moreItems, item, mainStatement, statement, importStatement, symbol,
    functionDeclaration, functionBody, expressionBody, parameters, moreParameters,
    parameter, variableDeclaration, mutability, conjureBinding, assignment, increment,
    decrement, ifStatement, elseClause, whileStatement, breakStatement, returnStatement,
    exscribeStatement, invokeStatement, callStatement, block, moreStatements, expression,
    orExpression, andExpression, comparisonExpression, addExpression, multiplyExpression,
    unaryExpression, powerExpression, postfixExpression, call, arguments, moreArguments,
    atom, conjure, type, postfixType, atomType, moreTypes]

theorem mem_all (nonterminal : Nonterminal) : nonterminal ∈ all := by
  cases nonterminal <;> decide

end Nonterminal

/-- What may stand in a sentential form. -/
inductive Symbol
  | terminal (kind : Terminal)
  | nonterminal (category : Nonterminal)
  deriving DecidableEq, Repr, Inhabited

/-- The number of a symbol. Terminals have the odd numbers, nonterminals the even
ones from two on, so zero is left for the absence of a symbol. -/
def Symbol.number : Symbol → Nat
  | .terminal kind => 2 * kind.ctorIdx + 1
  | .nonterminal category => 2 * category.ctorIdx + 2

/-- Every symbol, once. -/
def Symbol.all : List Symbol :=
  Terminal.all.map .terminal ++ Nonterminal.all.map .nonterminal

end GlyphCompiler
