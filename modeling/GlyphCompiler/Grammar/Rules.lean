/-
# The grammar of Glyph

Every production says what it derives and what it contributes to the parse
tree. A part of a production is kept, dropped (keywords and punctuation whose
presence the label already tells), or absent: an optional part that is left out
keeps its place in the tree as an empty slot. A production either builds a
labelled node or splices its kept parts into the node around it.

A repetition is spelled with a left-recursive helper of one or more rounds and
an alternative without it, an optional part with two alternatives. So only the
empty program needs an empty production.
-/

import GlyphCompiler.Grammar.Symbol

namespace GlyphCompiler

/-- The labels of parse-tree nodes. -/
inductive Label
  | start | mainStatement | importStatement | functionDeclaration | expressionBody
  | parameters | parameter | variableDeclaration | mutability | conjureBinding
  | assignment | increment | decrement | ifStatement | whileStatement | breakStatement
  | returnStatement | exscribeStatement | invokeStatement | callStatement | block
  | binary | unary | addressOf | dereference | subscript | call | arguments
  | integerLiteral | decimalLiteral | stringLiteral | quotedLiteral | codepointLiteral
  | trueLiteral | falseLiteral | nullLiteral | name | arrayLiteral | conjure
  | pointerType | optionalType | arrayType | functionType | namedType
  deriving DecidableEq, Repr, Inhabited

/-- The name under which a parse tree shows a label. -/
def Label.text : Label → String
  | .start => "start"
  | .mainStatement => "main_stmt"
  | .importStatement => "import_stmt"
  | .functionDeclaration => "function_decl"
  | .expressionBody => "expr_body"
  | .parameters => "params"
  | .parameter => "param"
  | .variableDeclaration => "var_decl"
  | .mutability => "mutability"
  | .conjureBinding => "conjure_binding"
  | .assignment => "assignment"
  | .increment => "increment"
  | .decrement => "decrement"
  | .ifStatement => "if_stmt"
  | .whileStatement => "while_stmt"
  | .breakStatement => "break_stmt"
  | .returnStatement => "return_stmt"
  | .exscribeStatement => "exscribe_stmt"
  | .invokeStatement => "invoke_stmt"
  | .callStatement => "call_stmt"
  | .block => "block"
  | .binary => "binary"
  | .unary => "unary"
  | .addressOf => "address_of"
  | .dereference => "dereference"
  | .subscript => "subscript"
  | .call => "call"
  | .arguments => "args"
  | .integerLiteral => "int_literal"
  | .decimalLiteral => "float_literal"
  | .stringLiteral => "string_literal"
  | .quotedLiteral => "quoted_literal"
  | .codepointLiteral => "codepoint_literal"
  | .trueLiteral => "true_literal"
  | .falseLiteral => "false_literal"
  | .nullLiteral => "null_literal"
  | .name => "name"
  | .arrayLiteral => "array_literal"
  | .conjure => "conjure"
  | .pointerType => "pointer_type"
  | .optionalType => "optional_type"
  | .arrayType => "array_type"
  | .functionType => "function_type"
  | .namedType => "named_type"

/-- One part of a production. -/
inductive Part
  /-- A symbol whose text or tree is kept. -/
  | keep (symbol : Symbol)
  /-- A terminal that leaves nothing in the tree. -/
  | drop (terminal : Terminal)
  /-- An optional part left out, which leaves an empty slot. -/
  | absent
  deriving DecidableEq, Repr

/-- What a part derives, if it derives anything. -/
def Part.symbol? : Part → Option Symbol
  | .keep symbol => some symbol
  | .drop terminal => some (.terminal terminal)
  | .absent => none

/-- What a production contributes to the parse tree. -/
inductive Build
  /-- A node over the kept parts. -/
  | node (label : Label)
  /-- The kept parts themselves. -/
  | splice
  deriving DecidableEq, Repr

/-- A production: the nonterminal it derives, its parts in order, and what it builds. -/
structure Production where
  head : Nonterminal
  parts : List Part
  build : Build
  deriving DecidableEq, Repr

/-- The symbols that a production puts in the place of its head. -/
def Production.body (production : Production) : List Symbol :=
  production.parts.filterMap Part.symbol?

namespace Grammar

/-- Keep the tree of a nonterminal. -/
private abbrev tree (nonterminal : Nonterminal) : Part := .keep (.nonterminal nonterminal)

/-- Keep the word of a terminal. -/
private abbrev word (terminal : Terminal) : Part := .keep (.terminal terminal)

open GlyphCompiler.Part (drop absent)

/-- A production that builds a node. -/
private abbrev node (head : Nonterminal) (label : Label) (parts : List Part) : Production :=
  ⟨head, parts, .node label⟩

/-- A production whose kept parts go straight into the node around it. -/
private abbrev splice (head : Nonterminal) (parts : List Part) : Production :=
  ⟨head, parts, .splice⟩

/-- Programs and their items. -/
def programRules : List Production :=
  [node .start .start [],
    node .start .start [tree .moreItems],
    splice .moreItems [tree .item],
    splice .moreItems [tree .moreItems, tree .item],
    splice .item [tree .statement],
    splice .item [tree .mainStatement],
    node .mainStatement .mainStatement [drop .mainWord, drop .equal, tree .statement]]

/-- Declarations: imports, functions, variables and conjure bindings. -/
def declarationRules : List Production :=
  [node .importStatement .importStatement
      [drop .affixWord, word .name, drop .atSign, tree .symbol, drop .semicolon],
    splice .symbol [word .name],
    splice .symbol [word .exscribeWord],
    node .functionDeclaration .functionDeclaration
      [drop .evokeWord, word .name, drop .leftParen, tree .parameters, drop .rightParen,
        drop .arrow, tree .type, tree .functionBody],
    node .functionDeclaration .functionDeclaration
      [drop .evokeWord, word .name, drop .leftParen, tree .parameters, drop .rightParen,
        absent, tree .functionBody],
    node .functionDeclaration .functionDeclaration
      [drop .evokeWord, word .name, drop .leftParen, absent, drop .rightParen,
        drop .arrow, tree .type, tree .functionBody],
    node .functionDeclaration .functionDeclaration
      [drop .evokeWord, word .name, drop .leftParen, absent, drop .rightParen,
        absent, tree .functionBody],
    splice .functionBody [tree .block],
    splice .functionBody [tree .expressionBody],
    node .expressionBody .expressionBody [drop .equal, tree .expression, drop .semicolon],
    node .expressionBody .expressionBody [drop .equal, tree .expression],
    node .parameters .parameters [tree .parameter, tree .moreParameters],
    node .parameters .parameters [tree .parameter],
    splice .moreParameters [drop .comma, tree .parameter],
    splice .moreParameters [tree .moreParameters, drop .comma, tree .parameter],
    node .parameter .parameter [word .name, drop .colon, tree .type],
    node .variableDeclaration .variableDeclaration
      [tree .mutability, word .name, drop .colon, tree .type, drop .equal, tree .expression,
        drop .semicolon],
    node .variableDeclaration .variableDeclaration
      [tree .mutability, word .name, absent, drop .equal, tree .expression, drop .semicolon],
    node .mutability .mutability [word .letWord],
    node .mutability .mutability [word .constWord],
    node .conjureBinding .conjureBinding
      [word .name, drop .colon, tree .type, drop .equal, tree .conjure, drop .semicolon],
    node .conjureBinding .conjureBinding
      [word .name, drop .colon, tree .type, drop .equal, tree .conjure]]

/-- Statements that run. -/
def statementRules : List Production :=
  [splice .statement [tree .importStatement],
    splice .statement [tree .functionDeclaration],
    splice .statement [tree .variableDeclaration],
    splice .statement [tree .conjureBinding],
    splice .statement [tree .assignment],
    splice .statement [tree .increment],
    splice .statement [tree .decrement],
    splice .statement [tree .ifStatement],
    splice .statement [tree .whileStatement],
    splice .statement [tree .breakStatement],
    splice .statement [tree .returnStatement],
    splice .statement [tree .exscribeStatement],
    splice .statement [tree .invokeStatement],
    splice .statement [tree .callStatement],
    splice .statement [tree .block],
    node .assignment .assignment
      [word .name, drop .equal, tree .expression, drop .semicolon],
    node .increment .increment [word .name, drop .plusPlus, drop .semicolon],
    node .decrement .decrement [word .name, drop .minusMinus, drop .semicolon],
    node .ifStatement .ifStatement
      [drop .ifWord, tree .expression, tree .block, tree .elseClause],
    node .ifStatement .ifStatement [drop .ifWord, tree .expression, tree .block, absent],
    splice .elseClause [drop .elseWord, tree .block],
    splice .elseClause [drop .elseWord, tree .ifStatement],
    node .whileStatement .whileStatement [drop .whileWord, tree .expression, tree .block],
    node .breakStatement .breakStatement [drop .breakWord, drop .semicolon],
    node .returnStatement .returnStatement
      [drop .returnWord, tree .expression, drop .semicolon],
    node .returnStatement .returnStatement [drop .returnWord, tree .expression],
    node .returnStatement .returnStatement [drop .returnWord, absent, drop .semicolon],
    node .returnStatement .returnStatement [drop .returnWord, absent],
    node .exscribeStatement .exscribeStatement
      [word .exscribeWord, tree .expression, drop .semicolon],
    node .invokeStatement .invokeStatement
      [drop .invokeWord, tree .symbol, drop .leftParen, tree .arguments, drop .rightParen,
        drop .semicolon],
    node .invokeStatement .invokeStatement
      [drop .invokeWord, tree .symbol, drop .leftParen, absent, drop .rightParen,
        drop .semicolon],
    node .callStatement .callStatement [tree .call, drop .semicolon],
    node .block .block [drop .leftBrace, tree .moreStatements, drop .rightBrace],
    node .block .block [drop .leftBrace, drop .rightBrace],
    splice .moreStatements [tree .statement],
    splice .moreStatements [tree .moreStatements, tree .statement]]

/-- Expressions, from the weakest operator to the atoms. -/
def expressionRules : List Production :=
  [splice .expression [tree .orExpression],
    node .orExpression .binary [tree .orExpression, word .or, tree .andExpression],
    splice .orExpression [tree .andExpression],
    node .andExpression .binary [tree .andExpression, word .and, tree .comparisonExpression],
    splice .andExpression [tree .comparisonExpression],
    node .comparisonExpression .binary
      [tree .addExpression, word .comparison, tree .addExpression],
    splice .comparisonExpression [tree .addExpression],
    node .addExpression .binary [tree .addExpression, word .plus, tree .multiplyExpression],
    node .addExpression .binary [tree .addExpression, word .minus, tree .multiplyExpression],
    splice .addExpression [tree .multiplyExpression],
    node .multiplyExpression .binary
      [tree .multiplyExpression, word .star, tree .unaryExpression],
    node .multiplyExpression .binary
      [tree .multiplyExpression, word .slash, tree .unaryExpression],
    node .multiplyExpression .binary
      [tree .multiplyExpression, word .percent, tree .unaryExpression],
    splice .multiplyExpression [tree .unaryExpression],
    node .unaryExpression .unary [word .minus, tree .unaryExpression],
    node .unaryExpression .unary [word .bang, tree .unaryExpression],
    node .unaryExpression .addressOf [word .ampersand, tree .unaryExpression],
    node .unaryExpression .dereference [word .star, tree .unaryExpression],
    splice .unaryExpression [tree .powerExpression],
    node .powerExpression .binary [tree .postfixExpression, word .power, tree .unaryExpression],
    splice .powerExpression [tree .postfixExpression],
    node .postfixExpression .subscript
      [tree .postfixExpression, drop .leftBracket, tree .expression, drop .rightBracket],
    splice .postfixExpression [tree .call],
    splice .postfixExpression [tree .atom],
    node .call .call [word .name, drop .leftParen, tree .arguments, drop .rightParen],
    node .call .call [word .name, drop .leftParen, absent, drop .rightParen],
    node .arguments .arguments [tree .expression, tree .moreArguments],
    node .arguments .arguments [tree .expression],
    splice .moreArguments [drop .comma, tree .expression],
    splice .moreArguments [tree .moreArguments, drop .comma, tree .expression],
    node .atom .integerLiteral [word .integer],
    node .atom .decimalLiteral [word .decimal],
    node .atom .stringLiteral [word .doubleQuoted],
    node .atom .quotedLiteral [word .singleQuoted],
    node .atom .codepointLiteral [word .codepoint],
    node .atom .trueLiteral [word .trueWord],
    node .atom .falseLiteral [word .falseWord],
    node .atom .nullLiteral [word .nullWord],
    node .atom .name [word .name],
    splice .atom [drop .leftParen, tree .expression, drop .rightParen],
    node .atom .arrayLiteral [drop .leftBracket, tree .arguments, drop .rightBracket],
    node .atom .arrayLiteral [drop .leftBracket, absent, drop .rightBracket],
    splice .atom [tree .conjure],
    node .conjure .conjure [word .conjureWord, tree .block]]

/-- Types. -/
def typeRules : List Production :=
  [node .type .pointerType [word .star, tree .type],
    splice .type [tree .postfixType],
    node .postfixType .optionalType [tree .postfixType, drop .question],
    splice .postfixType [tree .atomType],
    node .atomType .arrayType [drop .leftBracket, tree .type, drop .rightBracket],
    splice .atomType [drop .leftParen, tree .type, drop .rightParen],
    node .atomType .functionType
      [word .conjureWord, drop .leftParen, tree .type, tree .moreTypes, drop .arrow,
        tree .type, drop .rightParen],
    node .atomType .functionType
      [word .conjureWord, drop .leftParen, tree .type, tree .moreTypes, absent,
        drop .rightParen],
    node .atomType .functionType
      [word .conjureWord, drop .leftParen, tree .type, drop .arrow, tree .type,
        drop .rightParen],
    node .atomType .functionType
      [word .conjureWord, drop .leftParen, tree .type, absent, drop .rightParen],
    splice .moreTypes [drop .comma, tree .type],
    splice .moreTypes [tree .moreTypes, drop .comma, tree .type],
    node .atomType .namedType [word .name]]

/-- The productions of the language. -/
def rules : List Production :=
  programRules ++ declarationRules ++ statementRules ++ expressionRules ++ typeRules

end Grammar

end GlyphCompiler
