/-
# Surface syntax of parse trees

A parse tree is read from the leaves up: each node is built from what its
children were read as. A tree that the grammar does not produce has no reading.
-/

import GlyphCompiler.Diagnostic
import GlyphCompiler.Surface.Basic
import GlyphCompiler.Tree.Basic

namespace GlyphCompiler

namespace Surface

/-- What a parse tree is read as. -/
inductive Construct
  | token (leaf : Token)
  | mutability (mutable : Bool)
  | type (type : TypeSyntax)
  | parameter (parameter : Parameter)
  | parameters (parameters : List Parameter)
  | expression (expression : Expr)
  | arguments (arguments : List Expr)
  | statement (statement : Stmt)
  /-- A function body that is one expression, after its equal sign. -/
  | expressionBody (position : Position) (value : Expr)
  | program (program : Program)

namespace Assemble

/-- A construct that is a name, or a keyword in the place of one. -/
def ident? : Option Construct → Option Ident
  | some (.token leaf) => some ⟨leaf.text, leaf.position⟩
  | _ => none

/-- A construct that is a type. -/
def type? : Option Construct → Option TypeSyntax
  | some (.type type) => some type
  | _ => none

/-- A construct that is a parameter. -/
def parameter? : Option Construct → Option Parameter
  | some (.parameter parameter) => some parameter
  | _ => none

/-- A construct that is an expression. -/
def expression? : Option Construct → Option Expr
  | some (.expression expression) => some expression
  | _ => none

/-- A construct that is a statement. -/
def statement? : Option Construct → Option Stmt
  | some (.statement statement) => some statement
  | _ => none

/-- The statements of a construct that is a block. -/
def block? : Option Construct → Option (List Stmt)
  | some (.statement (.block _ body)) => some body
  | _ => none

/-- The statements after `else`: those of a block, a conditional, or none. -/
def alternative? : Option Construct → Option (List Stmt)
  | some (.statement (.block _ body)) => some body
  | some (.statement statement) => some [statement]
  | none => some []
  | _ => none

/-- The body of a function: a block, or an expression to return. -/
def functionBody? : Option Construct → Option (List Stmt)
  | some (.statement (.block _ body)) => some body
  | some (.expressionBody position value) => some [.returnValue position value]
  | _ => none

/-- The arguments of a call, or none. -/
def arguments? : Option Construct → Option (List Expr)
  | some (.arguments arguments) => some arguments
  | none => some []
  | _ => none

/-- The parameters of a function, or none. -/
def parameters? : Option Construct → Option (List Parameter)
  | some (.parameters parameters) => some parameters
  | none => some []
  | _ => none

/-- A type that may be left out. -/
def optionalType? : Option Construct → Option (Option TypeSyntax)
  | some (.type type) => some (some type)
  | none => some none
  | _ => none

/-- Read an operator and its operand. -/
def unary? (position : Position) (leaf : Token) (operand : Expr) : Option Construct := do
  let operator ← UnaryOperator.ofSign? leaf.text
  return .expression (.unary position operator operand)

/-- Read an operator between its operands. -/
def binary? (position : Position) (leaf : Token) (left right : Expr) : Option Construct := do
  let operator ← BinaryOperator.ofSign? leaf.text
  return .expression (.binary position operator left right)

/-- Read a literal, given its text. -/
def literal? (build : String → Expr) : List (Option Construct) → Option Construct
  | [some (.token leaf)] => some (.expression (build leaf.text))
  | _ => none

/-- Read a type node. -/
def ofType? (label : Label) (position : Position) (children : List (Option Construct)) :
    Option Construct :=
  match label, children with
  | .pointerType, [_, target] => return .type (.pointer (← type? target))
  | .optionalType, [inner] => return .type (.optional (← type? inner))
  | .arrayType, [element] => return .type (.array (← type? element))
  | .namedType, [name] => return .type (.named (← ident? name))
  | .functionType, _ :: parts => do
    let result ← optionalType? (← parts.getLast?)
    return .type (.function position (← parts.dropLast.mapM type?) result)
  | _, _ => none

/-- Read an expression node. -/
def ofExpression? (label : Label) (position : Position) (children : List (Option Construct)) :
    Option Construct :=
  match label, children with
  | .integerLiteral, children => literal? (.integer position) children
  | .decimalLiteral, children => literal? (.decimal position) children
  | .stringLiteral, children => literal? (.string position) children
  | .quotedLiteral, children => literal? (.quoted position) children
  | .codepointLiteral, children => literal? (.codepoint position) children
  | .trueLiteral, _ => some (.expression (.bool position true))
  | .falseLiteral, _ => some (.expression (.bool position false))
  | .nullLiteral, _ => some (.expression (.null position))
  | .name, [name] => return .expression (.name (← ident? name))
  | .binary, [some (.expression left), some (.token leaf), some (.expression right)] =>
    binary? position leaf left right
  | .unary, [some (.token leaf), some (.expression operand)] => unary? position leaf operand
  | .addressOf, [_, operand] => return .expression (.addressOf position (← expression? operand))
  | .dereference, [_, operand] =>
    return .expression (.dereference position (← expression? operand))
  | .subscript, [base, index] =>
    return .expression (.subscript position (← expression? base) (← expression? index))
  | .call, [callee, arguments] =>
    return .expression (.call (← ident? callee) (← arguments? arguments))
  | .arrayLiteral, [elements] => return .expression (.array position (← arguments? elements))
  | .conjure, [_, body] => return .expression (.conjure position (← block? body))
  | .arguments, children => return .arguments (← children.mapM expression?)
  | _, _ => none

/-- Read a statement node. -/
def ofStatement? (label : Label) (position : Position) (children : List (Option Construct)) :
    Option Construct :=
  match label, children with
  | .mainStatement, [body] => return .statement (.main position (← statement? body))
  | .importStatement, [module, symbol] =>
    return .statement (.affix position (← ident? module).name (← ident? symbol).name)
  | .functionDeclaration, [name, parameters, result, body] =>
    return .statement (.function position (← ident? name).name (← parameters? parameters)
      (← optionalType? result) (← functionBody? body))
  | .conjureBinding, [name, type, some (.expression (.conjure _ body))] =>
    return .statement (.conjureBinding position (← ident? name).name (← type? type) body)
  | .variableDeclaration, [some (.mutability mutable), name, type, value] =>
    return .statement (.declare position mutable (← ident? name) (← optionalType? type)
      (← expression? value))
  | .assignment, [name, value] =>
    return .statement (.assign position (← ident? name) (← expression? value))
  | .increment, [name] => return .statement (.step position .up (← ident? name))
  | .decrement, [name] => return .statement (.step position .down (← ident? name))
  | .ifStatement, [condition, consequent, alternative] =>
    return .statement (.branch position (← expression? condition) (← block? consequent)
      (← alternative? alternative))
  | .whileStatement, [condition, body] =>
    return .statement (.loop position (← expression? condition) (← block? body))
  | .breakStatement, [] => some (.statement (.breakLoop position))
  | .returnStatement, [none] => some (.statement (.returnVoid position))
  | .returnStatement, [value] =>
    return .statement (.returnValue position (← expression? value))
  | .exscribeStatement, [_, value] =>
    return .statement (.exscribe position (← expression? value))
  | .invokeStatement, [callee, arguments] =>
    return .statement (.call position (← ident? callee) (← arguments? arguments))
  | .callStatement, [some (.expression (.call callee arguments))] =>
    some (.statement (.call position callee arguments))
  | .block, children => return .statement (.block position (← children.mapM statement?))
  | _, _ => none

/-- Read a node from its label, its position, and what its children are read as. -/
def ofNode? (label : Label) (position : Position) (children : List (Option Construct)) :
    Option Construct :=
  match label with
  | .start => return .program ⟨position, ← children.mapM statement?⟩
  | .parameter =>
    match children with
    | [name, type] => return .parameter ⟨← ident? name, ← type? type⟩
    | _ => none
  | .parameters => return .parameters (← children.mapM parameter?)
  | .mutability =>
    match children with
    | [some (.token leaf)] => some (.mutability (leaf.kind == .letWord))
    | _ => none
  | .expressionBody =>
    match children with
    | [value] => return .expressionBody position (← expression? value)
    | _ => none
  | .pointerType | .optionalType | .arrayType | .functionType | .namedType =>
    ofType? label position children
  | .binary | .unary | .addressOf | .dereference | .subscript | .call | .arguments
  | .integerLiteral | .decimalLiteral | .stringLiteral | .quotedLiteral | .codepointLiteral
  | .trueLiteral | .falseLiteral | .nullLiteral | .name | .arrayLiteral | .conjure =>
    ofExpression? label position children
  | .mainStatement | .importStatement | .functionDeclaration | .variableDeclaration
  | .conjureBinding | .assignment | .increment | .decrement | .ifStatement | .whileStatement
  | .breakStatement | .returnStatement | .exscribeStatement | .invokeStatement
  | .callStatement | .block =>
    ofStatement? label position children

mutual

/-- Read a parse tree. -/
def ofTree? : Tree → Option Construct
  | .token leaf => some (.token leaf)
  | .node label position children => do ofNode? label position (← ofTrees? children)

/-- Read the children of a node. -/
def ofTrees? : List (Option Tree) → Option (List (Option Construct))
  | [] => some []
  | none :: rest => return none :: (← ofTrees? rest)
  | some child :: rest => return some (← ofTree? child) :: (← ofTrees? rest)

end

end Assemble

/-- The program that a parse tree spells. -/
def ofTree (tree : Tree) : Except Failure Program :=
  match Assemble.ofTree? tree with
  | some (.program program) => .ok program
  | _ => .error (.fault .inconsistent)

end Surface

end GlyphCompiler
