/-
# Surface syntax

The surface syntax is a program as it is written, before names and types are
looked up. A body that is one expression is a body that returns it, and an
`else if` is an alternative that holds one conditional.
-/

import GlyphCompiler.Operator
import GlyphCompiler.Position

namespace GlyphCompiler

/-- The two ways to step a counter. -/
inductive Step
  | up | down
  deriving DecidableEq, Repr

namespace Surface

/-- A name and where it is written. -/
structure Ident where
  name : String
  position : Position
  deriving DecidableEq, Repr

/-- A type as it is written. A function type lists the types before its arrow, and
the result after it if there is an arrow. -/
inductive TypeSyntax
  | named (name : Ident)
  | pointer (target : TypeSyntax)
  | optional (inner : TypeSyntax)
  | array (element : TypeSyntax)
  | function (position : Position) (listed : List TypeSyntax) (result : Option TypeSyntax)

/-- A parameter of a function. -/
structure Parameter where
  ident : Ident
  type : TypeSyntax

mutual

/-- An expression. Literals keep the text that they are written with. -/
inductive Expr
  | integer (position : Position) (text : String)
  | decimal (position : Position) (text : String)
  | string (position : Position) (text : String)
  | quoted (position : Position) (text : String)
  | codepoint (position : Position) (text : String)
  | bool (position : Position) (value : Bool)
  | null (position : Position)
  | name (ident : Ident)
  | binary (position : Position) (operator : BinaryOperator) (left right : Expr)
  | unary (position : Position) (operator : UnaryOperator) (operand : Expr)
  | addressOf (position : Position) (operand : Expr)
  | dereference (position : Position) (operand : Expr)
  | subscript (position : Position) (base index : Expr)
  | call (callee : Ident) (arguments : List Expr)
  | array (position : Position) (elements : List Expr)
  | conjure (position : Position) (body : List Stmt)

/-- A statement. A call is a statement by itself or after `invoke`. -/
inductive Stmt
  | main (position : Position) (body : Stmt)
  | affix (position : Position) (module symbol : String)
  | function (position : Position) (name : String) (parameters : List Parameter)
      (result : Option TypeSyntax) (body : List Stmt)
  | conjureBinding (position : Position) (name : String) (type : TypeSyntax) (body : List Stmt)
  | declare (position : Position) (mutable : Bool) (ident : Ident) (type : Option TypeSyntax)
      (value : Expr)
  | assign (position : Position) (target : Ident) (value : Expr)
  | step (position : Position) (step : Step) (target : Ident)
  | branch (position : Position) (condition : Expr) (consequent alternative : List Stmt)
  | loop (position : Position) (condition : Expr) (body : List Stmt)
  | breakLoop (position : Position)
  | returnValue (position : Position) (value : Expr)
  | returnVoid (position : Position)
  | exscribe (position : Position) (value : Expr)
  | call (position : Position) (callee : Ident) (arguments : List Expr)
  | block (position : Position) (body : List Stmt)

end

/-- The position of an expression. -/
def Expr.position : Expr → Position
  | .integer position _ | .decimal position _ | .string position _ | .quoted position _
  | .codepoint position _ | .bool position _ | .null position | .binary position _ _ _
  | .unary position _ _ | .addressOf position _ | .dereference position _
  | .subscript position _ _ | .array position _ | .conjure position _ => position
  | .name ident => ident.position
  | .call callee _ => callee.position

/-- A program. -/
structure Program where
  position : Position
  body : List Stmt

end Surface

end GlyphCompiler
