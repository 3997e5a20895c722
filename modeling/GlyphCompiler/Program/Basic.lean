/-
# Analyzed programs

An analyzed program knows the type of every expression, and every name in it has
become the variable or function that it means. Variables and functions carry a
number of their own: two of the same name are told apart by it, and every use of
one repeats what its declaration says.
-/

import GlyphCompiler.Library
import GlyphCompiler.Number.Basic
import GlyphCompiler.Operator
import GlyphCompiler.Position
import GlyphCompiler.Surface.Basic

namespace GlyphCompiler

/-- A variable: a `let` or `const` binding, or a parameter of a function. -/
structure Variable where
  id : Nat
  name : String
  type : Ty
  mutable : Bool
  deriving DecidableEq, Repr

/-- A declared function or conjure binding. The result type of an inferred function
is that of its first `return`. -/
structure Function where
  id : Nat
  name : String
  parameters : List Variable
  result : Ty
  inferred : Bool
  deriving DecidableEq, Repr

/-- The type of a function. -/
def Function.type (function : Function) : Ty :=
  .function (function.parameters.map Variable.type) function.result

/-- What is noted of every expression: its type, and where it is written. -/
structure Info where
  type : Ty
  position : Position
  deriving DecidableEq, Repr

/-- A use of a variable. -/
structure Reference where
  info : Info
  target : Variable
  deriving DecidableEq, Repr

/-- What is called: a function by its name, or the function that a variable holds. -/
inductive Callee
  | function (info : Info) (target : Function)
  | reference (use : Reference)
  deriving DecidableEq, Repr

mutual

/-- An expression. -/
inductive Expr
  | number (info : Info) (value : Number)
  | bool (info : Info) (value : Bool)
  | string (info : Info) (value : String)
  | glyph (info : Info) (value : Char)
  | codepoint (info : Info) (value : Nat)
  | null (info : Info)
  | reference (use : Reference)
  | function (info : Info) (target : Function)
  | binary (info : Info) (operator : BinaryOperator) (left right : Expr)
  | unary (info : Info) (operator : UnaryOperator) (operand : Expr)
  | addressOf (info : Info) (operand : Reference)
  | dereference (info : Info) (operand : Expr)
  | call (info : Info) (callee : Callee) (arguments : List Expr)
  | subscript (info : Info) (base index : Expr)
  | array (info : Info) (elements : List Expr)
  /-- A body that is run at once, for the value that it returns. -/
  | conjure (info : Info) (body : List Stmt)
  /-- The name of a type; the expression that it was asked of is not evaluated. -/
  | typeOf (info : Info) (described : Ty)
  /-- A function applied to every element of an array. -/
  | apply (info : Info) (mapping items : Expr)
  /-- A text with every occurrence of a pattern replaced. -/
  | supplant (info : Info) (text pattern replacement : Expr)

/-- A statement. -/
inductive Stmt
  | declare (position : Position) (target : Variable) (value : Expr)
  | function (position : Position) (target : Function) (body : List Stmt)
  | main (position : Position) (body : List Stmt)
  | affix (position : Position) (symbol : LibraryFunction)
  | assign (position : Position) (target : Variable) (value : Expr)
  | step (position : Position) (step : Step) (target : Variable)
  | branch (position : Position) (condition : Expr) (consequent alternative : List Stmt)
  | loop (position : Position) (condition : Expr) (body : List Stmt)
  | breakLoop (position : Position)
  | returnValue (position : Position) (value : Expr)
  | returnVoid (position : Position)
  | exscribe (position : Position) (value : Expr)
  /-- A call that is made for its effect. -/
  | evaluate (position : Position) (expression : Expr)
  | block (position : Position) (body : List Stmt)

end

/-- A program. -/
structure Program where
  position : Position
  body : List Stmt

/-- A use of a variable as an expression. -/
def Reference.toExpr (reference : Reference) : Expr := .reference reference

namespace Callee

/-- A callee as an expression. -/
def toExpr : Callee → Expr
  | .function info target => .function info target
  | .reference use => .reference use

/-- The type of what is called. -/
def type : Callee → Ty
  | .function info _ => info.type
  | .reference use => use.info.type

end Callee

namespace Expr

/-- What is noted of an expression. -/
def info : Expr → Info
  | .number info _ | .bool info _ | .string info _ | .glyph info _ | .codepoint info _
  | .null info | .function info _ | .binary info _ _ _ | .unary info _ _ | .addressOf info _
  | .dereference info _ | .call info _ _ | .subscript info _ _ | .array info _
  | .conjure info _ | .typeOf info _ | .apply info _ _ | .supplant info _ _ _ => info
  | .reference use => use.info

/-- The type of an expression. -/
def type (expression : Expr) : Ty := expression.info.type

/-- Where an expression is written. -/
def position (expression : Expr) : Position := expression.info.position

/-- Change what is noted of an expression. -/
def mapInfo (change : Info → Info) : Expr → Expr
  | .number info value => .number (change info) value
  | .bool info value => .bool (change info) value
  | .string info value => .string (change info) value
  | .glyph info value => .glyph (change info) value
  | .codepoint info value => .codepoint (change info) value
  | .null info => .null (change info)
  | .reference use => .reference { use with info := change use.info }
  | .function info target => .function (change info) target
  | .binary info operator left right => .binary (change info) operator left right
  | .unary info operator operand => .unary (change info) operator operand
  | .addressOf info operand => .addressOf (change info) operand
  | .dereference info operand => .dereference (change info) operand
  | .call info callee arguments => .call (change info) callee arguments
  | .subscript info base index => .subscript (change info) base index
  | .array info elements => .array (change info) elements
  | .conjure info body => .conjure (change info) body
  | .typeOf info described => .typeOf (change info) described
  | .apply info mapping items => .apply (change info) mapping items
  | .supplant info text pattern replacement =>
    .supplant (change info) text pattern replacement

/-- Give an expression another type. -/
def withType (type : Ty) : Expr → Expr :=
  mapInfo fun info => { info with type := type }

@[simp]
theorem info_mapInfo (change : Info → Info) (expression : Expr) :
    (expression.mapInfo change).info = change expression.info := by
  cases expression <;> rfl

@[simp]
theorem type_withType (type : Ty) (expression : Expr) : (expression.withType type).type = type := by
  simp [withType, Expr.type]

@[simp]
theorem position_withType (type : Ty) (expression : Expr) :
    (expression.withType type).position = expression.position := by
  simp [withType, Expr.position]

end Expr

/-- The position of a statement. -/
def Stmt.position : Stmt → Position
  | .declare position _ _ | .function position _ _ | .main position _ | .affix position _
  | .assign position _ _ | .step position _ _ | .branch position _ _ _ | .loop position _ _
  | .breakLoop position | .returnValue position _ | .returnVoid position
  | .exscribe position _ | .evaluate position _ | .block position _ => position

end GlyphCompiler
