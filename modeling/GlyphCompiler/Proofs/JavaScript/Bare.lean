/-
# What a written program shows

A text shows neither types nor positions, and of a variable or function only the
name with its number. Imports are not written, and the main statement is written
as its body. Some literals are written alike: every text, whatever it is the text
of, and numbers of the same size, whose sign is an operator before them. A bare
program is what is left of a program without these.
-/

import GlyphCompiler.Proofs.JavaScript.Naming
import GlyphCompiler.Proofs.JavaScript.Numeral

namespace GlyphCompiler

namespace JavaScript

mutual

/-- What is shown of an expression. -/
inductive BareExpr
  /-- A number of a size, which `magnitude` tells. -/
  | number (size : Option (Int × ℚ))
  | bool (value : Bool)
  /-- A string, a glyph or the name of a type. -/
  | text (content : String)
  | null
  | variable (name : String)
  | function (name : String)
  | binary (operator : BinaryOperator) (left right : BareExpr)
  | unary (operator : UnaryOperator) (operand : BareExpr)
  | addressOf (name : String)
  | dereference (operand : BareExpr)
  | call (callee : BareExpr) (arguments : List BareExpr)
  | subscript (base index : BareExpr)
  | array (elements : List BareExpr)
  | conjure (body : List BareStmt)
  | apply (mapping items : BareExpr)
  | supplant (text pattern replacement : BareExpr)

/-- What is shown of a statement. -/
inductive BareStmt
  | declare (isMutable : Bool) (name : String) (value : BareExpr)
  | function (name : String) (parameters : List String) (body : List BareStmt)
  | assign (name : String) (value : BareExpr)
  | step (step : Step) (name : String)
  | branch (condition : BareExpr) (consequent alternative : List BareStmt)
  | loop (condition : BareExpr) (body : List BareStmt)
  | breakLoop
  | returnValue (value : BareExpr)
  | returnVoid
  | exscribe (value : BareExpr)
  | evaluate (expression : BareExpr)
  | block (body : List BareStmt)

end

section

variable (table : Nat → String)

/-- What is shown of a variable or function where it is mentioned. -/
def bareOwner : Owner → BareExpr
  | .value target => .variable (table target.id)
  | .function target => .function (table target.id)

/-- What is shown of a number. -/
def bareNumber (value : Number) : BareExpr :=
  if value.isNegative then .unary .neg (.number (magnitude value)) else .number (magnitude value)

mutual

/-- What is shown of an expression under a table of names. -/
def bareExpr : Expr → BareExpr
  | .number _ value => bareNumber value
  | .codepoint _ value => .number (magnitude (.int value))
  | .bool _ value => .bool value
  | .string _ value => .text value
  | .glyph _ value => .text (String.singleton value)
  | .typeOf _ described => .text described.name
  | .null _ => .null
  | .reference use => bareOwner table (.value use.target)
  | .function _ target => bareOwner table (.function target)
  | .binary _ operator left right => .binary operator (bareExpr left) (bareExpr right)
  | .unary _ operator operand => .unary operator (bareExpr operand)
  | .addressOf _ operand => .addressOf (table operand.target.id)
  | .dereference _ operand => .dereference (bareExpr operand)
  | .call _ callee arguments => .call (bareOwner table callee.owner) (bareEach arguments)
  | .subscript _ base index => .subscript (bareExpr base) (bareExpr index)
  | .array _ elements => .array (bareEach elements)
  | .conjure _ body => .conjure (bareBody body)
  | .apply _ mapping items => .apply (bareExpr mapping) (bareExpr items)
  | .supplant _ text pattern replacement =>
    .supplant (bareExpr text) (bareExpr pattern) (bareExpr replacement)

/-- What is shown of some expressions. -/
def bareEach : List Expr → List BareExpr
  | [] => []
  | first :: rest => bareExpr first :: bareEach rest

/-- What is shown of a statement: one statement, unless it is an import or the main
statement. -/
def bareStmt : Stmt → List BareStmt
  | .declare _ target value => [.declare target.mutable (table target.id) (bareExpr value)]
  | .function _ target body =>
    [.function (table target.id) (target.parameters.map fun parameter => table parameter.id)
      (bareBody body)]
  | .main _ body => bareBody body
  | .affix _ _ => []
  | .assign _ target value => [.assign (table target.id) (bareExpr value)]
  | .step _ step target => [.step step (table target.id)]
  | .branch _ condition consequent alternative =>
    [.branch (bareExpr condition) (bareBody consequent) (bareBody alternative)]
  | .loop _ condition body => [.loop (bareExpr condition) (bareBody body)]
  | .breakLoop _ => [.breakLoop]
  | .returnValue _ value => [.returnValue (bareExpr value)]
  | .returnVoid _ => [.returnVoid]
  | .exscribe _ value => [.exscribe (bareExpr value)]
  | .evaluate _ expression => [.evaluate (bareExpr expression)]
  | .block _ body => [.block (bareBody body)]

/-- What is shown of some statements. -/
def bareBody : List Stmt → List BareStmt
  | [] => []
  | first :: rest => bareStmt first ++ bareBody rest

end

end

attribute [grind =] bareExpr bareEach bareStmt bareBody

/-- The names that an emitter gives that has written nothing before. -/
def namesOf (program : Program) : Names :=
  match (emit program).run .none with
  | .ok (_, names) => names
  | .error _ => .none

/-- What the text of a program shows, under the names that a fresh emitter gives. -/
def bare (program : Program) : List BareStmt :=
  bareBody (namesOf program).table program.body

end JavaScript

end GlyphCompiler
