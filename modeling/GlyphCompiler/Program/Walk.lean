/-
# Walking over a program

The nodes of a program are its statements and expressions. The children of a
node stand in the order in which its parts are listed, and a walk visits a node
before its children. Variables and functions are not nodes: a walk does not go
from a use to a declaration.
-/

import GlyphCompiler.Program.Basic

namespace GlyphCompiler

/-- A statement or an expression. -/
inductive Node
  | expr (expression : Expr)
  | stmt (statement : Stmt)

namespace Expr

/-- The nodes directly below an expression. -/
def children : Expr → List Node
  | .number _ _ | .bool _ _ | .string _ _ | .glyph _ _ | .codepoint _ _ | .null _
  | .reference _ | .function _ _ | .typeOf _ _ => []
  | .binary _ _ left right => [.expr left, .expr right]
  | .unary _ _ operand | .dereference _ operand => [.expr operand]
  | .addressOf _ operand => [.expr operand.toExpr]
  | .call _ callee arguments => .expr callee.toExpr :: arguments.map .expr
  | .subscript _ base index => [.expr base, .expr index]
  | .array _ elements => elements.map .expr
  | .conjure _ body => body.map .stmt
  | .apply _ mapping items => [.expr mapping, .expr items]
  | .supplant _ text pattern replacement => [.expr text, .expr pattern, .expr replacement]

end Expr

namespace Stmt

/-- The nodes directly below a statement. -/
def children : Stmt → List Node
  | .affix _ _ | .step _ _ _ | .breakLoop _ | .returnVoid _ => []
  | .declare _ _ value | .assign _ _ value | .returnValue _ value | .exscribe _ value
  | .evaluate _ value => [.expr value]
  | .function _ _ body | .main _ body | .block _ body => body.map .stmt
  | .branch _ condition consequent alternative =>
    .expr condition :: (consequent.map .stmt ++ alternative.map .stmt)
  | .loop _ condition body => .expr condition :: body.map .stmt

end Stmt

mutual

/-- An expression and every node below it, parents first. -/
def Expr.walk : Expr → List Node
  | .number info value => [.expr (.number info value)]
  | .bool info value => [.expr (.bool info value)]
  | .string info value => [.expr (.string info value)]
  | .glyph info value => [.expr (.glyph info value)]
  | .codepoint info value => [.expr (.codepoint info value)]
  | .null info => [.expr (.null info)]
  | .reference use => [.expr (.reference use)]
  | .function info target => [.expr (.function info target)]
  | .typeOf info described => [.expr (.typeOf info described)]
  | .binary info operator left right =>
    .expr (.binary info operator left right) :: (left.walk ++ right.walk)
  | .unary info operator operand => .expr (.unary info operator operand) :: operand.walk
  | .addressOf info operand => [.expr (.addressOf info operand), .expr operand.toExpr]
  | .dereference info operand => .expr (.dereference info operand) :: operand.walk
  | .call info callee arguments =>
    .expr (.call info callee arguments) :: .expr callee.toExpr :: walkExprs arguments
  | .subscript info base index => .expr (.subscript info base index) :: (base.walk ++ index.walk)
  | .array info elements => .expr (.array info elements) :: walkExprs elements
  | .conjure info body => .expr (.conjure info body) :: walkStmts body
  | .apply info mapping items =>
    .expr (.apply info mapping items) :: (mapping.walk ++ items.walk)
  | .supplant info text pattern replacement =>
    .expr (.supplant info text pattern replacement) ::
      (text.walk ++ pattern.walk ++ replacement.walk)

/-- The nodes of some expressions. -/
def walkExprs : List Expr → List Node
  | [] => []
  | expression :: rest => expression.walk ++ walkExprs rest

/-- A statement and every node below it, parents first. -/
def Stmt.walk : Stmt → List Node
  | .declare position target value => .stmt (.declare position target value) :: value.walk
  | .function position target body =>
    .stmt (.function position target body) :: walkStmts body
  | .main position body => .stmt (.main position body) :: walkStmts body
  | .affix position symbol => [.stmt (.affix position symbol)]
  | .assign position target value => .stmt (.assign position target value) :: value.walk
  | .step position step target => [.stmt (.step position step target)]
  | .branch position condition consequent alternative =>
    .stmt (.branch position condition consequent alternative) ::
      (condition.walk ++ walkStmts consequent ++ walkStmts alternative)
  | .loop position condition body =>
    .stmt (.loop position condition body) :: (condition.walk ++ walkStmts body)
  | .breakLoop position => [.stmt (.breakLoop position)]
  | .returnValue position value => .stmt (.returnValue position value) :: value.walk
  | .returnVoid position => [.stmt (.returnVoid position)]
  | .exscribe position value => .stmt (.exscribe position value) :: value.walk
  | .evaluate position expression =>
    .stmt (.evaluate position expression) :: expression.walk
  | .block position body => .stmt (.block position body) :: walkStmts body

/-- The nodes of some statements. -/
def walkStmts : List Stmt → List Node
  | [] => []
  | statement :: rest => statement.walk ++ walkStmts rest

end

/-- A node and every node below it, parents first. -/
def Node.walk : Node → List Node
  | .expr expression => expression.walk
  | .stmt statement => statement.walk

theorem walkExprs_eq_flatMap (expressions : List Expr) :
    walkExprs expressions = expressions.flatMap Expr.walk := by
  induction expressions with
  | nil => rfl
  | cons expression rest ih => rw [walkExprs, ih, List.flatMap_cons]

theorem walkStmts_eq_flatMap (statements : List Stmt) :
    walkStmts statements = statements.flatMap Stmt.walk := by
  induction statements with
  | nil => rfl
  | cons statement rest ih => rw [walkStmts, ih, List.flatMap_cons]

/-- A walk over an expression visits it, and then walks over its children in order. -/
theorem Expr.walk_eq (expression : Expr) :
    expression.walk = .expr expression :: expression.children.flatMap Node.walk := by
  cases expression <;>
    simp [Expr.walk, Expr.children, Node.walk, walkExprs_eq_flatMap, walkStmts_eq_flatMap,
      List.flatMap_map, Reference.toExpr]
  case call info callee arguments => cases callee <;> simp [Callee.toExpr, Expr.walk]

/-- A walk over a statement visits it, and then walks over its children in order. -/
theorem Stmt.walk_eq (statement : Stmt) :
    statement.walk = .stmt statement :: statement.children.flatMap Node.walk := by
  cases statement <;>
    simp [Stmt.walk, Stmt.children, Node.walk, walkStmts_eq_flatMap, List.flatMap_map]

/-- Does evaluating a node run code that may be anywhere: a call, a body run at
once, or a function applied to an array? -/
def Node.runsCode : Node → Bool
  | .expr (.call _ _ _) | .expr (.conjure _ _) | .expr (.apply _ _ _) => true
  | _ => false

/-- Can evaluating an expression have no effect beyond its value? -/
def Expr.isPure (expression : Expr) : Bool :=
  !expression.walk.any Node.runsCode

end GlyphCompiler
