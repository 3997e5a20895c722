/-
# The optimizer

Parts are optimized before the whole. A statement becomes a list of statements:
a branch whose condition is known becomes the statements that are taken, a loop
that never runs and an assignment of a variable to itself disappear. Counter
steps are absorbed over the whole list that results.
-/

import GlyphCompiler.Optimizer.Absorb
import GlyphCompiler.Optimizer.Simplify

namespace GlyphCompiler

namespace Optimizer

/-- Does an expression only read a given variable? -/
def reads (target : Variable) : Expr → Bool
  | .reference use => use.target.id == target.id
  | _ => false

mutual

/-- Optimize an expression. -/
def optimizeExpr : Expr → Except Fault Expr
  | .binary info operator left right => do
    simplifyBinary info operator (← optimizeExpr left) (← optimizeExpr right)
  | .unary info operator operand => do simplifyUnary info operator (← optimizeExpr operand)
  | .dereference info operand => return simplifyDereference info (← optimizeExpr operand)
  | .call info callee arguments => return .call info callee (← optimizeExprs arguments)
  | .subscript info base index =>
    return .subscript info (← optimizeExpr base) (← optimizeExpr index)
  | .array info elements => return .array info (← optimizeExprs elements)
  | .conjure info body => return .conjure info (absorbSteps (← optimizeEach body))
  | .apply info mapping items =>
    return .apply info (← optimizeExpr mapping) (← optimizeExpr items)
  | .supplant info text pattern replacement =>
    return .supplant info (← optimizeExpr text) (← optimizeExpr pattern)
      (← optimizeExpr replacement)
  | .number info value => return .number info value
  | .bool info value => return .bool info value
  | .string info value => return .string info value
  | .glyph info value => return .glyph info value
  | .codepoint info value => return .codepoint info value
  | .null info => return .null info
  | .reference use => return .reference use
  | .function info target => return .function info target
  | .addressOf info operand => return .addressOf info operand
  | .typeOf info described => return .typeOf info described

/-- Optimize some expressions in order. -/
def optimizeExprs : List Expr → Except Fault (List Expr)
  | [] => return []
  | expression :: rest => return (← optimizeExpr expression) :: (← optimizeExprs rest)

/-- Optimize a statement by itself. -/
def optimizeStmt : Stmt → Except Fault (List Stmt)
  | .declare position target value => return [.declare position target (← optimizeExpr value)]
  | .function position target body =>
    return [.function position target (absorbSteps (← optimizeEach body))]
  | .main position body => return [.main position (absorbSteps (← optimizeEach body))]
  | .affix position symbol => return [.affix position symbol]
  | .assign position target value => do
    let value ← optimizeExpr value
    return if reads target value then [] else [.assign position target value]
  | .step position step target => return [.step position step target]
  | .branch position condition consequent alternative => do
    let condition ← optimizeExpr condition
    let consequent := absorbSteps (← optimizeEach consequent)
    let alternative := absorbSteps (← optimizeEach alternative)
    match condition with
    | .bool _ value => return if value then consequent else alternative
    | _ => return [.branch position condition consequent alternative]
  | .loop position condition body => do
    match ← optimizeExpr condition with
    | .bool _ false => return []
    | condition => return [.loop position condition (absorbSteps (← optimizeEach body))]
  | .breakLoop position => return [.breakLoop position]
  | .returnValue position value => return [.returnValue position (← optimizeExpr value)]
  | .returnVoid position => return [.returnVoid position]
  | .exscribe position value => return [.exscribe position (← optimizeExpr value)]
  | .evaluate position expression => return [.evaluate position (← optimizeExpr expression)]
  | .block position body => return [.block position (absorbSteps (← optimizeEach body))]

/-- Optimize some statements, each by itself, and put the results together. -/
def optimizeEach : List Stmt → Except Fault (List Stmt)
  | [] => return []
  | statement :: rest => return (← optimizeStmt statement) ++ (← optimizeEach rest)

end

/-- Optimize a list of statements. -/
def optimizeBody (statements : List Stmt) : Except Fault (List Stmt) :=
  return absorbSteps (← optimizeEach statements)

end Optimizer

/-- Optimize a program. -/
def optimize (program : Program) : Except Fault Program :=
  return { program with body := ← Optimizer.optimizeBody program.body }

/-- Optimize a program a given number of times. -/
def optimizeTimes : Nat → Program → Except Fault Program
  | 0, program => .ok program
  | passes + 1, program => do optimizeTimes passes (← optimize program)

end GlyphCompiler
