/-
# Settling inferred types

When all bodies have been read, every result type is known. Every use of a
function then repeats its final result, and a call that stands for a value and
was of open type so far takes the result of the function that it calls. The type
noted of a function that is named as a value stays as it was when it was read.
-/

import GlyphCompiler.Analysis.State

namespace GlyphCompiler

namespace Analysis

/-- The final form of what is called. -/
def State.settleCallee (state : State) : Callee → Callee
  | .function info function => .function info (state.current function)
  | .reference use => .reference use

/-- What is finally noted of a call that stands for a value. -/
def State.settleInfo (state : State) (info : Info) : Callee → Info
  | .function _ function =>
    if info.type = .any then { info with type := (state.current function).result } else info
  | .reference _ => info

mutual

/-- The final form of an expression that stands for a value. -/
def settle (state : State) : Expr → Expr
  | .number info value => .number info value
  | .bool info value => .bool info value
  | .string info value => .string info value
  | .glyph info value => .glyph info value
  | .codepoint info value => .codepoint info value
  | .null info => .null info
  | .reference use => .reference use
  | .function info function => .function info (state.current function)
  | .binary info operator left right =>
    .binary info operator (settle state left) (settle state right)
  | .unary info operator operand => .unary info operator (settle state operand)
  | .addressOf info operand => .addressOf info operand
  | .dereference info operand => .dereference info (settle state operand)
  | .call info callee arguments =>
    .call (state.settleInfo info callee) (state.settleCallee callee) (settleAll state arguments)
  | .subscript info base index => .subscript info (settle state base) (settle state index)
  | .array info elements => .array info (settleAll state elements)
  | .conjure info body => .conjure info (settleBody state body)
  | .typeOf info described => .typeOf info described
  | .apply info mapping items => .apply info (settle state mapping) (settle state items)
  | .supplant info text pattern replacement =>
    .supplant info (settle state text) (settle state pattern) (settle state replacement)

/-- The final form of some expressions. -/
def settleAll (state : State) : List Expr → List Expr
  | [] => []
  | expression :: rest => settle state expression :: settleAll state rest

/-- The final form of a statement. A call made for its effect keeps its type. -/
def settleStmt (state : State) : Stmt → Stmt
  | .declare position target value => .declare position target (settle state value)
  | .function position function body =>
    .function position (state.current function) (settleBody state body)
  | .main position body => .main position (settleBody state body)
  | .affix position symbol => .affix position symbol
  | .assign position target value => .assign position target (settle state value)
  | .step position step target => .step position step target
  | .branch position condition consequent alternative =>
    .branch position (settle state condition) (settleBody state consequent)
      (settleBody state alternative)
  | .loop position condition body =>
    .loop position (settle state condition) (settleBody state body)
  | .breakLoop position => .breakLoop position
  | .returnValue position value => .returnValue position (settle state value)
  | .returnVoid position => .returnVoid position
  | .exscribe position value => .exscribe position (settle state value)
  | .evaluate position expression =>
    .evaluate position ((settle state expression).withType expression.type)
  | .block position body => .block position (settleBody state body)

/-- The final form of some statements. -/
def settleBody (state : State) : List Stmt → List Stmt
  | [] => []
  | statement :: rest => settleStmt state statement :: settleBody state rest

end

end Analysis

end GlyphCompiler
