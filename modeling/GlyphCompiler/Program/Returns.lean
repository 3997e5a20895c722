/-
# Where bodies return

A function body needs a `return` on every path, a conjure body a `return`
somewhere. The returns of a nested function or conjure body are its own. A loop
may run no round, so it never makes a path return.
-/

import GlyphCompiler.Program.Basic

namespace GlyphCompiler

mutual

/-- Does a statement hold a `return` of the body that it belongs to? -/
def Stmt.containsReturn : Stmt → Bool
  | .returnValue _ _ | .returnVoid _ => true
  | .branch _ _ consequent alternative =>
    containsReturn consequent || containsReturn alternative
  | .loop _ _ body | .block _ body => containsReturn body
  | _ => false

/-- Does a body hold a `return` of its own? -/
def containsReturn : List Stmt → Bool
  | [] => false
  | statement :: rest => statement.containsReturn || containsReturn rest

end

mutual

/-- Does every path through a statement return? -/
def Stmt.alwaysReturns : Stmt → Bool
  | .returnValue _ _ | .returnVoid _ => true
  | .branch _ _ consequent alternative =>
    alwaysReturns consequent && alwaysReturns alternative
  | .block _ body => alwaysReturns body
  | _ => false

/-- Does every path through a body return? -/
def alwaysReturns : List Stmt → Bool
  | [] => false
  | statement :: rest => statement.alwaysReturns || alwaysReturns rest

end

end GlyphCompiler
