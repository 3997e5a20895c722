/-
# The stages of compilation

A source text is parsed, analyzed, optimized and written as JavaScript. A
compilation may stop after any of these stages, and may leave out the optimizer.
-/

import GlyphCompiler.Analysis.Analyze
import GlyphCompiler.JavaScript.Emit
import GlyphCompiler.Optimizer.Optimize

namespace GlyphCompiler

/-- The stage that a compilation stops after. -/
inductive Stage
  | parsed | analyzed | optimized | js
  deriving DecidableEq, Repr

namespace Stage

/-- Every stage in order. -/
def all : List Stage := [parsed, analyzed, optimized, js]

/-- The name of a stage. -/
def name : Stage → String
  | parsed => "parsed"
  | analyzed => "analyzed"
  | optimized => "optimized"
  | js => "js"

/-- The stage of a given name. -/
def ofName? (text : String) : Option Stage :=
  all.find? fun stage => stage.name == text

end Stage

/-- What a compilation comes to. -/
inductive Compiled
  | tree (tree : Tree)
  | program (program : Program)
  | text (text : String)

/-- Compile a source text as far as a stage. -/
def compile (source : String) (stage : Stage) (optimizing : Bool) : Except Failure Compiled := do
  let tree ← parse source
  if stage = .parsed then return .tree tree
  let program ← analyzeTree tree
  if stage = .analyzed then return .program program
  let program ← if optimizing then Failure.ofFault (optimize program) else pure program
  if stage = .optimized then return .program program
  return .text (← Failure.ofFault (JavaScript.generate program))

end GlyphCompiler
