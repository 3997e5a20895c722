/-
# Analysis of programs

A program is parsed, read as surface syntax and analyzed. When its statements
have been judged, so are the uses that were put off, in the order in which they
were met, those of earlier programs of the same analyzer included.
-/

import GlyphCompiler.Analysis.Body
import GlyphCompiler.Analysis.Settle
import GlyphCompiler.Surface.OfTree
import GlyphCompiler.Tree.Parser

namespace GlyphCompiler

namespace Analysis

/-- Judge a use that was put off. -/
def judge (use : Deferred) : Analyzer Unit := do
  let function ← current use.function
  match use.target with
  | none => if function.result = .void then reject (.returnsVoid function.name) use.position
  | some target =>
    unless function.type.canConvert target .unknown do
      reject (.cannotConvert function.type target) use.position

/-- Judge the uses that were put off, in the order in which they were met. -/
def judgeDeferred : Analyzer Unit := do
  for use in (← get).deferred.reverse do judge use

/-- Analyze a program in an outermost scope of its own. -/
def program (source : Surface.Program) : Analyzer Program := do
  let body ← statements (← enter [.root] source.body) source.body
  judgeDeferred
  return ⟨source.position, settleBody (← get) body⟩

/-- Analyze a parse tree. -/
def ofTree (tree : Tree) : Analyzer Program := do
  program (← lift (Surface.ofTree tree))

/-- Analyze a source text. -/
def ofSource (source : String) : Analyzer Program := do
  ofTree (← lift (parse source))

/-- Analyze some source texts in turn with one analyzer. After a failure it goes on
with what it remembers. -/
def session (state : State) : List String → List (Except Failure Program)
  | [] => []
  | source :: rest =>
    match (ofSource source).run state with
    | .ok result state => .ok result :: session state rest
    | .error failure state => .error failure :: session state rest

end Analysis

/-- Analyze a parse tree with a new analyzer. -/
def analyzeTree (tree : Tree) : Except Failure Program :=
  match (Analysis.ofTree tree).run .initial with
  | .ok result _ => .ok result
  | .error failure _ => .error failure

/-- Analyze a source text with a new analyzer that numbers variables and functions from
a given number on. The next number that is free is part of the result. -/
def analyzeFrom (first : Nat) (source : String) : Except Failure (Program × Nat) :=
  match (Analysis.ofSource source).run { Analysis.State.initial with nextId := first } with
  | .ok result state => .ok (result, state.nextId)
  | .error failure _ => .error failure

/-- Analyze a source text with a new analyzer. -/
def analyze (source : String) : Except Failure Program := do
  analyzeTree (← parse source)

end GlyphCompiler
