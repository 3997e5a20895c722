/-
# Several programs from one emitter

Programs that run one after another in the same place are written by one
emitter: names that it has given stay, so no two of them ever collide. A program
may be written more than once; it then keeps its names.
-/

import GlyphCompiler.Analysis.Analyze
import GlyphCompiler.JavaScript.Emit
import GlyphCompiler.Optimizer.Optimize

namespace GlyphCompiler

namespace JavaScript

/-- What is written next: a source text, optimized or not, or once more the program of
an earlier turn, counted from zero. -/
inductive Turn
  | source (text : String) (optimizing : Bool)
  | again (index : Nat)
  deriving DecidableEq, Repr

/-- What the turns so far leave behind: their programs in order, the next number for a
variable or function, and the names that are given. -/
structure Series where
  programs : List Program
  nextId : Nat
  names : Names

/-- The program without statements. -/
def emptyProgram : Program := ⟨.start, []⟩

namespace Series

/-- No turns yet. -/
def none : Series := ⟨[], 0, .none⟩

/-- The program of a turn, and the next number after it. -/
def read (series : Series) : Turn → Except Failure (Program × Nat)
  | .source text optimizing => do
    let (program, nextId) ← analyzeFrom series.nextId text
    return (← if optimizing then Failure.ofFault (optimize program) else pure program, nextId)
  | .again index => return (series.programs.getD index emptyProgram, series.nextId)

/-- Take a turn. A program that is rejected counts as one without statements. -/
def take (series : Series) (turn : Turn) :
    Except Fault (Except Diagnostic String × Series) :=
  match series.read turn with
  | .ok (program, nextId) => do
    let (text, names) ← (emit program).run series.names
    return (.ok text, ⟨series.programs ++ [program], nextId, names⟩)
  | .error (.diagnostic diagnostic) =>
    .ok (.error diagnostic, { series with programs := series.programs ++ [emptyProgram] })
  | .error (.fault fault) => .error fault

/-- Take some turns in order. -/
def takeAll (series : Series) : List Turn → Except Fault (List (Except Diagnostic String))
  | [] => .ok []
  | turn :: rest => do
    let (result, series) ← series.take turn
    return result :: (← series.takeAll rest)

end Series

/-- Write some programs with an emitter that has written nothing before. -/
def generateSeries (turns : List Turn) : Except Fault (List (Except Diagnostic String)) :=
  Series.none.takeAll turns

end JavaScript

end GlyphCompiler
