/-
# What arguments ask for

An argument list is a sequence of clauses: a name of a stage, a wish to leave out
the optimizer, a file to write, or the one file to read. Arguments ask for a
compilation exactly if they are such a sequence with at most one file to read. Of
the names of stages the last one counts, and of the files to write the last one.
-/

import Mathlib.Tactic.MkIffOfInductiveProp
import GlyphCompiler.CommandLine.Options

namespace GlyphCompiler

namespace CommandLine

/-- A piece of an argument list that stands for one wish. -/
inductive Clause
  | stage (name : String)
  | unoptimized
  | output (flag file : String)
  | input (file : String)
  deriving DecidableEq, Repr

namespace Clause

/-- The arguments of a clause. -/
def words : Clause → List String
  | stage name => ["--stage", name]
  | unoptimized => ["--no-optimize"]
  | output flag file => [flag, file]
  | input file => [file]

/-- A file to write follows a flag, and what stands alone for a file to read does not look
like one. -/
def Proper : Clause → Prop
  | output flag _ => flag = "-o" ∨ flag = "--output"
  | input file => file.toList.head? ≠ some '-'
  | _ => True

/-- The name of a stage that a clause gives. -/
def stage? : Clause → Option String
  | stage name => some name
  | _ => none

/-- The file to write that a clause gives. -/
def output? : Clause → Option String
  | output _ file => some file
  | _ => none

/-- The file to read that a clause gives. -/
def input? : Clause → Option String
  | input file => some file
  | _ => none

end Clause

/-- The options that a draft comes to after some clauses. -/
@[mk_iff]
structure Draft.Continues (draft : Draft) (clauses : List Clause) (options : Options) : Prop where
  proper : ∀ clause ∈ clauses, clause.Proper
  stage : options.stage.name = (clauses.filterMap Clause.stage?).getLast?.getD draft.stage
  optimizing : options.optimizing = true ↔
    draft.optimizing = true ∧ Clause.unoptimized ∉ clauses
  output : options.output = (clauses.filterMap Clause.output?).getLast?.or draft.output
  input : options.input.toList = draft.input.toList ++ clauses.filterMap Clause.input?

namespace Draft

/-- A draft after one more clause. -/
def take (draft : Draft) : Clause → Draft
  | .stage name => { draft with stage := name }
  | .unoptimized => { draft with optimizing := false }
  | .output _ file => { draft with output := some file }
  | .input file => { draft with input := some file }

/-- A clause that a draft has room for: a file to read is given once. -/
def Admits (draft : Draft) (clause : Clause) : Prop :=
  clause.Proper ∧ (clause.input?.isSome → draft.input = none)

variable {draft : Draft} {clauses : List Clause} {options : Options}

/-- A draft takes up the first of some clauses and goes on with the others. -/
theorem continues_cons_iff {clause : Clause} (admits : draft.Admits clause) :
    draft.Continues (clause :: clauses) options ↔
      (draft.take clause).Continues clauses options := by
  obtain ⟨proper, free⟩ := admits
  rw [continues_iff, continues_iff, List.forall_mem_cons, and_iff_right proper]
  simp only [List.filterMap_cons]
  cases clause with
  | stage name => simp [take, Clause.stage?, Clause.output?, Clause.input?, List.getLast?_cons]
  | unoptimized => simp [take, Clause.stage?, Clause.output?, Clause.input?]
  | output flag file =>
    simp [take, Clause.stage?, Clause.output?, Clause.input?, List.getLast?_cons]
  | input file => simp [take, Clause.stage?, Clause.output?, Clause.input?, free rfl]

/-- Arguments are what some clauses give after a draft. -/
def Gives (draft : Draft) (arguments : List String) (options : Options) : Prop :=
  ∃ clauses, arguments = clauses.flatMap Clause.words ∧ draft.Continues clauses options

theorem Gives.cons (clause : Clause) {rest : List String} (admits : draft.Admits clause)
    (gives : (draft.take clause).Gives rest options) :
    draft.Gives (clause.words ++ rest) options := by
  obtain ⟨clauses, rfl, continues⟩ := gives
  exact ⟨clause :: clauses, rfl, (continues_cons_iff admits).mpr continues⟩

end Draft

end CommandLine

end GlyphCompiler
