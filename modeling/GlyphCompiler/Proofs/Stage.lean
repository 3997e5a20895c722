/-
# Stages after analysis

A program that is accepted is written as it stands. Optimizing it may fail in
arithmetic, where a literal has taken the type of the parameter that it is passed to,
and may come to a whole number with too many digits to be written.
-/

import GlyphCompiler.Proofs.JavaScript.Writing
import GlyphCompiler.Proofs.Optimizer.Faults
import GlyphCompiler.Proofs.Optimizer.Typing
import GlyphCompiler.Stage

namespace GlyphCompiler

namespace JavaScript

/-- A program is written if every whole number of it can be. -/
theorem generate_of_writable {program : Program} (writable : WritableProgram program) :
    ∃ text, generate program = .ok text := by
  obtain ⟨text, runs, -⟩ := (writes_emit program .none).1 writable
  refine ⟨text, ?_⟩
  rw [generate, StateT.run'_eq, runs]
  rfl

theorem generate_of_not_writable {program : Program} (long : ¬ WritableProgram program) :
    generate program = .error .tooManyDigits := by
  rw [generate, StateT.run'_eq, (writes_emit program .none).2 long]
  rfl

theorem generate_isOk_iff (program : Program) :
    (∃ text, generate program = .ok text) ↔ WritableProgram program := by
  refine ⟨fun writes => ?_, generate_of_writable⟩
  by_contra long
  obtain ⟨text, writes⟩ := writes
  rw [generate_of_not_writable long] at writes
  cases writes

end JavaScript

open JavaScript (generate WritableProgram)

section

variable {source : String} {program : Program} {optimizing : Bool}

/-- What the stages after analysis do with an accepted program. -/
theorem compile_of_analyzed (accepted : compile source .analyzed optimizing = .ok (.program program))
    (stage : Stage) (later : stage = .optimized ∨ stage = .js) (optimizing : Bool) :
    compile source stage optimizing = (do
      let program ← if optimizing then Failure.ofFault (optimize program) else pure program
      if stage = .optimized then return .program program
      return .text (← Failure.ofFault (generate program))) := by
  unfold compile at accepted ⊢
  cases parsed : parse source with
  | error failure =>
    rw [parsed] at accepted
    cases accepted
  | ok tree =>
    rw [parsed] at accepted
    cases analyzed : analyzeTree tree with
    | error failure => simp [bind, Except.bind, analyzed] at accepted
    | ok result =>
      simp only [bind, Except.bind, analyzed, pure, Except.pure, if_true, Except.ok.injEq,
        Compiled.program.injEq, reduceCtorEq, if_false] at accepted
      subst accepted
      obtain rfl | rfl := later <;> simp [bind, Except.bind, analyzed]

theorem analyzed_iff : compile source .analyzed optimizing = .ok (.program program) ↔
    analyze source = .ok program := by
  unfold compile analyze
  cases parse source with
  | error failure => simp [bind, Except.bind]
  | ok tree =>
    cases analyzed : analyzeTree tree <;> simp [bind, Except.bind, analyzed, pure, Except.pure]

/-- The optimizer is not asked before the program is analyzed. -/
theorem exists_compile_of_analyzed
    (accepted : compile source .analyzed optimizing = .ok (.program program)) {stage : Stage}
    (early : stage = .parsed ∨ stage = .analyzed) (optimizing : Bool) :
    ∃ compiled, compile source stage optimizing = .ok compiled := by
  unfold compile at accepted ⊢
  cases parsed : parse source with
  | error failure =>
    rw [parsed] at accepted
    cases accepted
  | ok tree =>
    rw [parsed] at accepted
    cases analyzed : analyzeTree tree with
    | error failure => simp [bind, Except.bind, analyzed] at accepted
    | ok result =>
      obtain rfl | rfl := early <;> simp [bind, Except.bind, analyzed, pure, Except.pure]

/-- An accepted source text is written without the optimizer. With it, nothing fails but
arithmetic, and writing a whole number that has too many digits: an optimized program is
written just if all its whole numbers can be. -/
theorem compile_of_accepted
    (accepted : compile source .analyzed optimizing = .ok (.program program)) :
    (compile source .optimized false = .ok (.program program) ∧
      ∃ text, compile source .js false = .ok (.text text)) ∧
    (∀ optimized, optimize program = .ok optimized →
      compile source .optimized true = .ok (.program optimized) ∧
        ((∃ text, compile source .js true = .ok (.text text)) ↔ WritableProgram optimized)) ∧
    (∀ stage failure, compile source stage true = .error failure →
      failure = .fault .integerTooLarge ∨ failure = .fault .undefinedRemainder ∨
        stage = .js ∧ failure = .fault .tooManyDigits) := by
  have compiles := compile_of_analyzed accepted
  have writable : WritableProgram program := fun node member =>
    (Analysis.regular_of_analyze (analyzed_iff.mp accepted) node member).short
  have written (optimized : Program) (optimizes : optimize program = .ok optimized) :
      compile source .js true = (Failure.ofFault (generate optimized)).map .text := by
    rw [compiles _ (.inr rfl)]
    cases outcome : generate optimized <;>
      simp [optimizes, outcome, bind, Except.bind, pure, Except.pure, Failure.ofFault, Except.map]
  refine ⟨⟨?_, ?_⟩, fun optimized optimizes => ⟨?_, ?_⟩, fun stage failure fails => ?_⟩
  · rw [compiles _ (.inl rfl)]
    rfl
  · obtain ⟨text, writes⟩ := JavaScript.generate_of_writable writable
    refine ⟨text, ?_⟩
    rw [compiles _ (.inr rfl)]
    simp [bind, Except.bind, pure, Except.pure, writes, Failure.ofFault]
  · rw [compiles _ (.inl rfl)]
    simp [optimizes, bind, Except.bind, pure, Except.pure, Failure.ofFault]
  · rw [written optimized optimizes, ← JavaScript.generate_isOk_iff]
    cases generate optimized <;> simp [Failure.ofFault, Except.map]
  · have late : stage = .optimized ∨ stage = .js := by
      by_contra early
      obtain ⟨compiled, succeeds⟩ := @exists_compile_of_analyzed _ _ _ accepted stage
        (by cases stage <;> simp_all) true
      rw [succeeds] at fails
      cases fails
    cases outcome : optimize program with
    | error fault =>
      have arithmetic := Optimizer.calculates_optimize program fault outcome
      rw [compiles stage late] at fails
      simp only [outcome, bind, Except.bind, if_true, Failure.ofFault, Except.error.injEq] at fails
      subst fails
      cases fault with
      | integerTooLarge => exact .inl rfl
      | undefinedRemainder => exact .inr (.inl rfl)
      | _ => cases arithmetic
    | ok optimized =>
      obtain rfl | rfl := late
      · rw [compiles _ (.inl rfl)] at fails
        simp [outcome, bind, Except.bind, pure, Except.pure, Failure.ofFault] at fails
      · rw [written optimized outcome] at fails
        by_cases short : WritableProgram optimized
        · obtain ⟨text, writes⟩ := JavaScript.generate_of_writable short
          simp [writes, Failure.ofFault, Except.map] at fails
        · rw [JavaScript.generate_of_not_writable short] at fails
          cases fails
          exact .inr (.inr ⟨rfl, rfl⟩)

theorem compile_of_accepted_comparingSource :
    compile comparingSource .analyzed true = .ok (.program comparingProgram) ∧
      ∃ text, compile comparingSource .js false = .ok (.text text) := by
  have accepted : compile comparingSource .analyzed true = .ok (.program comparingProgram) :=
    analyzed_iff.mpr analyze_comparingSource
  exact ⟨accepted, (compile_of_accepted accepted).1.2⟩

end

end GlyphCompiler
