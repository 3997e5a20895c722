/-
# Returns in optimized bodies

The optimizer may find that more paths return than there seemed to be, since it knows
some conditions, but never that fewer do. It writes no `return` of its own. Both hold
of a statement and of the list that replaces it, so they hold of whole bodies.
-/

import GlyphCompiler.Proofs.Optimizer.Idempotence
import GlyphCompiler.Proofs.Program.Paths
import GlyphCompiler.Proofs.Program.Samples

namespace GlyphCompiler

namespace Optimizer

/-- What replaces a body is at least as sure to return, and holds a `return` only if the
body holds one. -/
structure KeepsReturns (body results : List Stmt) : Prop where
  always : alwaysReturns body = true → alwaysReturns results = true
  contains : containsReturn results = true → containsReturn body = true

namespace KeepsReturns

variable {body results : List Stmt}

theorem append {rest others : List Stmt} (here : KeepsReturns body results)
    (there : KeepsReturns rest others) : KeepsReturns (body ++ rest) (results ++ others) where
  always := by
    simp only [alwaysReturns_eq_any, List.any_append, Bool.or_eq_true]
    exact Or.imp (by simpa [alwaysReturns_eq_any] using here.always)
      (by simpa [alwaysReturns_eq_any] using there.always)
  contains := by
    simp only [containsReturn_eq_any, List.any_append, Bool.or_eq_true]
    exact Or.imp (by simpa [containsReturn_eq_any] using here.contains)
      (by simpa [containsReturn_eq_any] using there.contains)

/-- A statement that never returns on all paths may as well disappear. -/
theorem dropped {statement : Stmt} (never : statement.alwaysReturns = false) :
    KeepsReturns [statement] [] where
  always := by simp [alwaysReturns, never]
  contains := nofun

/-- A statement may be replaced by one that returns where it did. -/
theorem replaced {statement result : Stmt}
    (always : statement.alwaysReturns = result.alwaysReturns)
    (contains : statement.containsReturn = result.containsReturn) :
    KeepsReturns [statement] [result] where
  always := by simp [alwaysReturns, always]
  contains := by simp [containsReturn, contains]

/-- Counter steps neither return nor hold a `return`. -/
theorem absorbed (keeps : KeepsReturns body results) : KeepsReturns body (absorbSteps results) where
  always returns := by
    have stepless : Stepless Stmt.alwaysReturns := ⟨fun _ _ _ => rfl, fun _ _ _ _ _ => rfl⟩
    rw [alwaysReturns_eq_any, stepless.any_absorbSteps, ← alwaysReturns_eq_any]
    exact keeps.always returns
  contains holds := by
    have stepless : Stepless Stmt.containsReturn := ⟨fun _ _ _ => rfl, fun _ _ _ _ _ => rfl⟩
    rw [containsReturn_eq_any, stepless.any_absorbSteps, ← containsReturn_eq_any] at holds
    exact keeps.contains holds

theorem block (keeps : KeepsReturns body results) (position : Position) :
    KeepsReturns [.block position body] [.block position results] where
  always := by simpa [alwaysReturns, Stmt.alwaysReturns] using keeps.always
  contains := by simpa [containsReturn, Stmt.containsReturn] using keeps.contains

theorem loop (keeps : KeepsReturns body results) (position : Position) (condition decided : Expr) :
    KeepsReturns [.loop position condition body] [.loop position decided results] where
  always := by simp [alwaysReturns, Stmt.alwaysReturns]
  contains := by simpa [containsReturn, Stmt.containsReturn] using keeps.contains

section Branch

variable {other others : List Stmt} (first : KeepsReturns body results)
  (second : KeepsReturns other others) (position : Position) (condition : Expr)

include first second

theorem branch (decided : Expr) : KeepsReturns [.branch position condition body other]
    [.branch position decided results others] where
  always := by
    simp only [alwaysReturns, Stmt.alwaysReturns, Bool.or_false, Bool.and_eq_true]
    exact And.imp first.always second.always
  contains := by
    simp only [containsReturn, Stmt.containsReturn, Bool.or_false, Bool.or_eq_true]
    exact Or.imp first.contains second.contains

/-- A branch may be replaced by the side that is taken. -/
theorem taken (known : Bool) : KeepsReturns [.branch position condition body other]
    (if known then results else others) where
  always := by
    simp only [alwaysReturns, Stmt.alwaysReturns, Bool.or_false, Bool.and_eq_true]
    intro returns
    cases known with
    | true => exact first.always returns.1
    | false => exact second.always returns.2
  contains := by
    simp only [containsReturn, Stmt.containsReturn, Bool.or_false, Bool.or_eq_true]
    intro holds
    cases known with
    | true => exact .inl (first.contains holds)
    | false => exact .inr (second.contains holds)

end Branch

end KeepsReturns

mutual

/-- What becomes of a statement returns where the statement did. -/
theorem keepsReturns_optimizeStmt : {statement : Stmt} → {results : List Stmt} →
    optimizeStmt statement = .ok results → KeepsReturns [statement] results
  | .declare _ _ _, _, optimizes | .exscribe _ _, _, optimizes | .evaluate _ _, _, optimizes
  | .function _ _ _, _, optimizes | .main _ _, _, optimizes | .returnValue _ _, _, optimizes => by
    obtain ⟨result, -, same⟩ := bind_eq_ok.mp optimizes
    cases same
    exact .replaced rfl rfl
  | .affix _ _, _, rfl | .step _ _ _, _, rfl | .breakLoop _, _, rfl | .returnVoid _, _, rfl =>
    .replaced rfl rfl
  | .assign _ target _, _, optimizes => by
    obtain ⟨result, -, same⟩ := bind_eq_ok.mp optimizes
    cases isRead : reads target result with
    | true =>
      rw [isRead] at same
      cases same
      exact .dropped rfl
    | false =>
      rw [isRead] at same
      cases same
      exact .replaced rfl rfl
  | .block position _, _, optimizes => by
    obtain ⟨flat, isFlat, same⟩ := bind_eq_ok.mp optimizes
    cases same
    exact (keepsReturns_optimizeEach isFlat).absorbed.block position
  | .branch position condition _ _, _, optimizes => by
    obtain ⟨decided, -, rest⟩ := bind_eq_ok.mp optimizes
    obtain ⟨first, isFirst, rest⟩ := bind_eq_ok.mp rest
    obtain ⟨second, isSecond, same⟩ := bind_eq_ok.mp rest
    have consequent := (keepsReturns_optimizeEach isFirst).absorbed
    have alternative := (keepsReturns_optimizeEach isSecond).absorbed
    dsimp only at same
    split at same
    · next info known _ =>
      obtain rfl := pure_eq_ok.mp same
      exact consequent.taken alternative position condition known
    · obtain rfl := pure_eq_ok.mp same
      exact consequent.branch alternative position condition decided
  | .loop position condition _, _, optimizes => by
    obtain ⟨decided, -, rest⟩ := bind_eq_ok.mp optimizes
    split at rest
    · obtain rfl := pure_eq_ok.mp rest
      exact .dropped rfl
    · obtain ⟨flat, isFlat, same⟩ := bind_eq_ok.mp rest
      obtain rfl := pure_eq_ok.mp same
      exact (keepsReturns_optimizeEach isFlat).absorbed.loop position condition decided

theorem keepsReturns_optimizeEach : {body results : List Stmt} →
    optimizeEach body = .ok results → KeepsReturns body results
  | [], _, rfl => ⟨nofun, nofun⟩
  | _ :: _, _, optimizes => by
    obtain ⟨first, isFirst, others⟩ := bind_eq_ok.mp optimizes
    obtain ⟨others, areOthers, same⟩ := bind_eq_ok.mp others
    cases same
    exact (keepsReturns_optimizeStmt isFirst).append (keepsReturns_optimizeEach areOthers)

end

/-- A body that returns on every path still does when it has been optimized, and an
optimized body holds a `return` only if the body held one. -/
theorem returns_optimizeBody {body optimized : List Stmt}
    (completes : optimizeBody body = .ok optimized) :
    (alwaysReturns body = true → alwaysReturns optimized = true) ∧
      (containsReturn optimized = true → containsReturn body = true) := by
  obtain ⟨flat, isFlat, same⟩ := bind_eq_ok.mp completes
  cases same
  have keeps := (keepsReturns_optimizeEach isFlat).absorbed
  exact ⟨keeps.always, keeps.contains⟩

/-- One of two paths is left, and it returns as well. -/
theorem returns_optimizeBody_passingBody :
    ∃ optimized, optimizeBody passingBody = .ok optimized ∧ alwaysReturns optimized = true ∧
      (containsReturn optimized = true → containsReturn passingBody = true) := by
  obtain ⟨always, contains⟩ := returns_optimizeBody (show optimizeBody passingBody = .ok _ from rfl)
  exact ⟨_, rfl, always rfl, contains⟩

end Optimizer

end GlyphCompiler
