/-
# The size of optimized programs

The optimizer never makes a program larger. Whatever it does takes at least one node
away: an operator with its operand, a branch around the statements that are taken, a
loop, an assignment or a step. So where no node is taken away, nothing is changed.
-/

import GlyphCompiler.Proofs.Optimizer.Idempotence
import GlyphCompiler.Proofs.Program.Unplaced

namespace GlyphCompiler

namespace Optimizer

/-! ## Smaller or the same -/

/-- A part can take the place of another one: it is no larger, and it is the other one if
it is as large. -/
structure Shrinks {Part : Type} (size : Part → Nat) (result original : Part) : Prop where
  le : size result ≤ size original
  eq : size result = size original → result = original

namespace Shrinks

variable {First Second Third Whole : Type} {sizeFirst : First → Nat} {sizeSecond : Second → Nat}
  {sizeThird : Third → Nat} {sizeWhole : Whole → Nat}

theorem refl (original : Whole) : Shrinks sizeWhole original original :=
  ⟨Nat.le_refl _, fun _ => rfl⟩

theorem of_lt {result original : Whole} (smaller : sizeWhole result < sizeWhole original) :
    Shrinks sizeWhole result original :=
  ⟨Nat.le_of_lt smaller, fun same => absurd same (Nat.ne_of_lt smaller)⟩

theorem trans {first second third : Whole} (left : Shrinks sizeWhole second first)
    (right : Shrinks sizeWhole third second) : Shrinks sizeWhole third first := by
  have leftLe := left.le
  have rightLe := right.le
  refine ⟨Nat.le_trans rightLe leftLe, fun same => ?_⟩
  exact (right.eq (by omega)).trans (left.eq (by omega))

/-- A whole shrinks with its only part. -/
theorem map (wrap : First → Whole) {more : Nat}
    (size : ∀ first, sizeWhole (wrap first) = more + sizeFirst first) {result original : First}
    (shrinks : Shrinks sizeFirst result original) :
    Shrinks sizeWhole (wrap result) (wrap original) := by
  refine ⟨?_, fun same => ?_⟩
  · rw [size, size]
    exact Nat.add_le_add_left shrinks.le more
  · rw [size, size] at same
    rw [shrinks.eq (by omega)]

/-- A whole shrinks with its two parts. -/
theorem map₂ (wrap : First → Second → Whole) {more : Nat}
    (size : ∀ first second, sizeWhole (wrap first second) =
      more + (sizeFirst first + sizeSecond second))
    {first first' : First} {second second' : Second} (left : Shrinks sizeFirst first first')
    (right : Shrinks sizeSecond second second') :
    Shrinks sizeWhole (wrap first second) (wrap first' second') := by
  have leftLe := left.le
  have rightLe := right.le
  refine ⟨?_, fun same => ?_⟩
  · rw [size, size]
    omega
  · rw [size, size] at same
    rw [left.eq (by omega), right.eq (by omega)]

/-- A whole shrinks with its three parts. -/
theorem map₃ (wrap : First → Second → Third → Whole) {more : Nat}
    (size : ∀ first second third, sizeWhole (wrap first second third) =
      more + (sizeFirst first + sizeSecond second + sizeThird third))
    {first first' : First} {second second' : Second} {third third' : Third}
    (left : Shrinks sizeFirst first first') (middle : Shrinks sizeSecond second second')
    (right : Shrinks sizeThird third third') :
    Shrinks sizeWhole (wrap first second third) (wrap first' second' third') := by
  have leftLe := left.le
  have middleLe := middle.le
  have rightLe := right.le
  refine ⟨?_, fun same => ?_⟩
  · rw [size, size]
    omega
  · rw [size, size] at same
    rw [left.eq (by omega), middle.eq (by omega), right.eq (by omega)]

end Shrinks

/-- The number of nodes of an expression. -/
def exprSize (expression : Expr) : Nat :=
  expression.walk.length

/-- The number of nodes of some expressions. -/
def exprsSize (expressions : List Expr) : Nat :=
  (walkExprs expressions).length

/-- The number of nodes of a statement. -/
def stmtSize (statement : Stmt) : Nat :=
  statement.walk.length

/-- The number of nodes of some statements. -/
def bodySize (body : List Stmt) : Nat :=
  (walkStmts body).length

theorem exprSize_pos (expression : Expr) : 0 < exprSize expression := by
  rw [exprSize, expression.walk_eq]
  exact Nat.succ_pos _

@[simp]
theorem bodySize_append (first second : List Stmt) :
    bodySize (first ++ second) = bodySize first + bodySize second := by
  simp [bodySize, walkStmts_eq_flatMap]

theorem bodySize_singleton (statement : Stmt) : bodySize [statement] = stmtSize statement := by
  simp [bodySize, stmtSize, walkStmts]

theorem Shrinks.append {first second firstResults secondResults : List Stmt}
    (left : Shrinks bodySize firstResults first) (right : Shrinks bodySize secondResults second) :
    Shrinks bodySize (firstResults ++ secondResults) (first ++ second) :=
  .map₂ (· ++ ·) (fun first second => by rw [bodySize_append, Nat.zero_add]) left right

/-! ## Absorbed steps -/

theorem bodySize_alike {first second : List Stmt} (alike : List.Forall₂ Alike first second) :
    bodySize second = bodySize first := by
  induction alike with
  | nil => rfl
  | cons here _ ih =>
    have same : ∀ {one other : Stmt}, Alike one other → other.walk.length = one.walk.length := by
      rintro _ _ ⟨⟩ <;> rfl
    simp only [bodySize, walkStmts, List.length_append] at ih ⊢
    rw [ih, same here]

theorem shrinks_foldl {body read : List Stmt} {absorption : Absorption}
    (shrinks : Shrinks bodySize absorption.kept.toList read) :
    Shrinks bodySize (body.foldl Absorption.next absorption).kept.toList (read ++ body) := by
  induction body generalizing read absorption with
  | nil => simpa using shrinks
  | cons statement body ih =>
    rw [List.append_cons, List.foldl_cons]
    apply ih
    obtain ⟨-, kept⟩ | ⟨position, step, target, place, rfl, -, stepped⟩ :=
      next_cases absorption statement
    · rw [kept, keep_eq, Array.toList_push]
      exact shrinks.append (.refl _)
    · rw [stepped]
      -- the step itself is gone, and the declaration that took it in is as large as before
      have same := bodySize_alike (stepAt_alike absorption place step)
      have le := shrinks.le
      apply Shrinks.of_lt
      rw [same, bodySize_append]
      have one : bodySize [Stmt.step position step target] = 1 := rfl
      omega

theorem shrinks_absorbSteps (body : List Stmt) : Shrinks bodySize (absorbSteps body) body :=
  @shrinks_foldl body [] ⟨#[], []⟩ (.refl _)

/-- A body shrinks with its statements, whatever steps they take in afterwards. -/
theorem Shrinks.absorbing {flat body : List Stmt} (shrinks : Shrinks bodySize flat body) :
    Shrinks bodySize (absorbSteps flat) body :=
  shrinks.trans (shrinks_absorbSteps flat)

/-! ## Simplified operators -/

/-- A literal is smaller than any operator. -/
theorem shrinks_of_literal {result original : Expr} (literal : exprSize result = 1)
    (large : 1 < exprSize original) : Shrinks exprSize result original :=
  .of_lt (literal ▸ large)

theorem exprSize_of_numberLiteral {info : Info} {value : Number} {result : Expr}
    (literal : numberLiteral info value = .ok (some result)) : exprSize result = 1 := by
  rw [(numberLiteral_eq_some literal).1]
  rfl

theorem exprSize_of_fold {info : Info} {operator : BinaryOperator} {left right result : Expr}
    (folds : fold info operator left right = .ok (some result)) : exprSize result = 1 := by
  obtain ⟨value, -, literal⟩ := bind_eq_ok.mp folds
  split at literal
  · exact exprSize_of_numberLiteral literal
  · cases literal
    rfl
  · cases literal

theorem exprSize_binary (info : Info) (operator : BinaryOperator) (left right : Expr) :
    exprSize (.binary info operator left right) = 1 + (exprSize left + exprSize right) := by
  simp [exprSize, Expr.walk]
  omega

theorem exprSize_unary (info : Info) (operator : UnaryOperator) (operand : Expr) :
    exprSize (.unary info operator operand) = 1 + exprSize operand := by
  simp [exprSize, Expr.walk]
  omega

theorem shrinks_binary {info : Info} {operator : BinaryOperator}
    {left right first second result : Expr} (shrinksLeft : Shrinks exprSize first left)
    (shrinksRight : Shrinks exprSize second right)
    (simplifies : simplifyBinary info operator first second = .ok result) :
    Shrinks exprSize result (.binary info operator left right) := by
  have size := exprSize_binary info operator left right
  have leftLe := shrinksLeft.le
  have rightLe := shrinksRight.le
  have leftPos := exprSize_pos left
  have rightPos := exprSize_pos right
  have firstPos := exprSize_pos first
  obtain ⟨folded, folds, rest⟩ := bind_eq_ok.mp simplifies
  cases folded with
  | some folded =>
    cases rest
    exact shrinks_of_literal (exprSize_of_fold folds) (by omega)
  | none =>
    cases lawResult_of_applyLaws rest with
    | none =>
      exact .map₂ (Expr.binary info operator) (exprSize_binary info operator) shrinksLeft
        shrinksRight
    | left _ => exact .of_lt (by omega)
    | right _ => exact .of_lt (by omega)
    | decided _ _ => exact .of_lt (by omega)
    | literal literal =>
      exact shrinks_of_literal (exprSize_of_numberLiteral literal) (by omega)
    | negated _ _ _ _ =>
      -- the operand that was zero is gone
      have negated := exprSize_unary info .neg second
      exact .of_lt (by omega)

theorem shrinks_unary {info : Info} {operator : UnaryOperator} {operand inner result : Expr}
    (shrinks : Shrinks exprSize inner operand)
    (simplifies : simplifyUnary info operator inner = .ok result) :
    Shrinks exprSize result (.unary info operator operand) := by
  have kept : Shrinks exprSize (.unary info operator inner) (.unary info operator operand) :=
    .map (Expr.unary info operator) (exprSize_unary info operator) shrinks
  have large : 1 < exprSize (.unary info operator operand) := by
    have := exprSize_pos operand
    rw [exprSize_unary]
    omega
  unfold simplifyUnary at simplifies
  split at simplifies
  · cases simplifies
    exact shrinks_of_literal rfl large
  · obtain ⟨literal, isLiteral, same⟩ := bind_eq_ok.mp simplifies
    cases literal with
    | some literal =>
      cases same
      exact shrinks_of_literal (exprSize_of_numberLiteral isLiteral) large
    | none =>
      cases same
      exact kept
  · cases simplifies
    exact kept

theorem shrinks_dereference {info : Info} {operand inner : Expr}
    (shrinks : Shrinks exprSize inner operand) :
    Shrinks exprSize (simplifyDereference info inner) (.dereference info operand) := by
  have size (operand : Expr) : exprSize (.dereference info operand) = 1 + exprSize operand := by
    simp [exprSize, Expr.walk]
    omega
  unfold simplifyDereference
  split
  · exact shrinks_of_literal rfl (by have := exprSize_pos operand; rw [size]; omega)
  · exact .map (Expr.dereference info) size shrinks

/-! ## One pass -/

/-- A list of one statement shrinks with it. -/
theorem shrinks_singleton {result statement : Stmt} (shrinks : Shrinks stmtSize result statement) :
    Shrinks bodySize [result] [statement] :=
  .map (fun statement => [statement])
    (fun statement => by rw [bodySize_singleton, Nat.zero_add]) shrinks

/-- A statement shrinks with the only expression in it. -/
theorem shrinks_value (wrap : Expr → Stmt) {result value : Expr}
    (size : ∀ value, stmtSize (wrap value) = 1 + exprSize value)
    (shrinks : Shrinks exprSize result value) : Shrinks bodySize [wrap result] [wrap value] :=
  shrinks_singleton (.map wrap size shrinks)

/-- A statement shrinks with the only body in it. -/
theorem shrinks_body (wrap : List Stmt → Stmt) {results body : List Stmt}
    (size : ∀ body, stmtSize (wrap body) = 1 + bodySize body)
    (shrinks : Shrinks bodySize results body) : Shrinks bodySize [wrap results] [wrap body] :=
  shrinks_singleton (.map wrap size shrinks)

mutual

theorem shrinks_optimizeExpr : {expression result : Expr} →
    optimizeExpr expression = .ok result → Shrinks exprSize result expression
  | .binary info operator left right, result, optimizes => by
    obtain ⟨first, isFirst, rest⟩ := bind_eq_ok.mp optimizes
    obtain ⟨second, isSecond, simplifies⟩ := bind_eq_ok.mp rest
    exact shrinks_binary (shrinks_optimizeExpr isFirst) (shrinks_optimizeExpr isSecond) simplifies
  | .unary info operator operand, result, optimizes => by
    obtain ⟨inner, isInner, simplifies⟩ := bind_eq_ok.mp optimizes
    exact shrinks_unary (shrinks_optimizeExpr isInner) simplifies
  | .dereference info operand, result, optimizes => by
    obtain ⟨inner, isInner, same⟩ := bind_eq_ok.mp optimizes
    cases same
    exact shrinks_dereference (shrinks_optimizeExpr isInner)
  | .call info callee arguments, result, optimizes => by
    obtain ⟨results, areResults, same⟩ := bind_eq_ok.mp optimizes
    cases same
    have size (arguments : List Expr) :
        exprSize (.call info callee arguments) = 2 + exprsSize arguments := by
      simp [exprSize, exprsSize, Expr.walk]
      omega
    exact .map (Expr.call info callee) size (shrinks_optimizeExprs areResults)
  | .subscript info base index, result, optimizes => by
    obtain ⟨first, isFirst, rest⟩ := bind_eq_ok.mp optimizes
    obtain ⟨second, isSecond, same⟩ := bind_eq_ok.mp rest
    cases same
    have size (base index : Expr) :
        exprSize (.subscript info base index) = 1 + (exprSize base + exprSize index) := by
      simp [exprSize, Expr.walk, Nat.add_comm]
    exact .map₂ (Expr.subscript info) size (shrinks_optimizeExpr isFirst)
      (shrinks_optimizeExpr isSecond)
  | .array info elements, result, optimizes => by
    obtain ⟨results, areResults, same⟩ := bind_eq_ok.mp optimizes
    cases same
    have size (elements : List Expr) : exprSize (.array info elements) = 1 + exprsSize elements := by
      simp [exprSize, exprsSize, Expr.walk, Nat.add_comm]
    exact .map (Expr.array info) size (shrinks_optimizeExprs areResults)
  | .conjure info body, result, optimizes => by
    obtain ⟨flat, isFlat, same⟩ := bind_eq_ok.mp optimizes
    cases same
    have size (body : List Stmt) : exprSize (.conjure info body) = 1 + bodySize body := by
      simp [exprSize, bodySize, Expr.walk, Nat.add_comm]
    exact .map (Expr.conjure info) size (shrinks_optimizeEach isFlat).absorbing
  | .apply info mapping items, result, optimizes => by
    obtain ⟨first, isFirst, rest⟩ := bind_eq_ok.mp optimizes
    obtain ⟨second, isSecond, same⟩ := bind_eq_ok.mp rest
    cases same
    have size (mapping items : Expr) :
        exprSize (.apply info mapping items) = 1 + (exprSize mapping + exprSize items) := by
      simp [exprSize, Expr.walk, Nat.add_comm]
    exact .map₂ (Expr.apply info) size (shrinks_optimizeExpr isFirst)
      (shrinks_optimizeExpr isSecond)
  | .supplant info text pattern replacement, result, optimizes => by
    obtain ⟨first, isFirst, rest⟩ := bind_eq_ok.mp optimizes
    obtain ⟨second, isSecond, rest⟩ := bind_eq_ok.mp rest
    obtain ⟨third, isThird, same⟩ := bind_eq_ok.mp rest
    cases same
    have size (text pattern replacement : Expr) :
        exprSize (.supplant info text pattern replacement) =
          1 + (exprSize text + exprSize pattern + exprSize replacement) := by
      simp [exprSize, Expr.walk]
      omega
    exact .map₃ (Expr.supplant info) size (shrinks_optimizeExpr isFirst)
      (shrinks_optimizeExpr isSecond) (shrinks_optimizeExpr isThird)
  | .number _ _, _, rfl | .bool _ _, _, rfl | .string _ _, _, rfl | .glyph _ _, _, rfl
  | .codepoint _ _, _, rfl | .null _, _, rfl | .reference _, _, rfl | .function _ _, _, rfl
  | .addressOf _ _, _, rfl | .typeOf _ _, _, rfl => .refl _

theorem shrinks_optimizeExprs : {expressions results : List Expr} →
    optimizeExprs expressions = .ok results → Shrinks exprsSize results expressions
  | [], _, rfl => .refl _
  | expression :: rest, results, optimizes => by
    obtain ⟨first, isFirst, others⟩ := bind_eq_ok.mp optimizes
    obtain ⟨others, areOthers, same⟩ := bind_eq_ok.mp others
    cases same
    have size (expression : Expr) (rest : List Expr) :
        exprsSize (expression :: rest) = 0 + (exprSize expression + exprsSize rest) := by
      simp [exprSize, exprsSize, walkExprs]
    exact .map₂ List.cons size (shrinks_optimizeExpr isFirst) (shrinks_optimizeExprs areOthers)

theorem shrinks_optimizeStmt : {statement : Stmt} → {results : List Stmt} →
    optimizeStmt statement = .ok results → Shrinks bodySize results [statement]
  | .declare position target value, results, optimizes => by
    obtain ⟨result, isResult, same⟩ := bind_eq_ok.mp optimizes
    cases same
    have size (value : Expr) : stmtSize (.declare position target value) = 1 + exprSize value := by
      simp [stmtSize, exprSize, Stmt.walk, Nat.add_comm]
    exact shrinks_value (.declare position target) size (shrinks_optimizeExpr isResult)
  | .function position target body, results, optimizes => by
    obtain ⟨flat, isFlat, same⟩ := bind_eq_ok.mp optimizes
    cases same
    have size (body : List Stmt) : stmtSize (.function position target body) = 1 + bodySize body := by
      simp [stmtSize, bodySize, Stmt.walk, Nat.add_comm]
    exact shrinks_body (.function position target) size (shrinks_optimizeEach isFlat).absorbing
  | .main position body, results, optimizes => by
    obtain ⟨flat, isFlat, same⟩ := bind_eq_ok.mp optimizes
    cases same
    have size (body : List Stmt) : stmtSize (.main position body) = 1 + bodySize body := by
      simp [stmtSize, bodySize, Stmt.walk, Nat.add_comm]
    exact shrinks_body (.main position) size (shrinks_optimizeEach isFlat).absorbing
  | .assign position target value, results, optimizes => by
    obtain ⟨result, isResult, same⟩ := bind_eq_ok.mp optimizes
    have shrinks := shrinks_optimizeExpr isResult
    cases isRead : reads target result with
    | true =>
      rw [isRead] at same
      cases same
      exact .of_lt (by simp [bodySize, walkStmts, Stmt.walk])
    | false =>
      rw [isRead] at same
      cases same
      have size (value : Expr) : stmtSize (.assign position target value) = 1 + exprSize value := by
        simp [stmtSize, exprSize, Stmt.walk, Nat.add_comm]
      exact shrinks_value (.assign position target) size shrinks
  | .branch position condition consequent alternative, results, optimizes => by
    obtain ⟨decided, isDecided, rest⟩ := bind_eq_ok.mp optimizes
    obtain ⟨first, isFirst, rest⟩ := bind_eq_ok.mp rest
    obtain ⟨second, isSecond, same⟩ := bind_eq_ok.mp rest
    have condition' := shrinks_optimizeExpr isDecided
    have consequent' := (shrinks_optimizeEach isFirst).absorbing
    have alternative' := (shrinks_optimizeEach isSecond).absorbing
    have size (condition : Expr) (consequent alternative : List Stmt) :
        stmtSize (.branch position condition consequent alternative) =
          1 + (exprSize condition + bodySize consequent + bodySize alternative) := by
      simp [stmtSize, bodySize, exprSize, Stmt.walk]
      omega
    dsimp only at same
    split at same
    · next info known _ =>
      obtain rfl := pure_eq_ok.mp same
      have consequentLe := consequent'.le
      have alternativeLe := alternative'.le
      apply Shrinks.of_lt
      rw [bodySize_singleton, size]
      cases known with
      | true =>
        show bodySize (absorbSteps first) < _
        omega
      | false =>
        show bodySize (absorbSteps second) < _
        omega
    · obtain rfl := pure_eq_ok.mp same
      exact shrinks_singleton (.map₃ (Stmt.branch position) size condition' consequent' alternative')
  | .loop position condition body, results, optimizes => by
    obtain ⟨decided, isDecided, rest⟩ := bind_eq_ok.mp optimizes
    have condition' := shrinks_optimizeExpr isDecided
    split at rest
    · obtain rfl := pure_eq_ok.mp rest
      exact .of_lt (by simp [bodySize, walkStmts, Stmt.walk])
    · obtain ⟨flat, isFlat, same⟩ := bind_eq_ok.mp rest
      obtain rfl := pure_eq_ok.mp same
      have size (condition : Expr) (body : List Stmt) :
          stmtSize (.loop position condition body) = 1 + (exprSize condition + bodySize body) := by
        simp [stmtSize, bodySize, exprSize, Stmt.walk, Nat.add_comm]
      exact shrinks_singleton (.map₂ (Stmt.loop position) size condition'
        (shrinks_optimizeEach isFlat).absorbing)
  | .returnValue position value, results, optimizes => by
    obtain ⟨result, isResult, same⟩ := bind_eq_ok.mp optimizes
    cases same
    have size (value : Expr) : stmtSize (.returnValue position value) = 1 + exprSize value := by
      simp [stmtSize, exprSize, Stmt.walk, Nat.add_comm]
    exact shrinks_value (.returnValue position) size (shrinks_optimizeExpr isResult)
  | .exscribe position value, results, optimizes => by
    obtain ⟨result, isResult, same⟩ := bind_eq_ok.mp optimizes
    cases same
    have size (value : Expr) : stmtSize (.exscribe position value) = 1 + exprSize value := by
      simp [stmtSize, exprSize, Stmt.walk, Nat.add_comm]
    exact shrinks_value (.exscribe position) size (shrinks_optimizeExpr isResult)
  | .evaluate position value, results, optimizes => by
    obtain ⟨result, isResult, same⟩ := bind_eq_ok.mp optimizes
    cases same
    have size (value : Expr) : stmtSize (.evaluate position value) = 1 + exprSize value := by
      simp [stmtSize, exprSize, Stmt.walk, Nat.add_comm]
    exact shrinks_value (.evaluate position) size (shrinks_optimizeExpr isResult)
  | .block position body, results, optimizes => by
    obtain ⟨flat, isFlat, same⟩ := bind_eq_ok.mp optimizes
    cases same
    have size (body : List Stmt) : stmtSize (.block position body) = 1 + bodySize body := by
      simp [stmtSize, bodySize, Stmt.walk, Nat.add_comm]
    exact shrinks_body (.block position) size (shrinks_optimizeEach isFlat).absorbing
  | .affix _ _, _, rfl | .step _ _ _, _, rfl | .breakLoop _, _, rfl
  | .returnVoid _, _, rfl => .refl _

theorem shrinks_optimizeEach : {statements results : List Stmt} →
    optimizeEach statements = .ok results → Shrinks bodySize results statements
  | [], _, rfl => .refl _
  | statement :: rest, results, optimizes => by
    obtain ⟨first, isFirst, others⟩ := bind_eq_ok.mp optimizes
    obtain ⟨others, areOthers, same⟩ := bind_eq_ok.mp others
    cases same
    exact (shrinks_optimizeStmt isFirst).append (shrinks_optimizeEach areOthers)

end

/-- A pass over a program leaves no more nodes than it found, and as many only where it
changes nothing. -/
theorem shrinks_optimize {program optimized : Program}
    (completes : optimize program = .ok optimized) :
    Shrinks Program.nodeCount optimized program := by
  obtain ⟨body, isBody, same⟩ := bind_eq_ok.mp completes
  cases same
  obtain ⟨flat, isFlat, same⟩ := bind_eq_ok.mp isBody
  cases same
  have shrinks := (shrinks_optimizeEach isFlat).absorbing
  refine ⟨shrinks.le, fun same => ?_⟩
  show { program with body := absorbSteps flat } = program
  rw [shrinks.eq same]

end Optimizer

open Optimizer

/-- The optimizer only ever shrinks a program: it has no more nodes afterwards, and as many
of them exactly if it is, up to positions, what it was. -/
theorem nodeCount_optimize {program optimized : Program}
    (completes : optimize program = .ok optimized) :
    optimized.nodeCount ≤ program.nodeCount ∧
      (optimized.nodeCount = program.nodeCount ↔ optimized.unplaced = program.unplaced) := by
  have shrinks := shrinks_optimize completes
  refine ⟨shrinks.le, fun same => ?_, fun same => ?_⟩
  · rw [shrinks.eq same]
  · rw [← optimized.nodeCount_unplaced, same, program.nodeCount_unplaced]

theorem nodeCount_optimize_lateProgram :
    optimize Analysis.lateProgram = .ok lateOptimized ∧
      lateOptimized.nodeCount < Analysis.lateProgram.nodeCount ∧
        lateOptimized.unplaced ≠ Analysis.lateProgram.unplaced := by
  have counts := nodeCount_optimize optimize_lateProgram
  have fewer : lateOptimized.nodeCount < Analysis.lateProgram.nodeCount := by decide
  exact ⟨optimize_lateProgram, fewer, fun same => absurd (counts.2.mpr same) (Nat.ne_of_lt fewer)⟩

end GlyphCompiler
