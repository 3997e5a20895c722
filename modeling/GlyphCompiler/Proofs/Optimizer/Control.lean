/-
# Control in optimized programs

The optimizer writes no statement of its own, so what it keeps of a program stays
controlled. The statements of a branch that is taken lose the block around them,
which they can do without. No `main` is among them, so there is none more than before.
-/

import GlyphCompiler.Proofs.Optimizer.Scoping
import GlyphCompiler.Proofs.Program.Control

namespace GlyphCompiler

namespace Optimizer

/-! ## Absorbed steps -/

theorem controlled_absorbSteps {body : List Stmt} {around : Surroundings}
    (controlled : bodyControlled body around) : bodyControlled (absorbSteps body) around := by
  rw [bodyControlled_iff] at controlled ⊢
  intro statement member
  obtain listed | ⟨position, target, info, value, rfl⟩ := mem_absorbSteps member
  · exact controlled statement listed
  · trivial

/-- To be a `main` has nothing to do with steps. -/
theorem stepless_isMain : Stepless Stmt.isMain := ⟨fun _ _ _ => rfl, fun _ _ _ _ _ => rfl⟩

/-! ## One pass -/

/-- A literal holds no statement. -/
theorem controlled_of_literal {result : Expr}
    (literal : (∃ info value, result = .number info value) ∨ ∃ info value, result = .bool info value) :
    result.Controlled := by
  obtain ⟨info, value, rfl⟩ | ⟨info, value, rfl⟩ := literal <;> trivial

theorem controlled_simplifyBinary {info : Info} {operator : BinaryOperator} {left right result : Expr}
    (controlledLeft : left.Controlled) (controlledRight : right.Controlled)
    (simplifies : simplifyBinary info operator left right = .ok result) : result.Controlled := by
  obtain ⟨folded, folds, rest⟩ := bind_eq_ok.mp simplifies
  cases folded with
  | some folded =>
    cases rest
    exact controlled_of_literal (literal_of_fold folds)
  | none =>
    cases lawResult_of_applyLaws rest with
    | none => exact ⟨controlledLeft, controlledRight⟩
    | left _ => exact controlledLeft
    | right _ => exact controlledRight
    | decided _ _ => exact controlledLeft
    | literal literal => exact controlled_of_literal (literal_of_numberLiteral literal)
    | negated _ _ _ _ => exact controlledRight

theorem controlled_simplifyUnary {info : Info} {operator : UnaryOperator} {operand result : Expr}
    (controlled : operand.Controlled) (simplifies : simplifyUnary info operator operand = .ok result) :
    result.Controlled := by
  unfold simplifyUnary at simplifies
  split at simplifies
  · cases simplifies
    trivial
  · obtain ⟨literal, isLiteral, same⟩ := bind_eq_ok.mp simplifies
    cases literal with
    | some literal =>
      cases same
      exact controlled_of_literal (literal_of_numberLiteral isLiteral)
    | none =>
      cases same
      exact controlled
  · cases simplifies
    exact controlled

theorem controlled_simplifyDereference {info : Info} {operand : Expr}
    (controlled : operand.Controlled) : (simplifyDereference info operand).Controlled := by
  unfold simplifyDereference
  split
  · trivial
  · exact controlled

mutual

theorem controlled_optimizeExpr : {expression result : Expr} → expression.Controlled →
    optimizeExpr expression = .ok result → result.Controlled
  | .binary _ _ _ _, _, controlled, optimizes => by
    obtain ⟨first, isFirst, rest⟩ := bind_eq_ok.mp optimizes
    obtain ⟨second, isSecond, simplifies⟩ := bind_eq_ok.mp rest
    exact controlled_simplifyBinary (controlled_optimizeExpr controlled.1 isFirst)
      (controlled_optimizeExpr controlled.2 isSecond) simplifies
  | .unary _ _ operand, _, controlled, optimizes => by
    obtain ⟨inner, isInner, simplifies⟩ := bind_eq_ok.mp optimizes
    exact controlled_simplifyUnary
      (@controlled_optimizeExpr operand _ controlled isInner) simplifies
  | .dereference _ operand, _, controlled, optimizes => by
    obtain ⟨inner, isInner, same⟩ := bind_eq_ok.mp optimizes
    cases same
    exact controlled_simplifyDereference
      (@controlled_optimizeExpr operand _ controlled isInner)
  | .call _ _ _, _, controlled, optimizes | .array _ _, _, controlled, optimizes => by
    obtain ⟨results, areResults, same⟩ := bind_eq_ok.mp optimizes
    cases same
    exact controlled_optimizeExprs controlled areResults
  | .subscript _ _ _, _, controlled, optimizes | .apply _ _ _, _, controlled, optimizes => by
    obtain ⟨first, isFirst, rest⟩ := bind_eq_ok.mp optimizes
    obtain ⟨second, isSecond, same⟩ := bind_eq_ok.mp rest
    cases same
    exact ⟨controlled_optimizeExpr controlled.1 isFirst, controlled_optimizeExpr controlled.2 isSecond⟩
  | .conjure _ body, _, controlled, optimizes => by
    obtain ⟨flat, isFlat, same⟩ := bind_eq_ok.mp optimizes
    cases same
    exact controlled_absorbSteps (@controlled_optimizeEach body _ _ controlled isFlat)
  | .supplant _ _ _ _, _, controlled, optimizes => by
    obtain ⟨first, isFirst, rest⟩ := bind_eq_ok.mp optimizes
    obtain ⟨second, isSecond, rest⟩ := bind_eq_ok.mp rest
    obtain ⟨third, isThird, same⟩ := bind_eq_ok.mp rest
    cases same
    exact ⟨controlled_optimizeExpr controlled.1 isFirst,
      controlled_optimizeExpr controlled.2.1 isSecond,
      controlled_optimizeExpr controlled.2.2 isThird⟩
  | .number _ _, _, _, rfl | .bool _ _, _, _, rfl | .string _ _, _, _, rfl | .glyph _ _, _, _, rfl
  | .codepoint _ _, _, _, rfl | .null _, _, _, rfl | .reference _, _, _, rfl
  | .function _ _, _, _, rfl | .addressOf _ _, _, _, rfl | .typeOf _ _, _, _, rfl => trivial

theorem controlled_optimizeExprs : {expressions results : List Expr} → allControlled expressions →
    optimizeExprs expressions = .ok results → allControlled results
  | [], _, _, rfl => trivial
  | _ :: _, _, controlled, optimizes => by
    obtain ⟨first, isFirst, others⟩ := bind_eq_ok.mp optimizes
    obtain ⟨others, areOthers, same⟩ := bind_eq_ok.mp others
    cases same
    exact ⟨controlled_optimizeExpr controlled.1 isFirst, controlled_optimizeExprs controlled.2 areOthers⟩

/-- What becomes of a statement is controlled where the statement was. -/
theorem controlled_optimizeStmt : {statement : Stmt} → {around : Surroundings} → {results : List Stmt} →
    statement.Controlled around → optimizeStmt statement = .ok results → bodyControlled results around
  | .declare _ _ value, _, _, controlled, optimizes | .exscribe _ value, _, _, controlled, optimizes
  | .evaluate _ value, _, _, controlled, optimizes => by
    obtain ⟨result, isResult, same⟩ := bind_eq_ok.mp optimizes
    cases same
    exact ⟨@controlled_optimizeExpr value _ controlled isResult, trivial⟩
  | .function _ _ body, _, _, controlled, optimizes | .block _ body, _, _, controlled, optimizes => by
    obtain ⟨flat, isFlat, same⟩ := bind_eq_ok.mp optimizes
    cases same
    exact ⟨controlled_absorbSteps (@controlled_optimizeEach body _ _ controlled isFlat), trivial⟩
  | .main _ _, _, _, controlled, optimizes => by
    obtain ⟨flat, isFlat, same⟩ := bind_eq_ok.mp optimizes
    cases same
    exact ⟨⟨controlled.1, controlled_absorbSteps (controlled_optimizeEach controlled.2 isFlat)⟩, trivial⟩
  | .assign _ target _, _, _, controlled, optimizes => by
    obtain ⟨result, isResult, same⟩ := bind_eq_ok.mp optimizes
    cases isRead : reads target result with
    | true =>
      rw [isRead] at same
      cases same
      trivial
    | false =>
      rw [isRead] at same
      cases same
      exact ⟨⟨controlled.1, controlled_optimizeExpr controlled.2 isResult⟩, trivial⟩
  | .branch _ _ _ _, _, _, controlled, optimizes => by
    obtain ⟨decided, isDecided, rest⟩ := bind_eq_ok.mp optimizes
    obtain ⟨first, isFirst, rest⟩ := bind_eq_ok.mp rest
    obtain ⟨second, isSecond, same⟩ := bind_eq_ok.mp rest
    have consequent := controlled_absorbSteps (controlled_optimizeEach controlled.2.1 isFirst)
    have alternative := controlled_absorbSteps (controlled_optimizeEach controlled.2.2 isSecond)
    dsimp only at same
    split at same
    · next info known _ =>
      obtain rfl := pure_eq_ok.mp same
      cases known with
      | true => exact unblock_body consequent
      | false => exact unblock_body alternative
    · obtain rfl := pure_eq_ok.mp same
      exact ⟨⟨controlled_optimizeExpr controlled.1 isDecided, consequent, alternative⟩, trivial⟩
  | .loop _ _ _, _, _, controlled, optimizes => by
    obtain ⟨decided, isDecided, rest⟩ := bind_eq_ok.mp optimizes
    split at rest
    · obtain rfl := pure_eq_ok.mp rest
      trivial
    · obtain ⟨flat, isFlat, same⟩ := bind_eq_ok.mp rest
      obtain rfl := pure_eq_ok.mp same
      exact ⟨⟨controlled_optimizeExpr controlled.1 isDecided,
        controlled_absorbSteps (controlled_optimizeEach controlled.2 isFlat)⟩, trivial⟩
  | .returnValue _ _, _, _, controlled, optimizes => by
    obtain ⟨result, isResult, same⟩ := bind_eq_ok.mp optimizes
    cases same
    exact ⟨⟨controlled.1, controlled_optimizeExpr controlled.2 isResult⟩, trivial⟩
  | .affix _ _, _, _, controlled, rfl | .step _ _ _, _, _, controlled, rfl
  | .breakLoop _, _, _, controlled, rfl | .returnVoid _, _, _, controlled, rfl =>
    ⟨controlled, trivial⟩

theorem controlled_optimizeEach : {body : List Stmt} → {around : Surroundings} →
    {results : List Stmt} → bodyControlled body around → optimizeEach body = .ok results →
      bodyControlled results around
  | [], _, _, _, rfl => trivial
  | _ :: _, _, _, controlled, optimizes => by
    obtain ⟨first, isFirst, others⟩ := bind_eq_ok.mp optimizes
    obtain ⟨others, areOthers, same⟩ := bind_eq_ok.mp others
    cases same
    exact bodyControlled_append.mpr ⟨controlled_optimizeStmt controlled.1 isFirst,
      controlled_optimizeEach controlled.2 areOthers⟩

end

/-! ## The `main` of a program -/

/-- A statement becomes a `main` only if it was one, and then it becomes nothing else. -/
theorem countP_optimizeStmt {statement : Stmt} {results : List Stmt} {around : Surroundings}
    (controlled : statement.Controlled around) (optimizes : optimizeStmt statement = .ok results) :
    results.countP Stmt.isMain ≤ if statement.isMain then 1 else 0 := by
  cases isMain : statement.isMain with
  | true =>
    cases statement with
    | main position body =>
      obtain ⟨flat, -, same⟩ := bind_eq_ok.mp optimizes
      cases same
      exact List.countP_le_length
    | _ => cases isMain
  | false =>
    have below := controlled_optimizeStmt (controlled.blocked isMain) optimizes
    have none : results.countP Stmt.isMain = 0 := by
      rw [← countP_walkStmts below, List.countP_eq_zero]
      simpa using noMain_walkStmts below (Surroundings.block_ne_program around)
    exact none.le

theorem countP_optimizeEach {body results : List Stmt} {around : Surroundings}
    (controlled : bodyControlled body around) (optimizes : optimizeEach body = .ok results) :
    results.countP Stmt.isMain ≤ body.countP Stmt.isMain := by
  induction body generalizing results with
  | nil =>
    cases optimizes
    exact le_rfl
  | cons statement body ih =>
    obtain ⟨first, isFirst, others⟩ := bind_eq_ok.mp optimizes
    obtain ⟨others, areOthers, same⟩ := bind_eq_ok.mp others
    cases same
    have here := countP_optimizeStmt controlled.1 isFirst
    have rest := ih controlled.2 areOthers
    rw [List.countP_append, List.countP_cons]
    omega

/-- A pass of the optimizer keeps a program controlled. -/
theorem controlled_optimize {program optimized : Program} (controlled : program.Controlled)
    (completes : optimize program = .ok optimized) : optimized.Controlled := by
  obtain ⟨body, isBody, same⟩ := bind_eq_ok.mp completes
  obtain ⟨flat, isFlat, rest⟩ := bind_eq_ok.mp isBody
  cases rest
  cases same
  have kept := controlled_absorbSteps (controlled_optimizeEach controlled.body isFlat)
  have fewer := countP_optimizeEach controlled.body isFlat
  have one := controlled.oneMain
  refine ⟨kept, ?_⟩
  rw [countP_walkStmts controlled.body] at one
  rw [countP_walkStmts kept, stepless_isMain.countP_absorbSteps]
  exact fewer.trans one

/-- Any number of passes of the optimizer keep a program controlled. -/
theorem controlled_optimizeTimes {passes : Nat} {program optimized : Program}
    (controlled : program.Controlled) (completes : optimizeTimes passes program = .ok optimized) :
    optimized.Controlled := by
  induction passes generalizing program with
  | zero =>
    cases completes
    exact controlled
  | succ passes ih =>
    obtain ⟨middle, isMiddle, rest⟩ := bind_eq_ok.mp completes
    exact ih (controlled_optimize controlled isMiddle) rest

end Optimizer

end GlyphCompiler
