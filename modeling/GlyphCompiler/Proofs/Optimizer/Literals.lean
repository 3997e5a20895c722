/-
# Numbers of integer types

A number literal whose type is one of the integer types holds a whole number, and
holds it exactly. Analysis gives a fraction no such type, an argument that takes the
type of its parameter included, because no fraction converts to an integer type. The
optimizer writes a literal of its own only after asking for this, and a step that is
taken in leaves a whole number whole.
-/

import GlyphCompiler.Proofs.Optimizer.Typing

namespace GlyphCompiler

/-- A node that is a number of an integer type is a whole number. -/
def Node.IsWholeNumber : Node → Prop
  | .expr (.number info value) => info.type.isIntegral = true → ∃ whole, value = .int whole
  | _ => True

/-- Every number of an integer type among some nodes is whole. -/
def WholeNumbers (nodes : List Node) : Prop :=
  ∀ node ∈ nodes, node.IsWholeNumber

@[simp]
theorem wholeNumbers_cons {node : Node} {nodes : List Node} :
    WholeNumbers (node :: nodes) ↔ node.IsWholeNumber ∧ WholeNumbers nodes :=
  List.forall_mem_cons

@[simp]
theorem wholeNumbers_append {first second : List Node} :
    WholeNumbers (first ++ second) ↔ WholeNumbers first ∧ WholeNumbers second :=
  List.forall_mem_append

@[simp]
theorem wholeNumbers_nil : WholeNumbers [] :=
  nofun

/-- The numbers of a body are those of its statements. -/
theorem wholeNumbers_walkStmts {body : List Stmt} :
    WholeNumbers (walkStmts body) ↔ ∀ statement ∈ body, WholeNumbers statement.walk := by
  rw [walkStmts_eq_flatMap, WholeNumbers, List.forall_mem_flatMap]
  rfl

namespace Optimizer

/-! ## Absorbed steps -/

/-- A step takes a whole number to a whole number. -/
theorem stepped_int (step : Step) (whole : Int) : ∃ next, stepped step (.int whole) = .int next := by
  cases step <;> exact ⟨_, rfl⟩

/-- The number that a declaration holds stays whole when it takes in a step. -/
theorem wholeNumbers_stepAt {absorption : Absorption} {place : Nat} {step : Step}
    (whole : ∀ statement ∈ absorption.kept, WholeNumbers statement.walk) :
    ∀ statement ∈ (absorption.stepAt place step).kept, WholeNumbers statement.walk := by
  intro statement member
  obtain ⟨index, inside, rfl⟩ := Array.mem_iff_getElem.mp member
  simp only [Absorption.stepAt, Array.getElem_modify]
  have before := whole _ (Array.getElem_mem (by simpa [Absorption.stepAt] using inside))
  split
  · split
    · next position target info value isNumber =>
      rw [isNumber] at before
      simp only [Stmt.walk, Expr.walk, wholeNumbers_cons, wholeNumbers_nil, and_true] at before ⊢
      refine ⟨trivial, fun integral => ?_⟩
      obtain ⟨whole, rfl⟩ := before.2 integral
      exact stepped_int step whole
    · exact before
  · exact before

theorem wholeNumbers_next {absorption : Absorption} {statement : Stmt}
    (kept : ∀ earlier ∈ absorption.kept, WholeNumbers earlier.walk)
    (whole : WholeNumbers statement.walk) :
    ∀ other ∈ (absorption.next statement).kept, WholeNumbers other.walk := by
  obtain ⟨-, keeps⟩ | ⟨position, step, target, place, rfl, -, steps⟩ :=
    next_cases absorption statement
  · rw [keeps, keep_eq]
    intro other member
    obtain listed | rfl := Array.mem_push.mp member
    · exact kept other listed
    · exact whole
  · rw [steps]
    exact wholeNumbers_stepAt kept

theorem wholeNumbers_absorbSteps {body : List Stmt} (whole : WholeNumbers (walkStmts body)) :
    WholeNumbers (walkStmts (absorbSteps body)) := by
  have run : ∀ absorption : Absorption,
      (∀ statement ∈ absorption.kept, WholeNumbers statement.walk) →
        ∀ statement ∈ (body.foldl Absorption.next absorption).kept, WholeNumbers statement.walk := by
    induction body with
    | nil => exact fun absorption kept => kept
    | cons first rest ih =>
      obtain ⟨here, others⟩ := wholeNumbers_append.mp whole
      exact fun absorption kept => ih others _ (wholeNumbers_next kept here)
  exact wholeNumbers_walkStmts.mpr fun statement member =>
    run ⟨#[], []⟩ (by simp) statement (Array.mem_toList_iff.mp member)

/-! ## Simplified operators -/

/-- What is made a literal is a whole number if its type asks for one. -/
theorem wholeNumbers_numberLiteral {info : Info} {value : Number} {result : Expr}
    (literal : numberLiteral info value = .ok (some result)) : WholeNumbers result.walk := by
  obtain ⟨rfl, -, whole⟩ := numberLiteral_eq_some literal
  simpa [Expr.walk, Node.IsWholeNumber] using whole

theorem wholeNumbers_fold {info : Info} {operator : BinaryOperator} {left right result : Expr}
    (folds : fold info operator left right = .ok (some result)) : WholeNumbers result.walk := by
  obtain ⟨value, -, literal⟩ := bind_eq_ok.mp folds
  split at literal
  · exact wholeNumbers_numberLiteral literal
  · cases literal
    simp [Expr.walk, Node.IsWholeNumber]
  · cases literal

theorem wholeNumbers_simplifyBinary {info : Info} {operator : BinaryOperator}
    {left right result : Expr} (wholeLeft : WholeNumbers left.walk)
    (wholeRight : WholeNumbers right.walk)
    (simplifies : simplifyBinary info operator left right = .ok result) :
    WholeNumbers result.walk := by
  obtain ⟨folded, folds, rest⟩ := bind_eq_ok.mp simplifies
  cases folded with
  | some folded =>
    cases rest
    exact wholeNumbers_fold folds
  | none =>
    cases lawResult_of_applyLaws rest with
    | none => simp [Expr.walk, Node.IsWholeNumber, wholeLeft, wholeRight]
    | left _ => exact wholeLeft
    | right _ => exact wholeRight
    | decided _ _ => exact wholeLeft
    | literal literal => exact wholeNumbers_numberLiteral literal
    | negated _ _ _ _ => simp [Expr.walk, Node.IsWholeNumber, wholeRight]

theorem wholeNumbers_simplifyUnary {info : Info} {operator : UnaryOperator} {operand result : Expr}
    (whole : WholeNumbers operand.walk)
    (simplifies : simplifyUnary info operator operand = .ok result) : WholeNumbers result.walk := by
  have kept : WholeNumbers (Expr.unary info operator operand).walk := by
    simp [Expr.walk, Node.IsWholeNumber, whole]
  unfold simplifyUnary at simplifies
  split at simplifies
  · cases simplifies
    simp [Expr.walk, Node.IsWholeNumber]
  · obtain ⟨literal, isLiteral, same⟩ := bind_eq_ok.mp simplifies
    cases literal with
    | some literal =>
      cases same
      exact wholeNumbers_numberLiteral isLiteral
    | none =>
      cases same
      exact kept
  · cases simplifies
    exact kept

theorem wholeNumbers_simplifyDereference {info : Info} {operand : Expr}
    (whole : WholeNumbers operand.walk) :
    WholeNumbers (simplifyDereference info operand).walk := by
  unfold simplifyDereference
  split
  · simp [Reference.toExpr, Expr.walk, Node.IsWholeNumber]
  · simp [Expr.walk, Node.IsWholeNumber, whole]

/-! ## One pass -/

mutual

theorem wholeNumbers_optimizeExpr : {expression result : Expr} → WholeNumbers expression.walk →
    optimizeExpr expression = .ok result → WholeNumbers result.walk
  | .binary _ _ _ _, _, whole, optimizes => by
    obtain ⟨first, isFirst, rest⟩ := bind_eq_ok.mp optimizes
    obtain ⟨second, isSecond, simplifies⟩ := bind_eq_ok.mp rest
    obtain ⟨wholeLeft, wholeRight⟩ := wholeNumbers_append.mp (wholeNumbers_cons.mp whole).2
    exact wholeNumbers_simplifyBinary (wholeNumbers_optimizeExpr wholeLeft isFirst)
      (wholeNumbers_optimizeExpr wholeRight isSecond) simplifies
  | .unary _ _ _, _, whole, optimizes => by
    obtain ⟨inner, isInner, simplifies⟩ := bind_eq_ok.mp optimizes
    exact wholeNumbers_simplifyUnary
      (wholeNumbers_optimizeExpr (wholeNumbers_cons.mp whole).2 isInner) simplifies
  | .dereference _ _, _, whole, optimizes => by
    obtain ⟨inner, isInner, same⟩ := bind_eq_ok.mp optimizes
    cases same
    exact wholeNumbers_simplifyDereference
      (wholeNumbers_optimizeExpr (wholeNumbers_cons.mp whole).2 isInner)
  | .call _ callee _, _, whole, optimizes => by
    obtain ⟨results, areResults, same⟩ := bind_eq_ok.mp optimizes
    cases same
    simp only [Expr.walk, wholeNumbers_cons] at whole ⊢
    exact ⟨trivial, whole.2.1, wholeNumbers_optimizeExprs whole.2.2 areResults⟩
  | .array _ _, _, whole, optimizes => by
    obtain ⟨results, areResults, same⟩ := bind_eq_ok.mp optimizes
    cases same
    exact wholeNumbers_cons.mpr
      ⟨trivial, wholeNumbers_optimizeExprs (wholeNumbers_cons.mp whole).2 areResults⟩
  | .subscript _ _ _, _, whole, optimizes | .apply _ _ _, _, whole, optimizes => by
    obtain ⟨first, isFirst, rest⟩ := bind_eq_ok.mp optimizes
    obtain ⟨second, isSecond, same⟩ := bind_eq_ok.mp rest
    cases same
    simp only [Expr.walk, wholeNumbers_cons, wholeNumbers_append] at whole ⊢
    exact ⟨trivial, wholeNumbers_optimizeExpr whole.2.1 isFirst,
      wholeNumbers_optimizeExpr whole.2.2 isSecond⟩
  | .conjure _ _, _, whole, optimizes => by
    obtain ⟨flat, isFlat, same⟩ := bind_eq_ok.mp optimizes
    cases same
    exact wholeNumbers_cons.mpr ⟨trivial, wholeNumbers_absorbSteps
      (wholeNumbers_optimizeEach (wholeNumbers_cons.mp whole).2 isFlat)⟩
  | .supplant _ _ _ _, _, whole, optimizes => by
    obtain ⟨first, isFirst, rest⟩ := bind_eq_ok.mp optimizes
    obtain ⟨second, isSecond, rest⟩ := bind_eq_ok.mp rest
    obtain ⟨third, isThird, same⟩ := bind_eq_ok.mp rest
    cases same
    simp only [Expr.walk, wholeNumbers_cons, wholeNumbers_append] at whole ⊢
    exact ⟨trivial, ⟨wholeNumbers_optimizeExpr whole.2.1.1 isFirst,
      wholeNumbers_optimizeExpr whole.2.1.2 isSecond⟩,
      wholeNumbers_optimizeExpr whole.2.2 isThird⟩
  | .number _ _, _, whole, rfl | .bool _ _, _, whole, rfl | .string _ _, _, whole, rfl
  | .glyph _ _, _, whole, rfl | .codepoint _ _, _, whole, rfl | .null _, _, whole, rfl
  | .reference _, _, whole, rfl | .function _ _, _, whole, rfl | .addressOf _ _, _, whole, rfl
  | .typeOf _ _, _, whole, rfl => whole

theorem wholeNumbers_optimizeExprs : {expressions results : List Expr} →
    WholeNumbers (walkExprs expressions) → optimizeExprs expressions = .ok results →
      WholeNumbers (walkExprs results)
  | [], _, whole, rfl => whole
  | _ :: _, _, whole, optimizes => by
    obtain ⟨first, isFirst, others⟩ := bind_eq_ok.mp optimizes
    obtain ⟨others, areOthers, same⟩ := bind_eq_ok.mp others
    cases same
    obtain ⟨here, rest⟩ := wholeNumbers_append.mp whole
    exact wholeNumbers_append.mpr
      ⟨wholeNumbers_optimizeExpr here isFirst, wholeNumbers_optimizeExprs rest areOthers⟩

theorem wholeNumbers_optimizeStmt : {statement : Stmt} → {results : List Stmt} →
    WholeNumbers statement.walk → optimizeStmt statement = .ok results →
      WholeNumbers (walkStmts results)
  | .declare _ _ _, _, whole, optimizes | .returnValue _ _, _, whole, optimizes
  | .exscribe _ _, _, whole, optimizes | .evaluate _ _, _, whole, optimizes => by
    obtain ⟨result, isResult, same⟩ := bind_eq_ok.mp optimizes
    cases same
    simp only [walkStmts, Stmt.walk, List.append_nil, wholeNumbers_cons] at whole ⊢
    exact ⟨trivial, wholeNumbers_optimizeExpr whole.2 isResult⟩
  | .function _ _ _, _, whole, optimizes | .main _ _, _, whole, optimizes
  | .block _ _, _, whole, optimizes => by
    obtain ⟨flat, isFlat, same⟩ := bind_eq_ok.mp optimizes
    cases same
    simp only [walkStmts, Stmt.walk, List.append_nil, wholeNumbers_cons] at whole ⊢
    exact ⟨trivial, wholeNumbers_absorbSteps (wholeNumbers_optimizeEach whole.2 isFlat)⟩
  | .assign _ target _, _, whole, optimizes => by
    obtain ⟨result, isResult, same⟩ := bind_eq_ok.mp optimizes
    cases isRead : reads target result with
    | true =>
      rw [isRead] at same
      cases same
      exact wholeNumbers_nil
    | false =>
      rw [isRead] at same
      cases same
      simp only [Bool.false_eq_true, if_false, walkStmts, Stmt.walk, List.append_nil,
        wholeNumbers_cons] at whole ⊢
      exact ⟨trivial, wholeNumbers_optimizeExpr whole.2 isResult⟩
  | .branch _ _ _ _, _, whole, optimizes => by
    obtain ⟨decided, isDecided, rest⟩ := bind_eq_ok.mp optimizes
    obtain ⟨first, isFirst, rest⟩ := bind_eq_ok.mp rest
    obtain ⟨second, isSecond, same⟩ := bind_eq_ok.mp rest
    simp only [Stmt.walk, wholeNumbers_cons, wholeNumbers_append] at whole
    obtain ⟨-, ⟨wholeCondition, wholeConsequent⟩, wholeAlternative⟩ := whole
    have consequent := wholeNumbers_absorbSteps (wholeNumbers_optimizeEach wholeConsequent isFirst)
    have alternative :=
      wholeNumbers_absorbSteps (wholeNumbers_optimizeEach wholeAlternative isSecond)
    dsimp only at same
    split at same
    · next info known _ =>
      obtain rfl := pure_eq_ok.mp same
      cases known with
      | true => exact consequent
      | false => exact alternative
    · obtain rfl := pure_eq_ok.mp same
      simp only [walkStmts, Stmt.walk, List.append_nil, wholeNumbers_cons, wholeNumbers_append]
      exact ⟨trivial, ⟨wholeNumbers_optimizeExpr wholeCondition isDecided, consequent⟩, alternative⟩
  | .loop _ _ _, _, whole, optimizes => by
    obtain ⟨decided, isDecided, rest⟩ := bind_eq_ok.mp optimizes
    split at rest
    · obtain rfl := pure_eq_ok.mp rest
      exact wholeNumbers_nil
    · obtain ⟨flat, isFlat, same⟩ := bind_eq_ok.mp rest
      obtain rfl := pure_eq_ok.mp same
      simp only [walkStmts, Stmt.walk, List.append_nil, wholeNumbers_cons,
        wholeNumbers_append] at whole ⊢
      exact ⟨trivial, wholeNumbers_optimizeExpr whole.2.1 isDecided,
        wholeNumbers_absorbSteps (wholeNumbers_optimizeEach whole.2.2 isFlat)⟩
  | .affix _ _, _, whole, rfl | .step _ _ _, _, whole, rfl | .breakLoop _, _, whole, rfl
  | .returnVoid _, _, whole, rfl => wholeNumbers_append.mpr ⟨whole, wholeNumbers_nil⟩

theorem wholeNumbers_optimizeEach : {body results : List Stmt} → WholeNumbers (walkStmts body) →
    optimizeEach body = .ok results → WholeNumbers (walkStmts results)
  | [], _, whole, rfl => whole
  | _ :: _, _, whole, optimizes => by
    obtain ⟨first, isFirst, others⟩ := bind_eq_ok.mp optimizes
    obtain ⟨others, areOthers, same⟩ := bind_eq_ok.mp others
    cases same
    obtain ⟨here, rest⟩ := wholeNumbers_append.mp whole
    have head := wholeNumbers_optimizeStmt here isFirst
    have tail := wholeNumbers_optimizeEach rest areOthers
    rw [wholeNumbers_walkStmts, List.forall_mem_append]
    exact ⟨wholeNumbers_walkStmts.mp head, wholeNumbers_walkStmts.mp tail⟩

end

/-- A pass of the optimizer keeps the numbers of integer types whole. -/
theorem wholeNumbers_optimize {program optimized : Program}
    (whole : WholeNumbers (walkStmts program.body)) (completes : optimize program = .ok optimized) :
    WholeNumbers (walkStmts optimized.body) := by
  obtain ⟨body, isBody, same⟩ := bind_eq_ok.mp completes
  obtain ⟨flat, isFlat, rest⟩ := bind_eq_ok.mp isBody
  cases rest
  cases same
  exact wholeNumbers_absorbSteps (wholeNumbers_optimizeEach whole isFlat)

/-- So does any number of passes. -/
theorem wholeNumbers_optimizeTimes {passes : Nat} {program optimized : Program}
    (whole : WholeNumbers (walkStmts program.body))
    (completes : optimizeTimes passes program = .ok optimized) :
    WholeNumbers (walkStmts optimized.body) := by
  induction passes generalizing program with
  | zero =>
    cases completes
    exact whole
  | succ passes ih =>
    obtain ⟨middle, isMiddle, rest⟩ := bind_eq_ok.mp completes
    exact ih (wholeNumbers_optimize whole isMiddle) rest

end Optimizer

/-- In an accepted program each number whose type is one of the integer types is whole. -/
theorem wholeNumbers_of_analyze {source : String} {program : Program}
    (accepted : analyze source = .ok program) : WholeNumbers (walkStmts program.body) := by
  obtain ⟨final, -, lawful⟩ := Analysis.exists_lawful accepted
  intro node member
  cases node with
  | stmt statement => trivial
  | expr expression =>
    have whole := (lawful _ member).whole expression rfl
    cases expression with
    | number info value => exact whole.2
    | _ => trivial

/-- Integer literals are exact: in an accepted program, and in what any number of passes of
the optimizer make of it, a number literal whose type is one of the integer types holds an
integer, and no floating-point number. -/
theorem integer_literals_exact {source : String} {program : Program}
    (accepted : analyze source = .ok program) :
    (∀ info value, .expr (.number info value) ∈ walkStmts program.body →
      info.type.isIntegral = true → ∃ whole, value = .int whole) ∧
    (∀ passes optimized, optimizeTimes passes program = .ok optimized →
      ∀ info value, .expr (.number info value) ∈ walkStmts optimized.body →
        info.type.isIntegral = true → ∃ whole, value = .int whole) := by
  have whole := wholeNumbers_of_analyze accepted
  exact ⟨fun info value member => whole _ member, fun passes optimized completes info value member =>
    Optimizer.wholeNumbers_optimizeTimes whole completes _ member⟩

theorem integer_literals_exact_lateProgram :
    analyze Analysis.lateSource = .ok Analysis.lateProgram ∧
      optimizeTimes 1 Analysis.lateProgram = .ok lateOptimized ∧
        (∀ info value, .expr (.number info value) ∈ walkStmts lateOptimized.body →
          info.type.isIntegral = true → ∃ whole, value = .int whole) ∧
          .expr (.number ⟨.int .w32, ⟨3, 9⟩⟩ (.int 2)) ∈ walkStmts lateOptimized.body := by
  have optimizes : optimizeTimes 1 Analysis.lateProgram = .ok lateOptimized := by
    rw [optimizeTimes, optimize_lateProgram]
    rfl
  exact ⟨Analysis.analyze_lateSource, optimizes,
    (integer_literals_exact Analysis.analyze_lateSource).2 1 lateOptimized optimizes,
    by simp [lateOptimized, walkStmts, Stmt.walk, Expr.walk]⟩

end GlyphCompiler
