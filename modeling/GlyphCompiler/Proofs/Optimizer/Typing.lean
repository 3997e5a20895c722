/-
# Types of optimized expressions

The optimizer keeps the type of every operand. An argument, whose type may be that of
the parameter that it is passed to, keeps it as well unless it collapses: a truth
literal that takes the place of an operator, and a variable that takes the place of a
pointer to it, have the type of their own.
-/

import GlyphCompiler.Proofs.Analysis.Regular
import GlyphCompiler.Proofs.Optimizer.Idempotence
import GlyphCompiler.Proofs.Program.Samples

namespace GlyphCompiler

/-- Does the result of optimizing an expression stand in its place without its type: a
truth literal for an operator, or a variable for a pointer that is followed? -/
def Expr.collapsesTo : Expr → Expr → Bool
  | .binary _ _ _ _, .bool _ _ | .unary _ _ _, .bool _ _ | .dereference _ _, .reference _ => true
  | _, _ => false

namespace Optimizer

open Analysis (Regular)

/-- Literals between which an operator stands fold to a number of its type or a truth value. -/
theorem fold_cases {info : Info} {operator : BinaryOperator} {left right result : Expr}
    (folds : fold info operator left right = .ok (some result)) :
    (∃ value, result = .number info value) ∨
      operator.isArithmetic = false ∧ ∃ value, result = .bool ⟨.bool, info.position⟩ value := by
  obtain ⟨value, evaluates, literal⟩ := bind_eq_ok.mp folds
  split at literal
  · exact .inl ⟨_, (numberLiteral_eq_some literal).1⟩
  · cases literal
    obtain unknown | ⟨-, _, number⟩ | ⟨asks, -⟩ | ⟨_, _, -, text⟩ := binary_cases evaluates
    · cases unknown
    · cases number
    · exact .inr ⟨asks, _, rfl⟩
    · cases text
  · cases literal

/-- What an expression is optimized to has its type, or its own type if it collapses. It
has its own type if the expression had. -/
structure Retyped (expression result : Expr) : Prop where
  type : result.type = if expression.collapsesTo result then expression.ownType else expression.type
  own : expression.OwnTyped → result.OwnTyped

namespace Retyped

variable {expression result : Expr}

/-- A result of the same type that does not collapse. -/
theorem ofSame (type : result.type = expression.type)
    (stays : expression.collapsesTo result = false)
    (own : expression.OwnTyped → result.OwnTyped) : Retyped expression result :=
  ⟨by rw [stays]; exact type, own⟩

/-- An operand keeps its type, and has it by its form. -/
theorem kept (retyped : Retyped expression result) (own : expression.OwnTyped) :
    result.type = expression.type := by
  rw [retyped.type]
  split
  · exact own.1.symm
  · rfl

end Retyped

section

variable {info : Info} {operator : BinaryOperator} {left right first second result : Expr}

/-- A literal of a number takes the place of an operator. -/
theorem retyped_number {value : Number} : Retyped (.binary info operator left right) (.number info value) :=
  .ofSame rfl rfl fun _ => ⟨rfl, trivial⟩

/-- An operand of the same type takes the place of an operator. -/
theorem retyped_operand (own : result.OwnTyped) (keeps : result.type = info.type) :
    Retyped (.binary info operator left right) result := by
  refine ⟨?_, fun _ => own⟩
  split
  · next collapses =>
    cases result with
    | bool note value =>
      rw [Expr.ownType]
      split
      · exact keeps
      · exact own.1
    | _ => cases collapses
  · exact keeps

theorem retyped_binary (ownFirst : first.OwnTyped) (ownSecond : second.OwnTyped)
    (simplifies : simplifyBinary info operator first second = .ok result) :
    Retyped (.binary info operator left right) result := by
  obtain ⟨folded, folds, rest⟩ := bind_eq_ok.mp simplifies
  cases folded with
  | some folded =>
    cases rest
    obtain ⟨value, rfl⟩ | ⟨asks, value, rfl⟩ := fold_cases folds
    · exact retyped_number
    · exact ⟨by simp [Expr.collapsesTo, Expr.ownType, asks, Expr.type, Expr.info], fun _ => ⟨rfl, trivial⟩⟩
  | none =>
    cases lawResult_of_applyLaws rest with
    | none => exact .ofSame rfl rfl fun own => ⟨own.1, trivial⟩
    | left keeps => exact retyped_operand ownFirst keeps
    | right keeps => exact retyped_operand ownSecond keeps
    | decided isLogical isBool =>
      subst isBool
      have asks : operator.isArithmetic = false := by
        cases operator <;> first | rfl | cases isLogical
      refine ⟨?_, fun _ => ownFirst⟩
      rw [ownFirst.1]
      simp [Expr.collapsesTo, Expr.ownType, asks]
    | literal literal =>
      obtain ⟨rfl, -⟩ := numberLiteral_eq_some literal
      exact retyped_number
    | negated _ _ _ _ => exact .ofSame rfl rfl fun _ => ⟨rfl, trivial⟩

end

theorem retyped_unary {info : Info} {operator : UnaryOperator} {operand inner result : Expr}
    (simplifies : simplifyUnary info operator inner = .ok result) :
    Retyped (.unary info operator operand) result := by
  have unchanged : Retyped (.unary info operator operand) (.unary info operator inner) :=
    .ofSame rfl rfl fun own => ⟨own.1, trivial⟩
  unfold simplifyUnary at simplifies
  split at simplifies
  · next value negates =>
    cases simplifies
    cases operator with
    | not => exact ⟨rfl, fun _ => ⟨rfl, trivial⟩⟩
    | neg => cases shape : literalValue inner <;> rw [shape] at negates <;> cases negates
  · obtain ⟨literal, isLiteral, same⟩ := bind_eq_ok.mp simplifies
    cases literal with
    | some literal =>
      cases same
      obtain ⟨rfl, -⟩ := numberLiteral_eq_some isLiteral
      exact .ofSame rfl rfl fun _ => ⟨rfl, trivial⟩
    | none =>
      cases same
      exact unchanged
  · cases simplifies
    exact unchanged

theorem retyped_dereference {info : Info} {operand inner : Expr}
    (kept : inner.type = operand.type) (own : inner.OwnTyped) :
    Retyped (.dereference info operand) (simplifyDereference info inner) := by
  unfold simplifyDereference
  split
  · next note use =>
    have target := own.2
    have pointer : operand.type = .pointer use.target.type := kept.symm.trans own.1
    refine ⟨?_, fun _ => ⟨target, trivial⟩⟩
    change use.info.type = operand.type.target?.getD info.type
    rw [pointer]
    exact target
  · refine .ofSame rfl rfl fun outer => ⟨?_, trivial⟩
    have same := outer.1
    rw [Expr.ownType] at same ⊢
    rw [kept]
    exact same

/-- The type of an optimized expression, whose operands have the types of their forms. -/
theorem retyped_optimizeExpr : {expression result : Expr} → (Node.expr expression).All Regular →
    optimizeExpr expression = .ok result → Retyped expression result
  | .binary info operator left right, result, regular, optimizes => by
    obtain ⟨root, below⟩ := Node.all_iff.mp regular
    obtain ⟨first, isFirst, rest⟩ := bind_eq_ok.mp optimizes
    obtain ⟨second, isSecond, simplifies⟩ := bind_eq_ok.mp rest
    have left := retyped_optimizeExpr (below _ List.mem_cons_self) isFirst
    have right := retyped_optimizeExpr (below _ (List.mem_cons_of_mem _ List.mem_cons_self)) isSecond
    exact retyped_binary (left.own (root.own _ List.mem_cons_self))
      (right.own (root.own _ (List.mem_cons_of_mem _ List.mem_cons_self))) simplifies
  | .unary info operator operand, result, regular, optimizes => by
    obtain ⟨inner, -, simplifies⟩ := bind_eq_ok.mp optimizes
    exact retyped_unary simplifies
  | .dereference info operand, result, regular, optimizes => by
    obtain ⟨root, below⟩ := Node.all_iff.mp regular
    obtain ⟨inner, isInner, same⟩ := bind_eq_ok.mp optimizes
    cases same
    have retyped := retyped_optimizeExpr (below _ List.mem_cons_self) isInner
    have own := root.own _ List.mem_cons_self
    exact retyped_dereference (retyped.kept own) (retyped.own own)
  | .call info callee arguments, result, _, optimizes => by
    obtain ⟨results, -, same⟩ := bind_eq_ok.mp optimizes
    cases same
    exact .ofSame rfl rfl fun _ => ⟨rfl, trivial⟩
  | .subscript info base index, result, _, optimizes => by
    obtain ⟨first, -, rest⟩ := bind_eq_ok.mp optimizes
    obtain ⟨second, -, same⟩ := bind_eq_ok.mp rest
    cases same
    exact .ofSame rfl rfl fun _ => ⟨rfl, trivial⟩
  | .array info elements, result, _, optimizes => by
    obtain ⟨results, -, same⟩ := bind_eq_ok.mp optimizes
    cases same
    exact .ofSame rfl rfl fun _ => ⟨rfl, trivial⟩
  | .conjure info body, result, _, optimizes => by
    obtain ⟨flat, -, same⟩ := bind_eq_ok.mp optimizes
    cases same
    exact .ofSame rfl rfl fun _ => ⟨rfl, trivial⟩
  | .apply info mapping items, result, _, optimizes => by
    obtain ⟨first, -, rest⟩ := bind_eq_ok.mp optimizes
    obtain ⟨second, -, same⟩ := bind_eq_ok.mp rest
    cases same
    exact .ofSame rfl rfl fun _ => ⟨rfl, trivial⟩
  | .supplant info text pattern replacement, result, _, optimizes => by
    obtain ⟨first, -, rest⟩ := bind_eq_ok.mp optimizes
    obtain ⟨second, -, rest⟩ := bind_eq_ok.mp rest
    obtain ⟨third, -, same⟩ := bind_eq_ok.mp rest
    cases same
    exact .ofSame rfl rfl fun _ => ⟨rfl, trivial⟩
  | .number _ _, _, _, rfl | .bool _ _, _, _, rfl | .string _ _, _, _, rfl | .glyph _ _, _, _, rfl
  | .codepoint _ _, _, _, rfl | .null _, _, _, rfl | .reference _, _, _, rfl
  | .function _ _, _, _, rfl | .addressOf _ _, _, _, rfl | .typeOf _ _, _, _, rfl =>
    .ofSame rfl rfl id

end Optimizer

open Optimizer (optimizeExpr)

/-- Every expression of an accepted program that is optimized keeps its type, unless it
collapses to a truth literal or to a variable: then it has the type that it had before
it was passed as an argument. An operand, which is everything but an argument of a call,
had no other type, so it keeps it in any case. -/
theorem type_optimizeExpr {source : String} {program : Program}
    (accepted : analyze source = .ok program) :
    (∀ expression result, .expr expression ∈ walkStmts program.body →
      optimizeExpr expression = .ok result →
        result.type =
          if expression.collapsesTo result then expression.ownType else expression.type) ∧
    (∀ parent ∈ walkStmts program.body, ∀ operand ∈ parent.operands,
      operand.type = operand.ownType ∧
        ∀ result, optimizeExpr operand = .ok result → result.type = operand.type) := by
  have regular := Analysis.regular_of_analyze accepted
  refine ⟨fun expression result member optimizes => ?_, fun parent member operand isOperand => ?_⟩
  · have all : (Node.expr expression).All Analysis.Regular := fun node below =>
      regular node (walk_subset_walkStmts member below)
    exact (Optimizer.retyped_optimizeExpr all optimizes).type
  · have own := (regular parent member).own operand isOperand
    refine ⟨own.1, fun result optimizes => ?_⟩
    have all : (Node.expr operand).All Analysis.Regular := fun node below =>
      regular node (walk_subset_walkStmts member (Node.walk_subset (Node.mem_walk_of_mem_children (Node.mem_children_of_mem_operands isOperand)) below))
    exact (Optimizer.retyped_optimizeExpr all optimizes).kept own

/-- The comparison collapses to a truth literal, and loses the type of the parameter. -/
theorem type_optimizeExpr_passedComparison :
    analyze comparingSource = .ok comparingProgram ∧
      ∃ result, optimizeExpr passedComparison = .ok result ∧ result.type = .bool ∧
        passedComparison.type = .optional .bool := by
  have member : .expr passedComparison ∈ walkStmts comparingProgram.body :=
    List.mem_of_getElem? (i := 4) rfl
  have optimizes : optimizeExpr passedComparison = .ok (.bool ⟨.bool, ⟨2, 3⟩⟩ true) := rfl
  exact ⟨analyze_comparingSource, _, optimizes,
    (type_optimizeExpr analyze_comparingSource).1 _ _ member optimizes, rfl⟩

end GlyphCompiler
