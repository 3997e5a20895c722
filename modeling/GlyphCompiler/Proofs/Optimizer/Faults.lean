/-
# Faults of the optimizer

The optimizer fails in its arithmetic only: where a whole number is too large for a
floating-point operation, or an infinite number has no remainder.
-/

import GlyphCompiler.Optimizer.Optimize

namespace GlyphCompiler

/-- Is a fault one of arithmetic? -/
def Fault.isArithmetic : Fault → Bool
  | .integerTooLarge | .undefinedRemainder => true
  | _ => false

/-- A computation fails in arithmetic only. -/
def Calculates {Result : Type} (outcome : Except Fault Result) : Prop :=
  ∀ fault, outcome = .error fault → fault.isArithmetic = true

namespace Calculates

variable {Result Other : Type} {first : Except Fault Result}

theorem ok (result : Result) : Calculates (.ok result) := by
  rintro fault ⟨⟩

theorem error {fault : Fault} (arithmetic : fault.isArithmetic = true) :
    Calculates (.error fault : Except Fault Result) := by
  rintro _ ⟨⟩
  exact arithmetic

theorem bind {next : Result → Except Fault Other} (calculates : Calculates first)
    (later : ∀ result, Calculates (next result)) : Calculates (first >>= next) := by
  cases first with
  | error fault => exact .error (calculates fault rfl)
  | ok result => exact later result

theorem map {change : Result → Other} (calculates : Calculates first) :
    Calculates (do return change (← first)) :=
  calculates.bind fun result => .ok (change result)

end Calculates

namespace Number

theorem calculates_toFloat (number : Number) : Calculates number.toFloat := by
  cases number with
  | float value => exact .ok value
  | int value =>
    simp only [toFloat]
    split
    · exact .ok _
    · exact .error rfl

theorem calculates_combine (exact : Int → Int → Int) (rounded : Float → Float → Float)
    (left right : Number) : Calculates (combine exact rounded left right) := by
  unfold combine
  split
  · exact .ok _
  · exact (calculates_toFloat left).bind fun first => (calculates_toFloat right).map

theorem calculates_div (exact : Bool) (left right : Number) : Calculates (div exact left right) := by
  have quotient (first second : Int) : Calculates (floatQuotient first second) := by
    simp only [floatQuotient]
    split
    · exact .ok _
    · exact .error rfl
  unfold div
  split
  · exact .ok _
  · split
    · split
      · exact .ok _
      · exact (quotient _ _).map
    · exact (calculates_toFloat left).bind fun first => (calculates_toFloat right).map

theorem calculates_rem (left right : Number) : Calculates (rem left right) := by
  have remainder (first second : Float) : Calculates (floatRemainder first second) := by
    unfold floatRemainder
    split
    · exact .ok _
    · exact .ok _
    · exact .error rfl
    · exact .ok _
    · exact .ok _
  unfold rem
  split
  · exact .ok _
  · split
    · exact .ok _
    · exact (calculates_toFloat left).bind fun first => (calculates_toFloat right).bind fun second =>
        (remainder first second).map

end Number

namespace Value

theorem calculates_binary (operator : BinaryOperator) (left right : Value) (exact : Bool) :
    Calculates (binary operator left right exact) := by
  have arithmetic (first second : Number) : Calculates (arithmetic operator first second exact) := by
    cases operator with
    | add => exact (Number.calculates_combine _ _ first second).map
    | sub => exact (Number.calculates_combine _ _ first second).map
    | mul => exact (Number.calculates_combine _ _ first second).map
    | div => exact Number.calculates_div exact first second
    | rem => exact Number.calculates_rem first second
    | _ => exact .ok _
  unfold binary
  split
  all_goals first
    | exact .ok _
    | exact (arithmetic _ _).map

end Value

namespace Optimizer

section

variable {info : Info} {expression left right : Expr}

theorem calculates_numberLiteral (info : Info) (value : Number) :
    Calculates (numberLiteral info value) := by
  unfold numberLiteral
  split
  · split
    · split <;> exact .ok _
    · exact (Number.calculates_toFloat value).map
  · exact .ok _

theorem calculates_fold (info : Info) (operator : BinaryOperator) (left right : Expr) :
    Calculates (fold info operator left right) := by
  refine (Value.calculates_binary _ _ _ _).bind fun value => ?_
  split
  · exact calculates_numberLiteral _ _
  · exact .ok _
  · exact .ok _

theorem calculates_firstOr {otherwise : Expr} {attempts : List (Except Fault (Option Expr))}
    (each : ∀ attempt ∈ attempts, Calculates attempt) : Calculates (firstOr otherwise attempts) := by
  induction attempts with
  | nil => exact .ok _
  | cons attempt attempts ih =>
    obtain ⟨here, later⟩ := List.forall_mem_cons.mp each
    refine here.bind fun found => ?_
    cases found with
    | some result => exact .ok result
    | none => exact ih later

theorem calculates_when (condition : Bool) (result : Expr) : Calculates (when condition result) :=
  .ok _

theorem calculates_literalWhen (condition : Bool) (info : Info) (value : Number) :
    Calculates (literalWhen condition info value) := by
  unfold literalWhen
  split
  · exact calculates_numberLiteral info value
  · exact .ok _

theorem calculates_simplifyBinary (info : Info) (operator : BinaryOperator) (left right : Expr) :
    Calculates (simplifyBinary info operator left right) := by
  refine (calculates_fold info operator left right).bind fun folded => ?_
  cases folded with
  | some result => exact .ok result
  | none =>
    refine calculates_firstOr ?_
    split
    all_goals try split
    all_goals simp [calculates_when, calculates_literalWhen]

theorem calculates_simplifyUnary (info : Info) (operator : UnaryOperator) (operand : Expr) :
    Calculates (simplifyUnary info operator operand) := by
  unfold simplifyUnary
  split
  · exact .ok _
  · exact (calculates_numberLiteral _ _).map
  · exact .ok _

end

mutual

theorem calculates_optimizeExpr : (expression : Expr) → Calculates (optimizeExpr expression)
  | .binary info operator left right =>
    (calculates_optimizeExpr left).bind fun first => (calculates_optimizeExpr right).bind fun second =>
      calculates_simplifyBinary info operator first second
  | .unary info operator operand =>
    (calculates_optimizeExpr operand).bind fun inner => calculates_simplifyUnary info operator inner
  | .dereference _ operand => (calculates_optimizeExpr operand).map
  | .call _ _ arguments => (calculates_optimizeExprs arguments).map
  | .subscript _ base index =>
    (calculates_optimizeExpr base).bind fun _ => (calculates_optimizeExpr index).map
  | .array _ elements => (calculates_optimizeExprs elements).map
  | .conjure _ body => (calculates_optimizeEach body).map
  | .apply _ mapping items =>
    (calculates_optimizeExpr mapping).bind fun _ => (calculates_optimizeExpr items).map
  | .supplant _ text pattern replacement =>
    (calculates_optimizeExpr text).bind fun _ => (calculates_optimizeExpr pattern).bind fun _ =>
      (calculates_optimizeExpr replacement).map
  | .number _ _ | .bool _ _ | .string _ _ | .glyph _ _ | .codepoint _ _ | .null _ | .reference _
  | .function _ _ | .addressOf _ _ | .typeOf _ _ => .ok _

theorem calculates_optimizeExprs : (expressions : List Expr) → Calculates (optimizeExprs expressions)
  | [] => .ok _
  | expression :: rest =>
    (calculates_optimizeExpr expression).bind fun _ => (calculates_optimizeExprs rest).map

theorem calculates_optimizeStmt : (statement : Stmt) → Calculates (optimizeStmt statement)
  | .declare _ _ value | .returnValue _ value | .exscribe _ value | .evaluate _ value =>
    (calculates_optimizeExpr value).map
  | .assign _ target value => (calculates_optimizeExpr value).bind fun result => by
    cases reads target result <;> exact .ok _
  | .function _ _ body | .main _ body | .block _ body => (calculates_optimizeEach body).map
  | .branch _ condition consequent alternative =>
    (calculates_optimizeExpr condition).bind fun condition =>
      (calculates_optimizeEach consequent).bind fun _ =>
        (calculates_optimizeEach alternative).bind fun _ => by
          split <;> exact .ok _
  | .loop _ condition body => (calculates_optimizeExpr condition).bind fun condition => by
    split
    · exact .ok _
    · exact (calculates_optimizeEach body).map
  | .affix _ _ | .step _ _ _ | .breakLoop _ | .returnVoid _ => .ok _

theorem calculates_optimizeEach : (body : List Stmt) → Calculates (optimizeEach body)
  | [] => .ok _
  | statement :: rest =>
    (calculates_optimizeStmt statement).bind fun _ => (calculates_optimizeEach rest).map

end

/-- The optimizer fails in arithmetic only. -/
theorem calculates_optimize (program : Program) : Calculates (optimize program) :=
  (calculates_optimizeEach program.body).map.map

end Optimizer

end GlyphCompiler
