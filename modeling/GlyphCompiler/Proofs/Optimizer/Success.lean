/-
# Expressions that can be optimized

The optimizer fails on a quotient of literals that no floating-point number holds. An
expression that evaluates has no such quotient, unless an operator of truth values leaves
it out, or the quotient is not of an integer type.
-/

import GlyphCompiler.Proofs.Optimizer.Evaluation

namespace GlyphCompiler

namespace Optimizer

/-- A computation comes to a result. -/
def Succeeds {Result : Type} (outcome : Except Fault Result) : Prop :=
  ∃ result, outcome = .ok result

namespace Succeeds

variable {Result Other : Type} {first : Except Fault Result} {next : Result → Except Fault Other}

theorem ok (result : Result) : Succeeds (.ok result) :=
  ⟨result, rfl⟩

theorem bind (succeeds : Succeeds first) (later : ∀ result, first = .ok result → Succeeds (next result)) :
    Succeeds (first >>= next) := by
  obtain ⟨result, rfl⟩ := succeeds
  exact later result rfl

theorem map {change : Result → Other} (succeeds : Succeeds first) :
    Succeeds (do return change (← first)) :=
  succeeds.bind fun result _ => .ok (change result)

end Succeeds

/-- If an expression is the literal of a number, the number is a whole one. -/
def IntegerLiteral (expression : Expr) : Prop :=
  ∀ note value, expression = .number note value → ∃ whole, value = .int whole

section

variable {info : Info} {operator : BinaryOperator} {left right result : Expr} {exact : Bool}

theorem literalValue_cases (expression : Expr) (integer : IntegerLiteral expression) :
    literalValue expression = .unknown ∨ (∃ truth, literalValue expression = .bool truth) ∨
      ∃ number, literalValue expression = .number (.int number) := by
  cases expression with
  | number note value =>
    obtain ⟨whole, rfl⟩ := integer note value rfl
    exact .inr (.inr ⟨whole, rfl⟩)
  | bool note truth => exact .inr (.inl ⟨truth, rfl⟩)
  | _ => exact .inl rfl

/-- Numbers are divided only if one of them divides the other, and the result is whole. -/
def Divides (info : Info) (operator : BinaryOperator) (left right : Expr) : Prop :=
  operator = .div → ∀ first second, literalValue left = .number (.int first) →
    literalValue right = .number (.int second) → info.type.isIntegral = true ∧ first % second = 0

theorem succeeds_binary (integerLeft : IntegerLiteral left) (integerRight : IntegerLiteral right)
    (divides : Divides info operator left right) :
    Succeeds (Value.binary operator (literalValue left) (literalValue right)
      info.type.isIntegral) := by
  obtain unknown | ⟨truth, isTruth⟩ | ⟨number, isNumber⟩ := literalValue_cases left integerLeft
  · rw [unknown]
    cases operator <;> exact .ok _
  · rw [isTruth]
    obtain unknown | ⟨other, isOther⟩ | ⟨other, isOther⟩ := literalValue_cases right integerRight
    · rw [unknown]
      cases operator <;> exact .ok _
    · rw [isOther]
      cases operator <;> exact .ok _
    · rw [isOther]
      cases operator <;> exact .ok _
  · rw [isNumber]
    obtain unknown | ⟨other, isOther⟩ | ⟨other, isOther⟩ := literalValue_cases right integerRight
    · rw [unknown]
      cases operator <;> exact .ok _
    · rw [isOther]
      cases operator <;> exact .ok _
    · rw [isOther]
      cases operator with
      | div =>
        obtain ⟨isIntegral, even⟩ := divides rfl number other isNumber isOther
        refine Succeeds.map ?_
        rw [Value.arithmetic, Number.div, isIntegral, even]
        split <;> exact .ok _
      | rem =>
        refine Succeeds.map ?_
        rw [Value.arithmetic, Number.rem]
        split <;> exact .ok _
      | _ => exact .ok _

theorem succeeds_numberLiteral (whole : info.type.isNumeric = true → info.type.isIntegral = true)
    (value : Number) : Succeeds (numberLiteral info value) := by
  unfold numberLiteral
  split
  · next kind numeric =>
    have isIntegral : kind.isIntegral = true := by simpa [numeric, Ty.isNumeric, Ty.isIntegral] using whole
    rw [if_pos isIntegral]
    split <;> exact .ok _
  · exact .ok _

theorem succeeds_firstOr {otherwise : Expr} {attempts : List (Except Fault (Option Expr))}
    (each : ∀ attempt ∈ attempts, Succeeds attempt) : Succeeds (firstOr otherwise attempts) := by
  induction attempts with
  | nil => exact .ok _
  | cons attempt attempts ih =>
    obtain ⟨here, later⟩ := List.forall_mem_cons.mp each
    refine here.bind fun found _ => ?_
    cases found with
    | some result => exact .ok result
    | none => exact ih later

theorem succeeds_literalWhen (whole : info.type.isNumeric = true → info.type.isIntegral = true)
    (condition : Bool) (value : Number) : Succeeds (literalWhen condition info value) := by
  unfold literalWhen
  split
  · exact succeeds_numberLiteral whole value
  · exact .ok _

theorem succeeds_simplifyBinary (whole : info.type.isNumeric = true → info.type.isIntegral = true)
    (integerLeft : IntegerLiteral left) (integerRight : IntegerLiteral right)
    (divides : Divides info operator left right) :
    Succeeds (simplifyBinary info operator left right) := by
  have folds : Succeeds (fold info operator left right) := by
    refine (succeeds_binary integerLeft integerRight divides).bind fun value _ => ?_
    split
    · exact succeeds_numberLiteral whole _
    · exact .ok _
    · exact .ok _
  refine folds.bind fun folded _ => ?_
  cases folded with
  | some result => exact .ok result
  | none =>
    refine succeeds_firstOr ?_
    split
    all_goals try split
    all_goals simp [succeeds_literalWhen whole, when, Succeeds.ok]

/-- Whole numbers stay whole. -/
theorem integerLiteral_simplifyBinary
    (whole : info.type.isNumeric = true → info.type.isIntegral = true)
    (integerLeft : IntegerLiteral left) (integerRight : IntegerLiteral right)
    (simplifies : simplifyBinary info operator left right = .ok result) : IntegerLiteral result := by
  have ofLiteral {value : Number} (literal : numberLiteral info value = .ok (some result)) :
      IntegerLiteral result := by
    obtain ⟨rfl, -, isWhole⟩ := numberLiteral_eq_some literal
    rintro _ _ ⟨⟩
    exact isWhole (whole (isNumeric_of_numberLiteral literal))
  obtain ⟨folded, folds, rest⟩ := bind_eq_ok.mp simplifies
  cases folded with
  | some folded =>
    cases rest
    obtain ⟨value, -, literal⟩ := bind_eq_ok.mp folds
    split at literal
    · exact ofLiteral literal
    · cases literal
      rintro _ _ ⟨⟩
    · cases literal
  | none =>
    cases lawResult_of_applyLaws rest with
    | none => rintro _ _ ⟨⟩
    | left _ => exact integerLeft
    | right _ => exact integerRight
    | decided _ _ => exact integerLeft
    | literal literal => exact ofLiteral literal
    | negated _ _ _ _ => rintro _ _ ⟨⟩

theorem succeeds_simplifyUnary {operator : UnaryOperator} {operand : Expr}
    (whole : info.type.isNumeric = true → info.type.isIntegral = true) :
    Succeeds (simplifyUnary info operator operand) := by
  unfold simplifyUnary
  split
  · exact .ok _
  · exact (succeeds_numberLiteral whole _).map
  · exact .ok _

theorem integerLiteral_simplifyUnary {operator : UnaryOperator} {operand : Expr}
    (whole : info.type.isNumeric = true → info.type.isIntegral = true)
    (simplifies : simplifyUnary info operator operand = .ok result) : IntegerLiteral result := by
  unfold simplifyUnary at simplifies
  split at simplifies
  · cases simplifies
    rintro _ _ ⟨⟩
  · obtain ⟨found, literal, same⟩ := bind_eq_ok.mp simplifies
    cases same
    cases found with
    | none => rintro _ _ ⟨⟩
    | some found =>
      obtain ⟨rfl, -, isWhole⟩ := numberLiteral_eq_some literal
      rintro _ _ ⟨⟩
      exact isWhole (whole (isNumeric_of_numberLiteral literal))
  · cases simplifies
    rintro _ _ ⟨⟩

theorem integerLiteral_simplifyDereference {operand : Expr} :
    IntegerLiteral (simplifyDereference info operand) := by
  unfold simplifyDereference
  split <;> rintro _ _ ⟨⟩

end

end Optimizer

/-- A node is no quotient, no floating-point number and no body that is run at once. -/
def Node.Calm : Node → Prop
  | .expr (.binary _ .div _ _) | .expr (.number _ (.float _)) | .expr (.conjure _ _) => False
  | _ => True

/-- A quotient is of an integer type, and what an operator of truth values may leave out
is calm. -/
def Node.Computed : Node → Prop
  | .expr (.binary info operator _ right) =>
    (operator = .div → info.type.isIntegral = true) ∧
      (operator.isLogical = true → (Node.expr right).All Node.Calm)
  | _ => True

namespace Optimizer

/-- The numbers of a calm expression stay whole. -/
theorem integerLiteral_of_calm : {expression result : Expr} →
    (Node.expr expression).All Node.Integral → (Node.expr expression).All Node.Calm →
    optimizeExpr expression = .ok result → IntegerLiteral result
  | .binary info operator left right, result, integral, calm, optimizes => by
    obtain ⟨root, below⟩ := Node.all_iff.mp integral
    obtain ⟨-, belowCalm⟩ := Node.all_iff.mp calm
    obtain ⟨first, isFirst, rest⟩ := bind_eq_ok.mp optimizes
    obtain ⟨second, isSecond, simplifies⟩ := bind_eq_ok.mp rest
    have inRight : Node.expr right ∈ (Node.expr (.binary info operator left right)).children :=
      List.mem_cons_of_mem _ List.mem_cons_self
    exact integerLiteral_simplifyBinary root
      (integerLiteral_of_calm (below _ List.mem_cons_self) (belowCalm _ List.mem_cons_self) isFirst)
      (integerLiteral_of_calm (below _ inRight) (belowCalm _ inRight) isSecond) simplifies
  | .unary info operator operand, result, integral, _, optimizes => by
    obtain ⟨inner, -, simplifies⟩ := bind_eq_ok.mp optimizes
    exact integerLiteral_simplifyUnary (Node.all_iff.mp integral).1 simplifies
  | .dereference info operand, result, _, _, optimizes => by
    obtain ⟨inner, -, same⟩ := bind_eq_ok.mp optimizes
    cases same
    exact integerLiteral_simplifyDereference
  | .call _ _ _, _, _, _, optimizes | .array _ _, _, _, _, optimizes => by
    obtain ⟨results, -, same⟩ := bind_eq_ok.mp optimizes
    cases same
    rintro _ _ ⟨⟩
  | .subscript _ _ _, _, _, _, optimizes | .apply _ _ _, _, _, _, optimizes => by
    obtain ⟨first, -, rest⟩ := bind_eq_ok.mp optimizes
    obtain ⟨second, -, same⟩ := bind_eq_ok.mp rest
    cases same
    rintro _ _ ⟨⟩
  | .supplant _ _ _ _, _, _, _, optimizes => by
    obtain ⟨first, -, rest⟩ := bind_eq_ok.mp optimizes
    obtain ⟨second, -, rest⟩ := bind_eq_ok.mp rest
    obtain ⟨third, -, same⟩ := bind_eq_ok.mp rest
    cases same
    rintro _ _ ⟨⟩
  | .number _ (.int whole), _, _, _, rfl => by
    rintro _ _ ⟨⟩
    exact ⟨whole, rfl⟩
  | .number _ (.float _), _, _, calm, _ | .conjure _ _, _, _, calm, _ => by
    cases (Node.all_iff.mp calm).1
  | .bool _ _, _, _, _, rfl | .string _ _, _, _, _, rfl | .glyph _ _, _, _, _, rfl
  | .codepoint _ _, _, _, _, rfl | .null _, _, _, _, rfl | .reference _, _, _, _, rfl
  | .function _ _, _, _, _, rfl | .addressOf _ _, _, _, _, rfl | .typeOf _ _, _, _, _, rfl => by
    rintro _ _ ⟨⟩

mutual

/-- A calm expression can be optimized. -/
theorem succeeds_of_calm : (expression : Expr) → (Node.expr expression).All Node.Integral →
    (Node.expr expression).All Node.Calm → Succeeds (optimizeExpr expression)
  | .binary info operator left right, integral, calm => by
    obtain ⟨root, below⟩ := Node.all_iff.mp integral
    obtain ⟨isCalm, belowCalm⟩ := Node.all_iff.mp calm
    have inLeft : Node.expr left ∈ (Node.expr (.binary info operator left right)).children :=
      List.mem_cons_self
    have inRight : Node.expr right ∈ (Node.expr (.binary info operator left right)).children :=
      List.mem_cons_of_mem _ List.mem_cons_self
    refine (succeeds_of_calm left (below _ inLeft) (belowCalm _ inLeft)).bind fun first isFirst =>
      (succeeds_of_calm right (below _ inRight) (belowCalm _ inRight)).bind fun second isSecond =>
        succeeds_simplifyBinary root
          (integerLiteral_of_calm (below _ inLeft) (belowCalm _ inLeft) isFirst)
          (integerLiteral_of_calm (below _ inRight) (belowCalm _ inRight) isSecond) ?_
    rintro rfl
    cases isCalm
  | .unary _ _ operand, integral, calm => by
    obtain ⟨root, below⟩ := Node.all_iff.mp integral
    exact (succeeds_of_calm operand (below _ List.mem_cons_self)
      ((Node.all_iff.mp calm).2 _ List.mem_cons_self)).bind fun _ _ => succeeds_simplifyUnary root
  | .dereference _ operand, integral, calm =>
    (succeeds_of_calm operand ((Node.all_iff.mp integral).2 _ List.mem_cons_self)
      ((Node.all_iff.mp calm).2 _ List.mem_cons_self)).map
  | .call _ _ arguments, integral, calm =>
    (succeeds_of_calmAll arguments
      (fun _ member =>
        (Node.all_iff.mp integral).2 _ (List.mem_cons_of_mem _ (List.mem_map_of_mem member)))
      fun _ member =>
        (Node.all_iff.mp calm).2 _ (List.mem_cons_of_mem _ (List.mem_map_of_mem member))).map
  | .array _ elements, integral, calm =>
    (succeeds_of_calmAll elements
      (fun _ member => (Node.all_iff.mp integral).2 _ (List.mem_map_of_mem member))
      fun _ member => (Node.all_iff.mp calm).2 _ (List.mem_map_of_mem member)).map
  | .subscript _ first second, integral, calm | .apply _ first second, integral, calm => by
    have below := (Node.all_iff.mp integral).2
    have belowCalm := (Node.all_iff.mp calm).2
    exact (succeeds_of_calm first (below _ List.mem_cons_self)
      (belowCalm _ List.mem_cons_self)).bind fun _ _ =>
        (succeeds_of_calm second (below _ (List.mem_cons_of_mem _ List.mem_cons_self))
          (belowCalm _ (List.mem_cons_of_mem _ List.mem_cons_self))).map
  | .supplant _ text pattern replacement, integral, calm => by
    have below := (Node.all_iff.mp integral).2
    have belowCalm := (Node.all_iff.mp calm).2
    simp only [Node.children, Expr.children, List.forall_mem_cons] at below belowCalm
    exact (succeeds_of_calm text below.1 belowCalm.1).bind fun _ _ =>
      (succeeds_of_calm pattern below.2.1 belowCalm.2.1).bind fun _ _ =>
        (succeeds_of_calm replacement below.2.2.1 belowCalm.2.2.1).map
  | .conjure _ _, _, calm => by cases (Node.all_iff.mp calm).1
  | .number _ _, _, _ | .bool _ _, _, _ | .string _ _, _, _ | .glyph _ _, _, _ | .codepoint _ _, _, _
  | .null _, _, _ | .reference _, _, _ | .function _ _, _, _ | .addressOf _ _, _, _
  | .typeOf _ _, _, _ => .ok _

theorem succeeds_of_calmAll : (expressions : List Expr) →
    (∀ expression ∈ expressions, (Node.expr expression).All Node.Integral) →
    (∀ expression ∈ expressions, (Node.expr expression).All Node.Calm) →
    Succeeds (optimizeExprs expressions)
  | [], _, _ => .ok _
  | expression :: rest, integral, calm =>
    (succeeds_of_calm expression (integral _ List.mem_cons_self)
      (calm _ List.mem_cons_self)).bind fun _ _ =>
        (succeeds_of_calmAll rest (fun other member => integral other (List.mem_cons_of_mem _ member))
          fun other member => calm other (List.mem_cons_of_mem _ member)).map

end

section

variable {machine : Machine} {before after : machine.World} {datum : machine.Data} {info : Info}
  {operator : BinaryOperator} {left right : Expr}

/-- An expression that evaluates is no floating-point number. -/
theorem integerLiteral_of_evaluates (evaluates : machine.Evaluates left before datum after) :
    IntegerLiteral left := by
  rintro note value rfl
  cases value with
  | int whole => exact ⟨whole, rfl⟩
  | float value => cases evaluates

theorem eq_of_literalValue {number : Int} (literal : literalValue left = .number (.int number))
    (evaluates : machine.Evaluates left before datum after) : datum = .whole number := by
  obtain ⟨-, ⟨other, same, rfl⟩ | ⟨truth, same, rfl⟩⟩ :=
    evaluates_literal (by simp [literal]) evaluates
  · cases literal.symm.trans same
    rfl
  · cases literal.symm.trans same

/-- A quotient that evaluates is even. -/
theorem divides_of_evaluates (isIntegral : operator = .div → info.type.isIntegral = true)
    (evaluates : machine.Evaluates (.binary info operator left right) before datum after) :
    Divides info operator left right := by
  rintro rfl one other isOne isOther
  refine ⟨isIntegral rfl, ?_⟩
  obtain ⟨first, middle, second, isFirst, isSecond, computes⟩ := evaluates_arithmetic rfl evaluates
  obtain rfl := eq_of_literalValue isOne isFirst
  obtain rfl := eq_of_literalValue isOther isSecond
  obtain ⟨⟨-, even⟩, -⟩ := Option.ite_none_right_eq_some.mp computes
  exact even

end

variable {machine : Machine}

mutual

/-- An expression that evaluates can be optimized. -/
theorem succeeds_optimizeExpr : (expression : Expr) → {before after : machine.World} →
    {datum : machine.Data} → (Node.expr expression).All Node.Integral →
    (Node.expr expression).All Node.Computed →
    machine.Evaluates expression before datum after → Succeeds (optimizeExpr expression)
  | .binary info operator left right, before, after, datum, integral, computed, evaluates => by
    obtain ⟨root, below⟩ := Node.all_iff.mp integral
    obtain ⟨⟨isIntegral, calm⟩, belowComputed⟩ := Node.all_iff.mp computed
    have inLeft : Node.expr left ∈ (Node.expr (.binary info operator left right)).children :=
      List.mem_cons_self
    have inRight : Node.expr right ∈ (Node.expr (.binary info operator left right)).children :=
      List.mem_cons_of_mem _ List.mem_cons_self
    obtain ⟨first, middle, isFirst, rest⟩ := Machine.evaluates_binary.mp evaluates
    refine (succeeds_optimizeExpr left (below _ inLeft) (belowComputed _ inLeft) isFirst).bind
      fun one isOne => ?_
    have oneEvaluates : machine.Evaluates one before first middle :=
      within_optimizeExpr (below _ inLeft) isOne _ _ isFirst
    cases isLogical : operator.isLogical with
    | true =>
      -- The second operand may be left out, so nothing is known of what it evaluates to.
      refine (succeeds_of_calm right (below _ inRight) (calm isLogical)).bind fun other isOther =>
        succeeds_simplifyBinary root (integerLiteral_of_evaluates oneEvaluates)
          (integerLiteral_of_calm (below _ inRight) (calm isLogical) isOther) ?_
      rintro rfl
      cases isLogical
    | false =>
      obtain ⟨decides, -⟩ | ⟨undecided, second, isSecond, computes⟩ := rest
      · cases operator <;> first | cases decides | cases isLogical
      refine (succeeds_optimizeExpr right (below _ inRight) (belowComputed _ inRight) isSecond).bind
        fun other isOther => ?_
      have otherEvaluates : machine.Evaluates other middle second after :=
        within_optimizeExpr (below _ inRight) isOther _ _ isSecond
      exact succeeds_simplifyBinary root (integerLiteral_of_evaluates oneEvaluates)
        (integerLiteral_of_evaluates otherEvaluates)
        (divides_of_evaluates isIntegral (Machine.evaluates_binary.mpr
          ⟨first, middle, oneEvaluates, .inr ⟨undecided, second, otherEvaluates, computes⟩⟩))
  | .unary _ _ operand, _, _, _, integral, computed, evaluates => by
    obtain ⟨root, below⟩ := Node.all_iff.mp integral
    obtain ⟨inner, isInner, -⟩ := Machine.evaluates_unary.mp evaluates
    exact (succeeds_optimizeExpr operand (below _ List.mem_cons_self)
      ((Node.all_iff.mp computed).2 _ List.mem_cons_self) isInner).bind fun _ _ =>
        succeeds_simplifyUnary root
  | .dereference _ operand, _, _, _, integral, computed, evaluates => by
    obtain ⟨pointer, middle, isPointer, -⟩ := Machine.run_bind_eq_some.mp evaluates
    exact (succeeds_optimizeExpr operand ((Node.all_iff.mp integral).2 _ List.mem_cons_self)
      ((Node.all_iff.mp computed).2 _ List.mem_cons_self) isPointer).map
  | .call _ _ arguments, _, _, _, integral, computed, evaluates => by
    obtain ⟨called, middle, -, rest⟩ := Machine.run_bind_eq_some.mp evaluates
    obtain ⟨data, later, areData, -⟩ := Machine.run_bind_eq_some.mp rest
    exact (succeeds_optimizeExprs arguments
      (fun _ member =>
        (Node.all_iff.mp integral).2 _ (List.mem_cons_of_mem _ (List.mem_map_of_mem member)))
      (fun _ member =>
        (Node.all_iff.mp computed).2 _ (List.mem_cons_of_mem _ (List.mem_map_of_mem member)))
      areData).map
  | .array _ elements, _, _, _, integral, computed, evaluates => by
    obtain ⟨data, middle, areData, -⟩ := Machine.run_bind_eq_some.mp evaluates
    exact (succeeds_optimizeExprs elements
      (fun _ member => (Node.all_iff.mp integral).2 _ (List.mem_map_of_mem member))
      (fun _ member => (Node.all_iff.mp computed).2 _ (List.mem_map_of_mem member)) areData).map
  | .subscript _ first second, _, _, _, integral, computed, evaluates
  | .apply _ first second, _, _, _, integral, computed, evaluates => by
    have below := (Node.all_iff.mp integral).2
    have belowComputed := (Node.all_iff.mp computed).2
    obtain ⟨one, middle, isOne, rest⟩ := Machine.run_bind_eq_some.mp evaluates
    obtain ⟨other, later, isOther, -⟩ := Machine.run_bind_eq_some.mp rest
    exact (succeeds_optimizeExpr first (below _ List.mem_cons_self)
      (belowComputed _ List.mem_cons_self) isOne).bind fun _ _ =>
        (succeeds_optimizeExpr second (below _ (List.mem_cons_of_mem _ List.mem_cons_self))
          (belowComputed _ (List.mem_cons_of_mem _ List.mem_cons_self)) isOther).map
  | .supplant _ text pattern replacement, _, _, _, integral, computed, evaluates => by
    have below := (Node.all_iff.mp integral).2
    have belowComputed := (Node.all_iff.mp computed).2
    simp only [Node.children, Expr.children, List.forall_mem_cons] at below belowComputed
    obtain ⟨one, middle, isOne, rest⟩ := Machine.run_bind_eq_some.mp evaluates
    obtain ⟨other, later, isOther, rest⟩ := Machine.run_bind_eq_some.mp rest
    obtain ⟨last, latest, isLast, -⟩ := Machine.run_bind_eq_some.mp rest
    exact (succeeds_optimizeExpr text below.1 belowComputed.1 isOne).bind fun _ _ =>
      (succeeds_optimizeExpr pattern below.2.1 belowComputed.2.1 isOther).bind fun _ _ =>
        (succeeds_optimizeExpr replacement below.2.2.1 belowComputed.2.2.1 isLast).map
  | .conjure _ _, _, _, _, _, _, evaluates => by cases evaluates
  | .number _ _, _, _, _, _, _, _ | .bool _ _, _, _, _, _, _, _ | .string _ _, _, _, _, _, _, _
  | .glyph _ _, _, _, _, _, _, _ | .codepoint _ _, _, _, _, _, _, _ | .null _, _, _, _, _, _, _
  | .reference _, _, _, _, _, _, _ | .function _ _, _, _, _, _, _, _
  | .addressOf _ _, _, _, _, _, _, _ | .typeOf _ _, _, _, _, _, _, _ => .ok _

theorem succeeds_optimizeExprs : (expressions : List Expr) → {before after : machine.World} →
    {data : List machine.Data} →
    (∀ expression ∈ expressions, (Node.expr expression).All Node.Integral) →
    (∀ expression ∈ expressions, (Node.expr expression).All Node.Computed) →
    (machine.evaluateAll expressions).run before = some (data, after) →
    Succeeds (optimizeExprs expressions)
  | [], _, _, _, _, _, _ => .ok _
  | expression :: rest, _, _, _, integral, computed, evaluates => by
    obtain ⟨first, middle, isFirst, others⟩ := Machine.run_bind_eq_some.mp evaluates
    obtain ⟨later, last, areLater, -⟩ := Machine.run_bind_eq_some.mp others
    exact (succeeds_optimizeExpr expression (integral _ List.mem_cons_self)
      (computed _ List.mem_cons_self) isFirst).bind fun _ _ =>
        (succeeds_optimizeExprs rest
          (fun other member => integral other (List.mem_cons_of_mem _ member))
          (fun other member => computed other (List.mem_cons_of_mem _ member)) areLater).map

end

end Optimizer

open Optimizer (optimizeExpr)

/-- An expression whose numbers are of integer types, and what it is optimized to, evaluate
to the same, leave the same state behind, and let the same happen. The optimizer fails on
such an expression only if one of its quotients is not of an integer type, or stands where
an operator of truth values may leave it out. -/
theorem evaluates_optimizeExpr {machine : Machine} {expression : Expr}
    {before after : machine.World} {datum : machine.Data}
    (integral : (Node.expr expression).All Node.Integral)
    (evaluates : machine.Evaluates expression before datum after) :
    (∀ result, optimizeExpr expression = .ok result →
      machine.Evaluates result before datum after) ∧
    ((Node.expr expression).All Node.Computed → ∃ result, optimizeExpr expression = .ok result) :=
  ⟨fun _ optimizes => Optimizer.within_optimizeExpr integral optimizes _ _ evaluates,
    fun computed => Optimizer.succeeds_optimizeExpr expression integral computed evaluates⟩

/-- A machine that counts the calls. -/
def counting : Machine where
  State := Nat
  Event := Nat
  Other := Empty
  read _ _ := none
  address _ _ := none
  follow _ _ := none
  call _ _ calls := some (.whole calls, calls + 1, [calls])
  operate _ _ _ := none
  supplant _ _ _ := none
  follow_address := by simp

/-- Zero, and a call that is added to it. -/
def addedCall : Expr :=
  .binary ⟨.int .w32, ⟨1, 1⟩⟩ .add (.number ⟨.int .w32, ⟨1, 1⟩⟩ (.int 0))
    (.call ⟨.int .w32, ⟨1, 5⟩⟩
      (.function ⟨.function [] (.int .w32), ⟨1, 5⟩⟩ ⟨0, "f", [], .int .w32, false⟩) [])

/-- The sum becomes the call, which happens once. -/
theorem evaluates_optimizeExpr_addedCall :
    ∃ result, optimizeExpr addedCall = .ok result ∧
      counting.Evaluates result ((7 : Nat), ([] : List Nat)) (.whole 7) ((8 : Nat), [(7 : Nat)]) := by
  have integral : (Node.expr addedCall).All Node.Integral := by
    intro node below
    simp only [Node.walk, addedCall, Expr.walk, walkExprs, List.mem_cons, List.mem_append,
      List.not_mem_nil, or_false] at below
    obtain rfl | rfl | rfl | rfl := below
    · exact fun _ => rfl
    · exact fun _ => rfl
    · exact fun _ => rfl
    · rintro ⟨⟩
  have computed : (Node.expr addedCall).All Node.Computed := by
    intro node below
    simp only [Node.walk, addedCall, Expr.walk, walkExprs, List.mem_cons, List.mem_append,
      List.not_mem_nil, or_false] at below
    obtain rfl | rfl | rfl | rfl := below
    · exact ⟨by rintro ⟨⟩, by rintro ⟨⟩⟩
    · trivial
    · trivial
    · trivial
  have evaluates : counting.Evaluates addedCall ((7 : Nat), ([] : List Nat)) (.whole 7)
      ((8 : Nat), [(7 : Nat)]) := rfl
  obtain ⟨keeps, succeeds⟩ := evaluates_optimizeExpr integral evaluates
  obtain ⟨result, optimizes⟩ := succeeds computed
  exact ⟨result, optimizes, keeps result optimizes⟩

end GlyphCompiler
