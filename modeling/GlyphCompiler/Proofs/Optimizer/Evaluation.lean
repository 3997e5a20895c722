/-
# Evaluating optimized expressions

An optimized expression evaluates to what the expression did, and has the same effects.
Literals fold to what their operator computes, and a law keeps the operand that decides
the value. What the laws drop is pure, or would not have been evaluated either.
-/

import GlyphCompiler.Proofs.Number.Order
import GlyphCompiler.Proofs.Optimizer.Idempotence
import GlyphCompiler.Proofs.Program.Evaluation

namespace GlyphCompiler

/-! ## Whole numbers -/

namespace Number

variable {left right : Int}

theorem pow_int {result : Number} (power : (int left).pow (int right) = some result)
    (positive : 0 ≤ right) : result = .int (left.pow right.toNat) := by
  unfold pow at power
  split at power
  · cases power
  split at power
  · cases power
  obtain ⟨count, rfl⟩ := Int.eq_ofNat_of_zero_le positive
  cases power
  rw [intPower_eq]
  rfl

end Number

/-- What is known of a value, and what an expression evaluates to. Nothing is said of
values that are no whole numbers and no truth values. -/
def Value.Tells {Other : Type} : Value → Datum Other → Prop
  | .number (.int value), datum => datum = .whole value
  | .bool value, datum => datum = .truth value
  | _, _ => True

namespace Optimizer

open Machine (wholes truths decided? single Within Evaluates)

variable {machine : Machine}

/-! ## Folding -/

/-- An even quotient is folded only as such, or to a floating-point number. -/
theorem div_int {left right : Int} {exact : Bool} {result : Number}
    (quotient : (Number.int left).div exact (.int right) = .ok (some result)) :
    result = .int (left / right) ∨ ∃ rounded, result = .float rounded := by
  unfold Number.div at quotient
  split at quotient
  · cases quotient
  dsimp only at quotient
  split at quotient
  · cases quotient
    exact .inl rfl
  · obtain ⟨rounded, -, same⟩ := bind_eq_ok.mp quotient
    cases same
    exact .inr ⟨rounded, rfl⟩

theorem rem_int {left right : Int} {result : Number}
    (remainder : (Number.int left).rem (.int right) = .ok (some result)) :
    result = .int (left.tmod right) := by
  unfold Number.rem at remainder
  split at remainder <;> cases remainder
  rfl

/-- What is known of an operator between two whole numbers is what it computes. -/
theorem tells_wholes {Other : Type} {operator : BinaryOperator} {left right : Int} {exact : Bool}
    {value : Value} {datum : Datum Other}
    (known : Value.binary operator (.number (.int left)) (.number (.int right)) exact = .ok value)
    (computes : wholes operator left right = some datum) : value.Tells datum := by
  cases operator with
  | or | and => cases computes
  | eq | ne | lt | le | gt | ge =>
    cases known
    cases computes
    simp [Value.Tells, Value.equal?, Number.eq_int, Number.lt_int, Number.le_int, bne]
  | add | sub | mul =>
    cases known
    cases computes
    rfl
  | div =>
    simp only [wholes, Option.ite_none_right_eq_some, Option.some.injEq] at computes
    obtain ⟨-, rfl⟩ := computes
    obtain ⟨result, quotient, same⟩ := bind_eq_ok.mp known
    cases same
    cases result with
    | none => trivial
    | some result =>
      obtain rfl | ⟨rounded, rfl⟩ := div_int quotient
      · rfl
      · trivial
  | rem =>
    simp only [wholes, Option.ite_none_right_eq_some, Option.some.injEq] at computes
    obtain ⟨-, rfl⟩ := computes
    obtain ⟨result, remainder, same⟩ := bind_eq_ok.mp known
    cases same
    cases result with
    | none => trivial
    | some result =>
      obtain rfl := rem_int remainder
      rfl
  | pow =>
    simp only [wholes, Option.ite_none_right_eq_some, Option.some.injEq] at computes
    obtain ⟨positive, rfl⟩ := computes
    obtain ⟨result, power, same⟩ := bind_eq_ok.mp known
    cases same
    cases result with
    | none => trivial
    | some result =>
      obtain rfl := Number.pow_int (Except.ok.inj power) positive
      rfl

/-- What is known of an operator between two truth values is what it computes. -/
theorem tells_truths {Other : Type} {operator : BinaryOperator} {left right : Bool} {exact : Bool}
    {value : Value} {datum : Datum Other}
    (known : Value.binary operator (.bool left) (.bool right) exact = .ok value)
    (computes : truths operator left right = some datum) : value.Tells datum := by
  cases operator <;> cases computes <;> cases known <;> simp [Value.Tells, Value.equal?, bne]

section

variable {before after : machine.World} {datum : machine.Data} {info : Info} {left right result : Expr}
  {operator : BinaryOperator} {number : Int}

/-- What a literal is known to be is what it evaluates to. -/
theorem evaluates_literal {expression : Expr} (known : literalValue expression ≠ .unknown)
    (evaluates : machine.Evaluates expression before datum after) :
    after = before ∧
      ((∃ number, literalValue expression = .number (.int number) ∧ datum = .whole number) ∨
        ∃ truth, literalValue expression = .bool truth ∧ datum = .truth truth) := by
  cases expression with
  | number note value =>
    cases value with
    | int number =>
      obtain ⟨rfl, rfl⟩ := Machine.evaluates_whole.mp evaluates
      exact ⟨rfl, .inl ⟨number, rfl, rfl⟩⟩
    | float value => cases evaluates
  | bool note truth =>
    obtain ⟨rfl, rfl⟩ := Machine.evaluates_truth.mp evaluates
    exact ⟨rfl, .inr ⟨truth, rfl, rfl⟩⟩
  | _ => exact absurd rfl known

theorem known_of_binary {left right value : Value} {exact : Bool}
    (known : Value.binary operator left right exact = .ok value) (isKnown : value ≠ .unknown) :
    left ≠ .unknown ∧ right ≠ .unknown := by
  constructor
  · rintro rfl
    cases operator <;> cases known <;> exact isKnown rfl
  · rintro rfl
    cases operator <;> cases left <;> cases known <;> exact isKnown rfl

/-- What is known of an operator whose first operand decides is what it decides. -/
theorem tells_decided {Other : Type} {truth : Bool} {value other : Value} {datum : Datum Other}
    {exact : Bool} (known : Value.binary operator (.bool truth) other exact = .ok value)
    (isKnown : value ≠ .unknown) (decides : decided? operator (.truth truth) = some datum) :
    value.Tells datum := by
  cases operator <;> cases truth <;> cases decides <;> cases other <;> cases known <;>
    first | rfl | exact absurd rfl isKnown

/-- What is known of an operator between literals is what it evaluates to. -/
theorem tells_binary {value : Value} {exact : Bool}
    (known : Value.binary operator (literalValue left) (literalValue right) exact = .ok value)
    (isKnown : value ≠ .unknown)
    (evaluates : machine.Evaluates (.binary info operator left right) before datum after) :
    value.Tells datum ∧ after = before := by
  obtain ⟨knownLeft, knownRight⟩ := known_of_binary known isKnown
  obtain ⟨first, middle, isFirst, rest⟩ := Machine.evaluates_binary.mp evaluates
  obtain ⟨rfl, literalLeft⟩ := evaluates_literal knownLeft isFirst
  obtain ⟨decides, rfl⟩ | ⟨-, second, isSecond, computes⟩ := rest
  · refine ⟨?_, rfl⟩
    obtain ⟨number, -, rfl⟩ | ⟨truth, isTruth, rfl⟩ := literalLeft
    · cases operator <;> cases decides
    · rw [isTruth] at known
      exact tells_decided known isKnown decides
  obtain ⟨rfl, literalRight⟩ := evaluates_literal knownRight isSecond
  refine ⟨?_, rfl⟩
  obtain ⟨number, isNumber, rfl⟩ | ⟨truth, isTruth, rfl⟩ := literalLeft
  · obtain ⟨other, isOther, rfl⟩ | ⟨other, isOther, rfl⟩ := literalRight
    · rw [isNumber, isOther] at known
      exact tells_wholes known computes
    · rw [isNumber, isOther] at known
      cases operator <;> cases known <;> exact absurd rfl isKnown
  · obtain ⟨other, isOther, rfl⟩ | ⟨other, isOther, rfl⟩ := literalRight
    · rw [isTruth, isOther] at known
      cases operator <;> cases known <;> exact absurd rfl isKnown
    · rw [isTruth, isOther] at known
      exact tells_truths known computes

theorem isNumeric_of_numberLiteral {value : Number}
    (literal : numberLiteral info value = .ok (some result)) : info.type.isNumeric = true := by
  unfold numberLiteral at literal
  split at literal
  · next kind numeric =>
    rw [numeric]
    rfl
  · cases literal

/-- A literal of a number that is known evaluates to it. -/
theorem evaluates_numberLiteral {value : Number}
    (whole : info.type.isNumeric = true → info.type.isIntegral = true)
    (literal : numberLiteral info value = .ok (some result))
    (tells : (Value.number value).Tells datum) (idle : after = before) :
    machine.Evaluates result before datum after := by
  obtain ⟨rfl, -, isWhole⟩ := numberLiteral_eq_some literal
  obtain ⟨number, rfl⟩ := isWhole (whole (isNumeric_of_numberLiteral literal))
  exact Machine.evaluates_whole.mpr ⟨tells, idle⟩

/-- Literals fold to what their operator evaluates to. -/
theorem within_fold (whole : info.type.isNumeric = true → info.type.isIntegral = true)
    (folds : fold info operator left right = .ok (some result)) :
    Within (machine.evaluate (.binary info operator left right)) (machine.evaluate result) := by
  rintro before ⟨datum, after⟩ evaluates
  obtain ⟨value, known, literal⟩ := bind_eq_ok.mp folds
  have isKnown : value ≠ .unknown := by
    rintro rfl
    cases literal
  obtain ⟨tells, idle⟩ := tells_binary known isKnown evaluates
  split at literal
  · exact evaluates_numberLiteral whole literal tells idle
  · cases literal
    exact Machine.evaluates_truth.mpr ⟨tells, idle⟩
  · cases literal

/-! ## Laws of operands -/

/-- The literal of a given whole number. -/
theorem eq_of_isNumber (is : isNumber left number = true)
    (evaluates : machine.Evaluates left before datum after) :
    numberOf left = .int number ∧ datum = .whole number ∧ after = before := by
  obtain ⟨note, value, rfl, same⟩ := isNumber_eq_true is
  cases value with
  | int value =>
    rw [Number.eq_int, beq_iff_eq] at same
    subst same
    exact ⟨rfl, Machine.evaluates_whole.mp evaluates⟩
  | float value => cases evaluates

/-- An operator that computes a number has whole numbers for operands if one of them is. -/
theorem whole_of_combine_left {second : machine.Data} (arithmetic : operator.isArithmetic = true)
    (computes : machine.combine operator (.whole number) second = some datum) :
    ∃ other, second = .whole other ∧ wholes operator number other = some datum := by
  cases second with
  | whole other => exact ⟨other, rfl, computes⟩
  | _ => cases operator <;> first | cases computes | cases arithmetic

theorem whole_of_combine_right {first : machine.Data} (arithmetic : operator.isArithmetic = true)
    (computes : machine.combine operator first (.whole number) = some datum) :
    ∃ other, first = .whole other ∧ wholes operator other number = some datum := by
  cases first with
  | whole other => exact ⟨other, rfl, computes⟩
  | _ => cases operator <;> first | cases computes | cases arithmetic

/-- An operator that computes a number evaluates both of its operands. -/
theorem evaluates_arithmetic (arithmetic : operator.isArithmetic = true)
    (evaluates : machine.Evaluates (.binary info operator left right) before datum after) :
    ∃ first middle second, machine.Evaluates left before first middle ∧
      machine.Evaluates right middle second after ∧
        machine.combine operator first second = some datum := by
  obtain ⟨first, middle, isFirst, ⟨decides, -⟩ | ⟨-, second, isSecond, computes⟩⟩ :=
    Machine.evaluates_binary.mp evaluates
  · cases operator <;> first | cases decides | cases arithmetic
  · exact ⟨first, middle, second, isFirst, isSecond, computes⟩

/-- An operator with a given first operand. -/
theorem evaluates_number_left (arithmetic : operator.isArithmetic = true)
    (is : isNumber left number = true)
    (evaluates : machine.Evaluates (.binary info operator left right) before datum after) :
    numberOf left = .int number ∧ ∃ other, machine.Evaluates right before (.whole other) after ∧
      wholes operator number other = some datum := by
  obtain ⟨first, middle, second, isFirst, isSecond, computes⟩ :=
    evaluates_arithmetic arithmetic evaluates
  obtain ⟨same, rfl, rfl⟩ := eq_of_isNumber is isFirst
  obtain ⟨other, rfl, computes⟩ := whole_of_combine_left arithmetic computes
  exact ⟨same, other, isSecond, computes⟩

/-- An operator with a given second operand. -/
theorem evaluates_number_right (arithmetic : operator.isArithmetic = true)
    (is : isNumber right number = true)
    (evaluates : machine.Evaluates (.binary info operator left right) before datum after) :
    numberOf right = .int number ∧ ∃ other, machine.Evaluates left before (.whole other) after ∧
      wholes operator other number = some datum := by
  obtain ⟨first, middle, second, isFirst, isSecond, computes⟩ :=
    evaluates_arithmetic arithmetic evaluates
  obtain ⟨same, rfl, rfl⟩ := eq_of_isNumber is isSecond
  obtain ⟨other, rfl, computes⟩ := whole_of_combine_right arithmetic computes
  exact ⟨same, other, isFirst, computes⟩

/-- A neutral first operand is left out. -/
theorem within_right (arithmetic : operator.isArithmetic = true) (is : isNumber left number = true)
    (neutral : ∀ other (datum : machine.Data),
      wholes operator number other = some datum → datum = .whole other) :
    Within (machine.evaluate (.binary info operator left right)) (machine.evaluate right) := by
  rintro before ⟨datum, after⟩ evaluates
  obtain ⟨-, other, isSecond, computes⟩ := evaluates_number_left arithmetic is evaluates
  rw [neutral other datum computes]
  exact isSecond

/-- A neutral second operand is left out. -/
theorem within_left (arithmetic : operator.isArithmetic = true) (is : isNumber right number = true)
    (neutral : ∀ other (datum : machine.Data),
      wholes operator other number = some datum → datum = .whole other) :
    Within (machine.evaluate (.binary info operator left right)) (machine.evaluate left) := by
  rintro before ⟨datum, after⟩ evaluates
  obtain ⟨-, other, isFirst, computes⟩ := evaluates_number_right arithmetic is evaluates
  rw [neutral other datum computes]
  exact isFirst

/-- A first operand that decides the result is left with a pure second one. -/
theorem within_absorbing_left (arithmetic : operator.isArithmetic = true)
    (is : isNumber left number = true) (isPure : right.isPure = true)
    (absorbing : ∀ other (datum : machine.Data),
      wholes operator number other = some datum → datum = .whole number)
    (literal : numberLiteral info (numberOf left) = .ok (some result)) :
    Within (machine.evaluate (.binary info operator left right)) (machine.evaluate result) := by
  rintro before ⟨datum, after⟩ evaluates
  obtain ⟨same, other, isSecond, computes⟩ := evaluates_number_left arithmetic is evaluates
  obtain ⟨rfl, -⟩ := numberLiteral_eq_some literal
  rw [same]
  exact Machine.evaluates_whole.mpr
    ⟨absorbing other datum computes, Machine.idle_of_isPure isPure _ _ _ isSecond⟩

/-- A second operand that decides the result is left with a pure first one. -/
theorem within_absorbing_right {value : Number} {whole : Int}
    (arithmetic : operator.isArithmetic = true)
    (is : isNumber right number = true) (isPure : left.isPure = true)
    (isValue : numberOf right = .int number → value = .int whole)
    (absorbing : ∀ other (datum : machine.Data),
      wholes operator other number = some datum → datum = .whole whole)
    (literal : numberLiteral info value = .ok (some result)) :
    Within (machine.evaluate (.binary info operator left right)) (machine.evaluate result) := by
  rintro before ⟨datum, after⟩ evaluates
  obtain ⟨same, other, isFirst, computes⟩ := evaluates_number_right arithmetic is evaluates
  obtain ⟨rfl, -⟩ := numberLiteral_eq_some literal
  rw [isValue same]
  exact Machine.evaluates_whole.mpr
    ⟨absorbing other datum computes, Machine.idle_of_isPure isPure _ _ _ isFirst⟩

/-- Taking away from zero negates. -/
theorem within_neg (is : isNumber left 0 = true) :
    Within (machine.evaluate (.binary info .sub left right))
      (machine.evaluate (.unary info .neg right)) := by
  rintro before ⟨datum, after⟩ evaluates
  obtain ⟨-, other, isSecond, computes⟩ := evaluates_number_left rfl is evaluates
  refine Machine.evaluates_unary.mpr ⟨.whole other, isSecond, ?_⟩
  rw [← computes]
  simp [single, wholes]

/-- A first operand that decides is what the operator evaluates to. -/
theorem within_decided {note : Info} {truth : Bool}
    (decides : decided? operator (.truth truth : machine.Data) = some (.truth truth)) :
    Within (machine.evaluate (.binary info operator (.bool note truth) right))
      (machine.evaluate (.bool note truth)) := by
  rintro before ⟨datum, after⟩ evaluates
  obtain ⟨first, middle, isFirst, rest⟩ := Machine.evaluates_binary.mp evaluates
  obtain ⟨rfl, rfl⟩ := Machine.evaluates_truth.mp isFirst
  rw [decides] at rest
  obtain ⟨⟨⟩, rfl⟩ | ⟨⟨⟩, -⟩ := rest
  exact isFirst

/-- A first operand that leaves the decision to the second one is left out. -/
theorem within_undecided {note : Info} {truth : Bool}
    (undecided : decided? operator (.truth truth : machine.Data) = none)
    (isLogical : operator.isLogical = true) :
    Within (machine.evaluate (.binary info operator (.bool note truth) right))
      (machine.evaluate right) := by
  rintro before ⟨datum, after⟩ evaluates
  obtain ⟨first, middle, isFirst, rest⟩ := Machine.evaluates_binary.mp evaluates
  obtain ⟨rfl, rfl⟩ := Machine.evaluates_truth.mp isFirst
  rw [undecided] at rest
  obtain ⟨⟨⟩, -⟩ | ⟨-, second, isSecond, computes⟩ := rest
  suffices second = datum by rwa [this] at isSecond
  cases operator <;> cases isLogical <;> cases truth <;> cases undecided <;>
    cases second <;> cases computes <;> rfl

theorem holds_of_literalWhen {condition : Bool} {value : Number}
    (found : literalWhen condition info value = .ok (some result)) : condition = true := by
  cases condition with
  | true => rfl
  | false => cases found

/-- Two operands that a logical operator stands between, the first of which is known. -/
theorem within_applyLaws_logical {note : Info} {truth : Bool} (isLogical : operator.isLogical = true)
    (laws : applyLaws info operator (.bool note truth) right = .ok result) :
    Within (machine.evaluate (.binary info operator (.bool note truth) right))
      (machine.evaluate result) := by
  have undecided (undecided : decided? operator (.truth truth : machine.Data) = none)
      (same : firstOr (.binary info operator (.bool note truth) right)
        [when (right.type == info.type) right] = .ok result) :
      Within (machine.evaluate (.binary info operator (.bool note truth) right))
        (machine.evaluate result) := by
    obtain ⟨rfl, -⟩ | member := firstOr_cases same
    · exact .refl _
    · obtain ⟨-, rfl⟩ := when_eq_some (List.mem_singleton.mp member).symm
      exact within_undecided undecided isLogical
  cases operator <;> cases isLogical <;> cases truth
  · exact undecided rfl laws
  · cases laws
    exact within_decided rfl
  · cases laws
    exact within_decided rfl
  · exact undecided rfl laws

/-- The laws of operands keep what an operator evaluates to. -/
theorem within_applyLaws (laws : applyLaws info operator left right = .ok result) :
    Within (machine.evaluate (.binary info operator left right)) (machine.evaluate result) := by
  cases isLogical : operator.isLogical with
  | true =>
    cases left with
    | bool note truth => exact within_applyLaws_logical isLogical laws
    | _ =>
      cases operator <;> cases isLogical <;> cases laws <;> exact .refl _
  | false =>
  obtain ⟨rfl, -⟩ | member := firstOr_cases laws
  · exact .refl _
  cases operator with
  | add =>
    simp only [List.mem_cons, List.not_mem_nil, or_false] at member
    obtain found | found := member
    · obtain ⟨holds, rfl⟩ := when_eq_some found.symm
      simp only [Bool.and_eq_true] at holds
      exact within_right rfl holds.1 (by simp [wholes, eq_comm])
    · obtain ⟨holds, rfl⟩ := when_eq_some found.symm
      simp only [Bool.and_eq_true] at holds
      exact within_left rfl holds.1 (by simp [wholes, eq_comm])
  | sub =>
    simp only [List.mem_cons, List.not_mem_nil, or_false] at member
    obtain found | found := member
    · obtain ⟨holds, rfl⟩ := when_eq_some found.symm
      simp only [Bool.and_eq_true] at holds
      exact within_left rfl holds.1 (by simp [wholes, eq_comm])
    · obtain ⟨holds, rfl⟩ := when_eq_some found.symm
      simp only [Bool.and_eq_true] at holds
      exact within_neg holds.1.1
  | mul =>
    simp only [List.mem_cons, List.not_mem_nil, or_false] at member
    obtain found | found | found | found := member
    · obtain ⟨holds, rfl⟩ := when_eq_some found.symm
      simp only [Bool.and_eq_true] at holds
      exact within_right rfl holds.1 (by simp [wholes, eq_comm])
    · obtain ⟨holds, rfl⟩ := when_eq_some found.symm
      simp only [Bool.and_eq_true] at holds
      exact within_left rfl holds.1 (by simp [wholes, eq_comm])
    · have holds := holds_of_literalWhen found.symm
      simp only [Bool.and_eq_true] at holds
      exact within_absorbing_right rfl holds.1 holds.2 id (by simp [wholes, eq_comm])
        (literalWhen_eq_some found.symm)
    · have holds := holds_of_literalWhen found.symm
      simp only [Bool.and_eq_true] at holds
      exact within_absorbing_left rfl holds.1 holds.2 (by simp [wholes, eq_comm])
        (literalWhen_eq_some found.symm)
  | pow =>
    simp only [List.mem_cons, List.not_mem_nil, or_false] at member
    obtain found | found := member
    · have holds := holds_of_literalWhen found.symm
      simp only [Bool.and_eq_true] at holds
      exact within_absorbing_left rfl holds.1 holds.2 (by simp [wholes, eq_comm])
        (literalWhen_eq_some found.symm)
    · have holds := holds_of_literalWhen found.symm
      simp only [Bool.and_eq_true] at holds
      exact within_absorbing_right rfl holds.1 holds.2 (fun _ => rfl) (by simp [wholes, eq_comm])
        (literalWhen_eq_some found.symm)
  | and | or => cases isLogical
  | _ => cases member

theorem within_simplifyBinary (whole : info.type.isNumeric = true → info.type.isIntegral = true)
    (simplifies : simplifyBinary info operator left right = .ok result) :
    Within (machine.evaluate (.binary info operator left right)) (machine.evaluate result) := by
  obtain ⟨folded, folds, rest⟩ := bind_eq_ok.mp simplifies
  cases folded with
  | some folded =>
    cases rest
    exact within_fold whole folds
  | none => exact within_applyLaws rest

theorem tells_unary {operator : UnaryOperator} {operand : Expr}
    (isKnown : Value.unary operator (literalValue operand) ≠ .unknown)
    (evaluates : machine.Evaluates (.unary info operator operand) before datum after) :
    (Value.unary operator (literalValue operand)).Tells datum ∧ after = before := by
  have known : literalValue operand ≠ .unknown := by
    intro unknown
    rw [unknown] at isKnown
    cases operator <;> exact isKnown rfl
  obtain ⟨inner, isInner, computes⟩ := Machine.evaluates_unary.mp evaluates
  obtain ⟨rfl, ⟨number, isNumber, rfl⟩ | ⟨truth, isTruth, rfl⟩⟩ := evaluates_literal known isInner
  · refine ⟨?_, rfl⟩
    rw [isNumber]
    cases operator <;> cases computes
    rfl
  · refine ⟨?_, rfl⟩
    rw [isTruth]
    cases operator <;> cases computes
    rfl

theorem within_simplifyUnary {operator : UnaryOperator} {operand : Expr}
    (whole : info.type.isNumeric = true → info.type.isIntegral = true)
    (simplifies : simplifyUnary info operator operand = .ok result) :
    Within (machine.evaluate (.unary info operator operand)) (machine.evaluate result) := by
  unfold simplifyUnary at simplifies
  split at simplifies
  · next truth known =>
    cases simplifies
    rintro before ⟨datum, after⟩ evaluates
    have tells := tells_unary (by simp [known]) evaluates
    rw [known] at tells
    exact Machine.evaluates_truth.mpr tells
  · next value known =>
    obtain ⟨found, literal, same⟩ := bind_eq_ok.mp simplifies
    cases same
    cases found with
    | none => exact .refl _
    | some found =>
      rintro before ⟨datum, after⟩ evaluates
      have tells := tells_unary (by simp [known]) evaluates
      rw [known] at tells
      exact evaluates_numberLiteral whole literal tells.1 tells.2
  · cases simplifies
    exact .refl _

/-- The address of a variable points to what the variable holds. -/
theorem within_simplifyDereference {operand : Expr} :
    Within (machine.evaluate (.dereference info operand))
      (machine.evaluate (simplifyDereference info operand)) := by
  unfold simplifyDereference
  split
  · next note use =>
    rintro before ⟨datum, after⟩ evaluates
    obtain ⟨pointer, middle, points, follows⟩ := Machine.run_bind_eq_some.mp evaluates
    obtain ⟨addresses, rfl⟩ := Machine.run_ask_eq_some.mp points
    obtain ⟨holds, rfl⟩ := Machine.run_ask_eq_some.mp follows
    rw [machine.follow_address _ _ _ addresses] at holds
    exact Machine.run_ask_eq_some.mpr ⟨holds, rfl⟩
  · exact .refl _

end

end Optimizer

/-- If an expression is numeric, it is of an integer type. -/
def Node.Integral : Node → Prop
  | .expr expression => expression.type.isNumeric = true → expression.type.isIntegral = true
  | .stmt _ => True

namespace Optimizer

variable {machine : Machine}

mutual

/-- An optimized expression evaluates to what the expression evaluates to. -/
theorem within_optimizeExpr : {expression result : Expr} →
    (Node.expr expression).All Node.Integral → optimizeExpr expression = .ok result →
    Machine.Within (machine.evaluate expression) (machine.evaluate result)
  | .binary info operator left right, result, integral, optimizes => by
    obtain ⟨root, below⟩ := Node.all_iff.mp integral
    obtain ⟨first, isFirst, rest⟩ := bind_eq_ok.mp optimizes
    obtain ⟨second, isSecond, simplifies⟩ := bind_eq_ok.mp rest
    have left := within_optimizeExpr (below _ List.mem_cons_self) isFirst
    have right := within_optimizeExpr (below _ (List.mem_cons_of_mem _ List.mem_cons_self)) isSecond
    refine .trans (left.bind fun datum => ?_) (within_simplifyBinary root simplifies)
    split
    · exact .refl _
    · exact right.bind fun _ => .refl _
  | .unary info operator operand, result, integral, optimizes => by
    obtain ⟨root, below⟩ := Node.all_iff.mp integral
    obtain ⟨inner, isInner, simplifies⟩ := bind_eq_ok.mp optimizes
    have operand := within_optimizeExpr (below _ List.mem_cons_self) isInner
    exact .trans (operand.bind fun _ => .refl _) (within_simplifyUnary root simplifies)
  | .dereference info operand, result, integral, optimizes => by
    obtain ⟨inner, isInner, same⟩ := bind_eq_ok.mp optimizes
    cases same
    have operand := within_optimizeExpr ((Node.all_iff.mp integral).2 _ List.mem_cons_self) isInner
    exact .trans (operand.bind fun _ => .refl _) within_simplifyDereference
  | .call info callee arguments, result, integral, optimizes => by
    obtain ⟨results, areResults, same⟩ := bind_eq_ok.mp optimizes
    cases same
    have arguments := within_optimizeExprs (fun argument member =>
      (Node.all_iff.mp integral).2 _ (List.mem_cons_of_mem _ (List.mem_map_of_mem member))) areResults
    exact .bind (.refl _) fun _ => arguments.bind fun _ => .refl _
  | .subscript info base index, result, integral, optimizes => by
    obtain ⟨-, below⟩ := Node.all_iff.mp integral
    obtain ⟨first, isFirst, rest⟩ := bind_eq_ok.mp optimizes
    obtain ⟨second, isSecond, same⟩ := bind_eq_ok.mp rest
    cases same
    have base := within_optimizeExpr (below _ List.mem_cons_self) isFirst
    have index := within_optimizeExpr (below _ (List.mem_cons_of_mem _ List.mem_cons_self)) isSecond
    exact base.bind fun _ => index.bind fun _ => .refl _
  | .array info elements, result, integral, optimizes => by
    obtain ⟨results, areResults, same⟩ := bind_eq_ok.mp optimizes
    cases same
    have elements := within_optimizeExprs (fun element member =>
      (Node.all_iff.mp integral).2 _ (List.mem_map_of_mem member)) areResults
    exact elements.bind fun _ => .refl _
  | .conjure info body, result, _, _ => by rintro _ _ ⟨⟩
  | .apply info mapping items, result, integral, optimizes => by
    obtain ⟨-, below⟩ := Node.all_iff.mp integral
    obtain ⟨first, isFirst, rest⟩ := bind_eq_ok.mp optimizes
    obtain ⟨second, isSecond, same⟩ := bind_eq_ok.mp rest
    cases same
    have mapping := within_optimizeExpr (below _ List.mem_cons_self) isFirst
    have items := within_optimizeExpr (below _ (List.mem_cons_of_mem _ List.mem_cons_self)) isSecond
    exact mapping.bind fun _ => items.bind fun _ => .refl _
  | .supplant info text pattern replacement, result, integral, optimizes => by
    obtain ⟨-, below⟩ := Node.all_iff.mp integral
    obtain ⟨first, isFirst, rest⟩ := bind_eq_ok.mp optimizes
    obtain ⟨second, isSecond, rest⟩ := bind_eq_ok.mp rest
    obtain ⟨third, isThird, same⟩ := bind_eq_ok.mp rest
    cases same
    have text := within_optimizeExpr (below _ (by simp [Node.children, Expr.children])) isFirst
    have pattern := within_optimizeExpr (below _ (by simp [Node.children, Expr.children])) isSecond
    have replacement := within_optimizeExpr (below _ (by simp [Node.children, Expr.children])) isThird
    exact text.bind fun _ => pattern.bind fun _ => replacement.bind fun _ => .refl _
  | .number _ _, _, _, rfl | .bool _ _, _, _, rfl | .string _ _, _, _, rfl | .glyph _ _, _, _, rfl
  | .codepoint _ _, _, _, rfl | .null _, _, _, rfl | .reference _, _, _, rfl
  | .function _ _, _, _, rfl | .addressOf _ _, _, _, rfl | .typeOf _ _, _, _, rfl => .refl _

theorem within_optimizeExprs : {expressions results : List Expr} →
    (∀ expression ∈ expressions, (Node.expr expression).All Node.Integral) →
    optimizeExprs expressions = .ok results →
    Machine.Within (machine.evaluateAll expressions) (machine.evaluateAll results)
  | [], _, _, rfl => .refl _
  | expression :: rest, results, integral, optimizes => by
    obtain ⟨first, isFirst, others⟩ := bind_eq_ok.mp optimizes
    obtain ⟨later, areLater, same⟩ := bind_eq_ok.mp others
    cases same
    have expression := within_optimizeExpr (integral _ List.mem_cons_self) isFirst
    have rest := within_optimizeExprs
      (fun other member => integral other (List.mem_cons_of_mem _ member)) areLater
    exact expression.bind fun _ => rest.bind fun _ => .refl _

end

end Optimizer

end GlyphCompiler
