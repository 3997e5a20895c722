/-
# Values known beforehand and folded values

The value of a literal expression is worked out on the tree as it was written, and the
optimizer folds operators whose operands have become literals. Both are the value that
the expression evaluates to, as long as its numbers are whole: a quotient that is not
even and a power that is left to run time are known to neither.
-/

import GlyphCompiler.Proofs.Optimizer.Evaluation

namespace GlyphCompiler

open Optimizer (bind_eq_ok)

/-! ## Whole results -/

namespace Number

variable {left right result : Int}

/-- A whole quotient is that of numbers that divide evenly. -/
theorem even_of_div {exact : Bool}
    (quotient : (int left).div exact (.int right) = .ok (some (.int result))) :
    right ≠ 0 ∧ left % right = 0 ∧ result = left / right := by
  unfold div at quotient
  split at quotient
  · cases quotient
  next nonzero =>
  dsimp only at quotient
  split at quotient
  · next even =>
    cases quotient
    simp only [isZero, eq_int, beq_iff_eq] at nonzero
    simp only [Bool.and_eq_true, beq_iff_eq] at even
    exact ⟨nonzero, even.2, rfl⟩
  · obtain ⟨rounded, -, same⟩ := bind_eq_ok.mp quotient
    cases same

theorem ne_zero_of_rem {result : Number}
    (remainder : (int left).rem (.int right) = .ok (some result)) : right ≠ 0 := by
  unfold rem at remainder
  split at remainder
  · cases remainder
  · next nonzero => simpa [isZero, eq_int] using nonzero

/-- A whole power has no negative exponent. -/
theorem nonneg_of_pow (power : (int left).pow (int right) = some (.int result)) : 0 ≤ right := by
  cases right with
  | ofNat count => exact Int.natCast_nonneg count
  | negSucc count =>
    unfold pow at power
    split at power
    · cases power
    split at power
    · cases power
    dsimp only at power
    split at power
    · obtain ⟨rounded, -, same⟩ := Option.map_eq_some_iff.mp power
      cases same
    · cases power

end Number

/-- What a value that is a whole number or a truth value evaluates to. -/
def Value.datum? {Other : Type} : Value → Option (Datum Other)
  | .number (.int value) => some (.whole value)
  | .bool value => some (.truth value)
  | _ => none

namespace Machine

variable {Other : Type} {operator : BinaryOperator} {value : Value} {datum : Datum Other}
  {exact : Bool}

theorem exists_of_ofNumber? {found : Option Number}
    (isDatum : (Value.ofNumber? found).datum? = some datum) :
    ∃ result, found = some (.int result) ∧ datum = .whole result := by
  match found, isDatum with
  | some (.int result), rfl => exact ⟨result, rfl, rfl⟩

/-- What is known of an operator between two whole numbers is what it computes. -/
theorem wholes_of_known {left right : Int}
    (known : Value.binary operator (.number (.int left)) (.number (.int right)) exact = .ok value)
    (isDatum : value.datum? = some datum) : wholes operator left right = some datum := by
  cases operator with
  | or | and =>
    cases known
    cases isDatum
  | eq | ne | lt | le | gt | ge =>
    cases known
    cases isDatum
    simp [wholes, Number.eq_int, Number.lt_int, Number.le_int, bne]
  | add | sub | mul =>
    cases known
    cases isDatum
    rfl
  | div =>
    obtain ⟨found, quotient, same⟩ := bind_eq_ok.mp known
    cases same
    obtain ⟨result, rfl, rfl⟩ := exists_of_ofNumber? isDatum
    obtain ⟨nonzero, even, rfl⟩ := Number.even_of_div quotient
    exact if_pos ⟨nonzero, even⟩
  | rem =>
    obtain ⟨found, remainder, same⟩ := bind_eq_ok.mp known
    cases same
    obtain ⟨result, rfl, rfl⟩ := exists_of_ofNumber? isDatum
    cases Optimizer.rem_int remainder
    exact if_pos (Number.ne_zero_of_rem remainder)
  | pow =>
    obtain ⟨found, power, same⟩ := bind_eq_ok.mp known
    cases same
    obtain ⟨result, rfl, rfl⟩ := exists_of_ofNumber? isDatum
    have nonneg := Number.nonneg_of_pow (Except.ok.inj power)
    cases Number.pow_int (Except.ok.inj power) nonneg
    exact if_pos nonneg

/-- What is known of an operator between two truth values is what it computes. -/
theorem truths_of_known {left right : Bool}
    (known : Value.binary operator (.bool left) (.bool right) exact = .ok value)
    (isDatum : value.datum? = some datum) : truths operator left right = some datum := by
  cases operator <;> cases known <;> cases isDatum <;> simp [truths, bne]

end Machine

/-! ## Expressions of literals -/

/-- An expression is built of whole numbers and truth values. -/
inductive Expr.Plain : Expr → Prop
  | number {info : Info} {value : Int} : Plain (.number info (.int value))
  | bool {info : Info} {value : Bool} : Plain (.bool info value)
  | unary {info : Info} {operator : UnaryOperator} {operand : Expr} :
      Plain operand → Plain (.unary info operator operand)
  | binary {info : Info} {operator : BinaryOperator} {left right : Expr} :
      Plain left → Plain right → Plain (.binary info operator left right)

/-- Is an expression a number, or does its operator compute one? -/
def Expr.isComputed : Expr → Bool
  | .number _ _ | .unary _ .neg _ => true
  | .binary _ operator _ _ => operator.isArithmetic
  | _ => false

/-- If an expression computes a number, it is of an integer type and known to be whole. -/
def Node.KnownWhole : Node → Prop
  | .expr expression => expression.isComputed = true →
    expression.type.isIntegral = true ∧ ∃ value, expression.staticValue = .ok (.number (.int value))
  | .stmt _ => True

namespace Optimizer

/-- An expression that is known to have a value is optimized to the literal of that value,
and evaluates to it. -/
def Reckons (expression : Expr) : Value → Prop
  | .number (.int value) =>
    optimizeExpr expression = .ok (.number expression.info (.int value)) ∧
      ∀ (machine : Machine) (world : machine.World),
        machine.Evaluates expression world (.whole value) world
  | .bool value =>
    (∃ type, optimizeExpr expression = .ok (.bool ⟨type, expression.position⟩ value)) ∧
      ∀ (machine : Machine) (world : machine.World),
        machine.Evaluates expression world (.truth value) world
  | .unknown => True
  | _ => False

variable {info : Info} {expression operand left right : Expr} {value first second : Value}

/-- A known operand has become a literal, and evaluates to a whole number or a truth value. -/
theorem Reckons.literal (reckons : Reckons expression value) (isKnown : value ≠ .unknown) :
    ∃ result, optimizeExpr expression = .ok result ∧ literalValue result = value ∧
      ∀ machine : Machine, ∃ datum, value.datum? = some datum ∧
        ∀ world, machine.Evaluates expression world datum world := by
  match value, reckons with
  | .number (.int _), ⟨optimizes, evaluates⟩ =>
    exact ⟨_, optimizes, rfl, fun machine => ⟨_, rfl, evaluates machine⟩⟩
  | .bool _, ⟨⟨_, optimizes⟩, evaluates⟩ =>
    exact ⟨_, optimizes, rfl, fun machine => ⟨_, rfl, evaluates machine⟩⟩
  | .unknown, _ => exact absurd rfl isKnown

theorem numberLiteral_int (integral : info.type.isIntegral = true) (value : Int) :
    numberLiteral info (.int value) = .ok (some (.number info (.int value))) := by
  unfold numberLiteral
  cases isType : info.type with
  | numeric kind =>
    rw [isType] at integral
    exact if_pos integral
  | _ =>
    rw [isType] at integral
    cases integral

theorem eq_of_tells {Other : Type} {datum found : Datum Other} (isDatum : value.datum? = some datum)
    (tells : value.Tells found) : found = datum := by
  match value, isDatum with
  | .number (.int _), rfl => exact tells
  | .bool _, rfl => exact tells

/-- An operator between known operands computes what is known of it. -/
theorem computes_of_known {machine : Machine} {operator : BinaryOperator} {exact : Bool}
    {before after datum : machine.Data} (isFirst : first.datum? = some before)
    (isSecond : second.datum? = some after)
    (known : Value.binary operator first second exact = .ok value)
    (isDatum : value.datum? = some datum) :
    Machine.decided? operator before = some datum ∨
      Machine.decided? operator before = none ∧ machine.combine operator before after = some datum := by
  have isKnown : value ≠ .unknown := by
    rintro rfl
    cases isDatum
  match first, second, isFirst, isSecond with
  | .number (.int _), .number (.int _), rfl, rfl =>
    refine .inr ⟨?_, Machine.wholes_of_known known isDatum⟩
    cases operator <;> rfl
  | .bool truth, .bool other, rfl, rfl =>
    cases decides : Machine.decided? operator (.truth truth : machine.Data) with
    | some found =>
      exact .inl (congrArg some (eq_of_tells isDatum (tells_decided known isKnown decides)))
    | none => exact .inr ⟨rfl, Machine.truths_of_known known isDatum⟩
  | .number (.int _), .bool _, rfl, rfl | .bool _, .number (.int _), rfl, rfl =>
    cases operator <;> cases known <;> exact absurd rfl isKnown

theorem reckons_unary {operator : UnaryOperator} (reckons : Reckons operand value)
    (computed : operator = .neg → info.type.isIntegral = true) :
    Reckons (.unary info operator operand) (Value.unary operator value) := by
  cases operator with
  | neg =>
    match value, reckons with
    | .number (.int value), ⟨optimizes, evaluates⟩ =>
      refine ⟨?_, fun machine world => ?_⟩
      · rw [optimizeExpr, optimizes]
        have literal := numberLiteral_int (computed rfl) (-value)
        exact bind_eq_ok.mpr ⟨_, rfl, bind_eq_ok.mpr ⟨_, literal, rfl⟩⟩
      · exact Machine.evaluates_unary.mpr ⟨_, evaluates machine world, rfl⟩
    | .bool _, _ => trivial
    | .unknown, _ => trivial
  | not =>
    match value, reckons with
    | .bool value, ⟨⟨type, optimizes⟩, evaluates⟩ =>
      refine ⟨⟨.bool, ?_⟩, fun machine world => ?_⟩
      · rw [optimizeExpr, optimizes]
        rfl
      · exact Machine.evaluates_unary.mpr ⟨_, evaluates machine world, rfl⟩
    | .number (.int _), _ => trivial
    | .unknown, _ => trivial

theorem reckons_binary {operator : BinaryOperator} (reckonsLeft : Reckons left first)
    (reckonsRight : Reckons right second)
    (known : Value.binary operator first second info.type.isIntegral = .ok value)
    (computed : operator.isArithmetic = true →
      info.type.isIntegral = true ∧ ∃ whole, value = .number (.int whole)) :
    Reckons (.binary info operator left right) value := by
  by_cases isKnown : value = .unknown
  · rw [isKnown]
    trivial
  obtain ⟨knownFirst, knownSecond⟩ := known_of_binary known isKnown
  obtain ⟨leftResult, leftOptimizes, isFirst, leftEvaluates⟩ := reckonsLeft.literal knownFirst
  obtain ⟨rightResult, rightOptimizes, isSecond, rightEvaluates⟩ := reckonsRight.literal knownSecond
  have optimizes {result : Expr}
      (folds : fold info operator leftResult rightResult = .ok (some result)) :
      optimizeExpr (.binary info operator left right) = .ok result := by
    rw [optimizeExpr, leftOptimizes, rightOptimizes]
    exact bind_eq_ok.mpr ⟨_, rfl, bind_eq_ok.mpr ⟨_, rfl, bind_eq_ok.mpr ⟨_, folds, rfl⟩⟩⟩
  have evaluates (machine : Machine) {datum : machine.Data} (isDatum : value.datum? = some datum)
      (world : machine.World) :
      machine.Evaluates (.binary info operator left right) world datum world := by
    obtain ⟨before, isBefore, evaluatesLeft⟩ := leftEvaluates machine
    obtain ⟨after, isAfter, evaluatesRight⟩ := rightEvaluates machine
    refine Machine.evaluates_binary.mpr ⟨before, world, evaluatesLeft world, ?_⟩
    obtain decides | ⟨undecided, computes⟩ := computes_of_known isBefore isAfter known isDatum
    · exact .inl ⟨decides, rfl⟩
    · exact .inr ⟨undecided, after, evaluatesRight world, computes⟩
  obtain unknown | ⟨arithmetic, -⟩ | ⟨-, truth, rfl⟩ | ⟨text, -, rfl, -⟩ := binary_cases known
  · exact absurd unknown isKnown
  · obtain ⟨integral, whole, rfl⟩ := computed arithmetic
    rw [← isFirst, ← isSecond] at known
    exact ⟨optimizes (bind_eq_ok.mpr ⟨_, known, numberLiteral_int integral whole⟩),
      fun machine => evaluates machine rfl⟩
  · rw [← isFirst, ← isSecond] at known
    exact ⟨⟨.bool, optimizes (bind_eq_ok.mpr ⟨_, known, rfl⟩)⟩, fun machine => evaluates machine rfl⟩
  · exact reckonsLeft.elim

end Optimizer

/-- An expression of whole numbers and truth values reckons. -/
theorem Expr.Plain.reckons {expression : Expr} (plain : expression.Plain)
    (whole : (Node.expr expression).All Node.KnownWhole) {value : Value}
    (known : expression.staticValue = .ok value) : Optimizer.Reckons expression value := by
  induction plain generalizing value with
  | number =>
    cases known
    exact ⟨rfl, fun machine world => Machine.evaluates_whole.mpr ⟨rfl, rfl⟩⟩
  | bool =>
    cases known
    exact ⟨⟨_, rfl⟩, fun machine world => Machine.evaluates_truth.mpr ⟨rfl, rfl⟩⟩
  | unary _ ih =>
    obtain ⟨root, below⟩ := Node.all_iff.mp whole
    obtain ⟨inner, isInner, same⟩ := bind_eq_ok.mp known
    cases same
    refine Optimizer.reckons_unary (ih (below _ List.mem_cons_self) isInner) fun isNeg => ?_
    subst isNeg
    exact (root rfl).1
  | binary _ _ ihLeft ihRight =>
    obtain ⟨root, below⟩ := Node.all_iff.mp whole
    obtain ⟨first, isFirst, rest⟩ := bind_eq_ok.mp known
    obtain ⟨second, isSecond, computes⟩ := bind_eq_ok.mp rest
    refine Optimizer.reckons_binary (ihLeft (below _ List.mem_cons_self) isFirst)
      (ihRight (below _ (List.mem_cons_of_mem _ List.mem_cons_self)) isSecond) computes
      fun arithmetic => ?_
    obtain ⟨integral, number, isNumber⟩ := root arithmetic
    cases known.symm.trans isNumber
    exact ⟨integral, number, rfl⟩

/-- If the value of an expression of whole numbers and truth values is known beforehand, the
expression is optimized to the literal of that value, and evaluates to it in every world. -/
theorem optimizeExpr_of_staticValue {expression : Expr} (plain : expression.Plain)
    (whole : (Node.expr expression).All Node.KnownWhole) :
    (∀ value, expression.staticValue = .ok (.number (.int value)) →
      Optimizer.optimizeExpr expression =
          .ok (.number ⟨expression.type, expression.position⟩ (.int value)) ∧
        ∀ (machine : Machine) (world : machine.World),
          machine.Evaluates expression world (.whole value) world) ∧
      ∀ value, expression.staticValue = .ok (.bool value) →
        (∃ type, Optimizer.optimizeExpr expression =
            .ok (.bool ⟨type, expression.position⟩ value)) ∧
          ∀ (machine : Machine) (world : machine.World),
            machine.Evaluates expression world (.truth value) world :=
  ⟨fun _ known => plain.reckons whole known, fun _ known => plain.reckons whole known⟩

/-- The expression `(-7 % 4) ** 3`. -/
def signedRemainder : Expr :=
  let info (column : Nat) : Info := ⟨.numeric ⟨.int, false, .w8⟩, ⟨1, column⟩⟩
  .binary (info 1) .pow
    (.binary (info 2) .rem (.unary (info 2) .neg (.number (info 3) (.int 7)))
      (.number (info 7) (.int 4)))
    (.number (info 13) (.int 3))

/-- A remainder takes the sign of the dividend. -/
theorem optimizeExpr_of_staticValue_signedRemainder :
    signedRemainder.Plain ∧ (Node.expr signedRemainder).All Node.KnownWhole ∧
      signedRemainder.staticValue = .ok (.number (.int (-27))) ∧
        Optimizer.optimizeExpr signedRemainder =
          .ok (.number ⟨signedRemainder.type, signedRemainder.position⟩ (.int (-27))) := by
  have plain : signedRemainder.Plain :=
    .binary (.binary (.unary .number) .number) .number
  have whole : (Node.expr signedRemainder).All Node.KnownWhole := by
    intro inner member
    simp only [signedRemainder, Node.walk, Expr.walk, List.mem_cons, List.mem_append,
      List.not_mem_nil, or_false] at member
    obtain rfl | (rfl | (rfl | rfl) | rfl) | rfl := member <;>
      exact fun _ => ⟨rfl, _, rfl⟩
  have known : signedRemainder.staticValue = .ok (.number (.int (-27))) := by rfl
  exact ⟨plain, whole, known, ((optimizeExpr_of_staticValue plain whole).1 _ known).1⟩

end GlyphCompiler
