/-
# Optimizing twice

One pass of the optimizer leaves nothing to do for a second one. Every expression
that it returns is simplified already, and so is every statement, those that a
branch leaves behind included; steps that have been absorbed leave no more of them.
-/

import GlyphCompiler.Optimizer.Optimize
import GlyphCompiler.Proofs.Analysis.TypeConsistency
import GlyphCompiler.Proofs.Number.Zero
import GlyphCompiler.Proofs.Optimizer.Absorption

namespace GlyphCompiler

namespace Optimizer

open Analysis (Whole)

theorem bind_eq_ok {ε α β : Type} {first : Except ε α} {next : α → Except ε β} {result : β} :
    first >>= next = .ok result ↔ ∃ value, first = .ok value ∧ next value = .ok result := by
  cases first with
  | error failure => exact ⟨nofun, nofun⟩
  | ok value =>
    refine ⟨fun ok => ⟨value, rfl, ok⟩, ?_⟩
    rintro ⟨_, ⟨⟩, ok⟩
    exact ok

theorem pure_eq_ok {ε α : Type} {value result : α} :
    (pure value : Except ε α) = .ok result ↔ value = result := by
  constructor
  · intro ok
    cases ok
    rfl
  · rintro rfl
    rfl

/-- What an operator gives is not known, or it is a number that the operator computes, the
answer to what it asks, or a text that begins with another one. -/
theorem binary_cases {operator : BinaryOperator} {left right value : Value} {exact : Bool}
    (known : Value.binary operator left right exact = .ok value) :
    value = .unknown ∨ (operator.isArithmetic = true ∧ ∃ number, value = .number number) ∨
      (operator.isArithmetic = false ∧ ∃ truth, value = .bool truth) ∨
        ∃ text joined, left = .text text ∧ value = .text joined := by
  unfold Value.binary at known
  split at known
  case h_3 | h_4 =>
    split at known
    · cases known
      exact .inr (.inr (.inl ⟨rfl, _, rfl⟩))
    · cases known
      exact .inl rfl
  case h_9 =>
    cases known
    exact .inr (.inr (.inr ⟨_, _, rfl, rfl⟩))
  case h_10 =>
    obtain ⟨found, computed, same⟩ := bind_eq_ok.mp known
    cases same
    cases found with
    | none => exact .inl rfl
    | some number =>
      refine .inr (.inl ⟨?_, number, rfl⟩)
      cases operator with
      | add | sub | mul | div | rem | pow => rfl
      | or | and | eq | ne | lt | le | gt | ge => cases computed
  case h_11 =>
    cases known
    exact .inl rfl
  all_goals
    cases known
    exact .inr (.inr (.inl ⟨rfl, _, rfl⟩))

/-! ## Simplified expressions -/

/-- Numbers that stand in an optimized expression are whole where its type asks for it. -/
structure Simplified (type : Ty) (result : Expr) : Prop where
  fixed : optimizeExpr result = .ok result
  number : ∀ info value, result = .number info value →
    info.type = type ∧ info.type ≠ .any ∧ (info.type.isIntegral = true → ∃ whole, value = .int whole)

theorem numberLiteral_eq_some {info : Info} {value : Number} {result : Expr}
    (literal : numberLiteral info value = .ok (some result)) :
    result = .number info value ∧ info.type ≠ .any ∧
      (info.type.isIntegral = true → ∃ whole, value = .int whole) := by
  unfold numberLiteral at literal
  split at literal
  · next kind numeric =>
    split at literal
    · next integral =>
      split at literal
      · next whole =>
        cases literal
        exact ⟨rfl, by simp [numeric], fun _ => ⟨whole, rfl⟩⟩
      · cases literal
    · next notIntegral =>
      obtain ⟨rounded, -, literal⟩ := bind_eq_ok.mp literal
      split at literal
      · cases literal
        exact ⟨rfl, by simp [numeric], fun integral => absurd (by simpa [numeric, Ty.isIntegral] using integral) notIntegral⟩
      · cases literal
  · cases literal

theorem simplified_of_numberLiteral {info : Info} {value : Number} {result : Expr}
    (literal : numberLiteral info value = .ok (some result)) : Simplified info.type result := by
  obtain ⟨rfl, notAny, whole⟩ := numberLiteral_eq_some literal
  refine ⟨rfl, ?_⟩
  rintro _ _ ⟨⟩
  exact ⟨rfl, notAny, whole⟩

/-- An expression that is no number is simplified if optimizing it changes nothing. -/
theorem simplified_of_fixed {type : Ty} {result : Expr} (fixed : optimizeExpr result = .ok result)
    (noNumber : ∀ info value, result ≠ .number info value) : Simplified type result :=
  ⟨fixed, fun info value same => absurd same (noNumber info value)⟩

/-- A simplified expression is simplified for the type that it has. -/
theorem Simplified.ofOwnType {type : Ty} {result : Expr} (simplified : Simplified type result) :
    Simplified result.type result :=
  ⟨simplified.fixed, fun info value same =>
    ⟨by rw [same]; rfl, (simplified.number info value same).2⟩⟩

theorem firstOr_cases {otherwise result : Expr} {attempts : List (Except Fault (Option Expr))}
    (first : firstOr otherwise attempts = .ok result) :
    (result = otherwise ∧ ∀ attempt ∈ attempts, attempt = .ok none) ∨
      .ok (some result) ∈ attempts := by
  induction attempts with
  | nil =>
    cases first
    exact .inl ⟨rfl, nofun⟩
  | cons attempt attempts ih =>
    rw [firstOr] at first
    obtain ⟨found, same, rest⟩ := bind_eq_ok.mp first
    cases found with
    | some found =>
      cases rest
      exact .inr (same ▸ List.mem_cons_self)
    | none =>
      obtain ⟨rfl, none⟩ | member := ih rest
      · left
        refine ⟨rfl, fun other member => ?_⟩
        obtain rfl | member := List.mem_cons.mp member
        · exact same
        · exact none other member
      · exact .inr (List.mem_cons_of_mem _ member)

theorem when_eq_some {condition : Bool} {expression result : Expr}
    (some_ : when condition expression = .ok (some result)) : condition = true ∧ result = expression := by
  unfold when at some_
  cases condition with
  | true =>
    cases some_
    exact ⟨rfl, rfl⟩
  | false => cases some_

theorem literalWhen_eq_some {condition : Bool} {info : Info} {value : Number} {result : Expr}
    (some_ : literalWhen condition info value = .ok (some result)) :
    numberLiteral info value = .ok (some result) := by
  unfold literalWhen at some_
  cases condition with
  | true => exact some_
  | false => cases some_

/-- What the laws make of an operator between two operands. -/
inductive LawResult (info : Info) (operator : BinaryOperator) (left right : Expr) : Expr → Prop
  | none : LawResult info operator left right (.binary info operator left right)
  | left (keeps : left.type = info.type) : LawResult info operator left right left
  | right (keeps : right.type = info.type) : LawResult info operator left right right
  | decided {note : Info} {value : Bool} (isLogical : operator.isLogical = true)
      (isBool : left = .bool note value) :
    LawResult info operator left right left
  | literal {value : Number} {result : Expr} (literal : numberLiteral info value = .ok (some result)) :
    LawResult info operator left right result
  | negated (isSub : operator = .sub) (isZero : isNumber left 0 = true)
      (keeps : right.type = info.type) (numeric : info.type.isNumeric = true) :
    LawResult info operator left right (.unary info .neg right)

theorem lawResult_of_applyLaws {info : Info} {operator : BinaryOperator} {left right result : Expr}
    (laws : applyLaws info operator left right = .ok result) :
    LawResult info operator left right result := by
  unfold applyLaws at laws
  dsimp only at laws
  obtain ⟨rfl, -⟩ | member := firstOr_cases laws
  · exact .none
  cases operator with
  | add =>
    simp only [List.mem_cons, List.not_mem_nil, or_false] at member
    obtain found | found := member
    · obtain ⟨holds, rfl⟩ := when_eq_some found.symm
      exact .right (by simp_all)
    · obtain ⟨holds, rfl⟩ := when_eq_some found.symm
      exact .left (by simp_all)
  | sub =>
    simp only [List.mem_cons, List.not_mem_nil, or_false] at member
    obtain found | found := member
    · obtain ⟨holds, rfl⟩ := when_eq_some found.symm
      exact .left (by simp_all)
    · obtain ⟨holds, rfl⟩ := when_eq_some found.symm
      simp only [Bool.and_eq_true, beq_iff_eq] at holds
      exact .negated rfl holds.1.1 holds.1.2 holds.2
  | mul =>
    simp only [List.mem_cons, List.not_mem_nil, or_false] at member
    obtain found | found | found | found := member
    · obtain ⟨holds, rfl⟩ := when_eq_some found.symm
      exact .right (by simp_all)
    · obtain ⟨holds, rfl⟩ := when_eq_some found.symm
      exact .left (by simp_all)
    · exact .literal (literalWhen_eq_some found.symm)
    · exact .literal (literalWhen_eq_some found.symm)
  | pow =>
    simp only [List.mem_cons, List.not_mem_nil, or_false] at member
    obtain found | found := member
    · exact .literal (literalWhen_eq_some found.symm)
    · exact .literal (literalWhen_eq_some found.symm)
  | and | or =>
    dsimp only at member
    split at member
    · simp only [List.mem_cons, List.not_mem_nil, or_false] at member
      obtain found | found := member
      · obtain ⟨-, rfl⟩ := when_eq_some found.symm
        exact .decided rfl rfl
      · obtain ⟨holds, rfl⟩ := when_eq_some found.symm
        exact .right (by simp_all)
    · cases member
  | _ => cases member

theorem numberLiteral_of_not_integral {info : Info} {value : Number} {outcome : Option Expr}
    (numeric : info.type.isNumeric = true) (notIntegral : info.type.isIntegral = false)
    (literal : numberLiteral info value = .ok outcome) :
    ∃ rounded, value.toFloat = .ok rounded ∧
      outcome = if Binary64.isFinite rounded then some (.number info value) else none := by
  unfold numberLiteral at literal
  split at literal
  · next kind isKind =>
    have fractional : kind.isIntegral = false := by simpa [isKind, Ty.isIntegral] using notIntegral
    rw [fractional] at literal
    obtain ⟨rounded, rounds, same⟩ := bind_eq_ok.mp literal
    exact ⟨rounded, rounds, (pure_eq_ok.mp same).symm⟩
  · next notNumeric =>
    cases type : info.type with
    | numeric kind => exact absurd type (notNumeric kind)
    | _ => simp [type, Ty.isNumeric] at numeric

theorem numberLiteral_float {info : Info} {value : Float}
    (notIntegral : info.type.isIntegral = false) (notFinite : Binary64.isFinite value = false) :
    numberLiteral info (.float value) = .ok none := by
  unfold numberLiteral
  split
  · next kind isKind =>
    have fractional : kind.isIntegral = false := by simpa [isKind, Ty.isIntegral] using notIntegral
    rw [fractional]
    simp [Number.toFloat, bind, Except.bind, notFinite, pure, Except.pure]
  · rfl

theorem unpack_of_isZero {zero : Number} {rounded : Float} (isZero : zero.eq (.int 0) = true)
    (rounds : zero.toFloat = .ok rounded) : ∃ sign, rounded.toModel.unpack = .zero sign := by
  cases zero with
  | int value =>
    obtain rfl := Number.int_of_eq_zero isZero
    obtain ⟨other, otherRounds, unpacked⟩ := Binary64.unpack_toFloat_zero
    cases rounds.symm.trans otherRounds
    exact unpacked
  | float value =>
    cases rounds
    exact Binary64.unpack_of_eq_zero isZero

theorem sub_cases {left right difference : Number}
    (subtracts : left.sub right = .ok difference) :
    (∃ first second, left = .int first ∧ right = .int second ∧ difference = .int (first - second)) ∨
      ∃ first second, left.toFloat = .ok first ∧ right.toFloat = .ok second ∧
        difference = .float (first - second) := by
  unfold Number.sub Number.combine at subtracts
  split at subtracts
  · cases subtracts
    exact .inl ⟨_, _, rfl, rfl, rfl⟩
  · obtain ⟨first, roundsFirst, rest⟩ := bind_eq_ok.mp subtracts
    obtain ⟨second, roundsSecond, done⟩ := bind_eq_ok.mp rest
    cases done
    exact .inr ⟨first, second, roundsFirst, roundsSecond, rfl⟩

/-- What is no literal when it is taken from zero is none when it is negated. -/
theorem numberLiteral_neg {info : Info} {zero value difference : Number}
    (isZero : zero.eq (.int 0) = true)
    (whole : info.type.isIntegral = true → (∃ left, zero = .int left) ∧ ∃ right, value = .int right)
    (numeric : info.type.isNumeric = true) (subtracts : zero.sub value = .ok difference)
    (refused : numberLiteral info difference = .ok none) : numberLiteral info value.neg = .ok none := by
  cases integral : info.type.isIntegral with
  | true =>
    obtain ⟨⟨left, rfl⟩, right, rfl⟩ := whole integral
    cases subtracts
    unfold numberLiteral at refused
    split at refused
    · next kind isKind =>
      have isIntegral : kind.isIntegral = true := by simpa [isKind, Ty.isIntegral] using integral
      simp [isIntegral] at refused
    · next notNumeric =>
      cases type : info.type with
      | numeric kind => exact absurd type (notNumeric kind)
      | _ => simp [type, Ty.isNumeric] at numeric
  | false =>
    obtain ⟨rounded, rounds, finite⟩ := numberLiteral_of_not_integral numeric integral refused
    have notFinite : Binary64.isFinite rounded = false := by
      cases isFinite : Binary64.isFinite rounded with
      | true => simp [isFinite] at finite
      | false => rfl
    obtain ⟨left, right, -, -, rfl⟩ | ⟨left, right, roundsZero, roundsValue, rfl⟩ :=
      sub_cases subtracts
    · rw [Number.isFinite_of_toFloat rounds] at notFinite
      cases notFinite
    · cases rounds
      obtain ⟨sign, unpacked⟩ := unpack_of_isZero isZero roundsZero
      rw [Binary64.isFinite_zero_sub unpacked] at notFinite
      cases value with
      | int whole =>
        rw [Number.isFinite_of_toFloat roundsValue] at notFinite
        cases notFinite
      | float value =>
        cases roundsValue
        exact numberLiteral_float integral ((Binary64.isFinite_neg right).trans notFinite)

theorem simplified_of_fold {info : Info} {operator : BinaryOperator} {left right result : Expr}
    (folds : fold info operator left right = .ok (some result)) : Simplified info.type result := by
  obtain ⟨value, -, literal⟩ := bind_eq_ok.mp folds
  split at literal
  · exact simplified_of_numberLiteral literal
  · cases literal
    exact simplified_of_fixed rfl (by simp)
  · cases literal

theorem isNumber_eq_true {expression : Expr} {number : Int} (is : isNumber expression number = true) :
    ∃ info value, expression = .number info value ∧ value.eq (.int number) = true := by
  cases expression with
  | number info value => exact ⟨info, value, rfl, is⟩
  | _ => cases is

/-- What is known of a difference of integer type: its first operand is whole if it is
a number. -/
def WholeLeft (info : Info) (operator : BinaryOperator) (left : Expr) : Prop :=
  operator = .sub → info.type.isIntegral = true →
    ∀ note value, left = .number note value → ∃ whole, value = .int whole

theorem simplified_neg {info : Info} {left right : Expr} {type : Ty}
    (simplified : Simplified type right) (folds : fold info .sub left right = .ok none)
    (whole : WholeLeft info .sub left) (isZero : isNumber left 0 = true)
    (keeps : right.type = info.type) (numeric : info.type.isNumeric = true) :
    simplifyUnary info .neg right = .ok (.unary info .neg right) := by
  obtain ⟨note, zero, rfl, zeroIsZero⟩ := isNumber_eq_true isZero
  cases right with
  | number other value =>
    obtain ⟨folded, evaluates, literal⟩ := bind_eq_ok.mp folds
    obtain ⟨difference, computes, isFolded⟩ := bind_eq_ok.mp evaluates
    obtain ⟨exact_, subtracts, isDifference⟩ := bind_eq_ok.mp computes
    cases isDifference
    cases isFolded
    have refused := numberLiteral_neg zeroIsZero (fun integral =>
      ⟨whole rfl integral note zero rfl,
        (simplified.number other value rfl).2.2 ((congrArg Ty.isIntegral keeps).trans integral)⟩)
      numeric subtracts literal
    simp [simplifyUnary, literalValue, Value.unary, refused, bind, Except.bind, pure, Except.pure]
  | _ => rfl

theorem simplified_binary {info : Info} {operator : BinaryOperator} {left right result : Expr}
    {leftType rightType : Ty} (simplifiedLeft : Simplified leftType left)
    (simplifiedRight : Simplified rightType right) (whole : WholeLeft info operator left)
    (simplifies : simplifyBinary info operator left right = .ok result) :
    Simplified info.type result := by
  obtain ⟨folded, folds, rest⟩ := bind_eq_ok.mp simplifies
  cases folded with
  | some folded =>
    cases rest
    exact simplified_of_fold folds
  | none =>
    cases lawResult_of_applyLaws rest with
    | none =>
      refine simplified_of_fixed ?_ (by simp)
      rw [optimizeExpr, simplifiedLeft.fixed, simplifiedRight.fixed]
      exact simplifies
    | left keeps => exact keeps ▸ simplifiedLeft.ofOwnType
    | right keeps => exact keeps ▸ simplifiedRight.ofOwnType
    | decided _ isBool => exact simplified_of_fixed simplifiedLeft.fixed (by simp [isBool])
    | literal literal => exact simplified_of_numberLiteral literal
    | negated isSub isZero keeps numeric =>
      subst isSub
      refine simplified_of_fixed ?_ (by simp)
      rw [optimizeExpr, simplifiedRight.fixed]
      exact simplified_neg simplifiedRight folds whole isZero keeps numeric

theorem simplified_unary {info : Info} {operator : UnaryOperator} {operand result : Expr} {type : Ty}
    (simplified : Simplified type operand)
    (simplifies : simplifyUnary info operator operand = .ok result) : Simplified info.type result := by
  have unchanged (same : result = .unary info operator operand) : Simplified info.type result := by
    rw [same] at simplifies ⊢
    refine simplified_of_fixed ?_ (by simp)
    rw [optimizeExpr, simplified.fixed]
    exact simplifies
  unfold simplifyUnary at simplifies
  split at simplifies
  · cases simplifies
    exact simplified_of_fixed rfl (by simp)
  · obtain ⟨literal, isLiteral, same⟩ := bind_eq_ok.mp simplifies
    cases literal with
    | none => exact unchanged (pure_eq_ok.mp same).symm
    | some literal =>
      cases same
      exact simplified_of_numberLiteral isLiteral
  · exact unchanged (pure_eq_ok.mp simplifies).symm

theorem simplified_dereference {info : Info} {operand : Expr} {type : Ty}
    (simplified : Simplified type operand) :
    Simplified info.type (simplifyDereference info operand) := by
  unfold simplifyDereference
  split
  · exact simplified_of_fixed rfl (by simp [Reference.toExpr])
  · next notAddress =>
    refine simplified_of_fixed ?_ (by simp)
    rw [optimizeExpr, simplified.fixed]
    show Except.ok (simplifyDereference info operand) = _
    unfold simplifyDereference
    split
    · next address => exact absurd rfl (notAddress _ _)
    · rfl

/-! ## Lists of statements -/

/-- A statement that optimizing leaves as it is. -/
def Fixed (statement : Stmt) : Prop :=
  optimizeStmt statement = .ok [statement]

theorem optimizeEach_of_fixed {statements : List Stmt}
    (fixed : ∀ statement ∈ statements, Fixed statement) : optimizeEach statements = .ok statements := by
  induction statements with
  | nil => rfl
  | cons statement rest ih =>
    rw [optimizeEach, fixed statement List.mem_cons_self,
      ih fun other member => fixed other (List.mem_cons_of_mem _ member)]
    rfl

theorem mem_modify {change : Stmt → Stmt} {statements : List Stmt} {place : Nat} {statement : Stmt}
    (member : statement ∈ statements.modify place change) :
    ∃ other ∈ statements, statement = other ∨ statement = change other := by
  induction statements generalizing place with
  | nil => simp at member
  | cons first rest ih =>
    cases place with
    | zero =>
      obtain rfl | member := List.mem_cons.mp member
      · exact ⟨first, List.mem_cons_self, .inr rfl⟩
      · exact ⟨statement, List.mem_cons_of_mem _ member, .inl rfl⟩
    | succ place =>
      obtain rfl | member := List.mem_cons.mp member
      · exact ⟨statement, List.mem_cons_self, .inl rfl⟩
      · obtain ⟨other, listed, same⟩ := ih member
        exact ⟨other, List.mem_cons_of_mem _ listed, same⟩

theorem mem_stepAt {absorption : Absorption} {place : Nat} {step : Step} {statement : Stmt}
    (member : statement ∈ (absorption.stepAt place step).kept.toList) :
    statement ∈ absorption.kept.toList ∨ ∃ position target info value,
      statement = .declare position target (.number info value) := by
  rw [Absorption.stepAt, Array.toList_modify] at member
  obtain ⟨other, listed, rfl | rfl⟩ := mem_modify member
  · exact .inl listed
  · split
    · exact .inr ⟨_, _, _, _, rfl⟩
    · exact .inl listed

/-- A statement that is kept when steps are absorbed is one of the list, or it declares
a number. -/
theorem mem_absorbSteps {statements : List Stmt} {statement : Stmt}
    (member : statement ∈ absorbSteps statements) :
    statement ∈ statements ∨ ∃ position target info value,
      statement = .declare position target (.number info value) := by
  have all : ∀ absorption, statement ∈ (statements.foldl Absorption.next absorption).kept.toList →
      statement ∈ statements ∨ statement ∈ absorption.kept.toList ∨
        ∃ position target info value, statement = .declare position target (.number info value) := by
    clear member
    induction statements with
    | nil => exact fun absorption member => .inr (.inl member)
    | cons first rest ih =>
      intro absorption member
      obtain member | member | number := ih _ member
      · exact .inl (List.mem_cons_of_mem _ member)
      · obtain ⟨-, kept⟩ | ⟨position, step, target, place, rfl, -, stepped⟩ :=
          next_cases absorption first
        · rw [kept, keep_eq, Array.toList_push, List.mem_append, List.mem_singleton] at member
          obtain member | rfl := member
          · exact .inr (.inl member)
          · exact .inl List.mem_cons_self
        · rw [stepped] at member
          exact .inr (mem_stepAt member)
      · exact .inr (.inr number)
  obtain listed | none | number := all _ member
  · exact .inl listed
  · cases none
  · exact .inr number

theorem fixed_absorbSteps {statements : List Stmt}
    (fixed : ∀ statement ∈ statements, Fixed statement) :
    ∀ statement ∈ absorbSteps statements, Fixed statement := by
  intro statement member
  obtain listed | ⟨position, target, info, value, rfl⟩ := mem_absorbSteps member
  · exact fixed statement listed
  · rfl

/-- A list of statements that optimizing leaves as it is, part by part and as a whole. -/
structure FixedBody (statements : List Stmt) : Prop where
  each : ∀ statement ∈ statements, Fixed statement
  absorbed : absorbSteps statements = statements

theorem fixedBody_absorbSteps {statements : List Stmt}
    (fixed : ∀ statement ∈ statements, Fixed statement) : FixedBody (absorbSteps statements) :=
  ⟨fixed_absorbSteps fixed, absorbSteps_absorbSteps statements⟩

theorem FixedBody.optimizeEach {statements : List Stmt} (fixed : FixedBody statements) :
    optimizeEach statements = .ok statements :=
  optimizeEach_of_fixed fixed.each

theorem FixedBody.optimizeBody {statements : List Stmt} (fixed : FixedBody statements) :
    optimizeBody statements = .ok statements := by
  rw [Optimizer.optimizeBody, fixed.optimizeEach]
  show Except.ok (absorbSteps statements) = _
  rw [fixed.absorbed]

theorem fixedBody_nil : FixedBody [] :=
  ⟨nofun, rfl⟩

theorem fixedBody_singleton {statement : Stmt} (fixed : Fixed statement) : FixedBody [statement] := by
  refine ⟨fun other member => ?_, ?_⟩
  · rw [List.mem_singleton.mp member]
    exact fixed
  · cases statement <;> rfl

/-! ## One pass -/

/-- Every expression among some nodes is whole. -/
def AllWhole (nodes : List Node) : Prop :=
  ∀ expression, .expr expression ∈ nodes → Whole expression

theorem AllWhole.mono {nodes more : List Node} (whole : AllWhole more) (within : nodes ⊆ more) :
    AllWhole nodes :=
  fun expression member => whole expression (within member)

/-- What optimizing an expression to a number says of the expression. -/
theorem wholeLeft_of_whole {info : Info} {operator : BinaryOperator} {left right result : Expr}
    (whole : Whole (.binary info operator left right)) (optimizes : optimizeExpr left = .ok result)
    (simplified : Simplified left.type result) : WholeLeft info operator result := by
  rintro rfl integral note value rfl
  obtain ⟨type, notAny, isWhole⟩ := simplified.number note value rfl
  obtain isIntegral | isAny | calls := whole (.inl integral)
  · exact isWhole (type ▸ isIntegral)
  · exact absurd (type.trans isAny) notAny
  · cases left with
    | call info callee arguments =>
      obtain ⟨optimized, -, same⟩ := bind_eq_ok.mp optimizes
      cases same
    | _ => cases calls

mutual

theorem simplified_optimizeExpr : {expression result : Expr} → AllWhole expression.walk →
    optimizeExpr expression = .ok result → Simplified expression.type result
  | .binary info operator left right, result, whole, optimizes => by
    obtain ⟨left', isLeft, rest⟩ := bind_eq_ok.mp optimizes
    obtain ⟨right', isRight, simplifies⟩ := bind_eq_ok.mp rest
    have simplifiedLeft := simplified_optimizeExpr (whole.mono (by simp [Expr.walk])) isLeft
    have simplifiedRight := simplified_optimizeExpr (whole.mono (by simp [Expr.walk])) isRight
    exact simplified_binary simplifiedLeft simplifiedRight
      (wholeLeft_of_whole (whole _ List.mem_cons_self) isLeft simplifiedLeft) simplifies
  | .unary info operator operand, result, whole, optimizes => by
    obtain ⟨operand', isOperand, simplifies⟩ := bind_eq_ok.mp optimizes
    exact simplified_unary
      (simplified_optimizeExpr (whole.mono (by simp [Expr.walk])) isOperand) simplifies
  | .dereference info operand, result, whole, optimizes => by
    obtain ⟨operand', isOperand, same⟩ := bind_eq_ok.mp optimizes
    cases same
    exact simplified_dereference (simplified_optimizeExpr (whole.mono (by simp [Expr.walk])) isOperand)
  | .call info callee arguments, result, whole, optimizes => by
    obtain ⟨arguments', areArguments, same⟩ := bind_eq_ok.mp optimizes
    cases same
    refine simplified_of_fixed ?_ (by simp)
    rw [optimizeExpr, fixed_optimizeExprs (whole.mono (by simp [Expr.walk])) areArguments]
    rfl
  | .subscript info base index, result, whole, optimizes => by
    obtain ⟨base', isBase, rest⟩ := bind_eq_ok.mp optimizes
    obtain ⟨index', isIndex, same⟩ := bind_eq_ok.mp rest
    cases same
    refine simplified_of_fixed ?_ (by simp)
    rw [optimizeExpr, (simplified_optimizeExpr (whole.mono (by simp [Expr.walk])) isBase).fixed,
      (simplified_optimizeExpr (whole.mono (by simp [Expr.walk])) isIndex).fixed]
    rfl
  | .array info elements, result, whole, optimizes => by
    obtain ⟨elements', areElements, same⟩ := bind_eq_ok.mp optimizes
    cases same
    refine simplified_of_fixed ?_ (by simp)
    rw [optimizeExpr, fixed_optimizeExprs (whole.mono (by simp [Expr.walk])) areElements]
    rfl
  | .conjure info body, result, whole, optimizes => by
    obtain ⟨flat, isFlat, same⟩ := bind_eq_ok.mp optimizes
    cases same
    have fixed := fixedBody_absorbSteps
      (fixed_optimizeEach (whole.mono (by simp [Expr.walk])) isFlat)
    refine simplified_of_fixed ?_ (by simp)
    rw [optimizeExpr, fixed.optimizeEach]
    show Except.ok (Expr.conjure info (absorbSteps (absorbSteps flat))) = _
    rw [fixed.absorbed]
  | .apply info mapping items, result, whole, optimizes => by
    obtain ⟨mapping', isMapping, rest⟩ := bind_eq_ok.mp optimizes
    obtain ⟨items', areItems, same⟩ := bind_eq_ok.mp rest
    cases same
    refine simplified_of_fixed ?_ (by simp)
    rw [optimizeExpr, (simplified_optimizeExpr (whole.mono (by simp [Expr.walk])) isMapping).fixed,
      (simplified_optimizeExpr (whole.mono (by simp [Expr.walk])) areItems).fixed]
    rfl
  | .supplant info text pattern replacement, result, whole, optimizes => by
    obtain ⟨text', isText, rest⟩ := bind_eq_ok.mp optimizes
    obtain ⟨pattern', isPattern, rest⟩ := bind_eq_ok.mp rest
    obtain ⟨replacement', isReplacement, same⟩ := bind_eq_ok.mp rest
    cases same
    refine simplified_of_fixed ?_ (by simp)
    rw [optimizeExpr, (simplified_optimizeExpr (whole.mono (by simp [Expr.walk])) isText).fixed,
      (simplified_optimizeExpr
        (whole.mono (by simp +contextual [Expr.walk, List.subset_def])) isPattern).fixed,
      (simplified_optimizeExpr
        (whole.mono (by simp +contextual [Expr.walk, List.subset_def])) isReplacement).fixed]
    rfl
  | .number info value, result, whole, optimizes => by
    cases optimizes
    refine ⟨rfl, ?_⟩
    rintro _ _ ⟨⟩
    exact ⟨rfl, whole (.number info value) List.mem_cons_self⟩
  | .bool _ _, _, _, rfl | .string _ _, _, _, rfl | .glyph _ _, _, _, rfl
  | .codepoint _ _, _, _, rfl | .null _, _, _, rfl | .reference _, _, _, rfl
  | .function _ _, _, _, rfl | .addressOf _ _, _, _, rfl | .typeOf _ _, _, _, rfl =>
    simplified_of_fixed rfl (by simp)

theorem fixed_optimizeExprs : {expressions results : List Expr} → AllWhole (walkExprs expressions) →
    optimizeExprs expressions = .ok results → optimizeExprs results = .ok results
  | [], _, _, rfl => rfl
  | expression :: rest, results, whole, optimizes => by
    obtain ⟨first, isFirst, others⟩ := bind_eq_ok.mp optimizes
    obtain ⟨others, areOthers, same⟩ := bind_eq_ok.mp others
    cases same
    rw [optimizeExprs, (simplified_optimizeExpr (whole.mono (by simp [walkExprs])) isFirst).fixed,
      fixed_optimizeExprs (whole.mono (by simp [walkExprs])) areOthers]
    rfl

theorem fixedBody_optimizeStmt : {statement : Stmt} → {results : List Stmt} →
    AllWhole statement.walk → optimizeStmt statement = .ok results → FixedBody results
  | .declare position target value, results, whole, optimizes => by
    obtain ⟨value', isValue, same⟩ := bind_eq_ok.mp optimizes
    cases same
    apply fixedBody_singleton
    rw [Fixed, optimizeStmt, (simplified_optimizeExpr (whole.mono (by simp [Stmt.walk])) isValue).fixed]
    rfl
  | .function position target body, results, whole, optimizes => by
    obtain ⟨flat, isFlat, same⟩ := bind_eq_ok.mp optimizes
    cases same
    have fixed := fixedBody_absorbSteps
      (fixed_optimizeEach (whole.mono (by simp [Stmt.walk])) isFlat)
    apply fixedBody_singleton
    rw [Fixed, optimizeStmt, fixed.optimizeEach]
    show Except.ok [Stmt.function position target (absorbSteps (absorbSteps flat))] = _
    rw [fixed.absorbed]
  | .main position body, results, whole, optimizes => by
    obtain ⟨flat, isFlat, same⟩ := bind_eq_ok.mp optimizes
    cases same
    have fixed := fixedBody_absorbSteps
      (fixed_optimizeEach (whole.mono (by simp [Stmt.walk])) isFlat)
    apply fixedBody_singleton
    rw [Fixed, optimizeStmt, fixed.optimizeEach]
    show Except.ok [Stmt.main position (absorbSteps (absorbSteps flat))] = _
    rw [fixed.absorbed]
  | .assign position target value, results, whole, optimizes => by
    obtain ⟨value', isValue, same⟩ := bind_eq_ok.mp optimizes
    cases isRead : reads target value' with
    | true =>
      rw [isRead] at same
      cases same
      exact fixedBody_nil
    | false =>
      rw [isRead] at same
      cases same
      apply fixedBody_singleton
      rw [Fixed, optimizeStmt,
        (simplified_optimizeExpr (whole.mono (by simp [Stmt.walk])) isValue).fixed]
      show Except.ok (if reads target value' then [] else [Stmt.assign position target value']) = _
      rw [isRead]
      rfl
  | .branch position condition consequent alternative, results, whole, optimizes => by
    obtain ⟨condition', isCondition, rest⟩ := bind_eq_ok.mp optimizes
    obtain ⟨consequent', isConsequent, rest⟩ := bind_eq_ok.mp rest
    obtain ⟨alternative', isAlternative, same⟩ := bind_eq_ok.mp rest
    have fixedCondition := (simplified_optimizeExpr
      (whole.mono (by simp [Stmt.walk])) isCondition).fixed
    have fixedConsequent := fixedBody_absorbSteps (fixed_optimizeEach
      (whole.mono (by simp +contextual [Stmt.walk, List.subset_def])) isConsequent)
    have fixedAlternative := fixedBody_absorbSteps (fixed_optimizeEach
      (whole.mono (by simp +contextual [Stmt.walk, List.subset_def])) isAlternative)
    dsimp only at same
    split at same
    · next info known _ =>
      obtain rfl := pure_eq_ok.mp same
      cases known with
      | true => exact fixedConsequent
      | false => exact fixedAlternative
    · next notLiteral =>
      obtain rfl := pure_eq_ok.mp same
      apply fixedBody_singleton
      rw [Fixed, optimizeStmt, fixedCondition, fixedConsequent.optimizeEach,
        fixedAlternative.optimizeEach]
      show (match condition' with
        | .bool _ value => _
        | _ => _) = _
      rw [fixedConsequent.absorbed, fixedAlternative.absorbed]
      split
      · exact absurd rfl (notLiteral _ _)
      · rfl
  | .loop position condition body, results, whole, optimizes => by
    obtain ⟨condition', isCondition, rest⟩ := bind_eq_ok.mp optimizes
    have fixedCondition := (simplified_optimizeExpr
      (whole.mono (by simp [Stmt.walk])) isCondition).fixed
    split at rest
    · obtain rfl := pure_eq_ok.mp rest
      exact fixedBody_nil
    · next notFalse =>
      obtain ⟨flat, isFlat, same⟩ := bind_eq_ok.mp rest
      obtain rfl := pure_eq_ok.mp same
      have fixed := fixedBody_absorbSteps (fixed_optimizeEach
        (whole.mono (by simp +contextual [Stmt.walk, List.subset_def])) isFlat)
      apply fixedBody_singleton
      rw [Fixed, optimizeStmt, fixedCondition]
      show (match condition' with
        | .bool _ false => _
        | condition => _) = _
      rw [fixed.optimizeEach]
      split
      · exact absurd rfl (notFalse _)
      · show Except.ok [Stmt.loop position condition' (absorbSteps (absorbSteps flat))] = _
        rw [fixed.absorbed]
  | .returnValue position value, results, whole, optimizes => by
    obtain ⟨value', isValue, same⟩ := bind_eq_ok.mp optimizes
    cases same
    apply fixedBody_singleton
    rw [Fixed, optimizeStmt, (simplified_optimizeExpr (whole.mono (by simp [Stmt.walk])) isValue).fixed]
    rfl
  | .exscribe position value, results, whole, optimizes => by
    obtain ⟨value', isValue, same⟩ := bind_eq_ok.mp optimizes
    cases same
    apply fixedBody_singleton
    rw [Fixed, optimizeStmt, (simplified_optimizeExpr (whole.mono (by simp [Stmt.walk])) isValue).fixed]
    rfl
  | .evaluate position value, results, whole, optimizes => by
    obtain ⟨value', isValue, same⟩ := bind_eq_ok.mp optimizes
    cases same
    apply fixedBody_singleton
    rw [Fixed, optimizeStmt, (simplified_optimizeExpr (whole.mono (by simp [Stmt.walk])) isValue).fixed]
    rfl
  | .block position body, results, whole, optimizes => by
    obtain ⟨flat, isFlat, same⟩ := bind_eq_ok.mp optimizes
    cases same
    have fixed := fixedBody_absorbSteps
      (fixed_optimizeEach (whole.mono (by simp [Stmt.walk])) isFlat)
    apply fixedBody_singleton
    rw [Fixed, optimizeStmt, fixed.optimizeEach]
    show Except.ok [Stmt.block position (absorbSteps (absorbSteps flat))] = _
    rw [fixed.absorbed]
  | .affix _ _, _, _, rfl | .step _ _ _, _, _, rfl | .breakLoop _, _, _, rfl
  | .returnVoid _, _, _, rfl => fixedBody_singleton rfl

theorem fixed_optimizeEach : {statements results : List Stmt} → AllWhole (walkStmts statements) →
    optimizeEach statements = .ok results → ∀ statement ∈ results, Fixed statement
  | [], _, _, rfl => nofun
  | statement :: rest, results, whole, optimizes => by
    obtain ⟨first, isFirst, others⟩ := bind_eq_ok.mp optimizes
    obtain ⟨others, areOthers, same⟩ := bind_eq_ok.mp others
    cases same
    intro result member
    obtain member | member := List.mem_append.mp member
    · exact (fixedBody_optimizeStmt (whole.mono (by simp [walkStmts])) isFirst).each result member
    · exact fixed_optimizeEach (whole.mono (by simp [walkStmts])) areOthers result member

end

end Optimizer

open Optimizer

/-- A second pass of the optimizer over an accepted program changes nothing. Neither does
optimizing an expression of the program twice, or the list that a statement became. -/
theorem optimize_idempotent {source : String} {program optimized : Program}
    (accepted : analyze source = .ok program) (completes : optimize program = .ok optimized) :
    optimize optimized = .ok optimized ∧
      (∀ expression, .expr expression ∈ walkStmts program.body → ∀ result,
        optimizeExpr expression = .ok result → optimizeExpr result = .ok result) ∧
      (∀ statement, .stmt statement ∈ walkStmts program.body → ∀ results,
        optimizeStmt statement = .ok results → optimizeBody results = .ok results) := by
  obtain ⟨final, -, lawful⟩ := Analysis.exists_lawful accepted
  have whole : AllWhole (walkStmts program.body) :=
    fun expression member => (lawful _ member).whole expression rfl
  refine ⟨?_, fun expression member result optimizes => ?_, fun statement member results optimizes => ?_⟩
  · obtain ⟨body, isBody, same⟩ := bind_eq_ok.mp completes
    cases same
    obtain ⟨flat, isFlat, same⟩ := bind_eq_ok.mp isBody
    cases same
    have fixed := fixedBody_absorbSteps (fixed_optimizeEach whole isFlat)
    rw [optimize, fixed.optimizeBody]
    rfl
  · exact (simplified_optimizeExpr (whole.mono (walk_subset_walkStmts member)) optimizes).fixed
  · exact (fixedBody_optimizeStmt (whole.mono (walk_subset_walkStmts member)) optimizes).optimizeBody

/-- What one pass makes of the program whose result comes late: its counter starts higher,
and nothing is subtracted. -/
def lateOptimized : Program where
  position := ⟨1, 1⟩
  body := [
    .declare ⟨1, 1⟩ ⟨1, "a", .int .w32, true⟩
      (.call ⟨.string, ⟨1, 16⟩⟩ (.function ⟨.function [] .any, ⟨1, 16⟩⟩ Analysis.lateFunction) []),
    .function ⟨2, 1⟩ Analysis.lateFunction
      [.returnValue ⟨2, 11⟩ (.string ⟨.string, ⟨2, 13⟩⟩ "ok")],
    .declare ⟨3, 1⟩ Analysis.lateCounter (.number ⟨.int .w32, ⟨3, 9⟩⟩ (.int 2)),
    .exscribe ⟨5, 1⟩ (.reference ⟨⟨.int .w32, ⟨5, 10⟩⟩, Analysis.lateCounter⟩)]

theorem optimize_lateProgram : optimize Analysis.lateProgram = .ok lateOptimized :=
  eq_ok_of_comesTo (by decide +kernel)

theorem optimize_idempotent_lateProgram :
    analyze Analysis.lateSource = .ok Analysis.lateProgram ∧
      optimize Analysis.lateProgram = .ok lateOptimized ∧
        optimize lateOptimized = .ok lateOptimized :=
  ⟨Analysis.analyze_lateSource, optimize_lateProgram,
    (optimize_idempotent Analysis.analyze_lateSource optimize_lateProgram).1⟩

end GlyphCompiler
