/-
# Programs that match

The variables and functions of two programs are matched by their numbers. Two programs
match if they differ in positions only, in the numbers of what is matched, and in the
order of two functions with declared results. What is known of an expression before the
program runs, and where a body returns, is the same in both.
-/

import GlyphCompiler.Program.Returns
import GlyphCompiler.Program.StaticValue
import GlyphCompiler.Analysis.Extent
import Mathlib.Data.List.Forall2
import Mathlib.Order.Basic

namespace GlyphCompiler

/-- Which variables and functions of two programs are matched, by their numbers. -/
abbrev Matching := Nat → Nat → Prop

/-- Nothing is matched with two things. -/
structure Matching.OneToOne (matching : Matching) : Prop where
  right : ∀ {id other another}, matching id other → matching id another → other = another
  left : ∀ {id another other}, matching id other → matching another other → id = another

namespace Matching

/-- What is matched in one way or the other. -/
def union (matching another : Matching) : Matching :=
  fun id other => matching id other ∨ another id other

theorem le_union_left {matching another : Matching} : matching ≤ matching.union another :=
  fun _ _ => .inl

theorem le_union_right {matching another : Matching} : another ≤ matching.union another :=
  fun _ _ => .inr

end Matching

section

variable (matching : Matching)

/-- Two variables match. -/
structure Variable.Alike (target other : Variable) : Prop where
  id : matching target.id other.id
  name : target.name = other.name
  type : target.type = other.type
  mutable : target.mutable = other.mutable

/-- Two functions match. -/
structure Function.Alike (target other : Function) : Prop where
  id : matching target.id other.id
  name : target.name = other.name
  parameters : List.Forall₂ (Variable.Alike matching) target.parameters other.parameters
  result : target.result = other.result
  inferred : target.inferred = other.inferred

/-- Two uses of variables match. -/
structure Reference.Alike (use other : Reference) : Prop where
  type : use.info.type = other.info.type
  target : use.target.Alike matching other.target

/-- What is called matches. -/
inductive Callee.Alike : Callee → Callee → Prop
  | function {info other : Info} {target otherTarget : Function} (type : info.type = other.type)
      (targets : target.Alike matching otherTarget) :
    Callee.Alike (.function info target) (.function other otherTarget)
  | reference {use other : Reference} (uses : use.Alike matching other) :
    Callee.Alike (.reference use) (.reference other)

end

/-- Is a statement the declaration of a function with a declared result that stands at a
given position? -/
def Stmt.IsDeclaredAt (position : Position) : Stmt → Prop
  | .function place target _ => place = position ∧ target.inferred = false
  | _ => False

section

variable (first second : Position) (matching : Matching)

mutual

/-- Two expressions match. -/
inductive Expr.Alike : Expr → Expr → Prop
  | number {info other : Info} (type : info.type = other.type) (value : Number) :
    Expr.Alike (.number info value) (.number other value)
  | bool {info other : Info} (type : info.type = other.type) (value : Bool) :
    Expr.Alike (.bool info value) (.bool other value)
  | string {info other : Info} (type : info.type = other.type) (value : String) :
    Expr.Alike (.string info value) (.string other value)
  | glyph {info other : Info} (type : info.type = other.type) (value : Char) :
    Expr.Alike (.glyph info value) (.glyph other value)
  | codepoint {info other : Info} (type : info.type = other.type) (value : Nat) :
    Expr.Alike (.codepoint info value) (.codepoint other value)
  | null {info other : Info} (type : info.type = other.type) :
    Expr.Alike (.null info) (.null other)
  | reference {use other : Reference} (uses : use.Alike matching other) :
    Expr.Alike (.reference use) (.reference other)
  | function {info other : Info} {target otherTarget : Function} (type : info.type = other.type)
      (targets : target.Alike matching otherTarget) :
    Expr.Alike (.function info target) (.function other otherTarget)
  | binary {info other : Info} (type : info.type = other.type) (operator : BinaryOperator)
      {left right otherLeft otherRight : Expr} (lefts : Expr.Alike left otherLeft)
      (rights : Expr.Alike right otherRight) :
    Expr.Alike (.binary info operator left right) (.binary other operator otherLeft otherRight)
  | unary {info other : Info} (type : info.type = other.type) (operator : UnaryOperator)
      {operand otherOperand : Expr} (operands : Expr.Alike operand otherOperand) :
    Expr.Alike (.unary info operator operand) (.unary other operator otherOperand)
  | addressOf {info other : Info} (type : info.type = other.type) {operand otherOperand : Reference}
      (operands : operand.Alike matching otherOperand) :
    Expr.Alike (.addressOf info operand) (.addressOf other otherOperand)
  | dereference {info other : Info} (type : info.type = other.type) {operand otherOperand : Expr}
      (operands : Expr.Alike operand otherOperand) :
    Expr.Alike (.dereference info operand) (.dereference other otherOperand)
  | call {info other : Info} (type : info.type = other.type) {callee otherCallee : Callee}
      {arguments others : List Expr} (callees : callee.Alike matching otherCallee)
      (below : ExprsAlike arguments others) :
    Expr.Alike (.call info callee arguments) (.call other otherCallee others)
  | subscript {info other : Info} (type : info.type = other.type)
      {base index otherBase otherIndex : Expr} (bases : Expr.Alike base otherBase)
      (indices : Expr.Alike index otherIndex) :
    Expr.Alike (.subscript info base index) (.subscript other otherBase otherIndex)
  | array {info other : Info} (type : info.type = other.type) {elements others : List Expr}
      (below : ExprsAlike elements others) :
    Expr.Alike (.array info elements) (.array other others)
  | conjure {info other : Info} (type : info.type = other.type) {body otherBody : List Stmt}
      (bodies : BodyAlike body otherBody) :
    Expr.Alike (.conjure info body) (.conjure other otherBody)
  | typeOf {info other : Info} (type : info.type = other.type) (described : Ty) :
    Expr.Alike (.typeOf info described) (.typeOf other described)
  | apply {info other : Info} (type : info.type = other.type)
      {mapping items otherMapping otherItems : Expr} (mappings : Expr.Alike mapping otherMapping)
      (itemsAlike : Expr.Alike items otherItems) :
    Expr.Alike (.apply info mapping items) (.apply other otherMapping otherItems)
  | supplant {info other : Info} (type : info.type = other.type)
      {text pattern replacement otherText otherPattern otherReplacement : Expr}
      (texts : Expr.Alike text otherText) (patterns : Expr.Alike pattern otherPattern)
      (replacements : Expr.Alike replacement otherReplacement) :
    Expr.Alike (.supplant info text pattern replacement)
      (.supplant other otherText otherPattern otherReplacement)

/-- Two lists of expressions match. -/
inductive ExprsAlike : List Expr → List Expr → Prop
  | nil : ExprsAlike [] []
  | cons {expression other : Expr} {rest others : List Expr}
      (here : Expr.Alike expression other) (below : ExprsAlike rest others) :
    ExprsAlike (expression :: rest) (other :: others)

/-- Two statements match. -/
inductive Stmt.Alike : Stmt → Stmt → Prop
  | declare {position other : Position} {target otherTarget : Variable} {value otherValue : Expr}
      (targets : target.Alike matching otherTarget) (values : Expr.Alike value otherValue) :
    Stmt.Alike (.declare position target value) (.declare other otherTarget otherValue)
  | function {position other : Position} {target otherTarget : Function}
      {body otherBody : List Stmt} (targets : target.Alike matching otherTarget)
      (bodies : BodyAlike body otherBody) :
    Stmt.Alike (.function position target body) (.function other otherTarget otherBody)
  | main {position other : Position} {body otherBody : List Stmt}
      (bodies : BodyAlike body otherBody) :
    Stmt.Alike (.main position body) (.main other otherBody)
  | affix {position other : Position} (symbol : LibraryFunction) :
    Stmt.Alike (.affix position symbol) (.affix other symbol)
  | assign {position other : Position} {target otherTarget : Variable} {value otherValue : Expr}
      (targets : target.Alike matching otherTarget) (values : Expr.Alike value otherValue) :
    Stmt.Alike (.assign position target value) (.assign other otherTarget otherValue)
  | step {position other : Position} (step : Step) {target otherTarget : Variable}
      (targets : target.Alike matching otherTarget) :
    Stmt.Alike (.step position step target) (.step other step otherTarget)
  | branch {position other : Position} {condition otherCondition : Expr}
      {consequent alternative otherConsequent otherAlternative : List Stmt}
      (conditions : Expr.Alike condition otherCondition)
      (consequents : BodyAlike consequent otherConsequent)
      (alternatives : BodyAlike alternative otherAlternative) :
    Stmt.Alike (.branch position condition consequent alternative)
      (.branch other otherCondition otherConsequent otherAlternative)
  | loop {position other : Position} {condition otherCondition : Expr}
      {body otherBody : List Stmt} (conditions : Expr.Alike condition otherCondition)
      (bodies : BodyAlike body otherBody) :
    Stmt.Alike (.loop position condition body) (.loop other otherCondition otherBody)
  | breakLoop {position other : Position} : Stmt.Alike (.breakLoop position) (.breakLoop other)
  | returnValue {position other : Position} {value otherValue : Expr}
      (values : Expr.Alike value otherValue) :
    Stmt.Alike (.returnValue position value) (.returnValue other otherValue)
  | returnVoid {position other : Position} : Stmt.Alike (.returnVoid position) (.returnVoid other)
  | exscribe {position other : Position} {value otherValue : Expr}
      (values : Expr.Alike value otherValue) :
    Stmt.Alike (.exscribe position value) (.exscribe other otherValue)
  | evaluate {position other : Position} {expression otherExpression : Expr}
      (expressions : Expr.Alike expression otherExpression) :
    Stmt.Alike (.evaluate position expression) (.evaluate other otherExpression)
  | block {position other : Position} {body otherBody : List Stmt}
      (bodies : BodyAlike body otherBody) :
    Stmt.Alike (.block position body) (.block other otherBody)

/-- Two lists of statements match: one statement the other, or the two functions exchanged. -/
inductive BodyAlike : List Stmt → List Stmt → Prop
  | nil : BodyAlike [] []
  | cons {statement other : Stmt} {rest others : List Stmt}
      (here : Stmt.Alike statement other) (below : BodyAlike rest others) :
    BodyAlike (statement :: rest) (other :: others)
  | exchange {earlier later otherEarlier otherLater : Stmt} {rest others : List Stmt}
      (isFirst : earlier.IsDeclaredAt first) (isSecond : later.IsDeclaredAt second)
      (firsts : Stmt.Alike earlier otherEarlier) (seconds : Stmt.Alike later otherLater)
      (below : BodyAlike rest others) :
    BodyAlike (earlier :: later :: rest) (otherLater :: otherEarlier :: others)

end

/-- Two programs match. -/
def Program.Alike (program other : Program) : Prop :=
  BodyAlike first second matching program.body other.body

end

section

variable {matching wider : Matching} {first second : Position}

/-! ## More matches -/

theorem Variable.Alike.mono {target other : Variable} (alike : target.Alike matching other)
    (within : matching ≤ wider) : target.Alike wider other :=
  { alike with id := within _ _ alike.id }

theorem Variable.alikes_mono {targets others : List Variable}
    (alike : List.Forall₂ (Variable.Alike matching) targets others) (within : matching ≤ wider) :
    List.Forall₂ (Variable.Alike wider) targets others :=
  alike.imp fun _ _ here => here.mono within

theorem Function.Alike.mono {target other : Function} (alike : target.Alike matching other)
    (within : matching ≤ wider) : target.Alike wider other :=
  { alike with
    id := within _ _ alike.id
    parameters := Variable.alikes_mono alike.parameters within }

theorem Reference.Alike.mono {use other : Reference} (alike : use.Alike matching other)
    (within : matching ≤ wider) : use.Alike wider other :=
  ⟨alike.type, alike.target.mono within⟩

theorem Callee.Alike.mono {callee other : Callee} (alike : callee.Alike matching other)
    (within : matching ≤ wider) : callee.Alike wider other := by
  cases alike with
  | function type targets => exact .function type (targets.mono within)
  | reference uses => exact .reference (uses.mono within)

mutual

theorem Expr.Alike.mono {expression other : Expr} (within : matching ≤ wider) :
    expression.Alike first second matching other → expression.Alike first second wider other
  | .number type value => .number type value
  | .bool type value => .bool type value
  | .string type value => .string type value
  | .glyph type value => .glyph type value
  | .codepoint type value => .codepoint type value
  | .null type => .null type
  | .reference uses => .reference (uses.mono within)
  | .function type targets => .function type (targets.mono within)
  | .binary type operator lefts rights => .binary type operator (lefts.mono within) (rights.mono within)
  | .unary type operator operands => .unary type operator (operands.mono within)
  | .addressOf type operands => .addressOf type (operands.mono within)
  | .dereference type operands => .dereference type (operands.mono within)
  | .call type callees below => .call type (callees.mono within) (below.mono within)
  | .subscript type bases indices => .subscript type (bases.mono within) (indices.mono within)
  | .array type below => .array type (below.mono within)
  | .conjure type bodies => .conjure type (bodies.mono within)
  | .typeOf type described => .typeOf type described
  | .apply type mappings items => .apply type (mappings.mono within) (items.mono within)
  | .supplant type texts patterns replacements =>
    .supplant type (texts.mono within) (patterns.mono within) (replacements.mono within)

theorem ExprsAlike.mono {expressions others : List Expr} (within : matching ≤ wider) :
    ExprsAlike first second matching expressions others →
      ExprsAlike first second wider expressions others
  | .nil => .nil
  | .cons here below => .cons (here.mono within) (below.mono within)

theorem Stmt.Alike.mono {statement other : Stmt} (within : matching ≤ wider) :
    statement.Alike first second matching other → statement.Alike first second wider other
  | .declare targets values => .declare (targets.mono within) (values.mono within)
  | .function targets bodies => .function (targets.mono within) (bodies.mono within)
  | .main bodies => .main (bodies.mono within)
  | .affix symbol => .affix symbol
  | .assign targets values => .assign (targets.mono within) (values.mono within)
  | .step step targets => .step step (targets.mono within)
  | .branch conditions consequents alternatives =>
    .branch (conditions.mono within) (consequents.mono within) (alternatives.mono within)
  | .loop conditions bodies => .loop (conditions.mono within) (bodies.mono within)
  | .breakLoop => .breakLoop
  | .returnValue values => .returnValue (values.mono within)
  | .returnVoid => .returnVoid
  | .exscribe values => .exscribe (values.mono within)
  | .evaluate expressions => .evaluate (expressions.mono within)
  | .block bodies => .block (bodies.mono within)

theorem BodyAlike.mono {body other : List Stmt} (within : matching ≤ wider) :
    BodyAlike first second matching body other → BodyAlike first second wider body other
  | .nil => .nil
  | .cons here below => .cons (here.mono within) (below.mono within)
  | .exchange isFirst isSecond firsts seconds below =>
    .exchange isFirst isSecond (firsts.mono within) (seconds.mono within) (below.mono within)

end

/-! ## What matching programs have in common -/

theorem Variable.types_alike {targets others : List Variable}
    (alike : List.Forall₂ (Variable.Alike matching) targets others) :
    targets.map Variable.type = others.map Variable.type := by
  induction alike with
  | nil => rfl
  | cons here _ ih => rw [List.map_cons, List.map_cons, ih, here.type]

theorem Function.Alike.type {target other : Function} (alike : target.Alike matching other) :
    target.type = other.type := by
  rw [Function.type, Function.type, Variable.types_alike alike.parameters, alike.result]

namespace Expr.Alike

variable {expression other : Expr}

theorem type (alike : expression.Alike first second matching other) :
    expression.type = other.type := by
  cases alike with
  | reference uses => exact uses.type
  | _ type => exact type

theorem withType (type : Ty) (alike : expression.Alike first second matching other) :
    (expression.withType type).Alike first second matching (other.withType type) := by
  cases alike with
  | reference uses => exact .reference ⟨rfl, uses.target⟩
  | _ =>
    simp only [Expr.withType, Expr.mapInfo]
    constructor <;> first | rfl | assumption

end Expr.Alike

theorem ExprsAlike.length_eq {expressions others : List Expr} :
    ExprsAlike first second matching expressions others → expressions.length = others.length
  | .nil => rfl
  | .cons _ below => congrArg Nat.succ below.length_eq

theorem ExprsAlike.types {expressions others : List Expr} :
    ExprsAlike first second matching expressions others →
      List.Forall₂ (fun expression other => expression.type = other.type) expressions others
  | .nil => .nil
  | .cons here below => .cons here.type below.types

mutual

theorem Expr.Alike.staticValue {expression other : Expr} :
    expression.Alike first second matching other → expression.staticValue = other.staticValue
  | .number _ _ | .bool _ _ | .string _ _ | .glyph _ _ | .codepoint _ _ | .null _ | .reference _
  | .function _ _ | .addressOf _ _ | .dereference _ _ | .call _ _ _ | .subscript _ _ _
  | .conjure _ _ | .typeOf _ _ | .apply _ _ _ | .supplant _ _ _ _ => rfl
  | .binary type _ lefts rights => by
    rw [Expr.staticValue, Expr.staticValue, lefts.staticValue, rights.staticValue, type]
  | .unary _ _ operands => by rw [Expr.staticValue, Expr.staticValue, operands.staticValue]
  | .array _ below => by rw [Expr.staticValue, Expr.staticValue, below.staticValues]

theorem ExprsAlike.staticValues {expressions others : List Expr} :
    ExprsAlike first second matching expressions others →
      GlyphCompiler.staticValues expressions = GlyphCompiler.staticValues others
  | .nil => rfl
  | .cons here below => by
    rw [GlyphCompiler.staticValues, GlyphCompiler.staticValues, here.staticValue, below.staticValues]

end

mutual

theorem Stmt.Alike.containsReturn {statement other : Stmt} :
    statement.Alike first second matching other →
      statement.containsReturn = other.containsReturn
  | .declare _ _ | .function _ _ | .main _ | .affix _ | .assign _ _ | .step _ _ | .breakLoop
  | .returnValue _ | .returnVoid | .exscribe _ | .evaluate _ => rfl
  | .branch _ consequents alternatives => by
    rw [Stmt.containsReturn, Stmt.containsReturn, consequents.containsReturn,
      alternatives.containsReturn]
  | .loop _ bodies | .block bodies => by
    rw [Stmt.containsReturn, Stmt.containsReturn, bodies.containsReturn]

theorem BodyAlike.containsReturn {body other : List Stmt} :
    BodyAlike first second matching body other →
      GlyphCompiler.containsReturn body = GlyphCompiler.containsReturn other
  | .nil => rfl
  | .cons here below => by
    rw [GlyphCompiler.containsReturn, GlyphCompiler.containsReturn, here.containsReturn,
      below.containsReturn]
  | .exchange _ _ firsts seconds below => by
    simp only [GlyphCompiler.containsReturn, firsts.containsReturn, seconds.containsReturn,
      below.containsReturn]
    rw [Bool.or_left_comm]

end

mutual

theorem Stmt.Alike.alwaysReturns {statement other : Stmt} :
    statement.Alike first second matching other → statement.alwaysReturns = other.alwaysReturns
  | .declare _ _ | .function _ _ | .main _ | .affix _ | .assign _ _ | .step _ _ | .breakLoop
  | .returnValue _ | .returnVoid | .exscribe _ | .evaluate _ | .loop _ _ => rfl
  | .branch _ consequents alternatives => by
    rw [Stmt.alwaysReturns, Stmt.alwaysReturns, consequents.alwaysReturns,
      alternatives.alwaysReturns]
  | .block bodies => by rw [Stmt.alwaysReturns, Stmt.alwaysReturns, bodies.alwaysReturns]

theorem BodyAlike.alwaysReturns {body other : List Stmt} :
    BodyAlike first second matching body other →
      GlyphCompiler.alwaysReturns body = GlyphCompiler.alwaysReturns other
  | .nil => rfl
  | .cons here below => by
    rw [GlyphCompiler.alwaysReturns, GlyphCompiler.alwaysReturns, here.alwaysReturns,
      below.alwaysReturns]
  | .exchange _ _ firsts seconds below => by
    simp only [GlyphCompiler.alwaysReturns, firsts.alwaysReturns, seconds.alwaysReturns,
      below.alwaysReturns]
    rw [Bool.or_left_comm]

end

/-! ## Extents -/

namespace Analysis

section

variable {known otherKnown : Variable → List Nat → Except Fault (Option Nat)}

mutual

/-- Matching expressions have the same extents, if matched variables have. -/
theorem extentBelow_alike (agree : ∀ {target other : Variable}, matching target.id other.id →
    ∀ path, known target path = otherKnown other path) {expression other : Expr} :
    expression.Alike first second matching other → ∀ path,
      extentBelow known expression path = extentBelow otherKnown other path
  | .array _ below, [] => by rw [extentBelow, extentBelow, below.length_eq]
  | .array _ below, place :: path => by
    rw [extentBelow, extentBelow]
    exact extentAt_alike agree below place path
  | .reference uses, path => by
    rw [extentBelow, extentBelow]
    exact agree uses.target.id path
  | .subscript _ bases indices, path => by
    rw [extentBelow, extentBelow, indices.staticValue]
    refine bind_congr fun value => ?_
    split
    · exact extentBelow_alike agree bases _
    · rfl
  | .number _ _, _ | .bool _ _, _ | .string _ _, _ | .glyph _ _, _ | .codepoint _ _, _ | .null _, _
  | .function _ _, _ | .binary _ _ _ _, _ | .unary _ _ _, _ | .addressOf _ _, _
  | .dereference _ _, _ | .call _ _ _, _ | .conjure _ _, _ | .typeOf _ _, _ | .apply _ _ _, _
  | .supplant _ _ _ _, _ => rfl

theorem extentAt_alike (agree : ∀ {target other : Variable}, matching target.id other.id →
    ∀ path, known target path = otherKnown other path) {expressions others : List Expr} :
    ExprsAlike first second matching expressions others → ∀ place path,
      extentAt known expressions place path = extentAt otherKnown others place path
  | .nil, _, _ => rfl
  | .cons here _, 0, path => by
    rw [extentAt, extentAt]
    exact extentBelow_alike agree here path
  | .cons _ below, place + 1, path => by
    rw [extentAt, extentAt]
    exact extentAt_alike agree below place path

end

end

end Analysis

end

end GlyphCompiler
