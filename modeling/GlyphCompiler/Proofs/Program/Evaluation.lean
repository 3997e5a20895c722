/-
# Evaluating expressions

An expression is evaluated from left to right, with whole numbers of any size; the
operators of truth values leave the second operand alone if the first one decides.
What a variable holds, what a function does and what pointers are is left open: a
machine says so. Evaluation fails on a division by zero or with a remainder, on a
negative exponent, on an index out of range and on operands of the wrong kind.
Floating-point numbers and bodies that are run at once are not evaluated.
-/

import GlyphCompiler.Proofs.Program.Nodes

namespace GlyphCompiler

/-- What an expression comes to. What is none of the language's own kinds of data is
up to the machine. -/
inductive Datum (Other : Type)
  | whole (value : Int)
  | truth (value : Bool)
  | text (value : String)
  | codepoint (value : Nat)
  | null
  | function (id : Nat)
  | array (elements : List (Datum Other))
  | other (value : Other)

/-- Is a datum a whole number or a truth value? -/
def Datum.isScalar {Other : Type} : Datum Other → Bool
  | .whole _ | .truth _ => true
  | _ => false

/-- Where expressions are evaluated: what the state says of variables, and what a called
function does to it. Variables and functions go by their numbers. -/
structure Machine where
  State : Type
  Event : Type
  Other : Type
  /-- What a variable holds. -/
  read : State → Nat → Option (Datum Other)
  /-- A pointer to a variable. -/
  address : State → Nat → Option (Datum Other)
  /-- What a pointer points to. -/
  follow : State → Datum Other → Option (Datum Other)
  /-- What a function returns, the state that it leaves behind, and what it lets happen. -/
  call : Datum Other → List (Datum Other) → State →
    Option (Datum Other × State × List Event)
  /-- An operator between operands that are not both numbers or both truth values. -/
  operate : BinaryOperator → Datum Other → Datum Other → Option (Datum Other)
  /-- A text with a pattern replaced. -/
  supplant : Datum Other → Datum Other → Datum Other → Option (Datum Other)
  /-- A pointer to a variable points to what the variable holds. -/
  follow_address : ∀ state id pointer, address state id = some pointer →
    follow state pointer = read state id

namespace Machine

/-- What an operator computes of two whole numbers. -/
def wholes {Other : Type} (operator : BinaryOperator) (left right : Int) : Option (Datum Other) :=
  match operator with
  | .eq => some (.truth (left == right))
  | .ne => some (.truth (left != right))
  | .lt => some (.truth (decide (left < right)))
  | .le => some (.truth (decide (left ≤ right)))
  | .gt => some (.truth (decide (right < left)))
  | .ge => some (.truth (decide (right ≤ left)))
  | .add => some (.whole (left + right))
  | .sub => some (.whole (left - right))
  | .mul => some (.whole (left * right))
  | .div => if right ≠ 0 ∧ left % right = 0 then some (.whole (left / right)) else none
  -- The remainder takes the sign of the dividend.
  | .rem => if right ≠ 0 then some (.whole (left.tmod right)) else none
  | .pow => if 0 ≤ right then some (.whole (left.pow right.toNat)) else none
  | .and | .or => none

/-- What an operator computes of two truth values. -/
def truths {Other : Type} (operator : BinaryOperator) (left right : Bool) : Option (Datum Other) :=
  match operator with
  | .and => some (.truth (left && right))
  | .or => some (.truth (left || right))
  | .eq => some (.truth (left == right))
  | .ne => some (.truth (left != right))
  | _ => none

/-- What an operator computes if its first operand decides. -/
def decided? {Other : Type} (operator : BinaryOperator) (first : Datum Other) : Option (Datum Other) :=
  match operator, first with
  | .and, .truth false => some (.truth false)
  | .or, .truth true => some (.truth true)
  | _, _ => none

/-- What an operator before an operand computes. -/
def single {Other : Type} (operator : UnaryOperator) (operand : Datum Other) : Option (Datum Other) :=
  match operator, operand with
  | .neg, .whole value => some (.whole (-value))
  | .not, .truth value => some (.truth !value)
  | _, _ => none

/-- The element of an array at an index. -/
def element? {Other : Type} (base index : Datum Other) : Option (Datum Other) :=
  match base, index with
  | .array elements, .whole (.ofNat place) => elements[place]?
  | _, _ => none

variable (machine : Machine)

/-- The data of a machine. -/
abbrev Data := Datum machine.Other

/-- The state of a machine, and what has happened so far. -/
abbrev World := machine.State × List machine.Event

/-- A step of an evaluation: it may fail, and otherwise leaves a world behind. -/
abbrev Evaluation := StateT machine.World Option

/-- What an operator computes. Numbers and truth values are only compared with anything else. -/
def combine (operator : BinaryOperator) (left right : machine.Data) : Option machine.Data :=
  match left, right with
  | .whole left, .whole right => wholes operator left right
  | .truth left, .truth right => truths operator left right
  | left, right =>
    if operator.isEquality || !(left.isScalar || right.isScalar || operator.isLogical) then
      machine.operate operator left right
    else none

/-- Ask the state. -/
def ask (question : machine.State → Option machine.Data) : machine.Evaluation machine.Data := do
  liftM (question (← get).1)

/-- Call a function with some arguments. -/
def invoke (callee : machine.Data) (arguments : List machine.Data) :
    machine.Evaluation machine.Data := do
  let (state, trace) ← get
  let (result, state, events) ← liftM (machine.call callee arguments state)
  set (σ := machine.World) (state, trace ++ events)
  return result

/-- Call a function with each element of an array in turn. -/
def invokeEach (callee : machine.Data) : List machine.Data → machine.Evaluation (List machine.Data)
  | [] => return []
  | element :: rest => do
    let result ← machine.invoke callee [element]
    return result :: (← invokeEach callee rest)

/-- What is called. -/
def callee : Callee → machine.Evaluation machine.Data
  | .function _ target => return .function target.id
  | .reference use => machine.ask fun state => machine.read state use.target.id

mutual

/-- Evaluate an expression. -/
def evaluate : Expr → machine.Evaluation machine.Data
  | .number _ (.int value) => return .whole value
  | .number _ (.float _) => failure
  | .bool _ value => return .truth value
  | .string _ value => return .text value
  | .glyph _ value => return .text (String.singleton value)
  | .codepoint _ value => return .codepoint value
  | .null _ => return .null
  | .reference use => machine.ask fun state => machine.read state use.target.id
  | .function _ target => return .function target.id
  | .binary _ operator left right => do
    let first ← evaluate left
    match decided? operator first with
    | some result => return result
    | none => liftM (machine.combine operator first (← evaluate right))
  | .unary _ operator operand => do liftM (single operator (← evaluate operand))
  | .addressOf _ operand => machine.ask fun state => machine.address state operand.target.id
  | .dereference _ operand => do
    let pointer ← evaluate operand
    machine.ask fun state => machine.follow state pointer
  | .call _ callee arguments => do
    let callee ← machine.callee callee
    machine.invoke callee (← evaluateAll arguments)
  | .subscript _ base index => do
    let base ← evaluate base
    liftM (element? base (← evaluate index))
  | .array _ elements => return .array (← evaluateAll elements)
  | .conjure _ _ => failure
  | .typeOf _ described => return .text described.name
  | .apply _ mapping items => do
    let mapping ← evaluate mapping
    match ← evaluate items with
    | .array elements => return .array (← machine.invokeEach mapping elements)
    | _ => failure
  | .supplant _ text pattern replacement => do
    let text ← evaluate text
    let pattern ← evaluate pattern
    liftM (machine.supplant text pattern (← evaluate replacement))

/-- Evaluate some expressions in order. -/
def evaluateAll : List Expr → machine.Evaluation (List machine.Data)
  | [] => return []
  | expression :: rest => do
    let first ← evaluate expression
    return first :: (← evaluateAll rest)

end

variable {machine}

/-! ## Running an evaluation -/

section

variable {Result Other : Type} {before after : machine.World} {result : Result}

theorem run_bind_eq_some {first : machine.Evaluation Other}
    {next : Other → machine.Evaluation Result} :
    (first >>= next).run before = some (result, after) ↔ ∃ between middle,
      first.run before = some (between, middle) ∧
        (next between).run middle = some (result, after) := by
  rw [StateT.run_bind, Option.bind_eq_bind, Option.bind_eq_some_iff]
  exact Prod.exists

theorem run_pure_eq_some {value : Result} :
    (pure value : machine.Evaluation Result).run before = some (result, after) ↔
      result = value ∧ after = before := by
  simp [eq_comm]

theorem run_lift_eq_some {found : Option Result} :
    (liftM found : machine.Evaluation Result).run before = some (result, after) ↔
      found = some result ∧ after = before := by
  cases found <;> simp [eq_comm]

theorem run_bind_lift_eq_some {first : machine.Evaluation Other} {found : Other → Option Result} :
    (first >>= fun between => liftM (found between)).run before = some (result, after) ↔
      ∃ between, first.run before = some (between, after) ∧ found between = some result := by
  simp only [run_bind_eq_some, run_lift_eq_some]
  constructor
  · rintro ⟨between, _, firstComes, isFound, rfl⟩
    exact ⟨between, firstComes, isFound⟩
  · rintro ⟨between, firstComes, isFound⟩
    exact ⟨between, after, firstComes, isFound, rfl⟩

theorem run_get_eq_some {world : machine.World} :
    (get : machine.Evaluation machine.World).run before = some (world, after) ↔
      world = before ∧ after = before := by
  simp [eq_comm]

theorem run_ask_eq_some {question : machine.State → Option machine.Data} {datum : machine.Data} :
    (machine.ask question).run before = some (datum, after) ↔
      question before.1 = some datum ∧ after = before := by
  rw [ask, run_bind_eq_some]
  constructor
  · rintro ⟨between, middle, asks, answers⟩
    obtain ⟨rfl, rfl⟩ := run_get_eq_some.mp asks
    exact run_lift_eq_some.mp answers
  · rintro ⟨answers, rfl⟩
    exact ⟨after, after, run_get_eq_some.mpr ⟨rfl, rfl⟩, run_lift_eq_some.mpr ⟨answers, rfl⟩⟩

end

/-! ## Evaluations that agree -/

/-- What the first of two evaluations comes to, the second one comes to. -/
def Within {Result : Type} (first second : machine.Evaluation Result) : Prop :=
  ∀ world outcome, first.run world = some outcome → second.run world = some outcome

namespace Within

variable {Result Other : Type} {first second third : machine.Evaluation Result}

theorem refl (first : machine.Evaluation Result) : Within first first :=
  fun _ _ => id

theorem trans (within : Within first second) (further : Within second third) : Within first third :=
  fun world outcome comes => further world outcome (within world outcome comes)

theorem bind {next later : Result → machine.Evaluation Other} (within : Within first second)
    (each : ∀ result, Within (next result) (later result)) :
    Within (first >>= next) (second >>= later) := by
  rintro world ⟨outcome, after⟩ comes
  obtain ⟨between, middle, firstComes, nextComes⟩ := run_bind_eq_some.mp comes
  exact run_bind_eq_some.mpr ⟨between, middle, within _ _ firstComes, each _ _ _ nextComes⟩

end Within

/-! ## Evaluations without effect -/

/-- An evaluation leaves the world as it is. -/
def Idle {Result : Type} (evaluation : machine.Evaluation Result) : Prop :=
  ∀ world result after, evaluation.run world = some (result, after) → after = world

namespace Idle

variable {Result Other : Type} {first : machine.Evaluation Result}

theorem pure (result : Result) : Idle (pure result : machine.Evaluation Result) :=
  fun _ _ _ comes => (run_pure_eq_some.mp comes).2

theorem lift (found : Option Result) : Idle (liftM found : machine.Evaluation Result) :=
  fun _ _ _ comes => (run_lift_eq_some.mp comes).2

theorem get : Idle (get : machine.Evaluation machine.World) :=
  fun _ _ _ comes => (run_get_eq_some.mp comes).2

theorem failure : Idle (failure : machine.Evaluation Result) := by
  rintro _ _ _ ⟨⟩

theorem bind {next : Result → machine.Evaluation Other} (idle : Idle first)
    (each : ∀ result, Idle (next result)) : Idle (first >>= next) := by
  intro world result after comes
  obtain ⟨between, middle, firstComes, nextComes⟩ := run_bind_eq_some.mp comes
  exact (each _ _ _ _ nextComes).trans (idle _ _ _ firstComes)

theorem ask (question : machine.State → Option machine.Data) : Idle (machine.ask question) :=
  bind get fun _ => lift _

end Idle

theorem idle_callee (called : Callee) : Idle (machine.callee called) := by
  cases called with
  | function info target => exact .pure _
  | reference use =>
    rw [callee]
    exact .ask _

mutual

/-- An expression below which no code is run has no effect. -/
theorem idle_evaluate : (expression : Expr) →
    (Node.expr expression).All (fun node => node.runsCode = false) →
    Idle (machine.evaluate expression)
  | .number _ (.int _), _ | .bool _ _, _ | .string _ _, _ | .glyph _ _, _ | .codepoint _ _, _
  | .null _, _ | .function _ _, _ | .typeOf _ _, _ => .pure _
  | .number _ (.float _), _ | .conjure _ _, _ => .failure
  | .reference _, _ | .addressOf _ _, _ => .ask _
  | .binary _ operator left right, still => by
    obtain ⟨-, below⟩ := Node.all_iff.mp still
    refine (idle_evaluate left (below _ List.mem_cons_self)).bind fun first => ?_
    split
    · exact .pure _
    · exact (idle_evaluate right (below _ (List.mem_cons_of_mem _ List.mem_cons_self))).bind
        fun _ => .lift _
  | .unary _ _ operand, still =>
    (idle_evaluate operand ((Node.all_iff.mp still).2 _ List.mem_cons_self)).bind fun _ => .lift _
  | .dereference _ operand, still =>
    (idle_evaluate operand ((Node.all_iff.mp still).2 _ List.mem_cons_self)).bind fun _ => .ask _
  | .subscript _ base index, still =>
    have below := (Node.all_iff.mp still).2
    (idle_evaluate base (below _ List.mem_cons_self)).bind fun _ =>
      (idle_evaluate index (below _ (List.mem_cons_of_mem _ List.mem_cons_self))).bind
        fun _ => .lift _
  | .array _ elements, still =>
    (idle_evaluateAll elements fun element member =>
      (Node.all_iff.mp still).2 _ (List.mem_map_of_mem member)).bind fun _ => .pure _
  | .supplant _ text pattern replacement, still =>
    have below := (Node.all_iff.mp still).2
    (idle_evaluate text (below _ (by simp [Node.children, Expr.children]))).bind fun _ =>
      (idle_evaluate pattern (below _ (by simp [Node.children, Expr.children]))).bind fun _ =>
        (idle_evaluate replacement (below _ (by simp [Node.children, Expr.children]))).bind
          fun _ => .lift _
  | .call _ _ _, still | .apply _ _ _, still => by cases (Node.all_iff.mp still).1

theorem idle_evaluateAll : (expressions : List Expr) →
    (∀ expression ∈ expressions,
      (Node.expr expression).All fun node => node.runsCode = false) →
    Idle (machine.evaluateAll expressions)
  | [], _ => .pure _
  | expression :: rest, still =>
    (idle_evaluate expression (still _ List.mem_cons_self)).bind fun _ =>
      (idle_evaluateAll rest fun other member => still other (List.mem_cons_of_mem _ member)).bind
        fun _ => .pure _

end

/-- A pure expression has no effect. -/
theorem idle_of_isPure {expression : Expr} (isPure : expression.isPure = true) :
    Idle (machine.evaluate expression) := by
  refine idle_evaluate expression fun node below => ?_
  simp only [Expr.isPure, Bool.not_eq_true', List.any_eq_false, Bool.not_eq_true] at isPure
  exact isPure node below

/-! ## What expressions come to -/

/-- An expression evaluates to a datum, and leaves a world behind. -/
def Evaluates (machine : Machine) (expression : Expr) (before : machine.World)
    (value : machine.Data) (after : machine.World) : Prop :=
  (machine.evaluate expression).run before = some (value, after)

section

variable {before after : machine.World} {value : machine.Data} {info : Info}

theorem evaluates_whole {number : Int} :
    machine.Evaluates (.number info (.int number)) before value after ↔
      value = .whole number ∧ after = before := by
  rw [Evaluates, evaluate, run_pure_eq_some]

theorem evaluates_truth {truth : Bool} :
    machine.Evaluates (.bool info truth) before value after ↔
      value = .truth truth ∧ after = before := by
  rw [Evaluates, evaluate, run_pure_eq_some]

/-- The first operand may decide; otherwise the second one is evaluated. -/
theorem evaluates_binary {operator : BinaryOperator} {left right : Expr} :
    machine.Evaluates (.binary info operator left right) before value after ↔
      ∃ first middle, machine.Evaluates left before first middle ∧
        (decided? operator first = some value ∧ after = middle ∨
          decided? operator first = none ∧ ∃ second,
            machine.Evaluates right middle second after ∧
              machine.combine operator first second = some value) := by
  rw [Evaluates, evaluate, run_bind_eq_some]
  refine exists_congr fun first => exists_congr fun middle => and_congr_right fun _ => ?_
  cases decided? operator first with
  | some result => simp [eq_comm]
  | none => simp only [run_bind_lift_eq_some, Evaluates, reduceCtorEq, false_and, true_and, false_or]

theorem evaluates_unary {operator : UnaryOperator} {operand : Expr} :
    machine.Evaluates (.unary info operator operand) before value after ↔
      ∃ inner, machine.Evaluates operand before inner after ∧ single operator inner = some value := by
  simp only [Evaluates, evaluate, run_bind_lift_eq_some]

end

end Machine

end GlyphCompiler
