/-
# Running programs

A program is run statement by statement. A list of statements that is entered, and a
function that is called, gets new cells for its variables, which are empty until the
variable is declared; a function that is used as a value keeps the cells that can be seen
from where it is named. A run ends without a result if it reads an empty cell, if something
is of the wrong kind, or if there are more calls within calls, or more rounds of a loop,
than it has fuel for. What it has read and written before stays. Numbers are combined as
the compiler combines them; what else an operator does is left to the platform.
-/

import GlyphCompiler.Proofs.Program.Scoping
import GlyphCompiler.Program.StaticValue

namespace GlyphCompiler

/-- What a cell can hold. A function is kept with the cells that it can see: for every
variable, by its number, the entry that made its cell. A pointer is to such a cell. -/
inductive Content (Other : Type)
  | null
  | truth (value : Bool)
  | number (value : Number)
  | text (value : String)
  | array (elements : List (Content Other))
  | closure (function : Nat) (entryOf : Nat → Nat)
  | pointer (id entry : Nat)
  /-- What is found where nothing is: past the end of an array, or as the result of a
  function that returns nothing. -/
  | missing
  | other (value : Other)

namespace Content

variable {Other : Type}

/-- What the compiler would know of a content. -/
def value : Content Other → Value
  | .null => .null
  | .truth value => .bool value
  | .number value => .number value
  | .text value => .text value
  | _ => .unknown

/-- The content that a value stands for, unless it is a list or unknown. -/
def ofValue? : Value → Option (Content Other)
  | .null => some .null
  | .bool value => some (.truth value)
  | .number value => some (.number value)
  | .text value => some (.text value)
  | .list _ | .unknown => none

/-- What an operator gives if its first operand decides. -/
def decides? (operator : BinaryOperator) (first : Content Other) : Option (Content Other) :=
  match operator, first with
  | .and, .truth false => some (.truth false)
  | .or, .truth true => some (.truth true)
  | _, _ => none

/-- The element of an array at a place, if the place is that of an element. -/
def elementAt? (elements : List (Content Other)) (place : Number) : Option (Content Other) :=
  (List.range elements.length).findSome? fun position : Nat =>
    if place.eq (.int position) then elements[position]? else none

end Content

/-- What the language leaves open: what operators do where the compiler could not compute,
what is found at a place of something that is no array, and how a text is replaced. -/
structure Platform where
  Other : Type
  operate : BinaryOperator → Content Other → Content Other → Option (Content Other)
  apply : UnaryOperator → Content Other → Option (Content Other)
  find : Content Other → Content Other → Option (Content Other)
  supplant : Content Other → Content Other → Content Other → Option (Content Other)

/-- The platform on which nothing is done that the language leaves open. -/
def Platform.bare : Platform :=
  ⟨Empty, fun _ _ _ => none, fun _ _ => none, fun _ _ => none, fun _ _ _ => none⟩

/-- A subscript that has been evaluated: its operands, and what they came to. -/
structure Access (Other : Type) where
  base : Expr
  index : Expr
  array : Content Other
  place : Content Other

/-- What a run remembers. A cell goes by the number of its variable and by the entry that
made it. -/
structure Memory (Other : Type) where
  cells : Nat → Nat → Option (Content Other)
  /-- How often a list of statements has been entered or a function called. -/
  entries : Nat
  /-- The subscripts that have been evaluated, the latest first. -/
  accesses : List (Access Other)

/-- What is remembered before a program runs. -/
def Memory.empty (Other : Type) : Memory Other := ⟨fun _ _ => none, 0, []⟩

namespace Platform

variable (platform : Platform)

/-- The contents of cells. -/
abbrev Data := Content platform.Other

/-- A step of a run: it may end the run, and what was remembered before stays. -/
abbrev Run := OptionT (StateM (Memory platform.Other))

/-- How a statement is left. -/
inductive Exit
  | passed
  | broken
  | returned (result : platform.Data)

variable {platform}

/-- What a body comes to that is run for its result. -/
def Exit.result : platform.Exit → platform.Data
  | .returned result => result
  | .passed | .broken => .missing

/-- Go on with what is there. -/
def need {Result : Type} (found : Option Result) : platform.Run Result :=
  OptionT.mk (pure found)

/-- What a cell holds. -/
def load (id entry : Nat) : platform.Run platform.Data := do
  need ((← get).cells id entry)

/-- Put something into a cell. -/
def store (id entry : Nat) (content : platform.Data) : platform.Run Unit :=
  modify fun memory => { memory with
    cells := fun other round =>
      if other = id ∧ round = entry then some content else memory.cells other round }

/-- Make new cells for some variables. -/
def enter (entryOf : Nat → Nat) (targets : List Variable) : platform.Run (Nat → Nat) := do
  let memory ← get
  set { memory with entries := memory.entries + 1 }
  return fun id => if id ∈ targets.map Variable.id then memory.entries else entryOf id

/-- Put arguments into the cells of parameters. -/
def storeAll (entryOf : Nat → Nat) : List (Variable × platform.Data) → platform.Run Unit
  | [] => return
  | (parameter, argument) :: rest => do
    store parameter.id (entryOf parameter.id) argument
    storeAll entryOf rest

/-- What an operator between two operands gives. -/
def combine (operator : BinaryOperator) (exact : Bool) (left right : platform.Data) :
    Option platform.Data :=
  ((Value.binary operator left.value right.value exact).toOption >>= Content.ofValue?) <|>
    platform.operate operator left right

/-- What an operator before an operand gives. -/
def single (operator : UnaryOperator) (operand : platform.Data) : Option platform.Data :=
  Content.ofValue? (Value.unary operator operand.value) <|> platform.apply operator operand

/-- What is found at a place. -/
def find? (array place : platform.Data) : Option platform.Data :=
  match array, place with
  | .array elements, .number place => some ((Content.elementAt? elements place).getD .missing)
  | array, place => platform.find array place

/-- Evaluate a subscript whose operands have been evaluated. -/
def access (base index : Expr) (array place : platform.Data) : platform.Run platform.Data := do
  modify fun memory => { memory with accesses := ⟨base, index, array, place⟩ :: memory.accesses }
  need (find? array place)

/-- Do the same with each member of a list. -/
def each {Result : Type} (step : platform.Data → platform.Run Result) :
    List platform.Data → platform.Run (List Result)
  | [] => return []
  | first :: rest => do
    let result ← step first
    return result :: (← each step rest)

/-- Repeat a body for at most some rounds, as long as a condition holds. -/
def repeatWhile (condition : platform.Run platform.Data) (body : platform.Run platform.Exit) :
    Nat → platform.Run platform.Exit
  | 0 => failure
  | rounds + 1 => do
    match ← condition with
    | .truth true =>
      match ← body with
      | .passed => repeatWhile condition body rounds
      | .broken => return .passed
      | .returned result => return .returned result
    | .truth false => return .passed
    | _ => failure

section

variable (invoke : platform.Data → List platform.Data → platform.Run platform.Data) (rounds : Nat)

/-- What is called. -/
def called (entryOf : Nat → Nat) : Callee → platform.Run platform.Data
  | .function _ target => return .closure target.id entryOf
  | .reference use => load use.target.id (entryOf use.target.id)

mutual

/-- Evaluate an expression. -/
def evaluate (entryOf : Nat → Nat) : Expr → platform.Run platform.Data
  | .number _ value => return .number value
  | .bool _ value => return .truth value
  | .string _ value => return .text value
  | .glyph _ value => return .text (String.singleton value)
  | .codepoint _ value => return .number (.int value)
  | .null _ => return .null
  | .reference use => load use.target.id (entryOf use.target.id)
  | .function _ target => return .closure target.id entryOf
  | .binary info operator left right => do
    let first ← evaluate entryOf left
    match Content.decides? operator first with
    | some result => return result
    | none => need (combine operator info.type.isIntegral first (← evaluate entryOf right))
  | .unary _ operator operand => do need (single operator (← evaluate entryOf operand))
  | .addressOf _ operand => return .pointer operand.target.id (entryOf operand.target.id)
  | .dereference _ operand => do
    match ← evaluate entryOf operand with
    | .pointer id entry => load id entry
    | _ => failure
  | .call _ callee arguments => do
    let callee ← called entryOf callee
    invoke callee (← evaluateAll entryOf arguments)
  | .subscript _ base index => do
    let array ← evaluate entryOf base
    access base index array (← evaluate entryOf index)
  | .array _ elements => return .array (← evaluateAll entryOf elements)
  | .conjure _ body => do
    let inner ← enter entryOf (introduced body)
    return (← performAll inner body).result
  | .typeOf _ described => return .text described.name
  | .apply _ mapping items => do
    let mapping ← evaluate entryOf mapping
    match ← evaluate entryOf items with
    | .array elements => return .array (← each (fun element => invoke mapping [element]) elements)
    | _ => failure
  | .supplant _ text pattern replacement => do
    let text ← evaluate entryOf text
    let pattern ← evaluate entryOf pattern
    need (platform.supplant text pattern (← evaluate entryOf replacement))

/-- Evaluate some expressions in order. -/
def evaluateAll (entryOf : Nat → Nat) : List Expr → platform.Run (List platform.Data)
  | [] => return []
  | expression :: rest => do
    let first ← evaluate entryOf expression
    return first :: (← evaluateAll entryOf rest)

/-- Perform a statement. A function is there before the statements around it are performed,
and the body of a `main` is part of the list around it. -/
def perform (entryOf : Nat → Nat) : Stmt → platform.Run platform.Exit
  | .declare _ target value => do
    store target.id (entryOf target.id) (← evaluate entryOf value)
    return .passed
  | .function _ _ _ | .affix _ _ => return .passed
  | .main _ body => performAll entryOf body
  | .assign _ target value => do
    let content ← evaluate entryOf value
    let _ ← load target.id (entryOf target.id)
    store target.id (entryOf target.id) content
    return .passed
  | .step _ step target => do
    let operator := match step with
      | .up => BinaryOperator.add
      | .down => .sub
    let before ← load target.id (entryOf target.id)
    store target.id (entryOf target.id)
      (← need (combine operator target.type.isIntegral before (.number (.int 1))))
    return .passed
  | .branch _ condition consequent alternative => do
    match ← evaluate entryOf condition with
    | .truth true =>
      let inner ← enter entryOf (introduced consequent)
      performAll inner consequent
    | .truth false =>
      let inner ← enter entryOf (introduced alternative)
      performAll inner alternative
    | _ => failure
  | .loop _ condition body =>
    repeatWhile (evaluate entryOf condition)
      (do
        let inner ← enter entryOf (introduced body)
        performAll inner body) rounds
  | .breakLoop _ => return .broken
  | .returnValue _ value => return .returned (← evaluate entryOf value)
  | .returnVoid _ => return .returned .missing
  | .exscribe _ value | .evaluate _ value => do
    let _ ← evaluate entryOf value
    return .passed
  | .block _ body => do
    let inner ← enter entryOf (introduced body)
    performAll inner body

/-- Perform some statements in order, until one of them is left otherwise. -/
def performAll (entryOf : Nat → Nat) : List Stmt → platform.Run platform.Exit
  | [] => return .passed
  | statement :: rest => do
    match ← perform entryOf statement with
    | .passed => performAll entryOf rest
    | exit => return exit

end

end

end Platform

/-- The function of a program that has a number, with its body. -/
def Program.function? (program : Program) (id : Nat) : Option (Function × List Stmt) :=
  (walkStmts program.body).findSome? fun
    | .stmt (.function _ target body) => if target.id = id then some (target, body) else none
    | _ => none

namespace Platform

variable (platform : Platform) (program : Program)

/-- Call a function, with fuel for calls within calls and for rounds of loops. -/
def invoke : Nat → platform.Data → List platform.Data → platform.Run platform.Data
  | 0, _, _ => failure
  | fuel + 1, .closure function entryOf, arguments => do
    let (target, body) ← need (program.function? function)
    let inner ← enter entryOf (target.parameters ++ introduced body)
    storeAll inner (target.parameters.zip arguments)
    return (← performAll (invoke fuel) fuel inner body).result
  | _ + 1, _, _ => failure

/-- Run a program. -/
def run (fuel : Nat) : platform.Run platform.Exit := do
  let entryOf ← enter (fun _ => 0) (introduced program.body)
  performAll (invoke platform program fuel) fuel entryOf program.body

/-- The subscripts that a run of a program evaluates. -/
def accesses (fuel : Nat) : List (Access platform.Other) :=
  ((run platform program fuel).run.run (Memory.empty platform.Other)).2.accesses

end Platform

/-! ## What runs keep -/

namespace Platform

section

variable {platform : Platform} {Result Later : Type}

/-- A run keeps what holds of the memory, whether it ends with a result or not, and a result
has a property. -/
def Ensures (kept : Memory platform.Other → Prop) (run : platform.Run Result)
    (holds : Result → Prop) : Prop :=
  ∀ memory, kept memory → kept (run.run.run memory).2 ∧
    ∀ result, (run.run.run memory).1 = some result → holds result

namespace Ensures

variable {kept : Memory platform.Other → Prop} {run : platform.Run Result}
  {holds weaker : Result → Prop} {after : Later → Prop}

theorem pure {result : Result} (here : holds result) :
    Ensures kept (pure result : platform.Run Result) holds := by
  rintro memory keeps
  refine ⟨keeps, ?_⟩
  rintro _ ⟨⟩
  exact here

theorem failure : Ensures kept (failure : platform.Run Result) holds := by
  intro memory keeps
  exact ⟨keeps, nofun⟩

theorem bind {next : Result → platform.Run Later} (first : Ensures kept run holds)
    (rest : ∀ result, holds result → Ensures kept (next result) after) :
    Ensures kept (run >>= next) after := by
  intro memory keeps
  obtain ⟨keepsFirst, comes⟩ := first memory keeps
  rw [OptionT.run_bind, Option.elimM, StateT.run_bind]
  cases ran : run.run.run memory with
  | mk found middle =>
    rw [ran] at keepsFirst comes
    cases found with
    | none => exact ⟨keepsFirst, nofun⟩
    | some result => exact rest result (comes result rfl) middle keepsFirst

theorem mono (ensures : Ensures kept run holds) (implies : ∀ result, holds result → weaker result) :
    Ensures kept run weaker := by
  intro memory keeps
  obtain ⟨keeps, comes⟩ := ensures memory keeps
  exact ⟨keeps, fun result found => implies result (comes result found)⟩

/-- Nothing has to be known of a result. -/
theorem forget (ensures : Ensures kept run holds) : Ensures kept run fun _ => True :=
  ensures.mono fun _ _ => trivial

theorem need {found : Option Result} (here : ∀ result, found = some result → holds result) :
    Ensures kept (Platform.need found) holds := by
  intro memory keeps
  exact ⟨keeps, here⟩

/-- What a cell holds has a property that holds of every cell. -/
theorem load {id entry : Nat} {holds : platform.Data → Prop}
    (here : ∀ memory content, kept memory → memory.cells id entry = some content → holds content) :
    Ensures kept (Platform.load id entry) holds := by
  intro memory keeps
  exact ⟨keeps, fun content => here memory content keeps⟩

/-- A change of the memory keeps what holds of it. -/
theorem modify {change : Memory platform.Other → Memory platform.Other}
    (keeps : ∀ memory, kept memory → kept (change memory)) :
    Ensures kept (modify change : platform.Run PUnit) fun _ => True := by
  intro memory here
  exact ⟨keeps memory here, fun _ _ => trivial⟩

theorem enter {entryOf : Nat → Nat} {targets : List Variable}
    (keeps : ∀ memory, kept memory → kept { memory with entries := memory.entries + 1 }) :
    Ensures kept (Platform.enter entryOf targets : platform.Run (Nat → Nat)) fun _ => True := by
  intro memory here
  exact ⟨keeps memory here, fun _ _ => trivial⟩

theorem each {step : platform.Data → platform.Run Result}
    (steps : ∀ member, Ensures kept (step member) fun _ => True) (members : List platform.Data) :
    Ensures kept (Platform.each step members) fun _ => True := by
  induction members with
  | nil => exact pure trivial
  | cons first rest ih => exact bind (steps first) fun _ _ => bind ih fun _ _ => pure trivial

/-- Rounds keep what the condition and the body keep. -/
theorem repeatWhile {condition : platform.Run platform.Data} {body : platform.Run platform.Exit}
    (tests : Ensures kept condition fun _ => True) (performs : Ensures kept body fun _ => True)
    (rounds : Nat) : Ensures kept (Platform.repeatWhile condition body rounds) fun _ => True := by
  induction rounds with
  | zero => exact failure
  | succ rounds ih =>
    rw [Platform.repeatWhile]
    refine bind tests fun result _ => ?_
    split
    · refine bind performs fun exit _ => ?_
      cases exit with
      | passed => exact ih
      | broken | returned => exact pure trivial
    · exact pure trivial
    · exact failure

end Ensures

end

end Platform

end GlyphCompiler
