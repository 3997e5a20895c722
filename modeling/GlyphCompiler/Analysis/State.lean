/-
# The state of an analysis

An analysis numbers the variables and functions that it meets, remembers the
result types that it has inferred, the first values of constants, and the uses
of functions that it can judge only when all bodies have been read. One analyzer
may read several programs: what it remembers stays, scopes do not.
-/

import GlyphCompiler.Program.Basic
import GlyphCompiler.Scope.Basic
import GlyphCompiler.Ty.Conversion

namespace GlyphCompiler

/-- What a name can mean. -/
inductive Entity
  | value (target : Variable)
  | function (target : Function)
  | library (symbol : LibraryFunction)
  deriving DecidableEq, Repr

namespace Analysis

/-- A use of a function before its result type is known. It asks for a value, or for
the function to convert to a type. -/
structure Deferred where
  position : Position
  function : Function
  target : Option Ty
  deriving DecidableEq, Repr

/-- What an analysis remembers. -/
structure State where
  /-- Has a `main` been read? -/
  mainSeen : Bool
  /-- The number of the next variable or function. -/
  nextId : Nat
  /-- The inferred result types, by the number of the function. -/
  results : List (Nat × Ty)
  /-- The first values of the constants, by the number of the variable, the latest first. -/
  constants : List (Nat × Expr)
  /-- The deferred uses, the latest first. -/
  deferred : List Deferred

/-- What a new analyzer remembers. -/
def State.initial : State := ⟨false, 0, [], [], []⟩

end Analysis

/-- A step of an analysis: it may fail, and what was remembered before it failed stays. -/
abbrev Analyzer := EStateM Failure Analysis.State

namespace Analysis

/-- The scopes of a program. -/
abbrev Scopes := GlyphCompiler.Scopes Entity Function

/-- Reject the program. -/
def reject {α : Type} (cause : Cause) (position : Position) : Analyzer α :=
  throw (.reject cause position)

/-- Run a computation that remembers nothing. -/
def lift {α : Type} : Except Failure α → Analyzer α
  | .ok value => pure value
  | .error failure => throw failure

/-- Run a computation that may fault. -/
def orFault {α : Type} : Except Fault α → Analyzer α
  | .ok value => pure value
  | .error fault => throw (.fault fault)

/-- Run a computation that may reject the program. -/
def orReject {α : Type} : Except Diagnostic α → Analyzer α
  | .ok value => pure value
  | .error diagnostic => throw (.diagnostic diagnostic)

/-- A number that no variable or function has yet. -/
def freshId : Analyzer Nat := do
  let state ← get
  set { state with nextId := state.nextId + 1 }
  return state.nextId

/-- Is the result type of a function still to be inferred? -/
def State.isPending (state : State) (function : Function) : Bool :=
  function.inferred && (state.results.lookup function.id).isNone

/-- A function with the result type that is known by now. -/
def State.current (state : State) (function : Function) : Function :=
  { function with result := (state.results.lookup function.id).getD function.result }

/-- Is the result type of a function still to be inferred? -/
def isPending (function : Function) : Analyzer Bool :=
  return (← get).isPending function

/-- A function with the result type that is known by now. -/
def current (function : Function) : Analyzer Function :=
  return (← get).current function

/-- Fix the result type of an inferred function. -/
def fixResult (function : Function) (result : Ty) : Analyzer Unit :=
  modify fun state => { state with results := (function.id, result) :: state.results }

/-- Put off the judgement of a use. -/
def defer (position : Position) (function : Function) (target : Option Ty) : Analyzer Unit :=
  modify fun state => { state with deferred := ⟨position, function, target⟩ :: state.deferred }

end Analysis

end GlyphCompiler
