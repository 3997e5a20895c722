/-
# Growing scopes in any order

A forest holds scopes that grow side by side: a scope may gain names after
scopes inside it exist. The scopes are numbered in the order of their creation,
and what a name means is asked of the scopes around a place as they stand now.
-/

import GlyphCompiler.Scope.Basic

namespace GlyphCompiler

/-- A scope, and the number of the scope around it. -/
structure Forest.Member (Entity Owner : Type) where
  parent : Option Nat
  scope : Scope Entity Owner

/-- Scopes by number. The scope around a scope has a smaller number. -/
structure Forest (Entity Owner : Type) where
  members : Array (Forest.Member Entity Owner)

namespace Forest

variable {Entity Owner : Type}

/-- A single outermost scope, numbered zero. -/
def single : Forest Entity Owner := ⟨#[⟨none, .root⟩]⟩

/-- Add an outermost scope. Its number is the size that the forest had. -/
def addRoot (forest : Forest Entity Owner) : Forest Entity Owner :=
  ⟨forest.members.push ⟨none, .root⟩⟩

/-- The scopes around a place: a scope and those around it. -/
def scopes (forest : Forest Entity Owner) (number : Nat) : Scopes Entity Owner :=
  match forest.members[number]? with
  | none => []
  | some ⟨none, scope⟩ => [scope]
  | some ⟨some parent, scope⟩ =>
    if parent < number then scope :: forest.scopes parent else [scope]

/-- What a name means in a scope. -/
def lookup (forest : Forest Entity Owner) (number : Nat) (name : String) : Option Entity :=
  (forest.scopes number).lookup name

/-- Declare a name in a scope. A number that no scope has changes nothing. -/
def declare (forest : Forest Entity Owner) (number : Nat) (cause : String → Cause)
    (name : String) (entity : Entity) (position : Position) :
    Except Diagnostic (Forest Entity Owner) :=
  match forest.members[number]? with
  | none => .ok forest
  | some member => do
    let scope ← member.scope.declare cause name entity position
    return ⟨forest.members.setIfInBounds number { member with scope := scope }⟩

/-- Add a scope inside another one, made from it. A number that no scope has
changes nothing. -/
def addInside (forest : Forest Entity Owner) (number : Nat)
    (inside : Scope Entity Owner → Scope Entity Owner) : Forest Entity Owner :=
  match forest.members[number]? with
  | none => forest
  | some member => ⟨forest.members.push ⟨some number, inside member.scope⟩⟩

/-- Add a block inside a scope. -/
def addBlock (forest : Forest Entity Owner) (number : Nat) : Forest Entity Owner :=
  forest.addInside number Scope.block

/-- Add the body of a loop inside a scope. -/
def addLoop (forest : Forest Entity Owner) (number : Nat) : Forest Entity Owner :=
  forest.addInside number Scope.loop

/-- Add the body of a function inside a scope. -/
def addFunctionBody (forest : Forest Entity Owner) (number : Nat) (owner : Owner) :
    Forest Entity Owner :=
  forest.addInside number fun _ => Scope.functionBody owner

end Forest

end GlyphCompiler
