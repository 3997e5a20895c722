/-
# Absorbing counter steps

A variable that is declared with a number can take in the steps of its counter
as long as nothing else has touched it: the step disappears, and the declared
number changes. Any mention of the variable ends this, and so does running code
that may be anywhere, which could mention every variable.
-/

import GlyphCompiler.Program.Walk

namespace GlyphCompiler

namespace Optimizer

/-- A number after a step. -/
def stepped : Step → Number → Number
  | .up, .int value => .int (value + 1)
  | .down, .int value => .int (value - 1)
  | .up, .float value => .float (value + 1.0)
  | .down, .float value => .float (value - 1.0)

/-- The statements kept so far, and for each variable that can take in steps the
place of its declaration among them. -/
structure Absorption where
  kept : Array Stmt
  foldable : List (Nat × Nat)

/-- The variable that a node mentions by itself. -/
def mentioned? : Node → Option Nat
  | .expr (.reference use) => some use.target.id
  | .stmt (.assign _ target _) => some target.id
  | .stmt (.step _ _ target) => some target.id
  | _ => none

/-- The foldable variables that a statement leaves untouched. -/
def untouched (foldable : List (Nat × Nat)) (statement : Stmt) : List (Nat × Nat) :=
  if foldable.isEmpty then []
  else
    let nodes := statement.walk
    if nodes.any Node.runsCode then []
    else foldable.filter fun entry => !nodes.any fun node => mentioned? node == some entry.1

namespace Absorption

/-- The variable that a statement makes foldable: it is declared with a number. -/
def opened? : Stmt → Option Nat
  | .declare _ target (.number _ _) => if target.mutable then some target.id else none
  | _ => none

/-- Keep a statement. -/
def keep (absorption : Absorption) (statement : Stmt) : Absorption :=
  let foldable := untouched absorption.foldable statement
  { kept := absorption.kept.push statement
    foldable := match opened? statement with
      | some id => (id, absorption.kept.size) :: foldable.filter fun entry => entry.1 != id
      | none => foldable }

/-- Step the number of a kept declaration. -/
def stepAt (absorption : Absorption) (place : Nat) (step : Step) : Absorption :=
  { absorption with
    kept := absorption.kept.modify place fun statement => match statement with
      | .declare position target (.number info value) =>
        .declare position target (.number info (stepped step value))
      | other => other }

/-- Go on to the next statement: a step of a foldable variable is taken in, and
anything else is kept. -/
def next (absorption : Absorption) (statement : Stmt) : Absorption :=
  match statement with
  | .step _ step target =>
    match absorption.foldable.lookup target.id with
    | some place => absorption.stepAt place step
    | none => absorption.keep statement
  | _ => absorption.keep statement

end Absorption

/-- Absorb the steps in a list of statements. -/
def absorbSteps (statements : List Stmt) : List Stmt :=
  (statements.foldl Absorption.next ⟨#[], []⟩).kept.toList

end Optimizer

end GlyphCompiler
