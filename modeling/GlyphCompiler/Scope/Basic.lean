/-
# Scopes

A scope holds the names declared in it, and says where it stands: whether a loop
surrounds it, which function it belongs to, and whether it is the outermost. A
name is looked up in the innermost scope that has it, and can be declared once
in each scope. Declared things of any kind may be held.
-/

import GlyphCompiler.Diagnostic

namespace GlyphCompiler

/-- One scope. Its bindings stand in the order of their declaration. -/
structure Scope (Entity Owner : Type) where
  bindings : List (String × Entity)
  inLoop : Bool
  owner : Option Owner
  topLevel : Bool

namespace Scope

variable {Entity Owner : Type}

/-- The outermost scope of a program. -/
def root : Scope Entity Owner := ⟨[], false, none, true⟩

/-- An empty scope for a block inside a scope. -/
def block (scope : Scope Entity Owner) : Scope Entity Owner :=
  ⟨[], scope.inLoop, scope.owner, false⟩

/-- An empty scope for the body of a loop inside a scope. -/
def loop (scope : Scope Entity Owner) : Scope Entity Owner :=
  ⟨[], true, scope.owner, false⟩

/-- An empty scope for the body of a function. Loops around the function are not
around its body. -/
def functionBody (owner : Owner) : Scope Entity Owner :=
  ⟨[], false, some owner, false⟩

/-- The names of a scope in the order of their declaration. -/
def names (scope : Scope Entity Owner) : List String :=
  scope.bindings.map Prod.fst

/-- What a name means in a scope by itself. -/
def find? (scope : Scope Entity Owner) (name : String) : Option Entity :=
  scope.bindings.lookup name

/-- Declare a name that the scope does not have yet. The cause says what is wrong
with a name that it has. -/
def declare (scope : Scope Entity Owner) (cause : String → Cause) (name : String)
    (entity : Entity) (position : Position) : Except Diagnostic (Scope Entity Owner) :=
  match scope.find? name with
  | some _ => .error ⟨cause name, position⟩
  | none => .ok { scope with bindings := scope.bindings ++ [(name, entity)] }

/-- What a name means when one more is declared: a binding that is there stays. -/
theorem find?_append (scope : Scope Entity Owner) (name asked : String) (entity : Entity) :
    find? { scope with bindings := scope.bindings ++ [(name, entity)] } asked =
      (scope.find? asked).or (if asked = name then some entity else none) := by
  unfold find?
  rw [List.lookup_append, List.lookup_cons, List.lookup_nil]
  congr 1
  by_cases same : asked = name
  · rw [if_pos same, beq_iff_eq.mpr same]
  · rw [if_neg same, beq_eq_false_iff_ne.mpr same]

end Scope

/-- The scopes around a place, the innermost first. -/
abbrev Scopes (Entity Owner : Type) := List (Scope Entity Owner)

namespace Scopes

variable {Entity Owner : Type}

/-- What a name means: its meaning in the innermost scope that has it. -/
def lookup (scopes : Scopes Entity Owner) (name : String) : Option Entity :=
  scopes.findSome? fun scope => scope.find? name

/-- The innermost scope. -/
def innermost (scopes : Scopes Entity Owner) : Scope Entity Owner :=
  scopes.headD .root

/-- Declare a name in the innermost scope. -/
def declare (scopes : Scopes Entity Owner) (cause : String → Cause) (name : String)
    (entity : Entity) (position : Position) : Except Diagnostic (Scopes Entity Owner) := do
  return (← scopes.innermost.declare cause name entity position) :: scopes.tail

/-- Enter a block. -/
def block (scopes : Scopes Entity Owner) : Scopes Entity Owner :=
  scopes.innermost.block :: scopes

/-- Enter the body of a loop. -/
def loop (scopes : Scopes Entity Owner) : Scopes Entity Owner :=
  scopes.innermost.loop :: scopes

/-- Enter the body of a function. -/
def functionBody (scopes : Scopes Entity Owner) (owner : Owner) : Scopes Entity Owner :=
  .functionBody owner :: scopes

end Scopes

end GlyphCompiler
