/-
# Parts of an analysis under other numbers

What a name means, the scopes, and the uses that are put off carry the numbers of
variables and functions. Under other numbers a look-up finds the same, and what is
known of the extent of an array is the same.
-/

import GlyphCompiler.Analysis.Analyze
import GlyphCompiler.Proofs.Program.Renumbering

namespace GlyphCompiler

section

variable (change : Nat → Nat)

/-- What a name means, under other numbers. -/
def Entity.renumber : Entity → Entity
  | .value target => .value (target.renumber change)
  | .function target => .function (target.renumber change)
  | .library symbol => .library symbol

/-- A scope under other numbers. -/
def Scope.renumber (scope : Scope Entity Function) : Scope Entity Function :=
  { scope with
    bindings := scope.bindings.map fun binding => (binding.1, binding.2.renumber change)
    owner := scope.owner.map (Function.renumber change) }

namespace Analysis

/-- Scopes under other numbers. -/
def Scopes.renumber (scopes : Scopes) : Scopes := scopes.map (Scope.renumber change)

/-- Statements being analyzed, under other numbers. -/
def Region.renumber (region : Region) : Region where
  scopes := Scopes.renumber change region.scopes
  ahead := region.ahead.map (Function.renumber change)

/-- A use that was put off, under other numbers. -/
def Deferred.renumber (use : Deferred) : Deferred :=
  { use with function := use.function.renumber change }

/-- What is called, under other numbers. -/
def Called.renumber : Called → Called
  | .callee target parameters result => .callee (target.renumber change) parameters result
  | .library symbol => .library symbol

/-- What a call comes to, under other numbers. -/
def Outcome.renumber : Outcome → Outcome
  | .printed value => .printed (value.renumber change)
  | .expression value => .expression (value.renumber change)

/-- A statement and what it leaves of its region, under other numbers. -/
def renumberStep (step : Stmt × Region) : Stmt × Region :=
  (step.1.renumber change, step.2.renumber change)

theorem lookup_bindings (bindings : List (String × Entity)) (name : String) :
    (bindings.map fun binding => (binding.1, binding.2.renumber change)).lookup name =
      (bindings.lookup name).map (Entity.renumber change) := by
  induction bindings with
  | nil => rfl
  | cons binding bindings ih =>
    rw [List.map_cons, List.lookup_cons, List.lookup_cons, ih]
    split <;> rfl

@[simp]
theorem lookup_scopes (scopes : Scopes) (name : String) :
    GlyphCompiler.Scopes.lookup (Scopes.renumber change scopes) name =
      (scopes.lookup name).map (Entity.renumber change) := by
  induction scopes with
  | nil => rfl
  | cons scope scopes ih =>
    unfold GlyphCompiler.Scopes.lookup Scopes.renumber at *
    rw [List.map_cons, List.findSome?_cons, List.findSome?_cons, ih, Scope.find?, Scope.renumber,
      lookup_bindings]
    cases found : scope.bindings.lookup name <;> simp [Scope.find?, found]

@[simp]
theorem innermost_scopes (scopes : Scopes) :
    GlyphCompiler.Scopes.innermost (Scopes.renumber change scopes) =
      scopes.innermost.renumber change := by
  cases scopes <;> rfl

theorem declare_scopes (scopes : Scopes) (cause : String → Cause) (name : String) (entity : Entity)
    (position : Position) :
    GlyphCompiler.Scopes.declare (Scopes.renumber change scopes) cause name (entity.renumber change)
        position =
      (scopes.declare cause name entity position).map (Scopes.renumber change) := by
  have found : (scopes.innermost.renumber change).find? name =
      (scopes.innermost.find? name).map (Entity.renumber change) :=
    lookup_bindings change scopes.innermost.bindings name
  unfold GlyphCompiler.Scopes.declare Scope.declare
  rw [innermost_scopes, found]
  cases scopes.innermost.find? name with
  | some other => rfl
  | none =>
    simp [Except.map, Scopes.renumber, Scope.renumber, pure, Except.pure, bind, Except.bind]

@[simp]
theorem block_scopes (scopes : Scopes) :
    GlyphCompiler.Scopes.block (Scopes.renumber change scopes) =
      Scopes.renumber change scopes.block := by
  unfold GlyphCompiler.Scopes.block
  rw [innermost_scopes]
  rfl

@[simp]
theorem loop_scopes (scopes : Scopes) :
    GlyphCompiler.Scopes.loop (Scopes.renumber change scopes) =
      Scopes.renumber change scopes.loop := by
  unfold GlyphCompiler.Scopes.loop
  rw [innermost_scopes]
  rfl

/-! ## Extents -/

section

variable {change} {ofVariable moved : Variable → List Nat → Except Fault (Option Nat)}

mutual

theorem extentBelow_renumber
    (same : ∀ target path, moved (target.renumber change) path = ofVariable target path) :
    ∀ (expression : Expr) (path : List Nat),
      extentBelow moved (expression.renumber change) path = extentBelow ofVariable expression path
  | .array _ elements, [] => by
    rw [Expr.renumber, extentBelow, extentBelow, renumberExprs_eq_map, List.length_map]
  | .array _ elements, place :: path => by
    rw [Expr.renumber, extentBelow, extentBelow, extentAt_renumber same elements place path]
  | .reference use, path => same use.target path
  | .subscript _ base index, path => by
    rw [Expr.renumber, extentBelow, extentBelow, Expr.staticValue_renumber]
    congr 1
    funext known
    split
    · exact extentBelow_renumber same base _
    · rfl
  | .number _ _, _ | .bool _ _, _ | .string _ _, _ | .glyph _ _, _ | .codepoint _ _, _
  | .null _, _ | .function _ _, _ | .addressOf _ _, _ | .dereference _ _, _ | .call _ _ _, _
  | .unary _ _ _, _ | .binary _ _ _ _, _ | .conjure _ _, _ | .typeOf _ _, _ | .apply _ _ _, _
  | .supplant _ _ _ _, _ => by simp [Expr.renumber, extentBelow]

theorem extentAt_renumber
    (same : ∀ target path, moved (target.renumber change) path = ofVariable target path) :
    ∀ (expressions : List Expr) (place : Nat) (path : List Nat),
      extentAt moved (renumberExprs change expressions) place path =
        extentAt ofVariable expressions place path
  | [], _, _ => rfl
  | element :: _, 0, path => extentBelow_renumber same element path
  | _ :: rest, place + 1, path => extentAt_renumber same rest place path

end

end

end Analysis

end

end GlyphCompiler
