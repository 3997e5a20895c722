/-
# Programs under other numbers

The numbers of variables and functions only tell these apart. A program with other
numbers has the same types and positions, the same values that are known before it
runs, and returns in the same places.
-/

import GlyphCompiler.Program.Returns
import GlyphCompiler.Program.StaticValue
import Mathlib.Logic.Function.Basic

namespace GlyphCompiler

section

variable (change : Nat → Nat)

/-- A variable under another number. -/
def Variable.renumber (target : Variable) : Variable :=
  { target with id := change target.id }

/-- A function under another number, and its parameters. -/
def Function.renumber (target : Function) : Function :=
  { target with
    id := change target.id
    parameters := target.parameters.map (Variable.renumber change) }

/-- A use of a variable under another number. -/
def Reference.renumber (use : Reference) : Reference :=
  { use with target := use.target.renumber change }

/-- What is called, under another number. -/
def Callee.renumber : Callee → Callee
  | .function info target => .function info (target.renumber change)
  | .reference use => .reference (use.renumber change)

mutual

/-- An expression under other numbers. -/
def Expr.renumber : Expr → Expr
  | .number info value => .number info value
  | .bool info value => .bool info value
  | .string info value => .string info value
  | .glyph info value => .glyph info value
  | .codepoint info value => .codepoint info value
  | .null info => .null info
  | .reference use => .reference (use.renumber change)
  | .function info target => .function info (target.renumber change)
  | .binary info operator left right => .binary info operator left.renumber right.renumber
  | .unary info operator operand => .unary info operator operand.renumber
  | .addressOf info operand => .addressOf info (operand.renumber change)
  | .dereference info operand => .dereference info operand.renumber
  | .call info callee arguments => .call info (callee.renumber change) (renumberExprs arguments)
  | .subscript info base index => .subscript info base.renumber index.renumber
  | .array info elements => .array info (renumberExprs elements)
  | .conjure info body => .conjure info (renumberBody body)
  | .typeOf info described => .typeOf info described
  | .apply info mapping items => .apply info mapping.renumber items.renumber
  | .supplant info text pattern replacement =>
    .supplant info text.renumber pattern.renumber replacement.renumber

/-- Some expressions under other numbers. -/
def renumberExprs : List Expr → List Expr
  | [] => []
  | expression :: rest => expression.renumber :: renumberExprs rest

/-- A statement under other numbers. -/
def Stmt.renumber : Stmt → Stmt
  | .declare position target value => .declare position (target.renumber change) value.renumber
  | .function position target body =>
    .function position (target.renumber change) (renumberBody body)
  | .main position body => .main position (renumberBody body)
  | .affix position symbol => .affix position symbol
  | .assign position target value => .assign position (target.renumber change) value.renumber
  | .step position step target => .step position step (target.renumber change)
  | .branch position condition consequent alternative =>
    .branch position condition.renumber (renumberBody consequent) (renumberBody alternative)
  | .loop position condition body => .loop position condition.renumber (renumberBody body)
  | .breakLoop position => .breakLoop position
  | .returnValue position value => .returnValue position value.renumber
  | .returnVoid position => .returnVoid position
  | .exscribe position value => .exscribe position value.renumber
  | .evaluate position expression => .evaluate position expression.renumber
  | .block position body => .block position (renumberBody body)

/-- Some statements under other numbers. -/
def renumberBody : List Stmt → List Stmt
  | [] => []
  | statement :: rest => statement.renumber :: renumberBody rest

end

/-- A program under other numbers. -/
def Program.renumber (program : Program) : Program :=
  { program with body := renumberBody change program.body }

end

section

variable (change : Nat → Nat)

/-- Under other numbers that differ where the old ones do, the same entries are found. -/
theorem lookup_renumber {Value : Type} (injective : Function.Injective change)
    (entries : List (Nat × Value)) (id : Nat) :
    (entries.map fun entry => (change entry.1, entry.2)).lookup (change id) =
      entries.lookup id := by
  induction entries with
  | nil => rfl
  | cons entry entries ih =>
    have same : (change id == change entry.1) = (id == entry.1) := by
      rw [Bool.eq_iff_iff, beq_iff_eq, beq_iff_eq, injective.eq_iff]
    rw [List.map_cons, List.lookup_cons, List.lookup_cons, ih, same]

@[simp]
theorem Variable.type_renumber (target : Variable) : (target.renumber change).type = target.type :=
  rfl

@[simp]
theorem Function.name_renumber (target : Function) : (target.renumber change).name = target.name :=
  rfl

@[simp]
theorem Function.result_renumber (target : Function) :
    (target.renumber change).result = target.result := rfl

@[simp]
theorem Function.inferred_renumber (target : Function) :
    (target.renumber change).inferred = target.inferred := rfl

@[simp]
theorem Function.types_renumber (target : Function) :
    (target.renumber change).parameters.map Variable.type =
      target.parameters.map Variable.type := by
  simp [Function.renumber, Function.comp_def]

@[simp]
theorem Function.length_parameters_renumber (target : Function) :
    (target.renumber change).parameters.length = target.parameters.length := by
  simp [Function.renumber]

@[simp]
theorem Function.type_renumber (target : Function) :
    (target.renumber change).type = target.type := by
  simp [Function.type]

@[simp]
theorem Expr.info_renumber (expression : Expr) :
    (expression.renumber change).info = expression.info := by
  cases expression <;> rfl

@[simp]
theorem Expr.type_renumber (expression : Expr) :
    (expression.renumber change).type = expression.type := by
  simp [Expr.type]

@[simp]
theorem Expr.position_renumber (expression : Expr) :
    (expression.renumber change).position = expression.position := by
  simp [Expr.position]

@[simp]
theorem Expr.renumber_withType (type : Ty) (expression : Expr) :
    (expression.withType type).renumber change = (expression.renumber change).withType type := by
  cases expression <;> rfl

theorem renumberExprs_eq_map (expressions : List Expr) :
    renumberExprs change expressions = expressions.map (Expr.renumber change) := by
  induction expressions with
  | nil => rfl
  | cons expression rest ih => rw [renumberExprs, ih, List.map_cons]

theorem renumberBody_eq_map (body : List Stmt) :
    renumberBody change body = body.map (Stmt.renumber change) := by
  induction body with
  | nil => rfl
  | cons statement rest ih => rw [renumberBody, ih, List.map_cons]

mutual

@[simp]
theorem Expr.staticValue_renumber :
    ∀ expression : Expr, (expression.renumber change).staticValue = expression.staticValue
  | .array _ elements => by
    rw [Expr.renumber, Expr.staticValue, staticValues_renumber elements, Expr.staticValue]
  | .unary _ _ operand => by
    rw [Expr.renumber, Expr.staticValue, Expr.staticValue_renumber operand, Expr.staticValue]
  | .binary _ _ left right => by
    rw [Expr.renumber, Expr.staticValue, Expr.staticValue_renumber left,
      Expr.staticValue_renumber right, Expr.staticValue]
  | .number _ _ | .bool _ _ | .string _ _ | .glyph _ _ | .codepoint _ _ | .null _ | .reference _
  | .function _ _ | .addressOf _ _ | .dereference _ _ | .call _ _ _ | .subscript _ _ _
  | .conjure _ _ | .typeOf _ _ | .apply _ _ _ | .supplant _ _ _ _ => rfl

theorem staticValues_renumber :
    ∀ expressions : List Expr,
      staticValues (renumberExprs change expressions) = staticValues expressions
  | [] => rfl
  | expression :: rest => by
    rw [renumberExprs, staticValues, Expr.staticValue_renumber expression,
      staticValues_renumber rest, staticValues]

end

mutual

theorem Stmt.containsReturn_renumber :
    ∀ statement : Stmt, (statement.renumber change).containsReturn = statement.containsReturn
  | .branch _ _ consequent alternative => by
    rw [Stmt.renumber, Stmt.containsReturn, containsReturn_renumber consequent,
      containsReturn_renumber alternative, Stmt.containsReturn]
  | .loop _ _ body | .block _ body => by
    rw [Stmt.renumber, Stmt.containsReturn, containsReturn_renumber body, Stmt.containsReturn]
  | .declare _ _ _ | .function _ _ _ | .main _ _ | .affix _ _ | .assign _ _ _ | .step _ _ _
  | .breakLoop _ | .returnValue _ _ | .returnVoid _ | .exscribe _ _ | .evaluate _ _ => rfl

@[simp]
theorem containsReturn_renumber :
    ∀ body : List Stmt, containsReturn (renumberBody change body) = containsReturn body
  | [] => rfl
  | statement :: rest => by
    rw [renumberBody, containsReturn, Stmt.containsReturn_renumber statement,
      containsReturn_renumber rest, containsReturn]

end

mutual

theorem Stmt.alwaysReturns_renumber :
    ∀ statement : Stmt, (statement.renumber change).alwaysReturns = statement.alwaysReturns
  | .branch _ _ consequent alternative => by
    rw [Stmt.renumber, Stmt.alwaysReturns, alwaysReturns_renumber consequent,
      alwaysReturns_renumber alternative, Stmt.alwaysReturns]
  | .block _ body => by
    rw [Stmt.renumber, Stmt.alwaysReturns, alwaysReturns_renumber body, Stmt.alwaysReturns]
  | .declare _ _ _ | .function _ _ _ | .main _ _ | .affix _ _ | .assign _ _ _ | .step _ _ _
  | .loop _ _ _ | .breakLoop _ | .returnValue _ _ | .returnVoid _ | .exscribe _ _
  | .evaluate _ _ => rfl

@[simp]
theorem alwaysReturns_renumber :
    ∀ body : List Stmt, alwaysReturns (renumberBody change body) = alwaysReturns body
  | [] => rfl
  | statement :: rest => by
    rw [renumberBody, alwaysReturns, Stmt.alwaysReturns_renumber statement,
      alwaysReturns_renumber rest, alwaysReturns]

end

end

end GlyphCompiler
