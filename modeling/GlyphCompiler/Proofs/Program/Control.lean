/-
# Control in programs

A `break` leaves the loop around it, and a `return` the function or conjure expression
around it. The body of a function, of a conjure expression and of a `main` begins
outside of all loops. Only variables that may change are changed, and there is at
most one `main`, which stands in the list of the program itself.
-/

import GlyphCompiler.Program.Walk

namespace GlyphCompiler

/-- What is around a statement: nothing but the program, or also whether a loop and
whether the body of a function or conjure expression. -/
inductive Surroundings
  | program
  | inside (inLoop inBody : Bool)
  deriving DecidableEq, Repr

namespace Surroundings

/-- Is there a loop around, nearer than any body? -/
def inLoop : Surroundings → Bool
  | program => false
  | inside inLoop _ => inLoop

/-- Is there the body of a function or conjure expression around? -/
def inBody : Surroundings → Bool
  | program => false
  | inside _ inBody => inBody

/-- Around the statements of a block. -/
def block (around : Surroundings) : Surroundings :=
  .inside around.inLoop around.inBody

/-- Around the statements of a loop. -/
def loop (around : Surroundings) : Surroundings :=
  .inside true around.inBody

/-- Around the statements of a function or conjure expression. -/
def body : Surroundings := .inside false true

/-- Around the statements of a `main`. -/
def main : Surroundings := .inside false false

theorem block_ne_program (around : Surroundings) : around.block ≠ program :=
  nofun

end Surroundings

mutual

/-- Every statement in an expression is controlled. Only a conjure expression holds
statements, and what is around it is not around them. -/
def Expr.Controlled : Expr → Prop
  | .number _ _ | .bool _ _ | .string _ _ | .glyph _ _ | .codepoint _ _ | .null _
  | .reference _ | .function _ _ | .addressOf _ _ | .typeOf _ _ => True
  | .binary _ _ left right => left.Controlled ∧ right.Controlled
  | .unary _ _ operand => operand.Controlled
  | .dereference _ operand => operand.Controlled
  | .call _ _ arguments => allControlled arguments
  | .subscript _ base index => base.Controlled ∧ index.Controlled
  | .array _ elements => allControlled elements
  | .conjure _ body => bodyControlled body .body
  | .apply _ mapping items => mapping.Controlled ∧ items.Controlled
  | .supplant _ text pattern replacement =>
    text.Controlled ∧ pattern.Controlled ∧ replacement.Controlled

/-- Every statement in some expressions is controlled. -/
def allControlled : List Expr → Prop
  | [] => True
  | expression :: rest => expression.Controlled ∧ allControlled rest

/-- A statement is controlled, given what is around it: it leaves a loop or returns only
where there is one to leave or a body to return from, changes only what may change, and
is a `main` only in the list of the program itself. So is every statement in it. -/
def Stmt.Controlled : Stmt → Surroundings → Prop
  | .affix _ _, _ => True
  | .declare _ _ value, _ => value.Controlled
  | .function _ _ body, _ => bodyControlled body .body
  | .main _ body, around => around = .program ∧ bodyControlled body .main
  | .assign _ target value, _ => target.mutable = true ∧ value.Controlled
  | .step _ _ target, _ => target.mutable = true
  | .branch _ condition consequent alternative, around =>
    condition.Controlled ∧ bodyControlled consequent around.block ∧
      bodyControlled alternative around.block
  | .loop _ condition body, around => condition.Controlled ∧ bodyControlled body around.loop
  | .breakLoop _, around => around.inLoop = true
  | .returnValue _ value, around => around.inBody = true ∧ value.Controlled
  | .returnVoid _, around => around.inBody = true
  | .exscribe _ value, _ => value.Controlled
  | .evaluate _ expression, _ => expression.Controlled
  | .block _ body, around => bodyControlled body around.block

/-- The statements of a list are controlled. -/
def bodyControlled : List Stmt → Surroundings → Prop
  | [], _ => True
  | statement :: rest, around => statement.Controlled around ∧ bodyControlled rest around

end

/-- Is a statement a `main`? -/
def Stmt.isMain : Stmt → Bool
  | .main _ _ => true
  | _ => false

/-- Is a node a `main`? -/
def Node.isMain : Node → Bool
  | .expr _ => false
  | .stmt statement => statement.isMain

/-- A program is controlled: all of its statements are, and there is at most one `main`
anywhere in it. -/
structure Program.Controlled (program : Program) : Prop where
  body : bodyControlled program.body .program
  oneMain : (walkStmts program.body).countP Node.isMain ≤ 1

/-! ## Lists of statements -/

theorem bodyControlled_iff {body : List Stmt} {around : Surroundings} :
    bodyControlled body around ↔ ∀ statement ∈ body, statement.Controlled around := by
  induction body with
  | nil => simp [bodyControlled]
  | cons statement body ih => simp [bodyControlled, ih]

theorem bodyControlled_append {first second : List Stmt} {around : Surroundings} :
    bodyControlled (first ++ second) around ↔
      bodyControlled first around ∧ bodyControlled second around := by
  simp only [bodyControlled_iff, List.mem_append]
  grind

/-! ## Statements that leave their block -/

/-- What is controlled in a block stays so without the block around it. -/
theorem Stmt.Controlled.unblock {statement : Stmt} {around : Surroundings}
    (controlled : statement.Controlled around.block) : statement.Controlled around := by
  cases statement with
  | main position body =>
    obtain ⟨outermost, -⟩ := controlled
    cases outermost
  | _ => exact controlled

/-- What is not a `main` is controlled in a block as well. -/
theorem Stmt.Controlled.blocked {statement : Stmt} {around : Surroundings}
    (controlled : statement.Controlled around) (notMain : statement.isMain = false) :
    statement.Controlled around.block := by
  cases statement with
  | main position body => cases notMain
  | _ => exact controlled

theorem unblock_body {body : List Stmt} {around : Surroundings}
    (controlled : bodyControlled body around.block) : bodyControlled body around := by
  rw [bodyControlled_iff] at controlled ⊢
  intro statement member
  exact (controlled statement member).unblock

/-! ## Where a `main` stands -/

mutual

theorem Expr.Controlled.noMain : {expression : Expr} → expression.Controlled →
    ∀ node ∈ expression.walk, node.isMain = false
  | .binary _ _ _ _, controlled => by
    simp only [Expr.walk, List.forall_mem_cons, List.forall_mem_append]
    exact ⟨rfl, controlled.1.noMain, controlled.2.noMain⟩
  | .unary _ _ operand, controlled | .dereference _ operand, controlled => by
    simp only [Expr.walk, List.forall_mem_cons]
    exact ⟨rfl, @Expr.Controlled.noMain operand controlled⟩
  | .call _ _ _, controlled => by
    simp only [Expr.walk, List.forall_mem_cons]
    exact ⟨rfl, rfl, noMain_walkExprs controlled⟩
  | .subscript _ _ _, controlled => by
    simp only [Expr.walk, List.forall_mem_cons, List.forall_mem_append]
    exact ⟨rfl, controlled.1.noMain, controlled.2.noMain⟩
  | .array _ _, controlled => by
    simp only [Expr.walk, List.forall_mem_cons]
    exact ⟨rfl, noMain_walkExprs controlled⟩
  | .conjure _ _, controlled => by
    simp only [Expr.walk, List.forall_mem_cons]
    exact ⟨rfl, noMain_walkStmts controlled nofun⟩
  | .apply _ _ _, controlled => by
    simp only [Expr.walk, List.forall_mem_cons, List.forall_mem_append]
    exact ⟨rfl, controlled.1.noMain, controlled.2.noMain⟩
  | .supplant _ _ _ _, controlled => by
    simp only [Expr.walk, List.forall_mem_cons, List.forall_mem_append]
    exact ⟨rfl, ⟨controlled.1.noMain, controlled.2.1.noMain⟩, controlled.2.2.noMain⟩
  | .number _ _, _ | .bool _ _, _ | .string _ _, _ | .glyph _ _, _ | .codepoint _ _, _
  | .null _, _ | .reference _, _ | .function _ _, _ | .typeOf _ _, _ | .addressOf _ _, _ => by
    simp [Expr.walk, Node.isMain]

theorem noMain_walkExprs : {expressions : List Expr} → allControlled expressions →
    ∀ node ∈ walkExprs expressions, node.isMain = false
  | [], _ => nofun
  | _ :: _, controlled => by
    simp only [walkExprs, List.forall_mem_append]
    exact ⟨controlled.1.noMain, noMain_walkExprs controlled.2⟩

/-- There is no `main` in a statement, except for the statement itself. -/
theorem Stmt.Controlled.noMain : {statement : Stmt} → {around : Surroundings} →
    statement.Controlled around → statement.isMain = false →
      ∀ node ∈ statement.walk, node.isMain = false
  | .declare _ _ value, _, controlled, _ | .exscribe _ value, _, controlled, _
  | .evaluate _ value, _, controlled, _ => by
    simp only [Stmt.walk, List.forall_mem_cons]
    exact ⟨rfl, @Expr.Controlled.noMain value controlled⟩
  | .assign _ _ value, _, controlled, _ | .returnValue _ value, _, controlled, _ => by
    simp only [Stmt.walk, List.forall_mem_cons]
    exact ⟨rfl, @Expr.Controlled.noMain value controlled.2⟩
  | .function _ _ _, _, controlled, _ | .block _ _, _, controlled, _ => by
    simp only [Stmt.walk, List.forall_mem_cons]
    exact ⟨rfl, noMain_walkStmts controlled nofun⟩
  | .branch _ _ _ _, _, controlled, _ => by
    simp only [Stmt.walk, List.forall_mem_cons, List.forall_mem_append]
    exact ⟨rfl, ⟨controlled.1.noMain, noMain_walkStmts controlled.2.1 nofun⟩,
      noMain_walkStmts controlled.2.2 nofun⟩
  | .loop _ _ _, _, controlled, _ => by
    simp only [Stmt.walk, List.forall_mem_cons, List.forall_mem_append]
    exact ⟨rfl, controlled.1.noMain, noMain_walkStmts controlled.2 nofun⟩
  | .affix _ _, _, _, _ | .step _ _ _, _, _, _ | .breakLoop _, _, _, _
  | .returnVoid _, _, _, _ => by
    simp [Stmt.walk, Node.isMain, Stmt.isMain]

theorem noMain_walkStmts : {body : List Stmt} → {around : Surroundings} →
    bodyControlled body around → around ≠ .program → ∀ node ∈ walkStmts body, node.isMain = false
  | [], _, _, _ => nofun
  | statement :: _, _, controlled, below => by
    simp only [walkStmts, List.forall_mem_append]
    refine ⟨controlled.1.noMain ?_, noMain_walkStmts controlled.2 below⟩
    cases statement with
    | main position body => exact absurd controlled.1.1 below
    | _ => rfl

end

/-- In a statement there is a `main` only if it is one. -/
theorem Stmt.Controlled.countP_walk {statement : Stmt} {around : Surroundings}
    (controlled : statement.Controlled around) :
    statement.walk.countP Node.isMain = if statement.isMain then 1 else 0 := by
  cases isMain : statement.isMain with
  | false => simpa using controlled.noMain isMain
  | true =>
    cases statement with
    | main position body =>
      have below : (walkStmts body).countP Node.isMain = 0 := by
        rw [List.countP_eq_zero]
        simpa using noMain_walkStmts controlled.2 nofun
      rw [Stmt.walk, List.countP_cons, below]
      rfl
    | _ => cases isMain

/-- Each `main` in the statements of a list is one of them. -/
theorem countP_walkStmts {body : List Stmt} {around : Surroundings}
    (controlled : bodyControlled body around) :
    (walkStmts body).countP Node.isMain = body.countP Stmt.isMain := by
  induction body with
  | nil => rfl
  | cons statement body ih =>
    rw [walkStmts, List.countP_append, List.countP_cons, controlled.1.countP_walk,
      ih controlled.2, Nat.add_comm]

end GlyphCompiler
