/-
# Programs without positions

Where the parts of a program are written can be left out of a comparison. Two programs
are the same up to positions if they are equal without them, and then they have as
many nodes.
-/

import GlyphCompiler.Program.Walk

namespace GlyphCompiler

/-- What is noted of an expression, without where it is written. -/
def Info.unplaced (info : Info) : Info :=
  { info with position := .start }

/-- A use of a variable, without where it is written. -/
def Reference.unplaced (use : Reference) : Reference :=
  { use with info := use.info.unplaced }

/-- What is called, without where it is written. -/
def Callee.unplaced : Callee → Callee
  | .function info target => .function info.unplaced target
  | .reference use => .reference use.unplaced

mutual

/-- An expression without positions. -/
def Expr.unplaced : Expr → Expr
  | .number info value => .number info.unplaced value
  | .bool info value => .bool info.unplaced value
  | .string info value => .string info.unplaced value
  | .glyph info value => .glyph info.unplaced value
  | .codepoint info value => .codepoint info.unplaced value
  | .null info => .null info.unplaced
  | .reference use => .reference use.unplaced
  | .function info target => .function info.unplaced target
  | .binary info operator left right =>
    .binary info.unplaced operator left.unplaced right.unplaced
  | .unary info operator operand => .unary info.unplaced operator operand.unplaced
  | .addressOf info operand => .addressOf info.unplaced operand.unplaced
  | .dereference info operand => .dereference info.unplaced operand.unplaced
  | .call info callee arguments => .call info.unplaced callee.unplaced (unplacedExprs arguments)
  | .subscript info base index => .subscript info.unplaced base.unplaced index.unplaced
  | .array info elements => .array info.unplaced (unplacedExprs elements)
  | .conjure info body => .conjure info.unplaced (unplacedBody body)
  | .typeOf info described => .typeOf info.unplaced described
  | .apply info mapping items => .apply info.unplaced mapping.unplaced items.unplaced
  | .supplant info text pattern replacement =>
    .supplant info.unplaced text.unplaced pattern.unplaced replacement.unplaced

/-- Some expressions without positions. -/
def unplacedExprs : List Expr → List Expr
  | [] => []
  | expression :: rest => expression.unplaced :: unplacedExprs rest

/-- A statement without positions. -/
def Stmt.unplaced : Stmt → Stmt
  | .declare _ target value => .declare .start target value.unplaced
  | .function _ target body => .function .start target (unplacedBody body)
  | .main _ body => .main .start (unplacedBody body)
  | .affix _ symbol => .affix .start symbol
  | .assign _ target value => .assign .start target value.unplaced
  | .step _ step target => .step .start step target
  | .branch _ condition consequent alternative =>
    .branch .start condition.unplaced (unplacedBody consequent) (unplacedBody alternative)
  | .loop _ condition body => .loop .start condition.unplaced (unplacedBody body)
  | .breakLoop _ => .breakLoop .start
  | .returnValue _ value => .returnValue .start value.unplaced
  | .returnVoid _ => .returnVoid .start
  | .exscribe _ value => .exscribe .start value.unplaced
  | .evaluate _ expression => .evaluate .start expression.unplaced
  | .block _ body => .block .start (unplacedBody body)

/-- Some statements without positions. -/
def unplacedBody : List Stmt → List Stmt
  | [] => []
  | statement :: rest => statement.unplaced :: unplacedBody rest

end

/-- A program without positions. -/
def Program.unplaced (program : Program) : Program where
  position := .start
  body := unplacedBody program.body

mutual

@[simp]
theorem Expr.length_walk_unplaced :
    ∀ expression : Expr, expression.unplaced.walk.length = expression.walk.length
  | .binary _ _ left right | .subscript _ left right | .apply _ left right => by
    simp [Expr.unplaced, Expr.walk, Expr.length_walk_unplaced left, Expr.length_walk_unplaced right]
  | .supplant _ text pattern replacement => by
    simp [Expr.unplaced, Expr.walk, Expr.length_walk_unplaced text, Expr.length_walk_unplaced pattern,
      Expr.length_walk_unplaced replacement]
  | .unary _ _ operand | .dereference _ operand => by
    simp [Expr.unplaced, Expr.walk, Expr.length_walk_unplaced operand]
  | .call _ _ parts | .array _ parts => by
    simp [Expr.unplaced, Expr.walk, length_walkExprs_unplaced parts]
  | .conjure _ body => by simp [Expr.unplaced, Expr.walk, length_walkStmts_unplaced body]
  | .number _ _ | .bool _ _ | .string _ _ | .glyph _ _ | .codepoint _ _ | .null _ | .reference _
  | .function _ _ | .addressOf _ _ | .typeOf _ _ => rfl

@[simp]
theorem length_walkExprs_unplaced :
    ∀ expressions : List Expr,
      (walkExprs (unplacedExprs expressions)).length = (walkExprs expressions).length
  | [] => rfl
  | expression :: rest => by
    simp [unplacedExprs, walkExprs, Expr.length_walk_unplaced expression,
      length_walkExprs_unplaced rest]

@[simp]
theorem Stmt.length_walk_unplaced :
    ∀ statement : Stmt, statement.unplaced.walk.length = statement.walk.length
  | .declare _ _ value | .assign _ _ value | .returnValue _ value | .exscribe _ value
  | .evaluate _ value => by
    simp [Stmt.unplaced, Stmt.walk, Expr.length_walk_unplaced value]
  | .function _ _ body | .main _ body | .block _ body => by
    simp [Stmt.unplaced, Stmt.walk, length_walkStmts_unplaced body]
  | .branch _ condition consequent alternative => by
    simp [Stmt.unplaced, Stmt.walk, Expr.length_walk_unplaced condition,
      length_walkStmts_unplaced consequent, length_walkStmts_unplaced alternative]
  | .loop _ condition body => by
    simp [Stmt.unplaced, Stmt.walk, Expr.length_walk_unplaced condition,
      length_walkStmts_unplaced body]
  | .affix _ _ | .step _ _ _ | .breakLoop _ | .returnVoid _ => rfl

@[simp]
theorem length_walkStmts_unplaced :
    ∀ body : List Stmt, (walkStmts (unplacedBody body)).length = (walkStmts body).length
  | [] => rfl
  | statement :: rest => by
    simp [unplacedBody, walkStmts, Stmt.length_walk_unplaced statement,
      length_walkStmts_unplaced rest]

end

/-- The number of nodes of a program. -/
def Program.nodeCount (program : Program) : Nat :=
  (walkStmts program.body).length

@[simp]
theorem Program.nodeCount_unplaced (program : Program) :
    program.unplaced.nodeCount = program.nodeCount :=
  length_walkStmts_unplaced program.body

end GlyphCompiler
