/-
# Where a `main` stands

A `main` is a statement, which may stand in any body, that of a function or of a
conjure expression included.
-/

import GlyphCompiler.Surface.OfTree
import GlyphCompiler.Tree.Parser

namespace GlyphCompiler

namespace Surface

mutual

/-- Is there a `main` in an expression? -/
def Expr.hasMain : Expr → Bool
  | .integer _ _ | .decimal _ _ | .string _ _ | .quoted _ _ | .codepoint _ _ | .bool _ _ | .null _
  | .name _ => false
  | .binary _ _ left right => left.hasMain || right.hasMain
  | .unary _ _ operand | .addressOf _ operand | .dereference _ operand => operand.hasMain
  | .subscript _ base index => base.hasMain || index.hasMain
  | .call _ arguments => anyHasMain arguments
  | .array _ elements => anyHasMain elements
  | .conjure _ body => bodyHasMain body

/-- Is there a `main` in some expressions? -/
def anyHasMain : List Expr → Bool
  | [] => false
  | first :: rest => first.hasMain || anyHasMain rest

/-- Is a statement a `main`, or is there one in it? -/
def Stmt.hasMain : Stmt → Bool
  | .main _ _ => true
  | .affix _ _ _ | .step _ _ _ | .breakLoop _ | .returnVoid _ => false
  | .function _ _ _ _ body | .conjureBinding _ _ _ body | .block _ body => bodyHasMain body
  | .declare _ _ _ _ value | .assign _ _ value | .returnValue _ value | .exscribe _ value =>
    value.hasMain
  | .branch _ condition consequent alternative =>
    condition.hasMain || (bodyHasMain consequent || bodyHasMain alternative)
  | .loop _ condition body => condition.hasMain || bodyHasMain body
  | .call _ _ arguments => anyHasMain arguments

/-- Is there a `main` in some statements? -/
def bodyHasMain : List Stmt → Bool
  | [] => false
  | first :: rest => first.hasMain || bodyHasMain rest

end

/-- Is there a `main` inside a statement, below the statement itself? -/
def Stmt.hasInnerMain : Stmt → Bool
  | .main _ body => body.hasMain
  | statement => statement.hasMain

theorem hasInnerMain_of_hasMain {statement : Stmt} (none : statement.hasMain = false) :
    statement.hasInnerMain = false := by
  cases statement with
  | main position body => cases none
  | _ => exact none

theorem bodyHasMain_eq_any (body : List Stmt) : bodyHasMain body = body.any Stmt.hasMain := by
  induction body with
  | nil => rfl
  | cons statement body ih => rw [bodyHasMain, ih, List.any_cons]

theorem anyHasMain_eq_any (values : List Expr) : anyHasMain values = values.any Expr.hasMain := by
  induction values with
  | nil => rfl
  | cons value values ih => rw [anyHasMain, ih, List.any_cons]

end Surface

/-- Is there a `main` in a source text? -/
def holdsMain (source : String) : Bool :=
  match parse source >>= Surface.ofTree with
  | .ok program => Surface.bodyHasMain program.body
  | .error _ => false

end GlyphCompiler
