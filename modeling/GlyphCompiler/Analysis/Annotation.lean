/-
# Types from their text

A type by itself is read as the annotation of a declaration that is written
around it. What is wrong with the text is reported as it would be there, at a
position in that declaration.
-/

import GlyphCompiler.Analysis.Types
import GlyphCompiler.Surface.OfTree
import GlyphCompiler.Tree.Parser

namespace GlyphCompiler

/-- The annotation of the first statement of a program, if that is a declaration. -/
def Surface.Program.declaredType? (program : Surface.Program) : Option Surface.TypeSyntax :=
  match program.body with
  | .declare _ _ _ type _ :: _ => type
  | .conjureBinding _ _ type _ :: _ => some type
  | _ => none

/-- The declaration that is written around a type. -/
def Ty.declaration (text : String) : String :=
  "let t: " ++ text ++ " = null;"

/-- The type that a text spells. -/
def Ty.ofText (text : String) : Except Failure Ty := do
  match (← Surface.ofTree (← parse (declaration text))).declaredType? with
  | none => throw (.fault .inconsistent)
  | some written =>
    match written.resolve with
    | .ok type => return type
    | .error diagnostic => throw (.diagnostic diagnostic)

end GlyphCompiler
