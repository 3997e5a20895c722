/-
# Types from their syntax

A written type is resolved from its names up. A function type of one part has no
parameters; one of several parts needs an arrow.
-/

import GlyphCompiler.Diagnostic
import GlyphCompiler.Surface.Basic

namespace GlyphCompiler

namespace Surface.TypeSyntax

mutual

/-- The type that is written. -/
def resolve : TypeSyntax → Except Diagnostic Ty
  | .named ident =>
    match Ty.ofName? ident.name with
    | some type => .ok type
    | none => .error ⟨.unknownType ident.name, ident.position⟩
  | .pointer target => return .pointer (← target.resolve)
  | .optional inner => return .optional (← inner.resolve)
  | .array element => return .array (← element.resolve)
  | .function _ listed (some result) => do
    let parameters ← resolveAll listed
    return .function parameters (← result.resolve)
  | .function position listed none => do
    match ← resolveAll listed with
    | [result] => return .function [] result
    | _ => throw ⟨.functionTypeWithoutResult, position⟩

/-- Some types that are written, in order. -/
def resolveAll : List TypeSyntax → Except Diagnostic (List Ty)
  | [] => .ok []
  | first :: rest => return (← first.resolve) :: (← resolveAll rest)

end

end Surface.TypeSyntax

end GlyphCompiler
