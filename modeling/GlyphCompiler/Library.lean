/-
# The standard library

A library function belongs to a module and enters a scope only through an
import. It has a type like any function, and an intrinsic that says into what a
call of it turns.
-/

import GlyphCompiler.Ty.Basic

namespace GlyphCompiler

/-- What the calls of library functions turn into. -/
inductive Intrinsic
  | exscribe | typeOf | apply | supplant
  deriving DecidableEq, Repr

/-- The word for an intrinsic. -/
def Intrinsic.name : Intrinsic → String
  | .exscribe => "exscribe"
  | .typeOf => "typeof"
  | .apply => "apply"
  | .supplant => "supplant"

/-- A function of the standard library. -/
structure LibraryFunction where
  module : String
  name : String
  parameters : List Ty
  result : Ty
  intrinsic : Intrinsic
  deriving DecidableEq, Repr

namespace LibraryFunction

/-- The type of a library function. -/
def type (symbol : LibraryFunction) : Ty :=
  .function symbol.parameters symbol.result

/-- How many arguments a library function takes. -/
def arity (symbol : LibraryFunction) : Nat :=
  symbol.parameters.length

end LibraryFunction

namespace Library

/-- The functions of the library. -/
def functions : List LibraryFunction :=
  [⟨"io", "exscribe", [.any], .void, .exscribe⟩,
    ⟨"typing", "typeof", [.any], .string, .typeOf⟩,
    ⟨"function", "apply", [.any, .array .any], .array .any, .apply⟩,
    ⟨"string", "supplant", [.string, .string, .string], .string, .supplant⟩]

/-- Is there a module of a given name? -/
def hasModule (module : String) : Bool :=
  functions.any fun symbol => symbol.module == module

/-- The function of a given name in a module. -/
def find? (module name : String) : Option LibraryFunction :=
  functions.find? fun symbol => symbol.module == module && symbol.name == name

end Library

end GlyphCompiler
