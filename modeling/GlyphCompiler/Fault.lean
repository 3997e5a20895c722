/-
# Faults

A fault is a failure for which the program text is not to blame at a position:
a number outgrows what can be computed or written, or a file cannot have the
name that is given for it. The last fault stands for a disagreement between the
parts of the compiler that no source text brings about.
-/

namespace GlyphCompiler

/-- The failures that are no diagnostics. -/
inductive Fault
  /-- A whole number is too large for the floating-point operation that needs it. -/
  | integerTooLarge
  /-- An infinite dividend has no remainder. -/
  | undefinedRemainder
  /-- A whole number has more decimal digits than may be read or written. -/
  | tooManyDigits
  /-- A file name holds a null character. -/
  | nullInFileName
  /-- The parts of the compiler disagree about a tree or a table. -/
  | inconsistent
  deriving DecidableEq, Repr

/-- The wording of a fault. -/
def Fault.message : Fault → String
  | integerTooLarge => "a whole number is too large for floating-point arithmetic"
  | undefinedRemainder => "an infinite number has no remainder"
  | tooManyDigits => "a whole number has too many digits"
  | nullInFileName => "a file name holds a null character"
  | inconsistent => "the compiler contradicts itself"

end GlyphCompiler
