/-
# Arrays of known extent

How many elements an array has is known of an array literal, of a constant that
was first given one, and of an element of either at a known place. A path lists
the places to go down to from an expression. The search follows a constant to
its first value, in which only constants declared before it are followed on.
-/

import GlyphCompiler.Program.StaticValue

namespace GlyphCompiler

namespace Analysis

mutual

/-- The extent of the array at the end of a path, given the extents below variables. -/
def extentBelow (ofVariable : Variable → List Nat → Except Fault (Option Nat)) :
    Expr → List Nat → Except Fault (Option Nat)
  | .array _ elements, [] => .ok (some elements.length)
  | .array _ elements, place :: path => extentAt ofVariable elements place path
  | .reference use, path => ofVariable use.target path
  | .subscript _ base index, path => do
    match ← index.staticValue with
    | .number (.int (.ofNat place)) => extentBelow ofVariable base (place :: path)
    | _ => .ok none
  | _, _ => .ok none

/-- The extent at the end of a path from the element at a place. -/
def extentAt (ofVariable : Variable → List Nat → Except Fault (Option Nat)) :
    List Expr → Nat → List Nat → Except Fault (Option Nat)
  | [], _, _ => .ok none
  | element :: _, 0, path => extentBelow ofVariable element path
  | _ :: rest, place + 1, path => extentAt ofVariable rest place path

end

/-- The extent at the end of a path from a variable. The constants stand with their
first values, the latest first. -/
def extentOfVariable :
    List (Nat × Expr) → Variable → List Nat → Except Fault (Option Nat)
  | [], _, _ => .ok none
  | (id, value) :: earlier, target, path =>
    if id = target.id then extentBelow (extentOfVariable earlier) value path
    else extentOfVariable earlier target path

/-- The number of elements of an array, where it is known before the program runs. -/
def extent (constants : List (Nat × Expr)) (array : Expr) : Except Fault (Option Nat) :=
  extentBelow (extentOfVariable constants) array []

end Analysis

end GlyphCompiler
