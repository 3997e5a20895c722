/-
# Braun trees

A sequence with logarithmic access. The root holds the first element, the left
tree those at odd places and the right tree those at the other even places, so
a place is found by halving. Every operation is structural on the tree.
-/

namespace GlyphCompiler

/-- A sequence stored as a Braun tree. -/
inductive Braun (α : Type)
  | empty
  | node (first : α) (odd even : Braun α)

namespace Braun

variable {α : Type}

/-- The element at a place, if there is one. -/
def get? : Braun α → Nat → Option α
  | .empty, _ => none
  | .node first _ _, 0 => some first
  | .node _ odd even, place + 1 =>
    if place % 2 = 0 then odd.get? (place / 2) else even.get? (place / 2)

/-- Put an element at a place. The place just past the end extends the sequence. -/
def put : Braun α → Nat → α → Braun α
  | .empty, _, element => .node element .empty .empty
  | .node _ odd even, 0, element => .node element odd even
  | .node first odd even, place + 1, element =>
    if place % 2 = 0 then .node first (odd.put (place / 2) element) even
    else .node first odd (even.put (place / 2) element)

/-- Add the elements of a list, the first of them at a given place. -/
def extend (sequence : Braun α) (place : Nat) : List α → Braun α
  | [] => sequence
  | element :: rest => (sequence.put place element).extend (place + 1) rest

/-- The sequence of the elements of a list. -/
def ofList (elements : List α) : Braun α :=
  (empty : Braun α).extend 0 elements

end Braun

end GlyphCompiler
