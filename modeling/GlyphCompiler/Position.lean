/-
# Positions in a source text

A position names a line and a column, both counted from one. Only a line feed
ends a line, and a column counts characters, so a tab or a carriage return is
one column like any other character.
-/

namespace GlyphCompiler

/-- A place in a source text: line and column, both counted from one. -/
structure Position where
  line : Nat
  column : Nat
  deriving DecidableEq, Repr, Inhabited

namespace Position

/-- The first character of a text. -/
def start : Position := ⟨1, 1⟩

/-- The position just after one character. -/
def next (position : Position) (character : Char) : Position :=
  if character = '\n' then ⟨position.line + 1, 1⟩
  else ⟨position.line, position.column + 1⟩

/-- The position just after a run of characters. -/
def advance (position : Position) (characters : List Char) : Position :=
  characters.foldl next position

@[simp]
theorem advance_nil (position : Position) : position.advance [] = position := rfl

/-- Walking over two runs in turn is walking over their concatenation. -/
theorem advance_append (position : Position) (first second : List Char) :
    position.advance (first ++ second) = (position.advance first).advance second :=
  List.foldl_append

end Position

end GlyphCompiler
