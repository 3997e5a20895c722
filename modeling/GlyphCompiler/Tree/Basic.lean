/-
# Parse trees

A parse tree holds what the grammar keeps of a source text. A node has a label,
the position of its first token (dropped ones included), and its children in
order, where an optional part that was left out is an empty slot.
-/

import GlyphCompiler.Grammar.Rules
import GlyphCompiler.Token.Lexer

namespace GlyphCompiler

/-- A parse tree. -/
inductive Tree
  | token (leaf : Token)
  | node (label : Label) (position : Position) (children : List (Option Tree))

namespace Tree

/-- Two spaces for each level. -/
def indent (level : Nat) : String :=
  String.ofList (List.replicate (2 * level) ' ')

mutual

/-- The lines of a tree, each ended by a line feed. A node whose only child is not
a node stands on one line with it. -/
def outlineAt (level : Nat) : Tree → String
  | .token leaf => indent level ++ leaf.text ++ "\n"
  | .node label _ [none] => indent level ++ label.text ++ "\tNone\n"
  | .node label _ [some (.token leaf)] =>
    indent level ++ label.text ++ "\t" ++ leaf.text ++ "\n"
  | .node label _ children =>
    indent level ++ label.text ++ "\n" ++ outlineChildren (level + 1) children

/-- The lines of the children of a node. -/
def outlineChildren (level : Nat) : List (Option Tree) → String
  | [] => ""
  | none :: rest => indent level ++ "None\n" ++ outlineChildren level rest
  | some child :: rest => outlineAt level child ++ outlineChildren level rest

end

/-- A tree as an indented outline. -/
def outline (tree : Tree) : String := outlineAt 0 tree

end Tree

end GlyphCompiler
