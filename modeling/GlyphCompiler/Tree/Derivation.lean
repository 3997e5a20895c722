/-
# Derivations

A derivation spells out how the grammar derives a run of tokens: every token is
there, also the dropped ones, and every production that was used. The parse
tree is what the productions keep of it.
-/

import GlyphCompiler.Tree.Basic

namespace GlyphCompiler

/-- A derivation of a run of tokens from a symbol. -/
inductive Derivation
  | leaf (token : Token)
  | node (production : Production) (children : List Derivation)

namespace Derivation

/-- The symbol that a derivation derives its tokens from. -/
def symbol : Derivation → Symbol
  | .leaf token => .terminal token.kind
  | .node production _ => .nonterminal production.head

/-- The position of the first token. The empty derivation stands at the start. -/
def position : Derivation → Position
  | .leaf token => token.position
  | .node _ [] => .start
  | .node _ (first :: _) => first.position

mutual

/-- The derived tokens in order. -/
def tokens : Derivation → List Token
  | .leaf token => [token]
  | .node _ children => tokensOf children

/-- The tokens of some derivations in order. -/
def tokensOf : List Derivation → List Token
  | [] => []
  | child :: rest => child.tokens ++ tokensOf rest

end

/-- The kept parts of a production, given what each symbol of its body contributes. -/
def keep : List Part → List (List (Option Tree)) → List (Option Tree)
  | [], _ => []
  | .absent :: parts, contributions => none :: keep parts contributions
  | .keep _ :: parts, contribution :: contributions => contribution ++ keep parts contributions
  | .drop _ :: parts, _ :: contributions => keep parts contributions
  | _ :: _, [] => []

mutual

/-- What a derivation contributes to the node around it. -/
def contribution : Derivation → List (Option Tree)
  | .leaf token => [some (.token token)]
  | .node production children =>
    let kept := keep production.parts (contributions children)
    match production.build with
    | .splice => kept
    | .node label => [some (.node label (position (.node production children)) kept)]

/-- What some derivations contribute, one by one. -/
def contributions : List Derivation → List (List (Option Tree))
  | [] => []
  | child :: rest => child.contribution :: contributions rest

end

/-- The parse tree of a derivation, if it contributes one tree. -/
def tree? (derivation : Derivation) : Option Tree :=
  match derivation.contribution with
  | [some tree] => some tree
  | _ => none

end Derivation

end GlyphCompiler
