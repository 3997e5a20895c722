/-
# Parsing

The parser reads a token, lets the automaton reduce for as long as the token
asks for it, and then shifts the token or refuses it. Which tokens can be read
depends on the state before any of these reductions.

A reduction replaces the topmost derivations by one that has them as children,
provided that they spell the body of its production. So whatever is on the
stack is a derivation in the grammar, whatever the automaton says.
-/

import GlyphCompiler.Diagnostic
import GlyphCompiler.Grammar.Automaton
import GlyphCompiler.Tree.Derivation

namespace GlyphCompiler

namespace Grammar

/-- The automaton of the Glyph grammar. -/
def automaton : Automaton := .ofRules rules

end Grammar

namespace Parser

/-- A state of the automaton with the derivation that led to it. -/
structure Frame where
  state : Nat
  derivation : Derivation

/-- The current state: the topmost one, or the initial one. -/
def currentState : List Frame → Nat
  | [] => 0
  | frame :: _ => frame.state

/-- The state of the automaton on top of a stack. -/
def stateOf (automaton : Automaton) (stack : List Frame) : Option State :=
  automaton.states.get? (currentState stack)

/-- The terminals that a state has an action for. -/
def admitted (state : State) : List Terminal :=
  state.actions.map Prod.fst

/-- What a token does to a stack. -/
inductive Step
  /-- The token is on the stack. -/
  | shifted (stack : List Frame)
  /-- A production was reduced; the token is still to be read. -/
  | reduced (stack : List Frame)
  /-- The whole input is derived. -/
  | accepted (derivation : Derivation)
  /-- The state has no action for the token. -/
  | refused (state : State)
  /-- The stack does not fit the automaton. -/
  | stuck

/-- Replace the topmost derivations by one that has them as children. A derivation
of the start symbol that leaves nothing below it is the whole input. -/
def reduce (automaton : Automaton) (production : Production) (stack : List Frame) : Step :=
  let length := production.body.length
  let children := ((stack.take length).map Frame.derivation).reverse
  let rest := stack.drop length
  if children.map Derivation.symbol = production.body then
    let derivation := Derivation.node production children
    if production.head = .start then
      if rest.isEmpty then .accepted derivation else .stuck
    else match (stateOf automaton rest).bind fun state =>
        state.successors.lookup production.head with
      | some target => .reduced (⟨target, derivation⟩ :: rest)
      | none => .stuck
  else .stuck

/-- One action of the automaton under a token. -/
def step (automaton : Automaton) (stack : List Frame) (token : Token) : Step :=
  match stateOf automaton stack with
  | none => .stuck
  | some state =>
    match state.actions.lookup token.kind with
    | none => .refused state
    | some (.shift target) => .shifted (⟨target, .leaf token⟩ :: stack)
    | some (.reduce production) => reduce automaton production stack

/-- Reduce until the token is shifted, refused, or ends the input. -/
def feed (automaton : Automaton) (token : Token) : Nat → List Frame → Step
  | 0, _ => .stuck
  | fuel + 1, stack =>
    match step automaton stack token with
    | .reduced stack => feed automaton token fuel stack
    | other => other

/-- More reductions than this never happen under one token: a production of two
symbols or more shortens the stack, and between two of these every production of
one symbol leads to a nonterminal not met since. -/
def reductionLimit (stack : List Frame) : Nat :=
  (stack.length + 1) * (Nonterminal.all.length + 1)

/-- Read one token. -/
def read (automaton : Automaton) (stack : List Frame) (token : Token) : Step :=
  feed automaton token (reductionLimit stack) stack

/-- The names of terminals in order, for a diagnostic. -/
def sortedLabels (terminals : List Terminal) : List String :=
  (terminals.map Terminal.label).mergeSort fun first second => !decide (second < first)

/-- What is said where no admitted terminal matches. A text that would be a token
elsewhere is unexpected as a whole, and the terminals tried are named. -/
def unreadable (state : State) (position : Position) (input : List Char) : Failure :=
  match Lexer.next? Terminal.all input with
  | some (_, length) =>
    let tried := (Lexer.candidates (admitted state)).filter fun terminal => !terminal.isIgnored
    .reject (.unexpectedText (String.ofList (input.take length))
      (if tried.isEmpty then ["<END-OF-FILE>"] else sortedLabels tried)) position
  | none =>
    match input with
    | character :: _ => .reject (.unexpectedCharacter character) position
    | [] => .fault .inconsistent

/-- End the input. What is missing is reported at the last token. -/
def finish (automaton : Automaton) (stack : List Frame) (last : Position) :
    Except Failure Derivation :=
  match read automaton stack ⟨.endOfInput, "", last⟩ with
  | .accepted derivation => .ok derivation
  | .refused _ => .error (.reject .unexpectedEnd last)
  | _ => .error (.fault .inconsistent)

/-- Parse the input from a position on, given the stack and the position of the
last token. -/
def parseFrom (automaton : Automaton) (stack : List Frame) (last position : Position)
    (input : List Char) : Except Failure Derivation :=
  if input.isEmpty then finish automaton stack last
  else match stateOf automaton stack with
    | none => .error (.fault .inconsistent)
    | some state =>
      match _ : Lexer.next? (admitted state) input with
      | none => .error (unreadable state position input)
      | some (kind, length) =>
        let text := input.take length
        let next := position.advance text
        if kind.isIgnored then parseFrom automaton stack last next (input.drop length)
        else
          let token : Token := ⟨kind, String.ofList text, position⟩
          match read automaton stack token with
          | .shifted stack => parseFrom automaton stack position next (input.drop length)
          | .refused state =>
            .error (.reject (.unexpectedText token.text (sortedLabels (admitted state))) position)
          | _ => .error (.fault .inconsistent)
termination_by input.length
decreasing_by
  all_goals
    have positive := Lexer.next?_pos ‹_›
    have nonempty : input ≠ [] := by simpa using ‹¬input.isEmpty = true›
    have := List.length_pos_iff.mpr nonempty
    simp only [List.length_drop]
    omega

end Parser

/-- The derivation of a source text. -/
def parseDerivation (source : String) : Except Failure Derivation :=
  Parser.parseFrom Grammar.automaton [] .start .start source.toList

/-- The parse tree of a source text. -/
def parse (source : String) : Except Failure Tree := do
  match (← parseDerivation source).tree? with
  | some tree => return tree
  | none => throw (.fault .inconsistent)

end GlyphCompiler
