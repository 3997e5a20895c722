/-
# The parsing automaton

The automaton is built from the productions alone. An item is a production with
a dot in its body. The items of a grammar are numbered so that moving the dot
over a symbol adds one, and a set of items is the number whose binary digits
say which items it holds: moving the dot doubles the number. A state is such a
set, closed under the start of every nonterminal that a dot stands before.

A finished item may be reduced only under the terminals that can follow its
head where the item was begun. These lookaheads are least sets: what can be
read after a nonterminal, together with what can follow the nonterminals that
it ends. Where a state can both shift and reduce, it shifts.
-/

import GlyphCompiler.Grammar.Braun
import GlyphCompiler.Grammar.Rules

namespace GlyphCompiler

/-- What the automaton does in a state under a lookahead. -/
inductive Action
  | shift (target : Nat)
  | reduce (production : Production)

/-- One state: its action for each terminal that it admits, and its successor
for each nonterminal that may be completed in it. -/
structure State where
  actions : List (Terminal × Action)
  successors : List (Nonterminal × Nat)

/-- A parsing automaton. The first state is the initial one. -/
structure Automaton where
  states : Braun State

namespace Automaton

/-! ## Items -/

/-- A production with a dot in its body: how many symbols stand before the dot,
and the number of the one just after it, or zero at the end. -/
structure Item where
  production : Production
  dot : Nat
  next : Nat

/-- The items of a production whose dot stands at or after a given place. -/
def itemsFrom (production : Production) (dot : Nat) : List Symbol → List Item
  | [] => [⟨production, dot, 0⟩]
  | symbol :: rest => ⟨production, dot, symbol.number⟩ :: itemsFrom production (dot + 1) rest

/-- The items of a grammar, in the order in which they are numbered. -/
def items (rules : List Production) : List Item :=
  rules.flatMap fun production => itemsFrom production 0 production.body

/-- The set of the items that pass a test. -/
def itemSet (test : Item → Bool) : List Item → Nat
  | [] => 0
  | item :: rest => (bif test item then 1 else 0) + 2 * itemSet test rest

/-- The items with the dot before a symbol. -/
def itemsBefore (items : List Item) (symbol : Symbol) : Nat :=
  itemSet (fun item => Nat.beq item.next symbol.number) items

/-- The items that begin a nonterminal. -/
def itemsOf (items : List Item) (nonterminal : Nonterminal) : Nat :=
  itemSet (fun item => Nat.beq item.dot 0 && item.production.head == nonterminal) items

/-! ## States -/

/-- For one nonterminal, the items with the dot before it and the items that begin it. -/
structure Opening where
  before : Nat
  begins : Nat

/-- Add to a set the items that begin a nonterminal with a dot before it. -/
def close (openings : List Opening) (set : Nat) : Nat :=
  openings.foldl (fun closed opening =>
    bif Nat.beq (set &&& opening.before) 0 then closed else closed ||| opening.begins) set

/-- Close what begins each nonterminal. Every round doubles the length of the
chains of nonterminals that have been followed. -/
def closeOpenings : Nat → List Opening → List Opening
  | 0, openings => openings
  | rounds + 1, openings =>
    closeOpenings rounds (openings.map fun opening =>
      { opening with begins := close openings opening.begins })

/-- The closed openings of a grammar. As many rounds as there are binary digits
in the number of nonterminals follow every chain to its end. -/
def openings (items : List Item) : List Opening :=
  closeOpenings (Nat.log2 Nonterminal.all.length + 1)
    (Nonterminal.all.map fun nonterminal =>
      ⟨itemsBefore items (.nonterminal nonterminal), itemsOf items nonterminal⟩)

/-- A symbol that the dot can be moved over: the items with the dot before it,
and the states entered by it so far, each with the items that it was entered with. -/
structure Crossing where
  symbol : Symbol
  before : Nat
  entered : List (Nat × Nat)

/-- An edge of the automaton. The edges are numbered in the order of their discovery. -/
structure Edge where
  symbol : Symbol
  target : Nat
  number : Nat

/-- Find the edges that leave a set of items, with the item sets of the states
that are met for the first time. -/
def leave (set : Nat) (stateCount edgeCount : Nat) :
    List Crossing → List Crossing × List Edge × List Nat
  | [] => ([], [], [])
  | crossing :: rest =>
    let moved := set &&& crossing.before
    bif Nat.beq moved 0 then
      match leave set stateCount edgeCount rest with
      | (crossings, edges, fresh) => (crossing :: crossings, edges, fresh)
    else
      match crossing.entered.lookup (2 * moved) with
      | some target =>
        match leave set stateCount (edgeCount + 1) rest with
        | (crossings, edges, fresh) =>
          (crossing :: crossings, ⟨crossing.symbol, target, edgeCount⟩ :: edges, fresh)
      | none =>
        match leave set (stateCount + 1) (edgeCount + 1) rest with
        | (crossings, edges, fresh) =>
          ({ crossing with entered := (2 * moved, stateCount) :: crossing.entered } :: crossings,
            ⟨crossing.symbol, stateCount, edgeCount⟩ :: edges, 2 * moved :: fresh)

/-- Visit the pending states in order, and list the edges that leave each. The
fuel bounds the number of states. -/
def explore (openings : List Opening) :
    Nat → List Crossing → Nat → Nat → List Nat → List (List Edge)
  | 0, _, _, _, _ => []
  | _ + 1, _, _, _, [] => []
  | fuel + 1, crossings, stateCount, edgeCount, set :: pending =>
    match leave (close openings set) stateCount edgeCount crossings with
    | (crossings, edges, fresh) =>
      edges :: explore openings fuel crossings (stateCount + fresh.length)
        (edgeCount + edges.length) (pending ++ fresh)

/-- No automaton of interest has more states than this. -/
def stateLimit : Nat := 4096

/-- The edges that leave each state, the initial state first. -/
def edges (items : List Item) : List (List Edge) :=
  explore (openings items) stateLimit
    ((Symbol.all.map fun symbol => ⟨symbol, itemsBefore items symbol, []⟩).filter
      fun crossing => crossing.before != 0)
    1 0 [itemsOf items .start]

/-! ## Lookaheads -/

/-- The set of one terminal, as a number. -/
def terminalSet (terminal : Terminal) : Nat := 1 <<< terminal.ctorIdx

/-- Is a terminal in a set? -/
def inTerminalSet (terminal : Terminal) (set : Nat) : Bool :=
  set.testBit terminal.ctorIdx

/-- The edge that leaves a state by a symbol. -/
def edge? (rows : Braun (List Edge)) (state : Nat) (symbol : Symbol) : Option Edge :=
  (rows.get? state).bind fun row =>
    row.find? fun edge => Nat.beq edge.symbol.number symbol.number

/-- Follow the symbols of a body from a state: the state at the end, and the
edge taken last. -/
def walk (rows : Braun (List Edge)) :
    Nat → Option Edge → List Symbol → Option (Nat × Option Edge)
  | state, last, [] => some (state, last)
  | state, _, symbol :: rest =>
    match edge? rows state symbol with
    | some edge => walk rows edge.target (some edge) rest
    | none => none

/-- A production spelled out from the state in which its head was begun: the
number of the head's edge there, the state in which the body ends, and the edge
taken last. -/
structure Span where
  production : Production
  origin : Nat
  finish : Nat
  last : Option Edge

/-- The spans of the productions of one nonterminal from one state. -/
def spansOf (rules : List Production) (rows : Braun (List Edge)) (state origin : Nat)
    (head : Nonterminal) : List Span :=
  rules.filterMap fun production =>
    bif production.head == head then
      (walk rows state none production.body).map fun stop =>
        ⟨production, origin, stop.1, stop.2⟩
    else none

/-- The spans of the nonterminals begun in each state. -/
def spansFrom (rules : List Production) (rows : Braun (List Edge)) :
    Nat → List (List Edge) → List Span
  | _, [] => []
  | state, row :: rest =>
    (row.flatMap fun edge => match edge.symbol with
      | .nonterminal head => spansOf rules rows state edge.number head
      | .terminal _ => []) ++ spansFrom rules rows (state + 1) rest

/-- The terminals that can be read in a state. -/
def readSet (rows : Braun (List Edge)) (state : Nat) : Nat :=
  ((rows.get? state).getD []).foldl (fun set edge => match edge.symbol with
    | .terminal kind => set ||| terminalSet kind
    | .nonterminal _ => set) 0

/-- Whatever follows the head of a span follows the nonterminal that ends it:
the numbers of the two edges, the inner one first. -/
def inclusions (spans : List Span) : List (Nat × Nat) :=
  spans.filterMap fun span => match span.last with
    | some ⟨.nonterminal _, _, number⟩ => some (number, span.origin)
    | _ => none

/-- Apply every inclusion once, and say whether anything was added. -/
def includeOnce : Bool → List (Nat × Nat) → Braun Nat → Braun Nat × Bool
  | changed, [], follow => (follow, changed)
  | changed, (inner, outer) :: rest, follow =>
    let set := (follow.get? inner).getD 0
    let union := set ||| (follow.get? outer).getD 0
    bif Nat.beq union set then includeOnce changed rest follow
    else includeOnce true rest (follow.put inner union)

/-- Apply the inclusions until nothing is added. A chain of inclusions meets each
of them at most once, so their number bounds the rounds. -/
def includeAll (inclusions : List (Nat × Nat)) : Nat → Braun Nat → Braun Nat
  | 0, follow => follow
  | fuel + 1, follow =>
    match includeOnce false inclusions follow with
    | (follow, true) => includeAll inclusions fuel follow
    | (follow, false) => follow

/-- Group the reductions by the state in which they are made, each with its lookaheads. -/
def reductions (follow : Braun Nat) :
    List Span → Braun (List (Production × Nat)) → Braun (List (Production × Nat))
  | [], table => table
  | span :: rest, table =>
    reductions follow rest (table.put span.finish
      ((span.production, (follow.get? span.origin).getD 0) ::
        (table.get? span.finish).getD []))

/-- The actions of reductions under the lookaheads that no earlier action has taken. -/
def reduceActions : Nat → List (Production × Nat) → List (Terminal × Action)
  | _, [] => []
  | taken, (production, set) :: rest =>
    bif Nat.beq (taken ||| set) taken then reduceActions taken rest
    else
      (Terminal.all.filterMap fun terminal =>
        bif inTerminalSet terminal set && !inTerminalSet terminal taken then
          some (terminal, .reduce production)
        else none) ++ reduceActions (taken ||| set) rest

/-- The state with given outgoing edges and reductions. Shifts come first. -/
def stateOf (row : List Edge) (reductions : List (Production × Nat)) : State where
  actions :=
    (row.filterMap fun edge => match edge.symbol with
      | .terminal kind => some (kind, .shift edge.target)
      | .nonterminal _ => none) ++
    reduceActions
      (row.foldl (fun set edge => match edge.symbol with
        | .terminal kind => set ||| terminalSet kind
        | .nonterminal _ => set) 0)
      reductions
  successors := row.filterMap fun edge => match edge.symbol with
    | .terminal _ => none
    | .nonterminal category => some (category, edge.target)

/-- The states with given outgoing edges. -/
def statesOf (reductions : Braun (List (Production × Nat))) :
    Nat → List (List Edge) → List State
  | _, [] => []
  | state, row :: rest =>
    stateOf row ((reductions.get? state).getD []) :: statesOf reductions (state + 1) rest

/-- The automaton of a grammar. The start symbol is begun once, in the initial
state, and followed by the end of the input; its origin is numbered past all edges. -/
def ofRules (rules : List Production) : Automaton :=
  let rowList := edges (items rules)
  let rows := Braun.ofList rowList
  let edgeList := rowList.flatten
  let startOrigin := edgeList.length
  let spans := spansOf rules rows 0 startOrigin .start ++ spansFrom rules rows 0 rowList
  let reads := edgeList.map fun edge => match edge.symbol with
    | .nonterminal _ => readSet rows edge.target
    | .terminal _ => 0
  let inclusions := inclusions spans
  let follow := includeAll inclusions (inclusions.length + 1)
    ((Braun.ofList reads).put startOrigin (terminalSet .endOfInput))
  ⟨Braun.ofList (statesOf
    (reductions follow spans (Braun.ofList (rowList.map fun _ => []))) 0 rowList)⟩

end Automaton

end GlyphCompiler
