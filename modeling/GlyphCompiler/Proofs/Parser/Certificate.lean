/-
# A check that a table is complete

Whether an automaton accepts everything that a grammar derives can be read off
its table. Every production must be spelled by a path from each state in which
its head can be begun, and the state at the end of the path must reduce it under
every terminal that may come next.

What may come next is not known beforehand, so the check is generous: it takes
for the followers of a nonterminal in a state all terminals under which every
production of the nonterminal is reduced there. What remains is to see that the
terminals which can follow a nonterminal inside a body, and at its end, are
among them. A set of terminals is the number whose binary digits say which of
them it holds.
-/

import GlyphCompiler.Tree.Parser

namespace GlyphCompiler

namespace Braun

variable {α β : Type}

/-- Apply a function to every element. -/
def map (function : α → β) : Braun α → Braun β
  | .empty => .empty
  | .node first odd even => .node (function first) (odd.map function) (even.map function)

/-- Do all elements pass a test that is told their places? The elements stand at
every `stride`-th place from `place` on. -/
def allFrom (test : Nat → α → Bool) (place stride : Nat) : Braun α → Bool
  | .empty => true
  | .node first odd even =>
    test place first && odd.allFrom test (place + stride) (2 * stride) &&
      even.allFrom test (place + 2 * stride) (2 * stride)

/-- Do all elements pass a test that is told their places? -/
def all (test : Nat → α → Bool) (sequence : Braun α) : Bool :=
  sequence.allFrom test 0 1

@[simp]
theorem get?_map (function : α → β) (sequence : Braun α) (place : Nat) :
    (sequence.map function).get? place = (sequence.get? place).map function := by
  induction sequence generalizing place with
  | empty => rfl
  | node first odd even ihOdd ihEven =>
    cases place with
    | zero => rfl
    | succ place =>
      by_cases half : place % 2 = 0 <;> simp [map, get?, half, ihOdd, ihEven]

theorem test_of_allFrom {test : Nat → α → Bool} {sequence : Braun α} {first stride : Nat}
    (passed : sequence.allFrom test first stride) {place : Nat} {element : α}
    (here : sequence.get? place = some element) : test (first + stride * place) element := by
  induction sequence generalizing first stride place with
  | empty => exact absurd here nofun
  | node root odd even ihOdd ihEven =>
    simp only [allFrom, Bool.and_eq_true] at passed
    obtain ⟨⟨passedRoot, passedOdd⟩, passedEven⟩ := passed
    cases place with
    | zero =>
      obtain rfl := Option.some.inj here
      simpa using passedRoot
    | succ place =>
      by_cases half : place % 2 = 0 <;> simp only [get?, half, if_true, if_false] at here
      · have found := ihOdd passedOdd here
        have same : first + stride + 2 * stride * (place / 2) = first + stride * (place + 1) := by
          obtain ⟨count, rfl⟩ := Nat.dvd_of_mod_eq_zero half
          rw [Nat.mul_div_cancel_left _ Nat.two_pos]
          grind
        exact same ▸ found
      · have found := ihEven passedEven here
        have same : first + 2 * stride + 2 * stride * (place / 2) =
            first + stride * (place + 1) := by
          obtain ⟨count, rfl⟩ : ∃ count, place = 2 * count + 1 := ⟨place / 2, by omega⟩
          rw [show (2 * count + 1) / 2 = count by omega]
          grind
        exact same ▸ found

/-- A test that all elements pass is passed at every place. -/
theorem test_of_all {test : Nat → α → Bool} {sequence : Braun α} (passed : sequence.all test)
    {place : Nat} {element : α} (here : sequence.get? place = some element) :
    test place element := by
  simpa using test_of_allFrom passed here

end Braun

/-! ## Sets of terminals -/

namespace Terminal

theorem ctorIdx_injective {first second : Terminal} (same : first.ctorIdx = second.ctorIdx) :
    first = second := by
  have listed (terminal : Terminal) : all[terminal.ctorIdx]? = some terminal := by
    cases terminal <;> rfl
  have found := listed first
  rw [same, listed second] at found
  exact (Option.some.inj found).symm

end Terminal

namespace Automaton

@[simp]
theorem inTerminalSet_terminalSet (first second : Terminal) :
    inTerminalSet first (terminalSet second) = true ↔ first = second := by
  rw [inTerminalSet, terminalSet, Nat.one_shiftLeft, Nat.testBit_two_pow, decide_eq_true_eq]
  exact ⟨fun same => (Terminal.ctorIdx_injective same).symm, fun same => same ▸ rfl⟩

@[simp]
theorem inTerminalSet_union (terminal : Terminal) (first second : Nat) :
    inTerminalSet terminal (first ||| second) = true ↔
      inTerminalSet terminal first = true ∨ inTerminalSet terminal second = true := by
  simp [inTerminalSet]

@[simp]
theorem inTerminalSet_inter (terminal : Terminal) (first second : Nat) :
    inTerminalSet terminal (first &&& second) = true ↔
      inTerminalSet terminal first = true ∧ inTerminalSet terminal second = true := by
  simp [inTerminalSet]

@[simp]
theorem not_inTerminalSet_zero (terminal : Terminal) : ¬inTerminalSet terminal 0 = true := by
  simp [inTerminalSet]

/-- Is one set within another? -/
def within (first second : Nat) : Bool := Nat.beq (first ||| second) second

theorem inTerminalSet_of_within {first second : Nat} (inside : within first second)
    {terminal : Terminal} (member : inTerminalSet terminal first) :
    inTerminalSet terminal second := by
  rw [← Nat.eq_of_beq_eq_true inside, inTerminalSet_union]
  exact .inl member

/-! ## Reading the table -/

/-- The terminals that some actions shift. -/
def shiftSet : List (Terminal × Action) → Nat
  | [] => 0
  | (kind, .shift _) :: rest => terminalSet kind ||| shiftSet rest
  | (_, .reduce _) :: rest => shiftSet rest

/-- The terminals under which some actions reduce. -/
def reduceSet : List (Terminal × Action) → Nat
  | [] => 0
  | (_, .shift _) :: rest => reduceSet rest
  | (kind, .reduce _) :: rest => terminalSet kind ||| reduceSet rest

/-- Do all reductions among some actions have the same production? -/
def reducesOnly (production : Production) : List (Terminal × Action) → Bool
  | [] => true
  | (_, .shift _) :: rest => reducesOnly production rest
  | (_, .reduce other) :: rest => other = production && reducesOnly production rest

theorem inTerminalSet_shiftSet {actions : List (Terminal × Action)} {kind : Terminal}
    {target : Nat} (member : (kind, .shift target) ∈ actions) :
    inTerminalSet kind (shiftSet actions) := by
  induction actions with
  | nil => exact absurd member nofun
  | cons action rest ih =>
    rcases List.mem_cons.mp member with rfl | later
    · simp [shiftSet]
    · obtain ⟨other, asked⟩ := action
      cases asked <;> simp [shiftSet, ih later]

theorem exists_mem_of_inTerminalSet_reduceSet {actions : List (Terminal × Action)}
    {kind : Terminal} (member : inTerminalSet kind (reduceSet actions)) :
    ∃ production, (kind, .reduce production) ∈ actions := by
  induction actions with
  | nil => simp [reduceSet] at member
  | cons action rest ih =>
    obtain ⟨other, asked⟩ := action
    cases asked with
    | shift target =>
      obtain ⟨production, listed⟩ := ih member
      exact ⟨production, List.mem_cons_of_mem _ listed⟩
    | reduce production =>
      simp only [reduceSet, inTerminalSet_union, inTerminalSet_terminalSet] at member
      rcases member with rfl | later
      · exact ⟨production, List.mem_cons_self⟩
      · obtain ⟨production, listed⟩ := ih later
        exact ⟨production, List.mem_cons_of_mem _ listed⟩

theorem eq_of_reducesOnly {production other : Production} {actions : List (Terminal × Action)}
    (only : reducesOnly production actions) {kind : Terminal}
    (member : (kind, .reduce other) ∈ actions) : other = production := by
  induction actions with
  | nil => exact absurd member nofun
  | cons action rest ih =>
    obtain ⟨_, asked⟩ := action
    cases asked with
    | shift target =>
      exact ih only (by simpa using member)
    | reduce found =>
      simp only [reducesOnly, Bool.and_eq_true, decide_eq_true_eq] at only
      rcases List.mem_cons.mp member with same | later
      · cases same
        exact only.1
      · exact ih only.2 later

end Automaton

/-- The state entered from a state over a symbol. -/
def State.entered? (state : State) : Symbol → Option Nat
  | .terminal kind =>
    match state.actions.lookup kind with
    | some (.shift target) => some target
    | _ => none
  | .nonterminal category => state.successors.lookup category

namespace Automaton

/-- The place entered from a place over a symbol. -/
def entered? (automaton : Automaton) (place : Nat) (symbol : Symbol) : Option Nat :=
  (automaton.states.get? place).bind (·.entered? symbol)

/-- A state together with the terminals that it shifts, those that it reduces under,
and the production of its first reduction. -/
structure Digest where
  state : State
  shifts : Nat
  reduces : Nat
  production? : Option Production

/-- The production that an action reduces. -/
def production? : Action → Option Production
  | .shift _ => none
  | .reduce production => some production

/-- The digest of a state. -/
def digest (state : State) : Digest :=
  ⟨state, shiftSet state.actions, reduceSet state.actions,
    state.actions.findSome? fun action => production? action.2⟩

/-! ## The check -/

/-- Does a state reduce a production, and nothing else, under all of some terminals? -/
def Digest.reducesUnder (found : Digest) (production : Production) (after : Nat) : Bool :=
  decide (found.production? = some production) && reducesOnly production found.state.actions &&
    within after found.reduces && Nat.beq (found.shifts &&& found.reduces) 0

/-- The place at the end of the path that spells a body. -/
def spelledTo (digests : Braun Digest) : Nat → List Symbol → Option Nat
  | place, [] => some place
  | place, symbol :: rest =>
    ((digests.get? place).bind (·.state.entered? symbol)).bind (spelledTo digests · rest)

/-- The terminals under which a state reduces. -/
def reducesAt (digests : Braun Digest) (place : Nat) : Nat :=
  ((digests.get? place).map Digest.reduces).getD 0

/-- The terminals that a state shifts. -/
def shiftsAt (digests : Braun Digest) (place : Nat) : Nat :=
  ((digests.get? place).map Digest.shifts).getD 0

/-- The terminals under which every production of a nonterminal is reduced when it was
begun in a state. -/
def followers (digests : Braun Digest) (rules : List Production) (place : Nat)
    (category : Nonterminal) : Nat :=
  (rules.filter fun rule => rule.head = category).foldl
    (fun set rule => match spelledTo digests place rule.body with
      | some finish => set &&& reducesAt digests finish
      | none => 0)
    (Nat.pow 2 Terminal.all.length - 1)

/-- Does a path from a place spell the rest of a production, so that what comes next
is always among the followers? -/
def spells (digests : Braun Digest) (follow : Nat → Nonterminal → Nat) (rule : Production)
    (after : Nat) : Nat → List Symbol → Bool
  | place, [] =>
    match digests.get? place with
    | some found => found.reducesUnder rule after
    | none => false
  | place, symbol :: rest =>
    match (digests.get? place).bind (·.state.entered? symbol) with
    | some next =>
      (match symbol with
        | .terminal _ => true
        | .nonterminal category =>
          within (if rest.isEmpty then after else shiftsAt digests next)
            (follow place category)) &&
        spells digests follow rule after next rest
    | none => false

/-- Are all productions of the nonterminals that can be completed in a state spelled
from there? -/
def completeAt (digests : Braun Digest) (rules : List Production) (place : Nat)
    (state : State) : Bool :=
  state.successors.all fun successor =>
    decide (successor.1 ≠ .start) &&
      (rules.filter fun rule => rule.head = successor.1).all fun rule =>
        spells digests (followers digests rules) rule
          (followers digests rules place successor.1) place rule.body

/-- Is the table of an automaton complete for some rules? The start symbol is begun in
the initial state and followed by the end of the input. -/
def isComplete (automaton : Automaton) (rules : List Production) : Bool :=
  let digests := automaton.states.map digest
  automaton.states.all (completeAt digests rules) &&
    (rules.filter fun rule => rule.head = .start).all fun rule =>
      spells digests (followers digests rules) rule (terminalSet .endOfInput) 0 rule.body

/-! ## What the check says -/

section Meaning

variable {automaton : Automaton} {rules : List Production}

theorem bind_digests (automaton : Automaton) (place : Nat) (symbol : Symbol) :
    ((automaton.states.map digest).get? place).bind (·.state.entered? symbol) =
      automaton.entered? place symbol := by
  rw [Braun.get?_map, entered?]
  cases automaton.states.get? place <;> rfl

theorem inTerminalSet_shiftsAt {place target : Nat} {kind : Terminal}
    (shifts : automaton.entered? place (.terminal kind) = some target) :
    inTerminalSet kind (shiftsAt (automaton.states.map digest) place) := by
  obtain ⟨state, here, entered⟩ := Option.bind_eq_some_iff.mp shifts
  rw [shiftsAt, Braun.get?_map, here]
  simp only [State.entered?] at entered
  split at entered
  · rename_i found
    obtain ⟨before, after, same, -⟩ := List.lookup_eq_some_iff.mp found
    refine inTerminalSet_shiftSet (same ▸ List.mem_append_right before List.mem_cons_self)
  · exact absurd entered nofun

/-- A state that passes reduces the production under each of the terminals. -/
theorem lookup_of_reducesUnder {state : State} {production : Production} {after : Nat}
    (passed : (digest state).reducesUnder production after) {kind : Terminal}
    (next : inTerminalSet kind after) :
    state.actions.lookup kind = some (.reduce production) := by
  simp only [Digest.reducesUnder, digest, Bool.and_eq_true] at passed
  obtain ⟨⟨⟨-, only⟩, inside⟩, apart⟩ := passed
  have reduces := inTerminalSet_of_within inside next
  obtain ⟨other, listed⟩ := exists_mem_of_inTerminalSet_reduceSet reduces
  cases found : state.actions.lookup kind with
  | none => simpa using List.lookup_eq_none_iff.mp found _ listed
  | some action =>
    obtain ⟨before, later, same, -⟩ := List.lookup_eq_some_iff.mp found
    have member : (kind, action) ∈ state.actions :=
      same ▸ List.mem_append_right before List.mem_cons_self
    cases action with
    | shift target =>
      have both := (inTerminalSet_inter kind _ _).mpr ⟨inTerminalSet_shiftSet member, reduces⟩
      rw [Nat.eq_of_beq_eq_true apart] at both
      exact absurd both (not_inTerminalSet_zero kind)
    | reduce found => rw [eq_of_reducesOnly only member]

/-- A production that is spelled from a state to its end is reduced there. -/
theorem lookup_of_spells {follow : Nat → Nonterminal → Nat} {rule : Production} {after place : Nat}
    (passed : spells (automaton.states.map digest) follow rule after place []) :
    ∃ state, automaton.states.get? place = some state ∧
      ∀ kind, inTerminalSet kind after → state.actions.lookup kind = some (.reduce rule) := by
  rw [spells, Braun.get?_map] at passed
  cases here : automaton.states.get? place with
  | none => simp [here] at passed
  | some state =>
    rw [here] at passed
    exact ⟨state, rfl, fun kind next => lookup_of_reducesUnder passed next⟩

/-- A production that is spelled from a state goes on over its next symbol, and what
comes after a nonterminal there is among its followers. -/
theorem entered_of_spells {follow : Nat → Nonterminal → Nat} {rule : Production}
    {after place : Nat} {symbol : Symbol} {rest : List Symbol}
    (passed : spells (automaton.states.map digest) follow rule after place (symbol :: rest)) :
    ∃ next, automaton.entered? place symbol = some next ∧
      spells (automaton.states.map digest) follow rule after next rest ∧
      ∀ category, symbol = .nonterminal category →
        within (if rest.isEmpty then after else shiftsAt (automaton.states.map digest) next)
          (follow place category) := by
  rw [spells, bind_digests] at passed
  cases entered : automaton.entered? place symbol with
  | none => simp [entered] at passed
  | some next =>
    simp only [entered, Bool.and_eq_true] at passed
    refine ⟨next, rfl, passed.2, fun category same => ?_⟩
    subst same
    exact passed.1

/-- A table that passes spells every production of the nonterminals begun in a state. -/
theorem spells_of_isComplete (complete : automaton.isComplete rules) {place target : Nat}
    {category : Nonterminal} (entered : automaton.entered? place (.nonterminal category) = some target)
    {rule : Production} (member : rule ∈ rules) (head : rule.head = category) :
    category ≠ .start ∧
    spells (automaton.states.map digest) (followers (automaton.states.map digest) rules) rule
      (followers (automaton.states.map digest) rules place category) place rule.body := by
  obtain ⟨state, here, found⟩ := Option.bind_eq_some_iff.mp entered
  have passed := Braun.test_of_all (Bool.and_eq_true_iff.mp complete).1 here
  obtain ⟨before, later, same, -⟩ := List.lookup_eq_some_iff.mp found
  have listed : (category, target) ∈ state.successors :=
    same ▸ List.mem_append_right before List.mem_cons_self
  have known := Bool.and_eq_true_iff.mp (List.all_eq_true.mp passed _ listed)
  refine ⟨of_decide_eq_true known.1, List.all_eq_true.mp known.2 rule ?_⟩
  exact List.mem_filter.mpr ⟨member, decide_eq_true head⟩

/-- A table that passes spells every production of the start symbol from the initial
state. -/
theorem spells_start_of_isComplete (complete : automaton.isComplete rules) {rule : Production}
    (member : rule ∈ rules) (head : rule.head = .start) :
    spells (automaton.states.map digest) (followers (automaton.states.map digest) rules) rule
      (terminalSet .endOfInput) 0 rule.body :=
  List.all_eq_true.mp (Bool.and_eq_true_iff.mp complete).2 rule
    (List.mem_filter.mpr ⟨member, decide_eq_true head⟩)

end Meaning

end Automaton

end GlyphCompiler
