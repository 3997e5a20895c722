/-
# What a state knows of the stack

The stack of the parser ends in the same way whenever it is in a given state. What a
state knows of this is noted here: the productions that have been read in part there,
each with the symbols read of it. The notes are taken along the edges that lead to a
state for the first time, and an automaton is consistent if all of its edges agree with
them, and if what a state reduces has been read there as a whole.

The stacks that the parser builds trace paths of the automaton. In a consistent
automaton a reduction finds the symbols of its production on such a stack, and below
them a state in which its head can be completed. So the parser is never stuck.
-/

import GlyphCompiler.Proofs.Parser.Certificate
import GlyphCompiler.Proofs.Parser.Soundness

namespace GlyphCompiler

/-- The edges that leave a state: the symbols that it can be left over, with the places
that are entered. -/
def State.exits (state : State) : List (Symbol × Nat) :=
  (state.actions.filterMap fun
    | (kind, .shift target) => some (.terminal kind, target)
    | (_, .reduce _) => none) ++
  state.successors.map fun successor => (.nonterminal successor.1, successor.2)

theorem State.mem_exits_of_entered? {state : State} {symbol : Symbol} {target : Nat}
    (entered : state.entered? symbol = some target) : (symbol, target) ∈ state.exits := by
  cases symbol with
  | terminal kind =>
    simp only [State.entered?] at entered
    split at entered
    · next found =>
      cases entered
      exact List.mem_append_left _
        (List.mem_filterMap.mpr ⟨_, Parser.mem_of_lookup_eq_some found, rfl⟩)
    · cases entered
  | nonterminal category =>
    exact List.mem_append_right _
      (List.mem_map.mpr ⟨_, Parser.mem_of_lookup_eq_some entered, rfl⟩)

namespace Automaton

/-! ## Notes -/

/-- A production read in part: what it derives, the symbols read of it, the latest first,
and the symbols that are left. -/
structure Begun where
  head : Nonterminal
  read : List Symbol
  left : List Symbol

/-- Read one symbol more, if it is the next one. -/
def Begun.over? (symbol : Symbol) (begun : Begun) : Option Begun :=
  match begun.left with
  | next :: left =>
    if next = symbol then some ⟨begun.head, symbol :: begun.read, left⟩ else none
  | [] => none

/-- The productions of each nonterminal, with nothing read of them. -/
def beginnings (rules : List Production) : Braun (List Begun) :=
  .ofList (Nonterminal.all.map fun category =>
    (rules.filter fun rule => rule.head = category).map fun rule => ⟨category, [], rule.body⟩)

/-- Follow the edges of a state, and take notes for the states that have none. -/
def noteExits (begun : List Begun) :
    List (Symbol × Nat) → Braun (List Begun) → Braun (List Begun)
  | [], notes => notes
  | (symbol, target) :: rest, notes =>
    match notes.get? target with
    | some _ => noteExits begun rest notes
    | none => noteExits begun rest (notes.put target (begun.filterMap (Begun.over? symbol)))

/-- Take notes for the states that can be entered from a place on. A state is noted before
its turn comes, since the states are numbered as they are discovered. -/
def noteFrom (states : Braun State) (begins : Braun (List Begun)) :
    Nat → Nat → Braun (List Begun) → Braun (List Begun)
  | 0, _, notes => notes
  | fuel + 1, place, notes =>
    match states.get? place, notes.get? place with
    | some state, some begun =>
      let here := if place = 0 then (begins.get? Nonterminal.start.ctorIdx).getD [] else []
      let later := state.successors.flatMap fun successor =>
        (begins.get? successor.1.ctorIdx).getD []
      noteFrom states begins fuel (place + 1)
        (noteExits (begun ++ here ++ later) state.exits notes)
    | _, _ => notes

/-- The notes of all states of an automaton. Nothing has been read in the initial one. -/
def notes (automaton : Automaton) (rules : List Production) : Braun (List Begun) :=
  noteFrom automaton.states (beginnings rules) stateLimit 0 (.node [] .empty .empty)

/-- What is noted for a state. -/
def noted (notes : Braun (List Begun)) (place : Nat) : List Begun :=
  (notes.get? place).getD []

/-! ## The check -/

/-- Can a nonterminal be begun in a state? -/
def canBegin (place : Nat) (state : State) (head : Nonterminal) : Bool :=
  if head = .start then Nat.beq place 0
  else state.successors.any fun successor => successor.1 = head

/-- Have these symbols of a nonterminal been read in a state? -/
def hasRead (notes : Braun (List Begun)) (place : Nat) (state : State) (head : Nonterminal) :
    List Symbol → Bool
  | [] => canBegin place state head
  | latest :: earlier => (noted notes place).any fun begun =>
      begun.head = head && begun.read = latest :: earlier

/-- Does an edge lead to a state, and has everything that is noted there been read over
the symbol of the edge? -/
def exitAgrees (states : Braun State) (notes : Braun (List Begun)) (place : Nat)
    (state : State) (exit : Symbol × Nat) : Bool :=
  !Nat.beq exit.2 0 && (states.get? exit.2).isSome &&
    (noted notes exit.2).all fun begun =>
      match begun.read with
      | [] => false
      | latest :: earlier => latest = exit.1 && hasRead notes place state begun.head earlier

/-- Has the production of a reduction been read? The start symbol is reduced at the end of
the input alone, and the end is never shifted. -/
def actionAgrees (notes : Braun (List Begun)) (place : Nat) (state : State) :
    Terminal × Action → Bool
  | (kind, .shift _) => kind ≠ .endOfInput
  | (kind, .reduce production) =>
    hasRead notes place state production.head production.body.reverse &&
      (production.head ≠ .start || kind = .endOfInput)

/-- Does everything in an automaton agree with some notes? -/
def agreesWith (automaton : Automaton) (notes : Braun (List Begun)) : Bool :=
  (automaton.states.get? 0).isSome && (noted notes 0).isEmpty &&
    automaton.states.all fun place state =>
      state.exits.all (exitAgrees automaton.states notes place state) &&
        state.actions.all (actionAgrees notes place state)

/-- Does an automaton agree with the notes that are taken of it? -/
def isConsistent (automaton : Automaton) (rules : List Production) : Bool :=
  automaton.agreesWith (automaton.notes rules)

/-! ## What the check says -/

section Meaning

variable {automaton : Automaton} {notes : Braun (List Begun)} {place : Nat} {state : State}

theorem exists_initial (agrees : automaton.agreesWith notes) :
    (∃ state, automaton.states.get? 0 = some state) ∧ noted notes 0 = [] := by
  simp only [agreesWith, Bool.and_eq_true, List.isEmpty_iff] at agrees
  exact ⟨Option.isSome_iff_exists.mp agrees.1.1, agrees.1.2⟩

/-- An edge leads to a state, which is never the initial one, and what is noted there has
been read over the edge. -/
theorem exists_entered (agrees : automaton.agreesWith notes)
    (here : automaton.states.get? place = some state) {symbol : Symbol} {target : Nat}
    (entered : state.entered? symbol = some target) :
    target ≠ 0 ∧ (∃ next, automaton.states.get? target = some next) ∧
      ∀ begun ∈ noted notes target, ∃ earlier, begun.read = symbol :: earlier ∧
        hasRead notes place state begun.head earlier := by
  have passed := Braun.test_of_all (Bool.and_eq_true_iff.mp agrees).2 here
  have edge := List.all_eq_true.mp (Bool.and_eq_true_iff.mp passed).1 _
    (State.mem_exits_of_entered? entered)
  simp only [exitAgrees, Bool.and_eq_true, List.all_eq_true] at edge
  obtain ⟨⟨later, exists_⟩, known⟩ := edge
  refine ⟨fun zero => ?_, Option.isSome_iff_exists.mp exists_, fun begun member => ?_⟩
  · simp [zero] at later
  · have read := known begun member
    split at read
    · cases read
    · next latest earlier isRead =>
      obtain ⟨same, before⟩ := Bool.and_eq_true_iff.mp read
      exact ⟨earlier, by rw [isRead, of_decide_eq_true same], before⟩

theorem ne_endOfInput_of_shift (agrees : automaton.agreesWith notes)
    (here : automaton.states.get? place = some state) {kind : Terminal} {target : Nat}
    (asked : state.actions.lookup kind = some (.shift target)) : kind ≠ .endOfInput := by
  have passed := Braun.test_of_all (Bool.and_eq_true_iff.mp agrees).2 here
  exact of_decide_eq_true (List.all_eq_true.mp (Bool.and_eq_true_iff.mp passed).2 _
    (Parser.mem_of_lookup_eq_some asked))

theorem hasRead_of_reduce (agrees : automaton.agreesWith notes)
    (here : automaton.states.get? place = some state) {kind : Terminal} {production : Production}
    (asked : state.actions.lookup kind = some (.reduce production)) :
    hasRead notes place state production.head production.body.reverse ∧
      (production.head = .start → kind = .endOfInput) := by
  have passed := Braun.test_of_all (Bool.and_eq_true_iff.mp agrees).2 here
  have action := List.all_eq_true.mp (Bool.and_eq_true_iff.mp passed).2 _
    (Parser.mem_of_lookup_eq_some asked)
  simp only [actionAgrees, Bool.and_eq_true, Bool.or_eq_true, decide_eq_true_eq] at action
  exact ⟨action.1, fun isStart => action.2.resolve_left (absurd isStart)⟩

end Meaning

end Automaton

namespace Parser

open Automaton (noted hasRead canBegin)

variable {automaton : Automaton} {notes : Braun (List Automaton.Begun)} {stack : List Frame}

/-! ## Traced stacks -/

/-- Each frame of a stack was entered from below over the symbol of its derivation. -/
inductive Traced (automaton : Automaton) : List Frame → Prop
  | nil : Traced automaton []
  | cons {frame : Frame} {stack : List Frame}
      (entered : automaton.entered? (currentState stack) frame.derivation.symbol =
        some frame.state)
      (below : Traced automaton stack) : Traced automaton (frame :: stack)

/-- A nonterminal can be completed on a stack: it is the start symbol and nothing stands
below it, or the stack can be left over it. -/
def Awaits (automaton : Automaton) (stack : List Frame) (head : Nonterminal) : Prop :=
  if head = .start then stack = []
  else ∃ target, automaton.entered? (currentState stack) (.nonterminal head) = some target

theorem Traced.drop (traced : Traced automaton stack) (count : Nat) :
    Traced automaton (stack.drop count) := by
  induction traced generalizing count with
  | nil => simpa using Traced.nil
  | cons entered below ih =>
    cases count with
    | zero => exact .cons entered below
    | succ count => exact ih count

/-- On top of a traced stack there is a state of the automaton. -/
theorem Traced.exists_state (traced : Traced automaton stack) (agrees : automaton.agreesWith notes) :
    ∃ state, stateOf automaton stack = some state := by
  cases traced with
  | nil => exact (Automaton.exists_initial agrees).1
  | cons entered below =>
    obtain ⟨state, here, found⟩ := Option.bind_eq_some_iff.mp entered
    exact (Automaton.exists_entered agrees here found).2.1

/-- Only the empty stack is in the initial state. -/
theorem Traced.eq_nil (traced : Traced automaton stack) (agrees : automaton.agreesWith notes)
    (initial : currentState stack = 0) : stack = [] := by
  cases traced with
  | nil => rfl
  | cons entered below =>
    obtain ⟨state, here, found⟩ := Option.bind_eq_some_iff.mp entered
    exact absurd initial (Automaton.exists_entered agrees here found).1

/-- What can be begun in the state of a traced stack can be completed on that stack. -/
theorem Traced.awaits_of_canBegin (traced : Traced automaton stack)
    (agrees : automaton.agreesWith notes) {state : State}
    (here : stateOf automaton stack = some state) {head : Nonterminal}
    (begins : canBegin (currentState stack) state head) : Awaits automaton stack head := by
  unfold canBegin at begins
  unfold Awaits
  split at begins
  · next isStart =>
    rw [if_pos isStart]
    exact traced.eq_nil agrees (Nat.eq_of_beq_eq_true begins)
  · next other =>
    rw [if_neg other]
    obtain ⟨⟨category, target⟩, listed, same⟩ := List.any_eq_true.mp begins
    obtain rfl : category = head := of_decide_eq_true same
    cases found : state.successors.lookup category with
    | none => exact absurd (List.lookup_eq_none_iff.mp found _ listed) (by simp)
    | some target => exact ⟨target, Option.bind_eq_some_iff.mpr ⟨state, here, found⟩⟩

/-- The symbols that have been read in the state of a traced stack are those of its topmost
derivations, and below them the nonterminal that they belong to can be completed. -/
theorem Traced.spelled_of_hasRead (traced : Traced automaton stack)
    (agrees : automaton.agreesWith notes) {state : State}
    (here : stateOf automaton stack = some state) {head : Nonterminal} {read : List Symbol}
    (isRead : hasRead notes (currentState stack) state head read) :
    ((stack.take read.length).map fun frame => frame.derivation.symbol) = read ∧
      Awaits automaton (stack.drop read.length) head := by
  induction read generalizing stack state with
  | nil => exact ⟨rfl, traced.awaits_of_canBegin agrees here isRead⟩
  | cons latest earlier ih =>
    obtain ⟨begun, listed, same⟩ := List.any_eq_true.mp isRead
    simp only [Bool.and_eq_true, decide_eq_true_eq] at same
    obtain ⟨rfl, isBegun⟩ := same
    cases traced with
    | nil =>
      rw [currentState, (Automaton.exists_initial agrees).2] at listed
      cases listed
    | @cons frame stack entered below =>
      obtain ⟨state, hereBelow, found⟩ := Option.bind_eq_some_iff.mp entered
      obtain ⟨before, isBefore, readBefore⟩ :=
        (Automaton.exists_entered agrees hereBelow found).2.2 begun listed
      rw [isBegun] at isBefore
      obtain ⟨rfl, rfl⟩ := List.cons.inj isBefore
      obtain ⟨spelled, awaits⟩ := ih below hereBelow readBefore
      exact ⟨congrArg (frame.derivation.symbol :: ·) spelled, awaits⟩

/-! ## Actions on traced stacks -/

/-- What an action of a consistent automaton does to a traced stack. The parser is not stuck,
and what is accepted is the whole input. -/
inductive Proceeds (automaton : Automaton) (rules : List Production) (token : Token) : Step → Prop
  | shifted {next : List Frame} (traced : Traced automaton next)
      (more : token.kind ≠ .endOfInput) : Proceeds automaton rules token (.shifted next)
  | reduced {next : List Frame} (traced : Traced automaton next) :
      Proceeds automaton rules token (.reduced next)
  | accepted {production : Production} {children : List Derivation} (rule : production ∈ rules)
      (isStart : production.head = .start) (ended : token.kind = .endOfInput) :
      Proceeds automaton rules token (.accepted (.node production children))
  | refused {state : State} : Proceeds automaton rules token (.refused state)

/-- A reduction finds its production spelled on a traced stack. -/
theorem Traced.proceeds_reduce (traced : Traced automaton stack)
    (agrees : automaton.agreesWith notes) {rules : List Production}
    (reduces : ReducesBy rules automaton) {state : State}
    (here : stateOf automaton stack = some state) {token : Token} {production : Production}
    (asked : state.actions.lookup token.kind = some (.reduce production)) :
    Proceeds automaton rules token (reduce automaton production stack) := by
  obtain ⟨isRead, ends⟩ := Automaton.hasRead_of_reduce agrees here asked
  obtain ⟨spelled, awaits⟩ := traced.spelled_of_hasRead agrees here isRead
  rw [List.length_reverse] at spelled awaits
  have children : (((stack.take production.body.length).map Frame.derivation).reverse).map
      Derivation.symbol = production.body := by
    rw [List.map_reverse, List.map_map]
    exact List.reverse_eq_iff.mpr spelled
  unfold Awaits at awaits
  simp only [reduce]
  rw [if_pos children]
  split at awaits
  · next isStart =>
    rw [if_pos isStart, if_pos (List.isEmpty_iff.mpr awaits)]
    exact .accepted (reduces _ state here _ _ (mem_of_lookup_eq_some asked)) isStart (ends isStart)
  · next other =>
    obtain ⟨target, entered⟩ := awaits
    rw [if_neg other, show (stateOf automaton (stack.drop production.body.length)).bind
      (fun state => state.successors.lookup production.head) = some target from entered]
    exact .reduced (.cons entered (traced.drop _))

/-- A consistent automaton knows what to do on a traced stack. -/
theorem Traced.proceeds_step (traced : Traced automaton stack)
    (agrees : automaton.agreesWith notes) {rules : List Production}
    (reduces : ReducesBy rules automaton) (token : Token) :
    Proceeds automaton rules token (step automaton stack token) := by
  obtain ⟨state, here⟩ := traced.exists_state agrees
  rw [step, here]
  dsimp only
  split
  · exact .refused
  · next target asked =>
    have entered : automaton.entered? (currentState stack) (.terminal token.kind) = some target :=
      Option.bind_eq_some_iff.mpr ⟨state, here, by simp [State.entered?, asked]⟩
    have longer : Traced automaton (⟨target, .leaf token⟩ :: stack) := .cons entered traced
    exact .shifted longer (Automaton.ne_endOfInput_of_shift agrees here asked)
  · next production asked => exact traced.proceeds_reduce agrees reduces here asked

end Parser

end GlyphCompiler
