/-
# States that expect operands and operators

Inside an expression a table has two kinds of states after a token. Some expect
an operand, and read the same words whatever stands around the expression. The
others expect an operator, and shift no word at all. Whether a table keeps them
apart is a check of its finitely many states.
-/

import GlyphCompiler.Proofs.Parser.Completeness

namespace GlyphCompiler

namespace Automaton

/-- The set of some terminals. -/
def setOf (terminals : List Terminal) : Nat :=
  terminals.foldr (fun terminal set => terminalSet terminal ||| set) 0

@[simp]
theorem inTerminalSet_setOf (kind : Terminal) (terminals : List Terminal) :
    inTerminalSet kind (setOf terminals) = true ↔ kind ∈ terminals := by
  induction terminals with
  | nil => simp [setOf]
  | cons first rest ih => simpa [setOf] using or_congr_right ih

/-- The terminals that a state has an action for. -/
def admittedSet (state : State) : Nat := setOf (Parser.admitted state)

end Automaton

namespace Expression

open Automaton (setOf admittedSet shiftSet inTerminalSet within)

/-! ## The words of expressions -/

/-- What stands before an operand. -/
def openers : List Terminal :=
  [.exscribeWord, .or, .and, .comparison, .plus, .minus, .star, .power, .slash, .percent,
    .bang, .ampersand, .leftParen, .leftBracket, .comma]

/-- The literals. -/
def literals : List Terminal :=
  [.integer, .decimal, .codepoint, .doubleQuoted, .singleQuoted, .trueWord, .falseWord,
    .nullWord]

/-- What ends an operand. -/
def closers : List Terminal := .name :: .rightParen :: .rightBracket :: literals

/-- The names, the literals, and the keywords. -/
def words : List Terminal := .name :: literals ++ Terminal.all.filter Terminal.isKeyword

/-- What can always be read where an operand is expected. -/
def beginners : List Terminal :=
  .name :: .minus :: .bang :: .star :: .ampersand :: .leftParen :: .leftBracket :: literals

/-- What can be read at most where an operand is expected. -/
def expected : List Terminal := .conjureWord :: .rightParen :: .rightBracket :: beginners

/-! ## The states of expressions -/

/-- The set of the places that are reached from some pending ones over the symbols of
expressions. The fuel bounds the edges that are followed. -/
def reach (automaton : Automaton) : Nat → List Nat → Nat → Nat
  | 0, _, seen => seen
  | _, [], seen => seen
  | fuel + 1, place :: pending, seen =>
    if seen.testBit place then reach automaton fuel pending seen
    else match automaton.states.get? place with
      | none => reach automaton fuel pending seen
      | some state =>
        let shifted := state.actions.filterMap fun action => match action.2 with
          | .shift target =>
            if inTerminalSet action.1 (setOf (openers ++ closers)) then some target else none
          | .reduce _ => none
        reach automaton fuel (shifted ++ state.successors.map Prod.snd ++ pending)
          (seen ||| 1 <<< place)

/-- No automaton of interest has more edges than this. -/
def edgeLimit : Nat := 4096

/-- The place after `exscribe` at the start. -/
def firstPlace (automaton : Automaton) : Nat :=
  (automaton.entered? 0 (.terminal .exscribeWord)).getD 0

/-- The places inside the expression of a first `exscribe`. -/
def places (automaton : Automaton) : Nat :=
  reach automaton edgeLimit [firstPlace automaton] 0

/-- A state that expects an operand. -/
def expectsOperand (state : State) : Bool :=
  within (setOf beginners) (admittedSet state) && within (admittedSet state) (setOf expected)

/-- A state that shifts no word. -/
def shiftsNoWord (state : State) : Bool :=
  Nat.beq (shiftSet state.actions &&& setOf words) 0

/-- A state that expects an operator: no word is shifted, nothing that only an operand
begins with is read, and no double star is mistaken for two. -/
def expectsOperator (state : State) : Bool :=
  shiftsNoWord state &&
    Nat.beq (admittedSet state &&& setOf [.bang, .ampersand, .equal]) 0 &&
    (!inTerminalSet .star (admittedSet state) || inTerminalSet .power (admittedSet state))

/-- Does the state at a place pass a test? -/
def passesAt (automaton : Automaton) (test : State → Bool) (place : Nat) : Bool :=
  match automaton.states.get? place with
  | some state => test state
  | none => false

/-- Inside an expression, an action leads to the state that its terminal calls for, and no
reduction takes the word before the expression. -/
def staysInside (automaton : Automaton) (seen : Nat) (action : Terminal × Action) : Bool :=
  match action.2 with
  | .shift target =>
    if inTerminalSet action.1 (setOf openers) then
      passesAt automaton expectsOperand target && seen.testBit target
    else if inTerminalSet action.1 (setOf closers) then
      passesAt automaton expectsOperator target && seen.testBit target
    else true
  | .reduce production => !production.body.contains (.terminal .exscribeWord)

/-- A place inside an expression is left for others inside it. -/
def isClosedAt (automaton : Automaton) (seen place : Nat) (state : State) : Bool :=
  !seen.testBit place ||
    (state.actions.all (staysInside automaton seen) &&
      state.successors.all fun successor =>
        passesAt automaton shiftsNoWord successor.2 && seen.testBit successor.2)

/-- An automaton that keeps the two kinds of states apart. At the start it reads names,
and shifts `exscribe`. -/
def isRegular (automaton : Automaton) : Bool :=
  let seen := places automaton
  automaton.states.all (isClosedAt automaton seen) &&
    passesAt automaton expectsOperand (firstPlace automaton) &&
    seen.testBit (firstPlace automaton) &&
    decide ((automaton.entered? 0 (.terminal .exscribeWord)).isSome) &&
    passesAt automaton (fun state => inTerminalSet .name (admittedSet state)) 0

/-! ## What regularity says -/

/-- A place inside the expression of a first `exscribe`. -/
def Inside (automaton : Automaton) (place : Nat) : Prop :=
  (places automaton).testBit place = true

/-- The state at a place is one that passes a test. -/
def Passes (automaton : Automaton) (test : State → Bool) (place : Nat) : Prop :=
  ∃ state, automaton.states.get? place = some state ∧ test state = true

variable {automaton : Automaton}

theorem passes_of_passesAt {test : State → Bool} {place : Nat}
    (passed : passesAt automaton test place = true) : Passes automaton test place := by
  rw [passesAt] at passed
  split at passed
  · exact ⟨_, ‹_›, passed⟩
  · exact absurd passed nofun

theorem Passes.mono {test other : State → Bool} {place : Nat} (passes : Passes automaton test place)
    (weaker : ∀ state, test state → other state) : Passes automaton other place := by
  obtain ⟨state, here, passed⟩ := passes
  exact ⟨state, here, weaker state passed⟩

/-- What is said about the actions and the successors of a place inside. -/
theorem closed_of_isRegular (regular : isRegular automaton) {place : Nat}
    (inside : Inside automaton place) {state : State}
    (here : automaton.states.get? place = some state) :
    (∀ action ∈ state.actions, staysInside automaton (places automaton) action = true) ∧
      ∀ successor ∈ state.successors,
        Passes automaton shiftsNoWord successor.2 ∧ Inside automaton successor.2 := by
  simp only [isRegular, Bool.and_eq_true] at regular
  have closed := Braun.test_of_all regular.1.1.1.1 here
  rw [isClosedAt, show (places automaton).testBit place = true from inside, Bool.not_true,
    Bool.false_or, Bool.and_eq_true, List.all_eq_true, List.all_eq_true] at closed
  refine ⟨closed.1, fun successor member => ?_⟩
  have known := Bool.and_eq_true_iff.mp (closed.2 successor member)
  exact ⟨passes_of_passesAt known.1, known.2⟩

/-- The action behind an edge over a terminal. -/
theorem mem_actions_of_entered? {place target : Nat} {kind : Terminal}
    (entered : automaton.entered? place (.terminal kind) = some target) :
    ∃ state, automaton.states.get? place = some state ∧ (kind, .shift target) ∈ state.actions := by
  obtain ⟨state, here, found⟩ := Option.bind_eq_some_iff.mp entered
  refine ⟨state, here, ?_⟩
  simp only [State.entered?] at found
  split at found
  · rename_i asked
    obtain rfl := Option.some.inj found
    exact Parser.mem_of_lookup_eq_some asked
  · cases found

/-- After an operator or an opening bracket, an operand is expected. -/
theorem expectsOperand_of_entered? (regular : isRegular automaton) {place target : Nat}
    (inside : Inside automaton place) {kind : Terminal}
    (entered : automaton.entered? place (.terminal kind) = some target) (opens : kind ∈ openers) :
    Inside automaton target ∧ Passes automaton expectsOperand target := by
  obtain ⟨state, here, member⟩ := mem_actions_of_entered? entered
  have stays := (closed_of_isRegular regular inside here).1 _ member
  simp only [staysInside, Automaton.inTerminalSet_setOf, opens, if_true, Bool.and_eq_true] at stays
  exact ⟨stays.2, passes_of_passesAt stays.1⟩

/-- After an operand or a closing bracket, an operator is expected. -/
theorem expectsOperator_of_entered? (regular : isRegular automaton) {place target : Nat}
    (inside : Inside automaton place) {kind : Terminal}
    (entered : automaton.entered? place (.terminal kind) = some target) (closes : kind ∈ closers) :
    Inside automaton target ∧ Passes automaton expectsOperator target := by
  obtain ⟨state, here, member⟩ := mem_actions_of_entered? entered
  have stays := (closed_of_isRegular regular inside here).1 _ member
  have other : kind ∉ openers := by
    have apart : ∀ other ∈ closers, other ∉ openers := by decide
    exact apart kind closes
  simp only [staysInside, Automaton.inTerminalSet_setOf, other, closes, if_true, if_false,
    Bool.and_eq_true] at stays
  exact ⟨stays.2, passes_of_passesAt stays.1⟩

/-- The first operand is expected after `exscribe`. -/
theorem exists_firstPlace (regular : isRegular automaton) :
    automaton.entered? 0 (.terminal .exscribeWord) = some (firstPlace automaton) ∧
      Inside automaton (firstPlace automaton) ∧
      Passes automaton expectsOperand (firstPlace automaton) := by
  simp only [isRegular, Bool.and_eq_true, decide_eq_true_eq] at regular
  obtain ⟨⟨⟨⟨-, expects⟩, inside⟩, found⟩, -⟩ := regular
  obtain ⟨target, entered⟩ := Option.isSome_iff_exists.mp found
  refine ⟨?_, inside, passes_of_passesAt expects⟩
  rw [firstPlace, entered, Option.getD_some]

/-- A state that shifts no word has no edge over one. -/
theorem entered?_word {place : Nat} (passes : Passes automaton shiftsNoWord place)
    {kind : Terminal} (word : kind ∈ words) :
    automaton.entered? place (.terminal kind) = none := by
  obtain ⟨state, here, passed⟩ := passes
  cases entered : automaton.entered? place (.terminal kind) with
  | none => rfl
  | some target =>
    obtain ⟨other, here', member⟩ := mem_actions_of_entered? entered
    obtain rfl := Option.some.inj (here.symm.trans here')
    have both : inTerminalSet kind (shiftSet state.actions &&& setOf words) := by
      simp [Automaton.inTerminalSet_shiftSet member, word]
    rw [Nat.eq_of_beq_eq_true passed] at both
    exact absurd both (Automaton.not_inTerminalSet_zero kind)

theorem mem_admittedSet {state : State} {kind : Terminal} :
    inTerminalSet kind (admittedSet state) = true ↔ kind ∈ Parser.admitted state :=
  Automaton.inTerminalSet_setOf kind _

/-- At the start, names and `exscribe` are read. -/
theorem admitted_start (regular : isRegular automaton) :
    ∃ state, automaton.states.get? 0 = some state ∧ .name ∈ Parser.admitted state ∧
      .exscribeWord ∈ Parser.admitted state := by
  obtain ⟨state, here, member⟩ := mem_actions_of_entered? (exists_firstPlace regular).1
  simp only [isRegular, Bool.and_eq_true] at regular
  obtain ⟨other, there, named⟩ := passes_of_passesAt regular.2
  obtain rfl := Option.some.inj (here.symm.trans there)
  exact ⟨state, here, mem_admittedSet.mp named, List.mem_map.mpr ⟨_, member, rfl⟩⟩

/-- What a state that expects an operand reads. -/
theorem admitted_of_expectsOperand {state : State} (expects : expectsOperand state) :
    (∀ kind ∈ beginners, kind ∈ Parser.admitted state) ∧
      ∀ kind ∈ Parser.admitted state, kind ∈ expected := by
  obtain ⟨least, most⟩ := Bool.and_eq_true_iff.mp expects
  refine ⟨fun kind member => mem_admittedSet.mp ?_, fun kind member => ?_⟩
  · exact Automaton.inTerminalSet_of_within least (by simpa using member)
  · simpa using Automaton.inTerminalSet_of_within most (mem_admittedSet.mpr member)

/-- What a state that expects an operator reads. -/
theorem admitted_of_expectsOperator {state : State} (expects : expectsOperator state) :
    (∀ kind ∈ [Terminal.bang, .ampersand, .equal], kind ∉ Parser.admitted state) ∧
      (.star ∈ Parser.admitted state → .power ∈ Parser.admitted state) := by
  simp only [expectsOperator, Bool.and_eq_true, Bool.or_eq_true, Bool.not_eq_true'] at expects
  obtain ⟨⟨-, apart⟩, stars⟩ := expects
  refine ⟨fun kind member admitted => ?_, fun star => ?_⟩
  · have both : inTerminalSet kind
        (admittedSet state &&& setOf [.bang, .ampersand, .equal]) := by
      rw [Automaton.inTerminalSet_inter, Automaton.inTerminalSet_setOf]
      exact ⟨mem_admittedSet.mpr admitted, member⟩
    rw [Nat.eq_of_beq_eq_true apart] at both
    exact absurd both (Automaton.not_inTerminalSet_zero kind)
  · rcases stars with without | power
    · rw [mem_admittedSet.mpr star] at without
      exact absurd without nofun
    · exact mem_admittedSet.mp power

/-! ## Stacks inside an expression -/

open Parser (Frame currentState)

/-- A stack inside an expression: its places are, and at its bottom stands the word
before the expression. -/
structure Holds (automaton : Automaton) (stack : List Frame) : Prop where
  inside : ∀ frame ∈ stack, Inside automaton frame.state
  bottom : ∃ frames frame, stack = frames ++ [frame] ∧
    frame.derivation.symbol = .terminal .exscribeWord

theorem Holds.inside_currentState {stack : List Frame} (holds : Holds automaton stack) :
    Inside automaton (currentState stack) := by
  obtain ⟨frames, frame, rfl, -⟩ := holds.bottom
  cases frames with
  | nil => exact holds.inside frame (by simp)
  | cons first rest => exact holds.inside first (by simp)

theorem Holds.cons {stack : List Frame} (holds : Holds automaton stack) {frame : Frame}
    (inside : Inside automaton frame.state) : Holds automaton (frame :: stack) := by
  obtain ⟨frames, last, rfl, isWord⟩ := holds.bottom
  refine ⟨fun other member => ?_, frame :: frames, last, rfl, isWord⟩
  rcases List.mem_cons.mp member with rfl | below
  · exact inside
  · exact holds.inside other below

/-- Taking the children of a production without the word leaves it at the bottom. -/
theorem Holds.drop {stack : List Frame} (holds : Holds automaton stack) {body : List Symbol}
    (spelled : ((stack.take body.length).map Frame.derivation).reverse.map Derivation.symbol = body)
    (without : .terminal .exscribeWord ∉ body) : Holds automaton (stack.drop body.length) := by
  obtain ⟨frames, last, rfl, isWord⟩ := holds.bottom
  have short : body.length ≤ frames.length := by
    refine Nat.le_of_not_lt fun long => without ?_
    rw [← spelled, List.take_of_length_le (by simpa using Nat.succ_le_of_lt long)]
    simp [isWord]
  refine ⟨fun frame member => holds.inside frame (List.mem_of_mem_drop member),
    frames.drop body.length, last, ?_, isWord⟩
  rw [List.drop_append_of_le_length short]

/-- Inside an expression a token is shifted either in the state that it is read in, or
in one that was entered by a reduction and shifts no word. -/
theorem Holds.feed_shifted (regular : isRegular automaton) {stack next : List Frame}
    (holds : Holds automaton stack) {token : Token} {fuel : Nat}
    (shifted : Parser.feed automaton token fuel stack = .shifted next) :
    ∃ below target, next = ⟨target, .leaf token⟩ :: below ∧ Holds automaton below ∧
      automaton.entered? (currentState below) (.terminal token.kind) = some target ∧
      (below = stack ∨ Passes automaton shiftsNoWord (currentState below)) := by
  induction fuel generalizing stack with
  | zero => exact absurd shifted nofun
  | succ fuel ih =>
    rw [Parser.feed, Parser.step] at shifted
    cases here : Parser.stateOf automaton stack with
    | none => simp [here] at shifted
    | some state =>
      cases asked : state.actions.lookup token.kind with
      | none => simp [here, asked] at shifted
      | some action =>
        cases action with
        | shift target =>
          simp only [here, asked, Parser.Step.shifted.injEq] at shifted
          refine ⟨stack, target, shifted.symm, holds, ?_, .inl rfl⟩
          rw [Automaton.entered?, show automaton.states.get? (currentState stack) = some state
            from here, Option.bind_some, State.entered?, asked]
        | reduce rule =>
          simp only [here, asked] at shifted
          obtain ⟨stays, successors⟩ :=
            closed_of_isRegular regular holds.inside_currentState here
          have without : .terminal .exscribeWord ∉ rule.body := by
            simpa [staysInside] using stays _ (Parser.mem_of_lookup_eq_some asked)
          obtain stuck | ⟨_, rfl, spelled, ⟨-, -, done⟩ |
              ⟨-, before, target, there, entered, done⟩⟩ :=
            Parser.reduce_cases automaton rule stack
          · simp [stuck] at shifted
          · simp [done] at shifted
          · rw [done] at shifted
            have left := holds.drop spelled without
            obtain ⟨passes, inside⟩ := (closed_of_isRegular regular left.inside_currentState
              there).2 _ (Parser.mem_of_lookup_eq_some entered)
            obtain ⟨below, target, same, holdsBelow, enters, origin⟩ :=
              ih (left.cons inside) shifted
            refine ⟨below, target, same, holdsBelow, enters, .inr ?_⟩
            rcases origin with rfl | passed
            · exact passes
            · exact passed

/-- Shifting an operator or a bracket stays inside the expression, and what it expects is
expected then. -/
theorem Holds.read_shifted (regular : isRegular automaton) {stack next : List Frame}
    (holds : Holds automaton stack) {token : Token}
    (shifted : Parser.read automaton stack token = .shifted next) :
    (token.kind ∈ openers →
      Holds automaton next ∧ Passes automaton expectsOperand (currentState next)) ∧
    (token.kind ∈ closers →
      Holds automaton next ∧ Passes automaton expectsOperator (currentState next)) := by
  obtain ⟨below, target, rfl, left, entered, -⟩ := holds.feed_shifted regular shifted
  refine ⟨fun opens => ?_, fun closes => ?_⟩
  · obtain ⟨inside, passes⟩ :=
      expectsOperand_of_entered? regular left.inside_currentState entered opens
    exact ⟨left.cons inside, passes⟩
  · obtain ⟨inside, passes⟩ :=
      expectsOperator_of_entered? regular left.inside_currentState entered closes
    exact ⟨left.cons inside, passes⟩

/-- Where no word is shifted, no word is shifted after any reductions either. -/
theorem Holds.read_word (regular : isRegular automaton) {stack next : List Frame}
    (holds : Holds automaton stack) {token : Token} (word : token.kind ∈ words)
    (passes : Passes automaton shiftsNoWord (currentState stack)) :
    Parser.read automaton stack token ≠ .shifted next := by
  intro shifted
  obtain ⟨below, target, -, -, entered, origin⟩ := holds.feed_shifted regular shifted
  have passed : Passes automaton shiftsNoWord (currentState below) := by
    rcases origin with rfl | passed
    · exact passes
    · exact passed
  exact absurd ((entered?_word passed word).symm.trans entered) nofun


end Expression

namespace Automaton

/-- What stands before a type. -/
def typeOpeners : List Terminal := [.colon, .star, .leftBracket, .leftParen, .comma, .arrow]

/-- Where a type may begin, a double star is not read as one word. -/
def splitsStars (automaton : Automaton) (_ : Nat) (state : State) : Bool :=
  state.actions.all fun action => match action.2 with
    | .shift target =>
      !inTerminalSet action.1 (setOf typeOpeners) ||
        Expression.passesAt automaton (fun next => !inTerminalSet .power (admittedSet next)) target
    | .reduce _ => true

end Automaton

end GlyphCompiler
