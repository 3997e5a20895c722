/-
# A checked table accepts every derivation

From a state that can be left over the symbol of a derivation, the parser reads
the derived tokens and ends with the whole derivation on its stack, whenever the
next token is one that may follow. This is an induction on the derivation: the
productions are spelled by paths of the table, so the children of a node are
pushed one after the other, and the state at the end of the path asks for the
reduction.

Together with soundness, a checked automaton accepts exactly the tokens that the
grammar derives, and no tokens have two derivations.
-/

import GlyphCompiler.Proofs.Parser.Certificate
import GlyphCompiler.Proofs.Parser.Soundness

namespace GlyphCompiler

namespace Parser

open Automaton (digest followers terminalSet inTerminalSet shiftsAt spells)

variable {automaton : Automaton} {rules decided : List Production}

/-! ## Runs of the automaton -/

/-- The kind of the first of some tokens, or the lookahead where there is none. -/
def nextKind (lookahead : Terminal) : List Token → Terminal
  | [] => lookahead
  | token :: _ => token.kind

theorem nextKind_append (lookahead : Terminal) (first second : List Token) :
    nextKind lookahead (first ++ second) = nextKind (nextKind lookahead second) first := by
  cases first <;> rfl

/-- Under a terminal, the automaton reduces one stack to another. -/
def ReducesTo (automaton : Automaton) (kind : Terminal) (stack next : List Frame) : Prop :=
  ∃ state rule, stateOf automaton stack = some state ∧
    state.actions.lookup kind = some (.reduce rule) ∧ reduce automaton rule stack = .reduced next

/-- Reading some tokens, with a terminal to come after them, leads from one stack to
another. -/
inductive Pushes (automaton : Automaton) (lookahead : Terminal) :
    List Frame → List Token → List Frame → Prop
  | done {stack : List Frame} : Pushes automaton lookahead stack [] stack
  | reduce {stack next final : List Frame} {tokens : List Token}
      (reduces : ReducesTo automaton (nextKind lookahead tokens) stack next)
      (pushes : Pushes automaton lookahead next tokens final) :
      Pushes automaton lookahead stack tokens final
  | shift {stack final : List Frame} {token : Token} {target : Nat} {tokens : List Token}
      (entered : automaton.entered? (currentState stack) (.terminal token.kind) = some target)
      (pushes : Pushes automaton lookahead (⟨target, .leaf token⟩ :: stack) tokens final) :
      Pushes automaton lookahead stack (token :: tokens) final

/-- Runs are joined where the first has the second's first token to come. -/
theorem Pushes.append {lookahead : Terminal} {first middle last : List Frame}
    {before after : List Token}
    (one : Pushes automaton (nextKind lookahead after) first before middle)
    (two : Pushes automaton lookahead middle after last) :
    Pushes automaton lookahead first (before ++ after) last := by
  induction one with
  | done => exact two
  | reduce reduces _ ih => exact .reduce (nextKind_append .. ▸ reduces) (ih two)
  | shift entered _ ih => exact .shift entered (ih two)

/-- The state above a stack that a place is entered from. -/
theorem stateOf_of_entered? {stack : List Frame} {symbol : Symbol} {target : Nat}
    (entered : automaton.entered? (currentState stack) symbol = some target) :
    ∃ state, stateOf automaton stack = some state ∧ state.entered? symbol = some target :=
  Option.bind_eq_some_iff.mp entered

theorem step_of_reducesTo {stack next : List Frame} {token : Token}
    (reduces : ReducesTo automaton token.kind stack next) :
    step automaton stack token = .reduced next := by
  obtain ⟨state, rule, here, asked, reduced⟩ := reduces
  simp only [step, here, asked, reduced]

theorem read_of_entered? {stack : List Frame} {token : Token} {target : Nat}
    (entered : automaton.entered? (currentState stack) (.terminal token.kind) = some target) :
    read automaton stack token = .shifted (⟨target, .leaf token⟩ :: stack) := by
  obtain ⟨state, here, found⟩ := stateOf_of_entered? entered
  have stepped : step automaton stack token = .shifted (⟨target, .leaf token⟩ :: stack) := by
    simp only [State.entered?] at found
    split at found
    · rename_i asked
      obtain rfl := Option.some.inj found
      simp only [step, here, asked]
    · cases found
  rw [read_of_not_reduced (by simp [stepped]), stepped]

/-- The parser does not notice a reduction under the token that it reads next. -/
theorem parseTokens_of_reducesTo (reduces : ReducesBy rules automaton) (ranked : Ranked rules)
    {stack next : List Frame} {last : Position} {tokens : List Token}
    (reduced : ReducesTo automaton (nextKind .endOfInput tokens) stack next) :
    parseTokens automaton stack last tokens = parseTokens automaton next last tokens := by
  cases tokens with
  | nil =>
    have same : read automaton stack ⟨.endOfInput, "", last⟩ =
        read automaton next ⟨.endOfInput, "", last⟩ :=
      read_of_reduced reduces ranked (step_of_reducesTo reduced)
    rw [parseTokens, parseTokens, finish, finish, same]
  | cons token rest =>
    rw [parseTokens, parseTokens, read_of_reduced reduces ranked (step_of_reducesTo reduced)]

/-- The parser follows a run of the automaton. -/
theorem Pushes.parseTokens_eq (reduces : ReducesBy rules automaton) (ranked : Ranked rules)
    {stack final : List Frame} {tokens : List Token} (more : List Token)
    (pushes : Pushes automaton (nextKind .endOfInput more) stack tokens final) (last : Position) :
    ∃ later, parseTokens automaton stack last (tokens ++ more) =
      parseTokens automaton final later more := by
  induction pushes generalizing last with
  | done => exact ⟨last, rfl⟩
  | reduce reduced _ ih =>
    obtain ⟨later, same⟩ := ih last
    exact ⟨later, (parseTokens_of_reducesTo reduces ranked
      (nextKind_append .. ▸ reduced)).trans same⟩
  | shift entered _ ih =>
    rename_i token target tokens _
    obtain ⟨later, same⟩ := ih token.position
    refine ⟨later, Eq.trans ?_ same⟩
    rw [List.cons_append, parseTokens, read_of_entered? entered]

/-! ## Pushing derivations -/

/-- A body that starts with a nonempty symbol is not empty. -/
theorem children_ne_nil (ranked : Ranked decided) {rule : Production} (member : rule ∈ decided)
    (other : rule.head ≠ .start) {children : List Derivation}
    (spelled : children.map Derivation.symbol = rule.body) : children ≠ [] := by
  rintro rfl
  exact other ((ranked rule member).1 spelled.symm)

/-- In a state that can be left over the symbol of a derivation, the first derived
token is shifted. -/
theorem exists_first_token (complete : automaton.isComplete decided) (ranked : Ranked decided)
    {derivation : Derivation} (valid : derivation.Valid decided) {place target : Nat}
    (entered : automaton.entered? place derivation.symbol = some target) :
    ∃ token rest, derivation.tokens = token :: rest ∧
      ∃ next, automaton.entered? place (.terminal token.kind) = some next := by
  induction valid generalizing target with
  | leaf token => exact ⟨token, [], rfl, target, entered⟩
  | @node rule children member spelled below ih =>
    obtain ⟨other, path⟩ := Automaton.spells_of_isComplete complete entered member rfl
    match children, spelled, children_ne_nil ranked member other spelled with
    | first :: rest, spelled, _ =>
      rw [← spelled, List.map_cons] at path
      obtain ⟨next, enteredFirst, -, -⟩ := Automaton.entered_of_spells path
      obtain ⟨token, more, same, shifts⟩ := ih first List.mem_cons_self enteredFirst
      exact ⟨token, more ++ Derivation.tokensOf rest,
        by rw [Derivation.tokens, Derivation.tokensOf, same, List.cons_append], shifts⟩

/-- What the table owes to one derivation: it can be pushed wherever its symbol can be
completed, with any of the followers to come. -/
def Pushable (automaton : Automaton) (decided : List Production) (derivation : Derivation) :
    Prop :=
  ∀ stack target lookahead,
    automaton.entered? (currentState stack) derivation.symbol = some target →
    (∀ category, derivation.symbol = .nonterminal category →
      inTerminalSet lookahead
        (followers (automaton.states.map digest) decided (currentState stack) category)) →
    Pushes automaton lookahead stack derivation.tokens (⟨target, derivation⟩ :: stack)

/-- Derivations that spell the rest of a production are pushed one after the other, and
the state at the end asks for the reduction. -/
theorem exists_pushes_of_spells (complete : automaton.isComplete decided)
    (ranked : Ranked decided) {rule : Production} {after : Nat} {lookahead : Terminal}
    (next : inTerminalSet lookahead after) {children : List Derivation}
    (below : ∀ child ∈ children, child.Valid decided ∧ Pushable automaton decided child)
    (stack : List Frame)
    (path : spells (automaton.states.map digest) (followers (automaton.states.map digest) decided)
      rule after (currentState stack) (children.map Derivation.symbol)) :
    ∃ frames state, frames.map Frame.derivation = children.reverse ∧
      Pushes automaton lookahead stack (Derivation.tokensOf children) (frames ++ stack) ∧
      stateOf automaton (frames ++ stack) = some state ∧
      state.actions.lookup lookahead = some (.reduce rule) := by
  induction children generalizing stack with
  | nil =>
    obtain ⟨state, here, asked⟩ := Automaton.lookup_of_spells path
    exact ⟨[], state, rfl, .done, here, asked lookahead next⟩
  | cons child rest ih =>
    obtain ⟨target, entered, later, followed⟩ := Automaton.entered_of_spells path
    obtain ⟨validChild, pushable⟩ := below child List.mem_cons_self
    obtain ⟨frames, state, same, pushes, here, asked⟩ := ih
      (fun other member => below other (List.mem_cons_of_mem _ member))
      (⟨target, child⟩ :: stack) later
    refine ⟨frames ++ [⟨target, child⟩], state, by simp [same], ?_, by simpa using here, asked⟩
    rw [List.append_assoc, List.singleton_append]
    refine .append (pushable stack target _ entered fun category isNonterminal => ?_) pushes
    refine Automaton.inTerminalSet_of_within (followed category isNonterminal) ?_
    match rest with
    | [] => exact next
    | second :: others =>
      -- The next child begins with a token that the state after this one shifts.
      obtain ⟨_, enteredSecond, -, -⟩ := Automaton.entered_of_spells later
      obtain ⟨token, more, begins, _, shifts⟩ := exists_first_token complete ranked
        (below second (by simp)).1 enteredSecond
      rw [Derivation.tokensOf, begins]
      exact Automaton.inTerminalSet_shiftsAt shifts

/-- The derivations on top of a stack are the children of a reduction. -/
theorem children_of_append {frames : List Frame} {children : List Derivation}
    (same : frames.map Frame.derivation = children.reverse) {body : List Symbol}
    (spelled : children.map Derivation.symbol = body) (stack : List Frame) :
    (((frames ++ stack).take body.length).map Frame.derivation).reverse = children ∧
      (frames ++ stack).drop body.length = stack := by
  have count : frames.length = body.length := by
    simpa [← spelled] using congrArg List.length same
  rw [List.take_left' count, List.drop_left' count, same, List.reverse_reverse]
  exact ⟨rfl, rfl⟩

/-- A reduction of the derivations of a body, where the head may be completed. -/
theorem reduce_of_spelled {rule : Production} (other : rule.head ≠ .start)
    {frames stack : List Frame} {children : List Derivation} {target : Nat}
    (same : frames.map Frame.derivation = children.reverse)
    (spelled : children.map Derivation.symbol = rule.body)
    (entered : automaton.entered? (currentState stack) (.nonterminal rule.head) = some target) :
    reduce automaton rule (frames ++ stack) =
      .reduced (⟨target, .node rule children⟩ :: stack) := by
  obtain ⟨taken, left⟩ := children_of_append same spelled stack
  obtain ⟨state, here, found⟩ := stateOf_of_entered? entered
  have goes : ((stateOf automaton stack).bind fun state =>
      state.successors.lookup rule.head) = some target := by
    rw [here]
    exact found
  simp only [reduce, taken, left, spelled, goes, other, if_true, if_false]

/-- The table does for every valid derivation what it owes to it. -/
theorem pushable_of_valid (complete : automaton.isComplete decided) (ranked : Ranked decided)
    {derivation : Derivation} (valid : derivation.Valid decided) :
    Pushable automaton decided derivation := by
  induction valid with
  | leaf token =>
    intro stack target lookahead entered _
    exact .shift entered .done
  | @node rule children member spelled below ih =>
    intro stack target lookahead entered follows
    obtain ⟨other, path⟩ := Automaton.spells_of_isComplete complete entered member rfl
    rw [← spelled] at path
    obtain ⟨frames, state, same, pushes, here, asked⟩ := exists_pushes_of_spells complete ranked
      (follows _ rfl) (fun child listed => ⟨below child listed, ih child listed⟩) stack path
    have reduced : Pushes automaton lookahead (frames ++ stack) []
        (⟨target, .node rule children⟩ :: stack) :=
      .reduce ⟨state, rule, here, asked, reduce_of_spelled other same spelled entered⟩ .done
    simpa [Derivation.tokens] using pushes.append reduced

/-! ## Accepting -/

/-- The tokens of every derivation of the start symbol are accepted, and the parser
finds that derivation. -/
theorem parseTokens_of_valid (reduces : ReducesBy rules automaton) (ranked : Ranked rules)
    (complete : automaton.isComplete decided) (subset : ∀ rule ∈ decided, rule ∈ rules)
    {derivation : Derivation} (valid : derivation.Valid decided)
    (isStart : derivation.symbol = .nonterminal .start) (last : Position) :
    parseTokens automaton [] last derivation.tokens = some derivation := by
  have rankedDecided : Ranked decided := fun rule member => ranked rule (subset rule member)
  cases valid with
  | leaf token => cases isStart
  | @node rule children member spelled below =>
    have head : rule.head = .start := by simpa [Derivation.symbol] using isStart
    have path := Automaton.spells_start_of_isComplete complete member head
    rw [← spelled] at path
    have ends : inTerminalSet .endOfInput (terminalSet .endOfInput) := by simp
    obtain ⟨frames, state, same, pushes, here, asked⟩ := exists_pushes_of_spells complete
      rankedDecided ends (fun child listed =>
        ⟨below child listed, pushable_of_valid complete rankedDecided (below child listed)⟩) [] path
    obtain ⟨later, run⟩ := Pushes.parseTokens_eq reduces ranked [] pushes last
    obtain ⟨taken, left⟩ := children_of_append same spelled []
    have accepted : step automaton (frames ++ []) ⟨.endOfInput, "", later⟩ =
        .accepted (.node rule children) := by
      simp only [step, here, asked, reduce, taken, left, spelled, head, if_true, List.isEmpty_nil]
    rw [Derivation.tokens, ← List.append_nil (Derivation.tokensOf children), run, parseTokens,
      finish, read_of_not_reduced (by rw [accepted]; simp), accepted]
    rfl

end Parser

end GlyphCompiler
