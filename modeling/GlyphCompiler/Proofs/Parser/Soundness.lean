/-
# The parser is sound

A derivation is valid in a grammar when every production in it is a rule and is
spelled by the derivations right below it. Whatever the parser does, its stack
holds valid derivations of the tokens read so far, so what it accepts is a valid
derivation of all tokens from the start symbol.

The reductions made under one token are bounded as well. A reduction of several
derivations shortens the stack, and a reduction of a single one leads to a
symbol of a higher rank, so the weight of the stack goes down.
-/

import GlyphCompiler.Proofs.Parser.Table
import GlyphCompiler.Tree.Parser

namespace GlyphCompiler

/-! ## Valid derivations -/

/-- A derivation in a grammar: every production is a rule, and the derivations below
it are of the symbols of its body. -/
inductive Derivation.Valid (rules : List Production) : Derivation → Prop
  | leaf (token : Token) : Valid rules (.leaf token)
  | node {production : Production} {children : List Derivation} (rule : production ∈ rules)
      (spelled : children.map Derivation.symbol = production.body)
      (below : ∀ child ∈ children, Valid rules child) : Valid rules (.node production children)

namespace Derivation

variable {rules : List Production}

/-- A grammar with more rules has more derivations. -/
theorem Valid.mono {more : List Production} (subset : ∀ rule ∈ rules, rule ∈ more)
    {derivation : Derivation} (valid : derivation.Valid rules) : derivation.Valid more := by
  induction valid with
  | leaf token => exact .leaf token
  | node rule spelled _ ih => exact .node (subset _ rule) spelled ih

theorem tokensOf_eq_flatMap (derivations : List Derivation) :
    tokensOf derivations = derivations.flatMap tokens := by
  induction derivations with
  | nil => rfl
  | cons first rest ih => rw [tokensOf, ih, List.flatMap_cons]

@[simp]
theorem tokensOf_append (first second : List Derivation) :
    tokensOf (first ++ second) = tokensOf first ++ tokensOf second := by
  simp only [tokensOf_eq_flatMap, List.flatMap_append]

end Derivation

namespace Parser

/-! ## What the stack holds -/

/-- The derivations of a stack in the order of their tokens. -/
def derivations (stack : List Frame) : List Derivation :=
  (stack.map Frame.derivation).reverse

/-- The tokens that a stack has taken in. -/
def consumed (stack : List Frame) : List Token :=
  Derivation.tokensOf (derivations stack)

@[simp]
theorem consumed_cons (frame : Frame) (stack : List Frame) :
    consumed (frame :: stack) = consumed stack ++ frame.derivation.tokens := by
  simp [consumed, derivations, Derivation.tokensOf]

/-- Every derivation on a stack is valid. -/
def Sound (rules : List Production) (stack : List Frame) : Prop :=
  ∀ frame ∈ stack, frame.derivation.Valid rules

/-- An automaton that reduces by some rules only. -/
def ReducesBy (rules : List Production) (automaton : Automaton) : Prop :=
  ∀ place state, automaton.states.get? place = some state →
    ∀ terminal production, (terminal, .reduce production) ∈ state.actions → production ∈ rules

variable {rules : List Production} {automaton : Automaton}

/-- The topmost derivations and the ones below them make up the stack. -/
theorem consumed_take_drop (stack : List Frame) (count : Nat) :
    consumed (stack.drop count) ++
        Derivation.tokensOf ((stack.take count).map Frame.derivation).reverse = consumed stack := by
  rw [consumed, consumed, derivations, derivations, ← Derivation.tokensOf_append,
    ← List.reverse_append, ← List.map_append, List.take_append_drop]

/-- What a reduction can do: it takes derivations that spell the production off the
stack, and either accepts the derivation built from them or goes on with it. -/
theorem reduce_cases (automaton : Automaton) (production : Production) (stack : List Frame) :
    reduce automaton production stack = .stuck ∨
    ∃ children, children = ((stack.take production.body.length).map Frame.derivation).reverse ∧
      children.map Derivation.symbol = production.body ∧
      ((production.head = .start ∧ stack.drop production.body.length = [] ∧
          reduce automaton production stack = .accepted (.node production children)) ∨
        (production.head ≠ .start ∧
          ∃ state target,
            stateOf automaton (stack.drop production.body.length) = some state ∧
            state.successors.lookup production.head = some target ∧
            reduce automaton production stack = .reduced
              (⟨target, .node production children⟩ :: stack.drop production.body.length))) := by
  simp only [reduce]
  split
  · rename_i spelled
    split
    · rename_i isStart
      split
      · exact .inr ⟨_, rfl, spelled, .inl ⟨isStart, List.isEmpty_iff.mp ‹_›, rfl⟩⟩
      · exact .inl rfl
    · rename_i isOther
      split
      · rename_i target found
        obtain ⟨state, here, entered⟩ := Option.bind_eq_some_iff.mp found
        exact .inr ⟨_, rfl, spelled, .inr ⟨isOther, state, target, here, entered, rfl⟩⟩
      · exact .inl rfl
  · exact .inl rfl

/-- A pair that is looked up is one of the list. -/
theorem mem_of_lookup_eq_some {α β : Type} [BEq α] [LawfulBEq α] {key : α} {value : β}
    {pairs : List (α × β)} (found : pairs.lookup key = some value) : (key, value) ∈ pairs := by
  obtain ⟨before, after, rfl, -⟩ := List.lookup_eq_some_iff.mp found
  simp

/-- What an action of the automaton does to a sound stack. -/
inductive Acts (rules : List Production) (stack : List Frame) (token : Token) : Step → Prop
  | shifted {target : Nat} : Acts rules stack token (.shifted (⟨target, .leaf token⟩ :: stack))
  | reduced {target : Nat} {production : Production} (rule : production ∈ rules)
      (other : production.head ≠ .start)
      (spelled : ((stack.take production.body.length).map Frame.derivation).reverse.map
        Derivation.symbol = production.body) :
      Acts rules stack token (.reduced
        (⟨target, .node production
            ((stack.take production.body.length).map Frame.derivation).reverse⟩ ::
          stack.drop production.body.length))
  | accepted {production : Production} (rule : production ∈ rules)
      (isStart : production.head = .start)
      (whole : stack.drop production.body.length = [])
      (spelled : ((stack.take production.body.length).map Frame.derivation).reverse.map
        Derivation.symbol = production.body) :
      Acts rules stack token (.accepted (.node production
        ((stack.take production.body.length).map Frame.derivation).reverse))
  | refused {state : State} : Acts rules stack token (.refused state)
  | stuck : Acts rules stack token .stuck

/-- The automaton only ever acts in these ways. -/
theorem acts_step (reduces : ReducesBy rules automaton) (stack : List Frame) (token : Token) :
    Acts rules stack token (step automaton stack token) := by
  rw [step]
  split
  · exact .stuck
  · rename_i state here
    split
    · exact .refused
    · exact .shifted
    · rename_i production asked
      have rule := reduces _ state here _ _ (mem_of_lookup_eq_some asked)
      obtain stuck | ⟨_, rfl, spelled, ⟨isStart, whole, done⟩ | ⟨other, _, _, -, -, done⟩⟩ :=
        reduce_cases automaton production stack
      · rw [stuck]
        exact .stuck
      · rw [done]
        exact .accepted rule isStart whole spelled
      · rw [done]
        exact .reduced rule other spelled

theorem Sound.mem_of_take {stack : List Frame} (sound : Sound rules stack) {count : Nat}
    {child : Derivation}
    (member : child ∈ ((stack.take count).map Frame.derivation).reverse) :
    child.Valid rules := by
  obtain ⟨frame, listed, rfl⟩ := List.mem_map.mp (List.mem_reverse.mp member)
  exact sound frame (List.mem_of_mem_take listed)

/-- A reduction keeps a stack sound, and what it has taken in. -/
theorem Acts.sound_of_reduced {stack next : List Frame} {token : Token}
    (acts : Acts rules stack token (.reduced next)) (sound : Sound rules stack) :
    Sound rules next ∧ consumed next = consumed stack := by
  cases acts with
  | reduced rule other spelled =>
    refine ⟨fun frame member => ?_, ?_⟩
    · rcases List.mem_cons.mp member with rfl | below
      · exact .node rule spelled fun child listed => sound.mem_of_take listed
      · exact sound frame (List.mem_of_mem_drop below)
    · rw [consumed_cons, Derivation.tokens, consumed_take_drop]

/-- An accepted derivation is a valid one of everything that was taken in. -/
theorem Acts.valid_of_accepted {stack : List Frame} {token : Token} {derivation : Derivation}
    (acts : Acts rules stack token (.accepted derivation)) (sound : Sound rules stack) :
    derivation.Valid rules ∧ derivation.symbol = .nonterminal .start ∧
      derivation.tokens = consumed stack := by
  cases acts with
  | accepted rule isStart whole spelled =>
    refine ⟨.node rule spelled fun child listed => sound.mem_of_take listed, ?_, ?_⟩
    · rw [Derivation.symbol, isStart]
    · rename_i production
      have parts := consumed_take_drop stack production.body.length
      rw [whole] at parts
      exact parts

/-! ## Reading tokens -/

/-- The result of feeding a token is that of one action on a stack which holds the
same tokens, and no reduction. -/
theorem feed_result (reduces : ReducesBy rules automaton) (token : Token) (fuel : Nat)
    {stack : List Frame} (sound : Sound rules stack) :
    feed automaton token fuel stack = .stuck ∨
    ∃ last, Sound rules last ∧ consumed last = consumed stack ∧
      Acts rules last token (feed automaton token fuel stack) ∧
      ∀ next, feed automaton token fuel stack ≠ .reduced next := by
  induction fuel generalizing stack with
  | zero => exact .inl rfl
  | succ fuel ih =>
    have acts := acts_step reduces stack token
    rw [feed]
    cases done : step automaton stack token with
    | reduced next =>
      rw [done] at acts
      obtain ⟨sound, same⟩ := acts.sound_of_reduced sound
      rcases ih sound with stuck | ⟨last, soundLast, kept, result, final⟩
      · exact .inl stuck
      · exact .inr ⟨last, soundLast, kept.trans same, result, final⟩
    | _ =>
      rw [done] at acts
      exact .inr ⟨stack, sound, rfl, acts, nofun⟩

/-- Shifting a token adds it to what a sound stack holds. -/
theorem sound_of_read (reduces : ReducesBy rules automaton) {token : Token}
    {stack next : List Frame} (sound : Sound rules stack)
    (shifted : read automaton stack token = .shifted next) :
    Sound rules next ∧ consumed next = consumed stack ++ [token] := by
  rw [read] at shifted
  rcases feed_result reduces token (reductionLimit stack) sound with
    stuck | ⟨last, soundLast, same, acts, -⟩
  · exact absurd (stuck.symm.trans shifted) nofun
  · rw [shifted] at acts
    cases acts with
    | shifted =>
      refine ⟨fun frame member => ?_, ?_⟩
      · rcases List.mem_cons.mp member with rfl | below
        · exact .leaf token
        · exact soundLast frame below
      · rw [consumed_cons, same]
        rfl

/-- What is accepted at the end is a valid derivation of all tokens. -/
theorem valid_of_finish (reduces : ReducesBy rules automaton) {stack : List Frame}
    {last : Position} {derivation : Derivation} (sound : Sound rules stack)
    (finished : finish automaton stack last = .ok derivation) :
    derivation.Valid rules ∧ derivation.symbol = .nonterminal .start ∧
      derivation.tokens = consumed stack := by
  rw [finish] at finished
  split at finished
  · rename_i accepted
    obtain rfl := Except.ok.inj finished
    rw [read] at accepted
    rcases feed_result reduces ⟨.endOfInput, "", last⟩ (reductionLimit stack) sound with
      stuck | ⟨final, soundFinal, same, acts, -⟩
    · exact absurd (stuck.symm.trans accepted) nofun
    · rw [accepted] at acts
      exact same ▸ acts.valid_of_accepted soundFinal
  · exact absurd finished nofun
  · exact absurd finished nofun

/-- The derivation of a run of tokens, if the automaton accepts it. -/
def parseTokens (automaton : Automaton) (stack : List Frame) (last : Position) :
    List Token → Option Derivation
  | [] => (finish automaton stack last).toOption
  | token :: rest =>
    match read automaton stack token with
    | .shifted next => parseTokens automaton next token.position rest
    | _ => none

/-- Whatever the parser makes of some tokens is a valid derivation of them, from the
start symbol. -/
theorem valid_of_parseTokens (reduces : ReducesBy rules automaton) {tokens : List Token}
    {stack : List Frame} {last : Position} {derivation : Derivation} (sound : Sound rules stack)
    (parsed : parseTokens automaton stack last tokens = some derivation) :
    derivation.Valid rules ∧ derivation.symbol = .nonterminal .start ∧
      derivation.tokens = consumed stack ++ tokens := by
  induction tokens generalizing stack last with
  | nil =>
    rw [parseTokens] at parsed
    cases finished : finish automaton stack last with
    | error failure => rw [finished] at parsed; exact absurd parsed nofun
    | ok found =>
      rw [finished] at parsed
      obtain rfl := Option.some.inj parsed
      simpa using valid_of_finish reduces sound finished
  | cons token rest ih =>
    rw [parseTokens] at parsed
    split at parsed
    · rename_i next shifted
      obtain ⟨soundNext, taken⟩ := sound_of_read reduces sound shifted
      simpa [taken] using ih soundNext parsed
    · exact absurd parsed nofun

/-! ## How many reductions there can be -/

/-- The rank of a symbol. A production of one symbol leads to a higher rank. -/
def rank : Symbol → Nat
  | .terminal _ => 0
  | .nonterminal .arguments | .nonterminal .moreStatements => Nonterminal.all.length
  | .nonterminal category => Nonterminal.all.length - category.ctorIdx

theorem rank_le (symbol : Symbol) : rank symbol ≤ Nonterminal.all.length := by
  unfold rank
  split <;> omega

/-- Rules whose bodies are empty for the start symbol at most, and whose bodies of one
symbol are of lower rank than their heads. -/
def Ranked (rules : List Production) : Prop :=
  ∀ rule ∈ rules, (rule.body = [] → rule.head = .start) ∧
    ∀ symbol, rule.body = [symbol] → rank symbol < rank (.nonterminal rule.head)

/-- The weight of a stack: its length counts most, and then the rank of its top. -/
def weight : List Frame → Nat
  | [] => 0
  | frame :: rest =>
    (rest.length + 1) * (Nonterminal.all.length + 1) - rank frame.derivation.symbol

@[simp]
theorem weight_cons (frame : Frame) (rest : List Frame) :
    weight (frame :: rest) =
      (rest.length + 1) * (Nonterminal.all.length + 1) - rank frame.derivation.symbol := rfl

theorem weight_lt_reductionLimit (stack : List Frame) : weight stack < reductionLimit stack := by
  cases stack with
  | nil => decide
  | cons frame rest =>
    simp only [weight, reductionLimit, List.length_cons, Nat.add_mul]
    omega

/-- A reduction lowers the weight. -/
theorem Acts.weight_lt (ranked : Ranked rules) {stack next : List Frame} {token : Token}
    (acts : Acts rules stack token (.reduced next)) : weight next < weight stack := by
  cases acts with
  | @reduced target production rule other spelled =>
    obtain ⟨nonempty, climbs⟩ := ranked production rule
    have count : min production.body.length stack.length = production.body.length := by
      simpa using congrArg List.length spelled
    have low := rank_le (.nonterminal production.head)
    match stack, shape : production.body with
    | _, [] => exact absurd (nonempty shape) other
    | [], _ :: _ => simp [shape] at count
    | frame :: rest, [symbol] =>
      have same : frame.derivation.symbol = symbol := by simpa [shape] using spelled
      have climb := climbs symbol shape
      have room : Nonterminal.all.length + 1 ≤
          (rest.length + 1) * (Nonterminal.all.length + 1) := Nat.le_mul_of_pos_left _ (by omega)
      simp only [weight_cons, same, List.length_cons, List.length_nil, List.drop_succ_cons,
        List.drop_zero]
      rw [show ∀ children, (Derivation.node production children).symbol =
        .nonterminal production.head from fun _ => rfl]
      omega
    | frame :: rest, first :: second :: more =>
      have high := rank_le frame.derivation.symbol
      simp only [shape, List.length_cons] at count
      have shorter : (rest.length + 1 - (more.length + 1 + 1) + 1) *
          (Nonterminal.all.length + 1) ≤ rest.length * (Nonterminal.all.length + 1) :=
        Nat.mul_le_mul_right _ (by omega)
      simp only [weight_cons, List.length_cons, List.length_drop, Nat.add_one_mul rest.length]
      omega

/-- Fuel above the weight of a stack is as good as any other. -/
theorem feed_eq_feed (reduces : ReducesBy rules automaton) (ranked : Ranked rules)
    {token : Token} {fuel more : Nat} {stack : List Frame} (enough : weight stack < fuel)
    (plenty : weight stack < more) :
    feed automaton token fuel stack = feed automaton token more stack := by
  induction fuel generalizing more stack with
  | zero => exact absurd enough (Nat.not_lt_zero _)
  | succ fuel ih =>
    obtain ⟨more, rfl⟩ := Nat.exists_eq_add_of_lt (Nat.zero_lt_of_lt plenty)
    rw [Nat.zero_add] at plenty ⊢
    rw [feed, feed]
    have acts := acts_step reduces stack token
    cases done : step automaton stack token with
    | reduced next =>
      rw [done] at acts
      have lighter := acts.weight_lt ranked
      exact ih (by omega) (by omega)
    | _ => rfl

/-- Reading a token goes on after a reduction as it would from there. -/
theorem read_of_reduced (reduces : ReducesBy rules automaton) (ranked : Ranked rules)
    {token : Token} {stack next : List Frame}
    (reduced : step automaton stack token = .reduced next) :
    read automaton stack token = read automaton next token := by
  have acts := acts_step reduces stack token
  rw [reduced] at acts
  have lighter := acts.weight_lt ranked
  have limit := weight_lt_reductionLimit stack
  obtain ⟨fuel, same⟩ := Nat.exists_eq_add_of_lt (Nat.zero_lt_of_lt limit)
  rw [Nat.zero_add] at same
  rw [read, same, feed, reduced]
  exact feed_eq_feed reduces ranked (by omega) (weight_lt_reductionLimit next)

/-- Any other action ends the reading of a token. -/
theorem read_of_not_reduced {token : Token} {stack : List Frame}
    (other : ∀ next, step automaton stack token ≠ .reduced next) :
    read automaton stack token = step automaton stack token := by
  have limit := weight_lt_reductionLimit stack
  obtain ⟨fuel, same⟩ := Nat.exists_eq_add_of_lt (Nat.zero_lt_of_lt limit)
  rw [Nat.zero_add] at same
  rw [read, same, feed]
  cases done : step automaton stack token with
  | reduced next => exact absurd done (other next)
  | _ => rfl

end Parser

end GlyphCompiler
