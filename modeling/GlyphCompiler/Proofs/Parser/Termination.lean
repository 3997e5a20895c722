/-
# Parsing ends

Every reduction lowers the weight of the stack, so under one token there are fewer of
them than the parser allows itself, and the parser's own limit never ends them. What
ends them is an action: the token is shifted, the input is accepted, or the token is
refused. Nothing else can happen, because every stack that can be reached traces a path
of the automaton, and the automaton is consistent.

Each token and each piece of ignored text takes at least one character of the input. So
every text is parsed in the end, or rejected with a parse error.
-/

import GlyphCompiler.Proofs.Parser.Acceptance
import GlyphCompiler.Proofs.Parser.Constructs
import GlyphCompiler.Proofs.Parser.Separation

namespace GlyphCompiler

/-! ## Reductions under a token -/

namespace Parser

variable {automaton : Automaton} {rules : List Production} {stack final : List Frame}
  {token : Token}

/-- Does an action end the reading of a token? -/
def Step.settles : Step → Bool
  | .shifted _ | .accepted _ | .refused _ => true
  | .reduced _ | .stuck => false

/-- The stacks that can be reached by shifts and reductions, under any tokens. -/
inductive Reached (automaton : Automaton) : List Frame → Prop
  | start : Reached automaton []
  | shifted {stack next : List Frame} {token : Token} (reached : Reached automaton stack)
      (shifts : step automaton stack token = .shifted next) : Reached automaton next
  | reduced {stack next : List Frame} {token : Token} (reached : Reached automaton stack)
      (reduces : step automaton stack token = .reduced next) : Reached automaton next

/-- A number of reductions under a token lead from one stack to another. -/
inductive ReducesIn (automaton : Automaton) (token : Token) : Nat → List Frame → List Frame → Prop
  | done {stack : List Frame} : ReducesIn automaton token 0 stack stack
  | reduced {count : Nat} {stack middle final : List Frame}
      (first : step automaton stack token = .reduced middle)
      (later : ReducesIn automaton token count middle final) :
      ReducesIn automaton token (count + 1) stack final

/-- No run of reductions is longer than one that ends in another action. -/
theorem ReducesIn.le {count more : Nat} {other : List Frame}
    (run : ReducesIn automaton token count stack final)
    (ends : ∀ next, step automaton final token ≠ .reduced next)
    (longer : ReducesIn automaton token more stack other) : more ≤ count := by
  induction run generalizing more with
  | done =>
    cases longer with
    | done => exact le_rfl
    | reduced first _ => exact absurd first (ends _)
  | reduced first _ ih =>
    cases longer with
    | done => exact Nat.zero_le _
    | reduced other later =>
      obtain rfl := Step.reduced.inj (first.symm.trans other)
      exact Nat.succ_le_succ (ih ends later)

/-- The reductions under a token come to an end, at which the token is read. There are no
more of them than the stack weighs. -/
theorem exists_reducesIn (reduces : ReducesBy rules automaton) (ranked : Ranked rules)
    (token : Token) (stack : List Frame) :
    ∃ count final, count ≤ weight stack ∧ ReducesIn automaton token count stack final ∧
      (∀ next, step automaton final token ≠ .reduced next) ∧
      read automaton stack token = step automaton final token := by
  induction size : weight stack using Nat.strongRecOn generalizing stack with
  | _ size ih =>
    by_cases goesOn : ∃ next, step automaton stack token = .reduced next
    · obtain ⟨next, reduced⟩ := goesOn
      have acts := acts_step reduces stack token
      rw [reduced] at acts
      have lighter := acts.weight_lt ranked
      obtain ⟨count, final, few, run, ends, reads⟩ := ih _ (size ▸ lighter) next rfl
      exact ⟨count + 1, final, by omega, .reduced reduced run, ends,
        (read_of_reduced reduces ranked reduced).trans reads⟩
    · have ends := not_exists.mp goesOn
      exact ⟨0, stack, Nat.zero_le _, .done, ends, read_of_not_reduced ends⟩

section

variable {notes : Braun (List Automaton.Begun)}

/-- Every stack that can be reached traces a path of a consistent automaton. -/
theorem Reached.traced (reached : Reached automaton stack) (agrees : automaton.agreesWith notes)
    (reduces : ReducesBy rules automaton) : Traced automaton stack := by
  induction reached with
  | start => exact .nil
  | @shifted stack next token _ shifts ih =>
    have proceeds := ih.proceeds_step agrees reduces token
    rw [shifts] at proceeds
    cases proceeds with
    | shifted traced _ => exact traced
  | @reduced stack next token _ reduces_ ih =>
    have proceeds := ih.proceeds_step agrees reduces token
    rw [reduces_] at proceeds
    cases proceeds with
    | reduced traced => exact traced

/-- Reductions under a token keep to the paths of a consistent automaton. -/
theorem ReducesIn.traced {count : Nat} (run : ReducesIn automaton token count stack final)
    (agrees : automaton.agreesWith notes) (reduces : ReducesBy rules automaton)
    (traced : Traced automaton stack) : Traced automaton final := by
  induction run with
  | done => exact traced
  | reduced first _ ih =>
    have proceeds := traced.proceeds_step agrees reduces token
    rw [first] at proceeds
    cases proceeds with
    | reduced next => exact ih next

theorem Proceeds.settles {action : Step} (proceeds : Proceeds automaton rules token action)
    (ends : ∀ next, action ≠ .reduced next) : action.settles = true := by
  cases proceeds with
  | reduced _ => exact absurd rfl (ends _)
  | _ => rfl

/-- On a traced stack the reductions under a token end with an action that reads it. -/
theorem Traced.exists_reducesIn (traced : Traced automaton stack)
    (agrees : automaton.agreesWith notes) (reduces : ReducesBy rules automaton)
    (ranked : Ranked rules) (token : Token) :
    ∃ count final, count < reductionLimit stack ∧
      ReducesIn automaton token count stack final ∧
      (∀ more other, ReducesIn automaton token more stack other → more ≤ count) ∧
      (step automaton final token).settles = true ∧
      read automaton stack token = step automaton final token := by
  obtain ⟨count, final, few, run, ends, reads⟩ :=
    Parser.exists_reducesIn reduces ranked token stack
  have proceeds := (run.traced agrees reduces traced).proceeds_step agrees reduces token
  exact ⟨count, final, few.trans_lt (weight_lt_reductionLimit stack), run,
    fun _ _ longer => run.le ends longer, proceeds.settles ends, reads⟩

/-- Reading a token on a traced stack ends with a shift, with the whole input or with a
refusal. -/
theorem Traced.proceeds_read (traced : Traced automaton stack)
    (agrees : automaton.agreesWith notes) (reduces : ReducesBy rules automaton)
    (ranked : Ranked rules) (token : Token) :
    Proceeds automaton rules token (read automaton stack token) ∧
      ∀ next, read automaton stack token ≠ .reduced next := by
  obtain ⟨count, final, -, run, ends, reads⟩ :=
    Parser.exists_reducesIn reduces ranked token stack
  rw [reads]
  exact ⟨(run.traced agrees reduces traced).proceeds_step agrees reduces token, ends⟩

/-! ## The whole input -/

/-- A parse ends with the derivation of a program, or with a parse error. -/
inductive Ends (rules : List Production) : Except Failure Derivation → Prop
  | parsed {production : Production} {children : List Derivation} (rule : production ∈ rules)
      (isStart : production.head = .start) : Ends rules (.ok (.node production children))
  | rejected {diagnostic : Diagnostic} (isSyntax : diagnostic.cause.category = .parseError) :
      Ends rules (.error (.diagnostic diagnostic))

theorem ends_finish (traced : Traced automaton stack) (agrees : automaton.agreesWith notes)
    (reduces : ReducesBy rules automaton) (ranked : Ranked rules) (last : Position) :
    Ends rules (finish automaton stack last) := by
  obtain ⟨proceeds, ends⟩ := traced.proceeds_read agrees reduces ranked ⟨.endOfInput, "", last⟩
  rw [finish]
  generalize read automaton stack ⟨.endOfInput, "", last⟩ = action at proceeds ends
  cases proceeds with
  | shifted _ more => exact absurd rfl more
  | reduced _ => exact absurd rfl (ends _)
  | accepted rule isStart _ => exact .parsed rule isStart
  | refused => exact .rejected rfl

/-- Where nothing admitted matches, there is a character or a text to reject. -/
theorem ends_unreadable (rules : List Production) (state : State) (position : Position)
    {input : List Char} (nonempty : input ≠ []) :
    Ends rules (.error (unreadable state position input)) := by
  unfold unreadable
  split
  · exact .rejected rfl
  · cases input with
    | nil => exact absurd rfl nonempty
    | cons character rest => exact .rejected rfl

end

end Parser

namespace Lexer

/-- No text is read as the end of the input. -/
theorem ne_endOfInput_of_next? {admitted : List Terminal} {input : List Char} {kind : Terminal}
    {length : Nat} (found : next? admitted input = some (kind, length)) : kind ≠ .endOfInput := by
  obtain ⟨before, tried, after, candidates_, -, -, rfl⟩ := next?_eq_some_iff.mp found
  have listed : tried ∈ candidates admitted := by simp [candidates_]
  split
  · rw [classify]
    cases keyword : admitted.find? _ with
    | none => simp
    | some word =>
      have isWord := List.find?_some keyword
      rintro rfl
      simp [Terminal.isKeyword] at isWord
  · rintro rfl
    simp [candidates, order] at listed

end Lexer

namespace Parser

/-- The loop over the input ends with the derivation of a program, or with a parse error. -/
theorem ends_parseFrom {automaton : Automaton} {rules : List Production}
    {notes : Braun (List Automaton.Begun)} (agrees : automaton.agreesWith notes)
    (reduces : ReducesBy rules automaton) (ranked : Ranked rules) {stack : List Frame}
    (traced : Traced automaton stack) (last position : Position) (input : List Char) :
    Ends rules (parseFrom automaton stack last position input) := by
  induction size : input.length using Nat.strongRecOn generalizing stack last position input with
  | _ size ih =>
    rw [parseFrom]
    split
    · exact ends_finish traced agrees reduces ranked last
    next nonempty =>
    have unread : input ≠ [] := by simpa using nonempty
    obtain ⟨state, here⟩ := traced.exists_state agrees
    rw [here]
    dsimp only
    split
    · exact ends_unreadable rules state position unread
    next kind length found =>
    have shorter : (input.drop length).length < input.length := by
      have positive := Lexer.next?_pos found
      have := List.length_pos_iff.mpr unread
      rw [List.length_drop]
      omega
    split
    · exact ih _ (size ▸ shorter) traced last _ _ rfl
    · have notEnd := Lexer.ne_endOfInput_of_next? found
      obtain ⟨proceeds, ends⟩ := traced.proceeds_read agrees reduces ranked
        ⟨kind, String.ofList (input.take length), position⟩
      generalize read automaton stack ⟨kind, String.ofList (input.take length), position⟩ =
        action at proceeds ends
      cases proceeds with
      | shifted next _ => exact ih _ (size ▸ shorter) next position _ _ rfl
      | reduced _ => exact absurd rfl (ends _)
      | accepted _ _ ended => exact absurd ended notEnd
      | refused => exact .rejected rfl

end Parser

namespace Grammar

/-- What is derived from the start symbol contributes one tree. -/
theorem exists_tree {production : Production} (rule : production ∈ rules)
    (isStart : production.head = .start) (children : List Derivation) :
    ∃ tree, (Derivation.node production children).tree? = some tree := by
  simp [Derivation.tree?, Derivation.contribution, build_start _ rule isStart]

end Grammar

/-- Every text is parsed as a tree, or rejected with a parse error. -/
theorem exists_tree_or_parseError (source : String) :
    (∃ tree, parse source = .ok tree) ∨
      ∃ diagnostic, parse source = .error (.diagnostic diagnostic) ∧
        diagnostic.cause.category = .parseError := by
  have ends : Parser.Ends Grammar.rules (parseDerivation source) :=
    Parser.ends_parseFrom Grammar.isConsistent_automaton Grammar.reducesBy_rules
      Grammar.ranked_rules .nil .start .start source.toList
  generalize outcome : parseDerivation source = result at ends
  cases ends with
  | parsed rule isStart =>
    obtain ⟨tree, isTree⟩ := Grammar.exists_tree rule isStart _
    exact .inl ⟨tree, (Grammar.parse_eq_ok_iff source tree).mpr ⟨_, outcome, isTree⟩⟩
  | rejected isSyntax =>
    refine .inr ⟨_, ?_, isSyntax⟩
    rw [parse, outcome]
    rfl

/-- Parsing ends. Every text is parsed as a tree, or rejected with a parse error. Every
terminal that matches, ignored text included, takes at least one character of the input.
And on every stack that can be reached, the reductions under a token are fewer than the
limit: after them the token is shifted, accepted or refused. -/
theorem parse_terminates :
    (∀ source, (∃ tree, parse source = .ok tree) ∨
      ∃ diagnostic, parse source = .error (.diagnostic diagnostic) ∧
        diagnostic.cause.category = .parseError) ∧
    (∀ (terminal : Terminal) (input : List Char) length, terminal.match? input = some length →
      0 < length ∧ length ≤ input.length) ∧
    (∀ stack, Parser.Reached Grammar.automaton stack → ∀ token,
      ∃ count final, count < Parser.reductionLimit stack ∧
        Parser.ReducesIn Grammar.automaton token count stack final ∧
        (∀ more other, Parser.ReducesIn Grammar.automaton token more stack other →
          more ≤ count) ∧
        (Parser.step Grammar.automaton final token).settles = true ∧
        Parser.read Grammar.automaton stack token =
          Parser.step Grammar.automaton final token) := by
  refine ⟨exists_tree_or_parseError, fun terminal input length found => ?_,
    fun stack reached token => ?_⟩
  · exact ⟨Terminal.match?_pos found, Terminal.match?_le found⟩
  · have traced := reached.traced Grammar.isConsistent_automaton Grammar.reducesBy_rules
    exact traced.exists_reducesIn Grammar.isConsistent_automaton Grammar.reducesBy_rules
      Grammar.ranked_rules token

end GlyphCompiler
