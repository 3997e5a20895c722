/-
# What the parser accepts

A checked table misses no derivation, so the parser accepts exactly the tokens
that the grammar derives from its start symbol, and the tree it returns is the
one of their derivation. Only a bare `return` is left out: what the parser makes
of it depends on what follows.

A text is accepted like its tokens where it is known how it is read, or where
each of its words is read as itself wherever the parser admits it.
-/

import GlyphCompiler.Proofs.Parser.Derives
import GlyphCompiler.Proofs.Parser.Reading

namespace GlyphCompiler

namespace Grammar

/-! ## The checked table -/

theorem isComplete_automaton : automaton.isComplete decided := checked_automaton.1

theorem isRegular_automaton : Expression.isRegular automaton := checked_automaton.2.1

theorem splitsStars_automaton : automaton.states.all automaton.splitsStars :=
  checked_automaton.2.2

/-- A derivation without a `return` uses decided productions only. -/
theorem valid_decided {derivation : Derivation} (valid : derivation.Valid rules)
    (plain : ∀ token ∈ derivation.tokens, token.kind ≠ .returnWord) :
    derivation.Valid decided := by
  induction valid with
  | leaf token => exact .leaf token
  | @node rule children member spelled below ih =>
    have inside (child : Derivation) (listed : child ∈ children) (token : Token)
        (piece : token ∈ child.tokens) : token.kind ≠ .returnWord := by
      refine plain token ?_
      rw [Derivation.tokens, Derivation.tokensOf_eq_flatMap]
      exact List.mem_flatMap.mpr ⟨child, listed, piece⟩
    refine .node (mem_decided_of_mem_rules member fun bare => ?_) spelled
      fun child listed => ih child listed (inside child listed)
    rw [bare] at spelled
    obtain ⟨child, rest, rfl, isWord, -⟩ := List.map_eq_cons_iff.mp spelled
    cases child with
    | leaf token =>
      exact inside _ List.mem_cons_self token List.mem_cons_self (Symbol.terminal.inj isWord)
    | node => cases isWord

/-! ## Trees of accepted texts -/

/-- Without a `return`, the parser accepts exactly the tokens that the grammar derives from
the start symbol, and finds their derivation. -/
theorem parseTokens_iff {tokens : List Token} (plain : ∀ token ∈ tokens, token.kind ≠ .returnWord)
    (last : Position) (derivation : Derivation) :
    Parser.parseTokens automaton [] last tokens = some derivation ↔
      derivation.Valid rules ∧ derivation.symbol = .nonterminal .start ∧
        derivation.tokens = tokens := by
  constructor
  · intro parsed
    have sound : Parser.Sound rules [] := nofun
    exact Parser.valid_of_parseTokens reducesBy_rules sound parsed
  · rintro ⟨valid, isStart, rfl⟩
    exact Parser.parseTokens_of_valid reducesBy_rules ranked_rules isComplete_automaton
      (fun rule => mem_rules_of_mem_decided) (valid_decided valid plain) isStart last

theorem tree?_eq_some_iff (derivation : Derivation) (tree : Tree) :
    derivation.tree? = some tree ↔ derivation.contribution = [some tree] := by
  rw [Derivation.tree?]
  split
  · simp_all
  · rename_i other
    exact ⟨nofun, fun same => absurd same (other tree)⟩

theorem parse_eq_ok_iff (source : String) (tree : Tree) :
    parse source = .ok tree ↔
      ∃ derivation, parseDerivation source = .ok derivation ∧ derivation.tree? = some tree := by
  rw [parse]
  cases parseDerivation source with
  | error failure => simp [bind, Except.bind]
  | ok derivation =>
    simp only [bind, Except.bind, Except.ok.injEq, exists_eq_left']
    cases derivation.tree? <;> simp [pure, Except.pure, throw, throwThe, MonadExceptOf.throw]

/-- What a source text is parsed as, where its tokens are known. -/
theorem parse_iff {source : String} {tokens : List Token}
    (plain : ∀ token ∈ tokens, token.kind ≠ .returnWord)
    (reads : (Parser.parseFrom automaton [] .start .start source.toList).toOption =
      Parser.parseTokens automaton [] .start tokens) (tree : Tree) :
    parse source = .ok tree ↔ Derives (.nonterminal .start) tokens [some tree] := by
  have parsed (derivation : Derivation) : parseDerivation source = .ok derivation ↔
      derivation.Valid rules ∧ derivation.symbol = .nonterminal .start ∧
        derivation.tokens = tokens := by
    rw [← parseTokens_iff plain .start, ← reads, parseDerivation]
    cases Parser.parseFrom automaton [] .start .start source.toList <;> simp [Except.toOption]
  rw [parse_eq_ok_iff]
  constructor
  · rintro ⟨derivation, found, isTree⟩
    obtain ⟨valid, isStart, same⟩ := (parsed derivation).mp found
    exact ⟨derivation, valid, isStart, same, (tree?_eq_some_iff derivation tree).mp isTree⟩
  · rintro ⟨derivation, valid, isStart, same, kept⟩
    exact ⟨derivation, (parsed derivation).mpr ⟨valid, isStart, same⟩,
      (tree?_eq_some_iff derivation tree).mpr kept⟩

end Grammar

end GlyphCompiler
