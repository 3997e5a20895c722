/-
# Parsing an expression that is shown

The parser accepts an expression after `exscribe` exactly when the grammar
derives its words from the nonterminal of expressions, and the tree is the one
of that derivation: a program which begins with `exscribe` and has its only
semicolon at the end is that one statement.
-/

import GlyphCompiler.Proofs.Parser.Acceptance
import GlyphCompiler.Proofs.Parser.Expression
import GlyphCompiler.Proofs.Parser.Precedence

namespace GlyphCompiler

namespace Grammar

/-! ## A first `exscribe` -/

/-- The symbols from which a text that begins with `exscribe` may be derived. -/
def showing : List Symbol :=
  [.terminal .exscribeWord, .nonterminal .start, .nonterminal .moreItems, .nonterminal .item,
    .nonterminal .statement, .nonterminal .exscribeStatement, .nonterminal .symbol,
    .nonterminal .moreStatements]

/-- The symbols of those that close it with a semicolon. -/
def closing : List Symbol :=
  [.nonterminal .moreItems, .nonterminal .item, .nonterminal .statement,
    .nonterminal .exscribeStatement]

/-- How the tokens of a symbol begin: `exscribe` comes first where the symbol allows for it,
and then a semicolon follows where the symbol closes the statement. -/
def Begins (symbol : Symbol) (tokens : List Token) : Prop :=
  ∃ first rest, tokens = first :: rest ∧ (∀ kind, symbol = .terminal kind → first.kind = kind) ∧
    (first.kind = .exscribeWord → symbol ∈ showing ∧
      (symbol ∈ closing → ∃ token ∈ tokens, token.kind = .semicolon))

/-- A production begins as its first symbol does, and closes the statement by itself or as
its first symbol does. -/
theorem begins_of_head : ∀ rule ∈ rules, rule.head ≠ .start →
    ∃ first ∈ rule.body.head?, first ≠ .nonterminal .start ∧
      (first ∈ showing → .nonterminal rule.head ∈ showing) ∧
      (first ∈ showing ∧ .nonterminal rule.head ∈ closing →
        first ∈ closing ∨ .terminal .semicolon ∈ rule.body) := by
  decide +kernel

theorem Spells.exists_of_mem {relation : Symbol → List Token → List (Option Tree) → Prop}
    {body : List Symbol} {tokens : List Token} {kept : List (List (Option Tree))}
    (spells : Spells relation body tokens kept) {symbol : Symbol} (member : symbol ∈ body) :
    ∃ piece contribution, relation symbol piece contribution ∧ ∀ token ∈ piece, token ∈ tokens := by
  induction spells with
  | nil => exact absurd member List.not_mem_nil
  | cons here _ ih =>
    rcases List.mem_cons.mp member with rfl | later
    · exact ⟨_, _, here, fun token listed => List.mem_append_left _ listed⟩
    · obtain ⟨piece, contribution, known, inside⟩ := ih later
      exact ⟨piece, contribution, known, fun token listed =>
        List.mem_append_right _ (inside token listed)⟩

theorem begins_of_derives {symbol : Symbol} {tokens : List Token} {kept : List (Option Tree)}
    (derives : Derives symbol tokens kept) (other : symbol ≠ .nonterminal .start) :
    Begins symbol tokens := by
  refine Derives.induct (motive := fun symbol tokens _ =>
    symbol ≠ .nonterminal .start → Begins symbol tokens) ?_ ?_ derives other
  · intro token _
    refine ⟨token, [], rfl, fun kind same => Symbol.terminal.inj same, fun isWord => ?_⟩
    rw [isWord]
    exact ⟨by decide, fun closes => absurd closes (by decide)⟩
  · intro rule member tokens pieces _ spells other
    obtain ⟨symbol, isFirst, notStart, shows, closed⟩ :=
      begins_of_head rule member fun same => other (same ▸ rfl)
    have semicolon (closes : .terminal .semicolon ∈ rule.body) :
        ∃ token ∈ tokens, token.kind = .semicolon := by
      obtain ⟨piece, contribution, known, inside⟩ := spells.exists_of_mem closes
      obtain ⟨token, rest, rfl, isKind, -⟩ := known nofun
      exact ⟨token, inside token List.mem_cons_self, isKind _ rfl⟩
    generalize rule.body = body at spells isFirst closed semicolon
    rcases spells with _ | @⟨_, _, piece, later, _, _, here, _⟩
    · exact absurd isFirst nofun
    obtain rfl := Option.some.inj isFirst
    obtain ⟨first, rest, rfl, -, begins⟩ := here notStart
    refine ⟨first, rest ++ later, rfl, nofun, fun isWord => ?_⟩
    obtain ⟨isShowing, found⟩ := begins isWord
    refine ⟨shows isShowing, fun closes => ?_⟩
    rcases closed ⟨isShowing, closes⟩ with closesFirst | direct
    · obtain ⟨token, listed, isKind⟩ := found closesFirst
      exact ⟨token, List.mem_append_left _ listed, isKind⟩
    · exact semicolon direct

/-- The production of statements that show a value. -/
def exscribeRule : Production :=
  ⟨.exscribeStatement, [.keep (.terminal .exscribeWord), .keep (.nonterminal .expression),
    .drop .semicolon], .node .exscribeStatement⟩

/-- The productions above a statement that shows a value, among those that may begin with
its word. -/
theorem rule_of_showing : ∀ rule ∈ rules, ∀ first ∈ rule.body.head?, first ∈ showing →
    (rule.head = .statement → rule = Expression.unitRule .statement .exscribeStatement) ∧
    (rule.head = .item → rule = Expression.unitRule .item .statement) ∧
    (rule.head = .moreItems → rule = Expression.unitRule .moreItems .item ∨
      rule = ⟨.moreItems, [.keep (.nonterminal .moreItems), .keep (.nonterminal .item)], .splice⟩) ∧
    (rule.head = .start → rule = ⟨.start, [.keep (.nonterminal .moreItems)], .node .start⟩) ∧
    (rule.head = .exscribeStatement → rule = exscribeRule) := by
  decide +kernel

open Expression (unitRule derives_of_unitRule derives_token)

section Shown

variable {word last : Token} {inside rest : List Token} {kept : List (Option Tree)}

/-- What derives a text that begins with `exscribe` has a production that may begin so. -/
theorem exists_rule_of_word (isWord : word.kind = .exscribeWord) {head : Nonterminal}
    (derives : Derives (.nonterminal head) (word :: rest) kept) :
    ∃ rule ∈ rules, rule.head = head ∧ (∃ first ∈ rule.body.head?, first ∈ showing) ∧
      ∃ pieces, Spells Derives rule.body (word :: rest) pieces ∧
        kept = rule.contribution (word :: rest) pieces := by
  obtain ⟨rule, member, isHead, pieces, spells, same⟩ := exists_rule derives
  refine ⟨rule, member, isHead, ?_, pieces, spells, same⟩
  have notStart := start_not_mem_body rule member
  generalize rule.body = body at spells notStart
  generalize whole : word :: rest = tokens at spells
  rcases spells with _ | @⟨symbol, _, piece, later, _, _, here, _⟩
  · exact absurd whole nofun
  refine ⟨symbol, rfl, ?_⟩
  obtain ⟨first, more, rfl, -, begins⟩ :=
    begins_of_derives here fun isStart => notStart (isStart ▸ List.mem_cons_self)
  obtain rfl : word = first := (List.cons.inj whole).1
  exact (begins isWord).1

theorem derives_of_spells_unitRule {outer inner : Nonterminal} {tokens : List Token}
    {pieces : List (List (Option Tree))}
    (spells : Spells Derives (unitRule outer inner).body tokens pieces) :
    Derives (.nonterminal inner) tokens ((unitRule outer inner).contribution tokens pieces) := by
  change Spells Derives [.nonterminal inner] tokens pieces at spells
  rcases spells with _ | ⟨here, ⟨⟩⟩
  simpa [unitRule, Production.contribution, Derivation.keep] using here

/-- An item that begins with `exscribe` is a statement that shows a value. -/
theorem exscribeStatement_of_item (isWord : word.kind = .exscribeWord)
    (derives : Derives (.nonterminal .item) (word :: rest) kept) :
    Derives (.nonterminal .exscribeStatement) (word :: rest) kept := by
  obtain ⟨rule, member, isHead, ⟨first, isFirst, shows⟩, pieces, spells, rfl⟩ :=
    exists_rule_of_word isWord derives
  obtain rfl := (rule_of_showing rule member first isFirst shows).2.1 isHead
  have statement := derives_of_spells_unitRule spells
  obtain ⟨rule, member, isHead, ⟨first, isFirst, shows⟩, pieces, spells, same⟩ :=
    exists_rule_of_word isWord statement
  obtain rfl := (rule_of_showing rule member first isFirst shows).1 isHead
  rw [same]
  exact derives_of_spells_unitRule spells

/-- Before the semicolon of a statement that shows a value, no other item can end. -/
theorem exscribeStatement_of_moreItems (isWord : word.kind = .exscribeWord)
    (plain : ∀ token ∈ word :: inside, token.kind ≠ .semicolon)
    (derives : Derives (.nonterminal .moreItems) (word :: (inside ++ [last])) kept) :
    Derives (.nonterminal .exscribeStatement) (word :: (inside ++ [last])) kept := by
  obtain ⟨rule, member, isHead, ⟨first, isFirst, shows⟩, pieces, spells, rfl⟩ :=
    exists_rule_of_word isWord derives
  rcases (rule_of_showing rule member first isFirst shows).2.2.1 isHead with rfl | rfl
  · exact exscribeStatement_of_item isWord (derives_of_spells_unitRule spells)
  · change Spells Derives [.nonterminal .moreItems, .nonterminal .item]
      (word :: (inside ++ [last])) pieces at spells
    generalize whole : word :: (inside ++ [last]) = tokens at spells
    rcases spells with _ | @⟨_, _, items, _, _, _, earlier, _ | @⟨_, _, item, _, _, _, final, ⟨⟩⟩⟩
    obtain ⟨first, more, rfl, -, begins⟩ := begins_of_derives earlier nofun
    obtain ⟨second, others, rfl, -, -⟩ := begins_of_derives final nofun
    obtain rfl : word = first := (List.cons.inj whole).1
    obtain ⟨token, listed, isSemicolon⟩ := (begins isWord).2 (by decide)
    -- Without its last token, the text still has all tokens of the earlier items.
    have shorter : word :: inside = word :: more ++ (second :: others).dropLast := by
      rw [List.append_nil] at whole
      rw [← List.dropLast_append_of_ne_nil (List.cons_ne_nil second others), ← whole,
        ← List.cons_append, List.dropLast_concat]
    exact absurd isSemicolon (plain token (shorter ▸ List.mem_append_left _ listed))

/-- A program that begins with `exscribe` and has its only semicolon at the end shows the
value of one expression. -/
theorem derives_start_iff (isWord : word.kind = .exscribeWord) (ends : last.kind = .semicolon)
    (plain : ∀ token ∈ inside, token.kind ≠ .semicolon) (tree : Tree) :
    Derives (.nonterminal .start) (word :: (inside ++ [last])) [some tree] ↔
      ∃ operand, Derives (.nonterminal .expression) inside operand ∧
        tree = .node .start word.position
          [some (.node .exscribeStatement word.position (some (.token word) :: operand))] := by
  constructor
  · intro derives
    have plain : ∀ token ∈ word :: inside, token.kind ≠ .semicolon := by
      rintro token (_ | ⟨_, listed⟩)
      · rw [isWord]
        decide
      · exact plain token listed
    obtain ⟨rule, member, isHead, ⟨first, isFirst, shows⟩, pieces, spells, same⟩ :=
      exists_rule_of_word isWord derives
    obtain rfl := (rule_of_showing rule member first isFirst shows).2.2.2.1 isHead
    change Spells Derives [.nonterminal .moreItems] _ pieces at spells
    generalize whole : word :: (inside ++ [last]) = tokens at spells
    rcases spells with _ | ⟨items, ⟨⟩⟩
    rw [List.append_nil] at whole
    subst whole
    obtain ⟨rule, member, isHead, ⟨first, isFirst, shows⟩, pieces, spells, shown⟩ :=
      exists_rule_of_word isWord (exscribeStatement_of_moreItems isWord plain items)
    obtain rfl := (rule_of_showing rule member first isFirst shows).2.2.2.2 isHead
    change Spells Derives [.terminal .exscribeWord, .nonterminal .expression,
      .terminal .semicolon] _ pieces at spells
    generalize whole : word :: (inside ++ [last]) = tokens at spells
    rcases spells with _ | ⟨here, _ | @⟨_, _, piece, _, operand, _, inner, _ | ⟨final, ⟨⟩⟩⟩⟩
    obtain ⟨opening, -, rfl, rfl⟩ := exists_token here
    obtain ⟨closing, -, rfl, rfl⟩ := exists_token final
    rw [List.singleton_append, List.append_nil] at whole
    obtain ⟨rfl, parts⟩ := List.cons.inj whole
    obtain ⟨rfl, -⟩ := List.append_inj' parts rfl
    refine ⟨operand, inner, ?_⟩
    subst shown
    simpa [Production.contribution, Derivation.keep, exscribeRule, built, startOf] using same
  · rintro ⟨operand, inner, rfl⟩
    have statement := derives_of_spells (show exscribeRule ∈ rules by decide)
      (.cons (derives_token isWord) (.cons inner (.cons (derives_token ends) .nil)))
    have items := derives_of_unitRule (show unitRule .moreItems .item ∈ rules by decide)
      (derives_of_unitRule (show unitRule .item .statement ∈ rules by decide)
        (derives_of_unitRule (show unitRule .statement .exscribeStatement ∈ rules by decide)
          statement))
    have whole := derives_of_spells
      (show ⟨.start, [.keep (.nonterminal .moreItems)], .node .start⟩ ∈ rules by decide)
      (.cons items .nil)
    simpa [Production.contribution, Derivation.keep, exscribeRule, built, startOf] using whole

end Shown

end Grammar

namespace Expression

open Grammar (Derives)

/-! ## Expressions that are shown -/

/-- The tokens of an expression that is written to be shown. -/
def operandTokens (lexemes : List Lexeme) : List Token :=
  Word.place (Position.start.advance exscribe.characters) (readAs true lexemes)

/-- The tree of a program that shows the value of one expression. -/
def shown (operand : Tree) : Tree :=
  .node .start .start
    [some (.node .exscribeStatement .start
      [some (.token ⟨.exscribeWord, "exscribe", .start⟩), some operand])]

theorem place_exscribedWords (lexemes : List Lexeme) :
    ∃ position, Word.place .start (exscribedWords lexemes) =
      exscribe.token .start :: (operandTokens lexemes ++ [semicolon.token position]) := by
  rw [exscribedWords, Word.place, Word.place_append]
  exact ⟨_, rfl⟩

/-- Reading lexemes splits some of them, and changes nothing else. -/
theorem kind_of_mem_readAs {lexemes : List Lexeme} (tokens : ∀ lexeme ∈ lexemes, lexeme.IsToken)
    (expecting : Bool) {word : Word} (member : word ∈ readAs expecting lexemes) :
    word.kind ∈ .name :: literals ++ symbols := by
  induction lexemes generalizing expecting with
  | nil => exact absurd member List.not_mem_nil
  | cons lexeme rest ih =>
    have later := ih fun other listed => tokens other (List.mem_cons_of_mem _ listed)
    rw [readAs] at member
    split at member
    · rcases member with _ | ⟨_, _ | ⟨_, member⟩⟩
      · decide
      · decide
      · exact later _ member
    · split at member
      · rcases member with _ | ⟨_, _ | ⟨_, member⟩⟩
        · decide
        · decide
        · exact later _ member
      · rcases member with _ | ⟨_, member⟩
        · exact (tokens lexeme List.mem_cons_self).1
        · exact later _ member

theorem kind_of_mem_operandTokens {lexemes : List Lexeme}
    (tokens : ∀ lexeme ∈ lexemes, lexeme.IsToken) {token : Token}
    (member : token ∈ operandTokens lexemes) : token.kind ∈ .name :: literals ++ symbols := by
  obtain ⟨word, inside, same⟩ := Word.exists_of_mem_place member
  exact same ▸ kind_of_mem_readAs tokens true inside

/-- An expression that is written to be shown is parsed exactly if the grammar derives its
tokens as an expression, into the tree of that derivation. In this tree the tokens are
grouped as they read, layer by layer. -/
theorem parse_exscribed_iff {lexemes : List Lexeme}
    (tokens : ∀ lexeme ∈ lexemes, lexeme.IsToken) :
    (∀ tree, parse (exscribed lexemes) = .ok tree ↔
      ∃ operand, Derives (.nonterminal .expression) (operandTokens lexemes) [some operand] ∧
        tree = shown operand) ∧
    ∀ kept, Derives (.nonterminal .expression) (operandTokens lexemes) kept ↔
      ∃ operand, Reads .disjunction (operandTokens lexemes) [operand] ∧ kept = [some operand] := by
  have kinds : ∀ token ∈ operandTokens lexemes, token.kind ≠ .conjureWord ∧
      token.kind ≠ .returnWord ∧ token.kind ≠ .semicolon := fun token member =>
    (by decide : ∀ kind ∈ .name :: literals ++ symbols, kind ≠ .conjureWord ∧
      kind ≠ .returnWord ∧ kind ≠ .semicolon) _ (kind_of_mem_operandTokens tokens member)
  have groups := derives_expression_iff fun token member => (kinds token member).1
  refine ⟨fun tree => ?_, groups⟩
  obtain ⟨position, placed⟩ := place_exscribedWords lexemes
  have reads := parseFrom_exscribed Grammar.isRegular_automaton tokens
  rw [placed] at reads
  have plain : ∀ token ∈ exscribe.token .start ::
      (operandTokens lexemes ++ [semicolon.token position]), token.kind ≠ .returnWord := by
    intro token member
    rcases List.mem_cons.mp member with rfl | member
    · exact nofun
    rcases List.mem_append.mp member with member | member
    · exact (kinds token member).2.1
    · rw [List.mem_singleton.mp member]
      exact nofun
  rw [Grammar.parse_iff plain reads,
    Grammar.derives_start_iff rfl rfl fun token member => (kinds token member).2.2]
  constructor
  · rintro ⟨kept, derives, rfl⟩
    obtain ⟨operand, -, rfl⟩ := (groups kept).mp derives
    exact ⟨operand, derives, rfl⟩
  · rintro ⟨operand, derives, rfl⟩
    exact ⟨_, derives, rfl⟩

/-- A product with an operand that is dereferenced twice. -/
def doubleDereference : List Lexeme :=
  [⟨.name, "a"⟩, ⟨.star, "*"⟩, ⟨.power, "**"⟩, ⟨.name, "b"⟩]

theorem parse_exscribed_iff_doubleDereference :
    (∀ lexeme ∈ doubleDereference, lexeme.IsToken) ∧
      exscribed doubleDereference = "exscribe a * ** b;" ∧
      ∃ operand, Reads .disjunction (operandTokens doubleDereference) [operand] ∧
        parse (exscribed doubleDereference) = .ok (shown operand) := by
  have tokens : ∀ lexeme ∈ doubleDereference, lexeme.IsToken := by decide +kernel
  obtain ⟨parses, groups⟩ := parse_exscribed_iff tokens
  have read : operandTokens doubleDereference =
      [⟨.name, "a", ⟨1, 10⟩⟩] ++ ⟨.star, "*", ⟨1, 12⟩⟩ ::
        [⟨.star, "*", ⟨1, 14⟩⟩, ⟨.star, "*", ⟨1, 15⟩⟩, ⟨.name, "b", ⟨1, 17⟩⟩] := by
    decide +kernel
  have name (token : Token) (named : token.kind = .name) :
      ∃ tree, Reads .signed [token] [tree] := by
    have stands : atomLabel? token.kind = some .name := named ▸ rfl
    exact ⟨_, .tighter rfl (.tighter rfl (.tighter rfl (.token stands)))⟩
  obtain ⟨left, readsLeft⟩ := name ⟨.name, "a", ⟨1, 10⟩⟩ rfl
  obtain ⟨right, readsRight⟩ := name ⟨.name, "b", ⟨1, 17⟩⟩ rfl
  obtain ⟨operand, product⟩ : ∃ operand, Reads .product (operandTokens doubleDereference)
      [operand] := by
    rw [read]
    exact ⟨_, .chained rfl (by decide) (.tighter rfl readsLeft)
      (.signed rfl (.signed rfl readsRight))⟩
  have reads : Reads .disjunction (operandTokens doubleDereference) [operand] :=
    .tighter rfl (.tighter rfl (.tighter rfl (.tighter rfl product)))
  refine ⟨tokens, by decide +kernel, operand, reads, (parses _).mpr ⟨operand, ?_, rfl⟩⟩
  exact (groups _).mpr ⟨operand, reads, rfl⟩

end Expression

end GlyphCompiler
