/-
# How expressions group

The productions of expressions are layered: each layer is made of operands of the
next tighter one. Here the layers are spelled out without the grammar. The sums,
the products and the logical operators chain from the left, a comparison does not
chain, signs stand before their operands, a power has a bare base and an exponent
that may carry signs, and subscripts and calls bind tightest.

A run of tokens without a conjure block reads as a tree in this way exactly when
the grammar derives the tokens with that tree.
-/

import GlyphCompiler.Proofs.Parser.Derives

namespace GlyphCompiler

namespace Expression

/-! ## Layers -/

/-- The layers of expressions, the weakest first, and the lists between brackets. -/
inductive Layer
  | disjunction | conjunction | comparison | sum | product | signed | power | applied | atom
  | list
  deriving DecidableEq, Repr

/-- The next tighter layer. -/
def Layer.tighter? : Layer → Option Layer
  | disjunction => some conjunction
  | conjunction => some comparison
  | comparison => some sum
  | sum => some product
  | product => some signed
  | signed => some power
  | power => some applied
  | applied => some atom
  | atom | list => none

/-- The operators that chain from the left in a layer. -/
def Layer.chained : Layer → List Terminal
  | disjunction => [.or]
  | conjunction => [.and]
  | sum => [.plus, .minus]
  | product => [.star, .slash, .percent]
  | comparison | signed | power | applied | atom | list => []

/-- The label of a sign before its operand. -/
def signLabel? : Terminal → Option Label
  | .minus | .bang => some .unary
  | .ampersand => some .addressOf
  | .star => some .dereference
  | _ => none

/-- The label of an operand that is one token. -/
def atomLabel? : Terminal → Option Label
  | .integer => some .integerLiteral
  | .decimal => some .decimalLiteral
  | .doubleQuoted => some .stringLiteral
  | .singleQuoted => some .quotedLiteral
  | .codepoint => some .codepointLiteral
  | .trueWord => some .trueLiteral
  | .falseWord => some .falseLiteral
  | .nullWord => some .nullLiteral
  | .name => some .name
  | _ => none

/-- Some tokens read in a layer as a tree, or as a list of trees between brackets. -/
inductive Reads : Layer → List Token → List Tree → Prop
  | tighter {layer inner : Layer} {tokens : List Token} {tree : Tree}
      (next : layer.tighter? = some inner) (operand : Reads inner tokens [tree]) :
      Reads layer tokens [tree]
  | chained {layer inner : Layer} {left right : List Token} {sign : Token} {first second : Tree}
      (next : layer.tighter? = some inner) (chains : sign.kind ∈ layer.chained)
      (leftOperand : Reads layer left [first]) (rightOperand : Reads inner right [second]) :
      Reads layer (left ++ sign :: right)
        [built .binary (left ++ sign :: right) [some first, some (.token sign), some second]]
  | compared {left right : List Token} {sign : Token} {first second : Tree}
      (compares : sign.kind = .comparison)
      (leftOperand : Reads .sum left [first]) (rightOperand : Reads .sum right [second]) :
      Reads .comparison (left ++ sign :: right)
        [built .binary (left ++ sign :: right) [some first, some (.token sign), some second]]
  | signed {sign : Token} {label : Label} {tokens : List Token} {tree : Tree}
      (signs : signLabel? sign.kind = some label) (operand : Reads .signed tokens [tree]) :
      Reads .signed (sign :: tokens)
        [built label (sign :: tokens) [some (.token sign), some tree]]
  | raised {left right : List Token} {sign : Token} {first second : Tree}
      (raises : sign.kind = .power)
      (base : Reads .applied left [first]) (exponent : Reads .signed right [second]) :
      Reads .power (left ++ sign :: right)
        [built .binary (left ++ sign :: right) [some first, some (.token sign), some second]]
  | subscript {base index : List Token} {opening closing : Token} {first second : Tree}
      (opens : opening.kind = .leftBracket) (closes : closing.kind = .rightBracket)
      (applied : Reads .applied base [first]) (inside : Reads .disjunction index [second]) :
      Reads .applied (base ++ opening :: (index ++ [closing]))
        [built .subscript (base ++ opening :: (index ++ [closing])) [some first, some second]]
  | call {callee opening closing : Token} {tokens : List Token} {trees : List Tree}
      (named : callee.kind = .name) (opens : opening.kind = .leftParen)
      (closes : closing.kind = .rightParen) (inside : Reads .list tokens trees) :
      Reads .applied (callee :: opening :: (tokens ++ [closing]))
        [built .call (callee :: opening :: (tokens ++ [closing]))
          [some (.token callee), some (built .arguments tokens (trees.map some))]]
  | callNothing {callee opening closing : Token}
      (named : callee.kind = .name) (opens : opening.kind = .leftParen)
      (closes : closing.kind = .rightParen) :
      Reads .applied [callee, opening, closing]
        [built .call [callee, opening, closing] [some (.token callee), none]]
  | token {token : Token} {label : Label} (stands : atomLabel? token.kind = some label) :
      Reads .atom [token] [built label [token] [some (.token token)]]
  | parenthesised {opening closing : Token} {tokens : List Token} {tree : Tree}
      (opens : opening.kind = .leftParen) (closes : closing.kind = .rightParen)
      (inside : Reads .disjunction tokens [tree]) :
      Reads .atom (opening :: (tokens ++ [closing])) [tree]
  | array {opening closing : Token} {tokens : List Token} {trees : List Tree}
      (opens : opening.kind = .leftBracket) (closes : closing.kind = .rightBracket)
      (inside : Reads .list tokens trees) :
      Reads .atom (opening :: (tokens ++ [closing]))
        [built .arrayLiteral (opening :: (tokens ++ [closing]))
          [some (built .arguments tokens (trees.map some))]]
  | arrayEmpty {opening closing : Token}
      (opens : opening.kind = .leftBracket) (closes : closing.kind = .rightBracket) :
      Reads .atom [opening, closing] [built .arrayLiteral [opening, closing] [none]]
  | one {tokens : List Token} {tree : Tree} (element : Reads .disjunction tokens [tree]) :
      Reads .list tokens [tree]
  | more {before tokens : List Token} {sign : Token} {trees : List Tree} {tree : Tree}
      (separates : sign.kind = .comma) (earlier : Reads .list before trees)
      (element : Reads .disjunction tokens [tree]) :
      Reads .list (before ++ sign :: tokens) (trees ++ [tree])

/-! ## Derivations read in layers -/

/-- The layer that a nonterminal of expressions derives. -/
def layer? : Nonterminal → Option Layer
  | .expression | .orExpression => some .disjunction
  | .andExpression => some .conjunction
  | .comparisonExpression => some .comparison
  | .addExpression => some .sum
  | .multiplyExpression => some .product
  | .unaryExpression => some .signed
  | .powerExpression => some .power
  | .postfixExpression | .call => some .applied
  | .atom => some .atom
  | _ => none

/-- What the tokens derived from a symbol read as, by what they contribute. -/
def Means : Symbol → List Token → List (Option Tree) → Prop
  | .terminal kind, tokens, kept => ∃ token, tokens = [token] ∧ token.kind = kind ∧
      kept = [some (.token token)]
  | .nonterminal .arguments, tokens, kept => ∃ trees, Reads .list tokens trees ∧
      kept = [some (built .arguments tokens (trees.map some))]
  | .nonterminal .moreArguments, tokens, kept => ∃ trees, kept = trees.map some ∧
      ∀ before firsts, Reads .list before firsts →
        Reads .list (before ++ tokens) (firsts ++ trees)
  | .nonterminal .conjure, tokens, _ => ∃ token ∈ tokens, token.kind = .conjureWord
  | .nonterminal category, tokens, kept => ∀ layer, layer? category = some layer →
      ∃ tree, Reads layer tokens [tree] ∧ kept = [some tree]

open Grammar (Spells)

/-! ## The productions of expressions, by their shapes -/

/-- The productions that pass to another layer. -/
def units : List (Nonterminal × Nonterminal) :=
  [(.expression, .orExpression), (.orExpression, .andExpression),
    (.andExpression, .comparisonExpression), (.comparisonExpression, .addExpression),
    (.addExpression, .multiplyExpression), (.multiplyExpression, .unaryExpression),
    (.unaryExpression, .powerExpression), (.powerExpression, .postfixExpression),
    (.postfixExpression, .call), (.postfixExpression, .atom)]

/-- A production that passes to another nonterminal. -/
def unitRule (outer inner : Nonterminal) : Production :=
  ⟨outer, [.keep (.nonterminal inner)], .splice⟩

/-- The operators between two operands: what they build, their left operand, the sign and
their right operand. -/
def binaries : List (Nonterminal × Nonterminal × Terminal × Nonterminal) :=
  [(.orExpression, .orExpression, .or, .andExpression),
    (.andExpression, .andExpression, .and, .comparisonExpression),
    (.comparisonExpression, .addExpression, .comparison, .addExpression),
    (.addExpression, .addExpression, .plus, .multiplyExpression),
    (.addExpression, .addExpression, .minus, .multiplyExpression),
    (.multiplyExpression, .multiplyExpression, .star, .unaryExpression),
    (.multiplyExpression, .multiplyExpression, .slash, .unaryExpression),
    (.multiplyExpression, .multiplyExpression, .percent, .unaryExpression),
    (.powerExpression, .postfixExpression, .power, .unaryExpression)]

/-- A production for an operator between two operands. -/
def binaryRule (outer left : Nonterminal) (sign : Terminal) (right : Nonterminal) : Production :=
  ⟨outer, [.keep (.nonterminal left), .keep (.terminal sign), .keep (.nonterminal right)],
    .node .binary⟩

/-- A production for a sign before its operand. -/
def signRule (sign : Terminal) (label : Label) : Production :=
  ⟨.unaryExpression, [.keep (.terminal sign), .keep (.nonterminal .unaryExpression)],
    .node label⟩

/-- A production for an operand of one token. -/
def atomRule (kind : Terminal) (label : Label) : Production :=
  ⟨.atom, [.keep (.terminal kind)], .node label⟩

/-- A subscript. -/
def subscriptRule : Production :=
  ⟨.postfixExpression, [.keep (.nonterminal .postfixExpression), .drop .leftBracket,
    .keep (.nonterminal .expression), .drop .rightBracket], .node .subscript⟩

/-- A call with arguments. -/
def callRule : Production :=
  ⟨.call, [.keep (.terminal .name), .drop .leftParen, .keep (.nonterminal .arguments),
    .drop .rightParen], .node .call⟩

/-- A call without arguments. -/
def callNothingRule : Production :=
  ⟨.call, [.keep (.terminal .name), .drop .leftParen, .absent, .drop .rightParen], .node .call⟩

/-- An expression in parentheses. -/
def parenthesisRule : Production :=
  ⟨.atom, [.drop .leftParen, .keep (.nonterminal .expression), .drop .rightParen], .splice⟩

/-- An array with elements. -/
def arrayRule : Production :=
  ⟨.atom, [.drop .leftBracket, .keep (.nonterminal .arguments), .drop .rightBracket],
    .node .arrayLiteral⟩

/-- An array without elements. -/
def emptyArrayRule : Production :=
  ⟨.atom, [.drop .leftBracket, .absent, .drop .rightBracket], .node .arrayLiteral⟩

/-- The productions with brackets, without a conjure block. -/
def bracketRules : List Production :=
  [subscriptRule, callRule, callNothingRule, parenthesisRule, arrayRule, emptyArrayRule]

/-- The productions of lists. -/
def listRules : List Production :=
  [⟨.arguments, [.keep (.nonterminal .expression)], .node .arguments⟩,
    ⟨.arguments, [.keep (.nonterminal .expression), .keep (.nonterminal .moreArguments)],
      .node .arguments⟩,
    ⟨.moreArguments, [.drop .comma, .keep (.nonterminal .expression)], .splice⟩,
    ⟨.moreArguments,
      [.keep (.nonterminal .moreArguments), .drop .comma, .keep (.nonterminal .expression)],
      .splice⟩]

/-- The production of conjure blocks. -/
def conjureRule : Production :=
  ⟨.conjure, [.keep (.terminal .conjureWord), .keep (.nonterminal .block)], .node .conjure⟩

/-- The productions of expressions are of these shapes, conjure blocks aside. -/
theorem shape_of_mem : ∀ rule ∈ Grammar.rules,
    (∃ unit ∈ units, rule = unitRule unit.1 unit.2) ∨
    (∃ binary ∈ binaries, rule = binaryRule binary.1 binary.2.1 binary.2.2.1 binary.2.2.2) ∨
    (∃ sign ∈ Terminal.all, ∃ label ∈ signLabel? sign, rule = signRule sign label) ∨
    (∃ kind ∈ Terminal.all, ∃ label ∈ atomLabel? kind, rule = atomRule kind label) ∨
    rule ∈ bracketRules ∨ rule ∈ listRules ∨ rule = unitRule .atom .conjure ∨
    rule = conjureRule ∨ (layer? rule.head = none ∧
      rule.head ∉ [Nonterminal.arguments, .moreArguments, .conjure]) := by
  decide +kernel

/-- All of these are productions of the grammar. -/
theorem mem_rules_of_shape :
    (∀ unit ∈ units, unitRule unit.1 unit.2 ∈ Grammar.rules) ∧
    (∀ binary ∈ binaries,
      binaryRule binary.1 binary.2.1 binary.2.2.1 binary.2.2.2 ∈ Grammar.rules) ∧
    (∀ sign ∈ Terminal.all, ∀ label ∈ signLabel? sign, signRule sign label ∈ Grammar.rules) ∧
    (∀ kind ∈ Terminal.all, ∀ label ∈ atomLabel? kind, atomRule kind label ∈ Grammar.rules) ∧
    (∀ rule ∈ bracketRules ++ listRules, rule ∈ Grammar.rules) := by
  decide +kernel

/-! ## From derivations to layers -/

theorem exists_of_means {category : Nonterminal} {layer : Layer}
    (known : layer? category = some layer) {tokens : List Token} {kept : List (Option Tree)}
    (means : Means (.nonterminal category) tokens kept) :
    ∃ tree, Reads layer tokens [tree] ∧ kept = [some tree] := by
  cases category
  all_goals first
    | exact means layer known
    | exact absurd known (by simp [layer?])

theorem means_of_exists {category : Nonterminal} {layer : Layer}
    (known : layer? category = some layer) {tokens : List Token} {kept : List (Option Tree)}
    (found : ∃ tree, Reads layer tokens [tree] ∧ kept = [some tree]) :
    Means (.nonterminal category) tokens kept := by
  have same (other : Layer) (also : layer? category = some other) :
      ∃ tree, Reads other tokens [tree] ∧ kept = [some tree] :=
    Option.some.inj (known.symm.trans also) ▸ found
  cases category
  all_goals first
    | exact same
    | exact absurd known (by simp [layer?])

/-- Passing to another layer, the tokens read in the outer one as well. -/
theorem reads_unit : ∀ unit ∈ units, ∃ outer inner, layer? unit.1 = some outer ∧
    layer? unit.2 = some inner ∧ (outer = inner ∨ outer.tighter? = some inner) := by
  intro unit member
  have known : ∀ unit ∈ units, ∃ outer ∈ layer? unit.1, ∃ inner ∈ layer? unit.2,
      outer = inner ∨ outer.tighter? = some inner := by
    decide
  obtain ⟨outer, isOuter, inner, isInner, next⟩ := known unit member
  exact ⟨outer, inner, isOuter, isInner, next⟩

/-- An operator between operands of the right layers reads in its own layer. -/
theorem reads_binary {binary : Nonterminal × Nonterminal × Terminal × Nonterminal}
    (member : binary ∈ binaries) {left right : List Token} {sign : Token} {first second : Tree}
    (isSign : sign.kind = binary.2.2.1)
    (leftOperand : ∀ layer, layer? binary.2.1 = some layer → Reads layer left [first])
    (rightOperand : ∀ layer, layer? binary.2.2.2 = some layer → Reads layer right [second]) :
    ∃ layer, layer? binary.1 = some layer ∧ Reads layer (left ++ sign :: right)
      [built .binary (left ++ sign :: right) [some first, some (.token sign), some second]] := by
  simp only [binaries, List.mem_cons, List.not_mem_nil, or_false] at member
  rcases member with rfl | rfl | rfl | rfl | rfl | rfl | rfl | rfl | rfl
  case inr.inr.inl =>
    exact ⟨_, rfl, .compared isSign (leftOperand _ rfl) (rightOperand _ rfl)⟩
  case inr.inr.inr.inr.inr.inr.inr.inr =>
    exact ⟨_, rfl, .raised isSign (leftOperand _ rfl) (rightOperand _ rfl)⟩
  all_goals
    exact ⟨_, rfl, .chained rfl (isSign ▸ by decide) (leftOperand _ rfl) (rightOperand _ rfl)⟩

theorem means_unit {unit : Nonterminal × Nonterminal} (member : unit ∈ units)
    {tokens : List Token} {kept : List (List (Option Tree))}
    (spells : Spells Means (unitRule unit.1 unit.2).body tokens kept) :
    Means (.nonterminal unit.1) tokens ((unitRule unit.1 unit.2).contribution tokens kept) := by
  obtain ⟨outer, inner, isOuter, isInner, next⟩ := reads_unit unit member
  change Spells Means [.nonterminal unit.2] tokens kept at spells
  rcases spells with _ | ⟨here, ⟨⟩⟩
  obtain ⟨tree, reads, rfl⟩ := exists_of_means isInner here
  refine means_of_exists isOuter ⟨tree, ?_, rfl⟩
  rw [List.append_nil]
  rcases next with rfl | next
  · exact reads
  · exact .tighter next reads

theorem means_binary {binary : Nonterminal × Nonterminal × Terminal × Nonterminal}
    (member : binary ∈ binaries) {tokens : List Token} {kept : List (List (Option Tree))}
    (spells : Spells Means
      (binaryRule binary.1 binary.2.1 binary.2.2.1 binary.2.2.2).body tokens kept) :
    Means (.nonterminal binary.1) tokens
      ((binaryRule binary.1 binary.2.1 binary.2.2.1 binary.2.2.2).contribution tokens kept) := by
  change Spells Means
    [.nonterminal binary.2.1, .terminal binary.2.2.1, .nonterminal binary.2.2.2] tokens kept
      at spells
  rcases spells with _ | ⟨left, _ | ⟨sign, _ | ⟨right, ⟨⟩⟩⟩⟩
  obtain ⟨sign, rfl, isSign, rfl⟩ := sign
  have layered : ∀ binary ∈ binaries, (layer? binary.2.1).isSome ∧ (layer? binary.2.2.2).isSome := by
    decide
  obtain ⟨hasLeft, hasRight⟩ := layered binary member
  obtain ⟨leftLayer, isLeft⟩ := Option.isSome_iff_exists.mp hasLeft
  obtain ⟨rightLayer, isRight⟩ := Option.isSome_iff_exists.mp hasRight
  obtain ⟨first, readsFirst, rfl⟩ := exists_of_means isLeft left
  obtain ⟨second, readsSecond, rfl⟩ := exists_of_means isRight right
  obtain ⟨layer, known, reads⟩ := reads_binary member isSign
    (fun other also => Option.some.inj (isLeft.symm.trans also) ▸ readsFirst)
    (fun other also => Option.some.inj (isRight.symm.trans also) ▸ readsSecond)
  rw [List.append_nil, List.singleton_append]
  refine means_of_exists known ⟨_, reads, ?_⟩
  simp [Production.contribution, binaryRule, Derivation.keep]

theorem means_sign {sign : Terminal} {label : Label} (signs : signLabel? sign = some label)
    {tokens : List Token} {kept : List (List (Option Tree))}
    (spells : Spells Means (signRule sign label).body tokens kept) :
    Means (.nonterminal .unaryExpression) tokens
      ((signRule sign label).contribution tokens kept) := by
  change Spells Means [.terminal sign, .nonterminal .unaryExpression] tokens kept at spells
  rcases spells with _ | ⟨⟨token, rfl, isSign, rfl⟩, _ | ⟨operand, ⟨⟩⟩⟩
  obtain ⟨tree, reads, rfl⟩ := exists_of_means rfl operand
  rw [List.append_nil, List.singleton_append]
  refine means_of_exists rfl ⟨_, .signed (isSign ▸ signs) reads, ?_⟩
  simp [Production.contribution, signRule, Derivation.keep]

theorem means_atom {kind : Terminal} {label : Label} (stands : atomLabel? kind = some label)
    {tokens : List Token} {kept : List (List (Option Tree))}
    (spells : Spells Means (atomRule kind label).body tokens kept) :
    Means (.nonterminal .atom) tokens ((atomRule kind label).contribution tokens kept) := by
  change Spells Means [.terminal kind] tokens kept at spells
  rcases spells with _ | ⟨⟨token, rfl, isKind, rfl⟩, ⟨⟩⟩
  refine means_of_exists rfl ⟨_, .token (isKind ▸ stands), ?_⟩
  simp [Production.contribution, atomRule, Derivation.keep]

theorem means_bracket {rule : Production} (member : rule ∈ bracketRules)
    {tokens : List Token} {kept : List (List (Option Tree))}
    (spells : Spells Means rule.body tokens kept) :
    Means (.nonterminal rule.head) tokens (rule.contribution tokens kept) := by
  simp only [bracketRules, List.mem_cons, List.not_mem_nil, or_false] at member
  rcases member with rfl | rfl | rfl | rfl | rfl | rfl
  · change Spells Means [.nonterminal .postfixExpression, .terminal .leftBracket,
      .nonterminal .expression, .terminal .rightBracket] tokens kept at spells
    rcases spells with _ | ⟨base, _ | ⟨⟨opening, rfl, opens, rfl⟩,
      _ | ⟨index, _ | ⟨⟨closing, rfl, closes, rfl⟩, ⟨⟩⟩⟩⟩⟩
    obtain ⟨first, readsFirst, rfl⟩ := exists_of_means rfl base
    obtain ⟨second, readsSecond, rfl⟩ := exists_of_means rfl index
    exact means_of_exists rfl ⟨_, .subscript opens closes readsFirst readsSecond, rfl⟩
  · change Spells Means [.terminal .name, .terminal .leftParen, .nonterminal .arguments,
      .terminal .rightParen] tokens kept at spells
    rcases spells with _ | ⟨⟨callee, rfl, named, rfl⟩, _ | ⟨⟨opening, rfl, opens, rfl⟩,
      _ | ⟨⟨trees, reads, rfl⟩, _ | ⟨⟨closing, rfl, closes, rfl⟩, ⟨⟩⟩⟩⟩⟩
    exact means_of_exists rfl ⟨_, .call named opens closes reads, rfl⟩
  · change Spells Means [.terminal .name, .terminal .leftParen, .terminal .rightParen] tokens kept
      at spells
    rcases spells with _ | ⟨⟨callee, rfl, named, rfl⟩, _ | ⟨⟨opening, rfl, opens, rfl⟩,
      _ | ⟨⟨closing, rfl, closes, rfl⟩, ⟨⟩⟩⟩⟩
    exact means_of_exists rfl ⟨_, .callNothing named opens closes, rfl⟩
  · change Spells Means [.terminal .leftParen, .nonterminal .expression, .terminal .rightParen]
      tokens kept at spells
    rcases spells with _ | ⟨⟨opening, rfl, opens, rfl⟩, _ | ⟨inside,
      _ | ⟨⟨closing, rfl, closes, rfl⟩, ⟨⟩⟩⟩⟩
    obtain ⟨tree, reads, rfl⟩ := exists_of_means rfl inside
    exact means_of_exists rfl ⟨_, .parenthesised opens closes reads, rfl⟩
  · change Spells Means [.terminal .leftBracket, .nonterminal .arguments, .terminal .rightBracket]
      tokens kept at spells
    rcases spells with _ | ⟨⟨opening, rfl, opens, rfl⟩, _ | ⟨⟨trees, reads, rfl⟩,
      _ | ⟨⟨closing, rfl, closes, rfl⟩, ⟨⟩⟩⟩⟩
    exact means_of_exists rfl ⟨_, .array opens closes reads, rfl⟩
  · change Spells Means [.terminal .leftBracket, .terminal .rightBracket] tokens kept at spells
    rcases spells with _ | ⟨⟨opening, rfl, opens, rfl⟩, _ | ⟨⟨closing, rfl, closes, rfl⟩, ⟨⟩⟩⟩
    exact means_of_exists rfl ⟨_, .arrayEmpty opens closes, rfl⟩

theorem means_list {rule : Production} (member : rule ∈ listRules)
    {tokens : List Token} {kept : List (List (Option Tree))}
    (spells : Spells Means rule.body tokens kept) :
    Means (.nonterminal rule.head) tokens (rule.contribution tokens kept) := by
  simp only [listRules, List.mem_cons, List.not_mem_nil, or_false] at member
  rcases member with rfl | rfl | rfl | rfl
  · change Spells Means [.nonterminal .expression] tokens kept at spells
    rcases spells with _ | ⟨element, ⟨⟩⟩
    obtain ⟨tree, reads, rfl⟩ := exists_of_means rfl element
    rw [List.append_nil]
    exact ⟨_, .one reads, rfl⟩
  · change Spells Means [.nonterminal .expression, .nonterminal .moreArguments] tokens kept
      at spells
    rcases spells with _ | ⟨element, _ | ⟨⟨trees, rfl, prolongs⟩, ⟨⟩⟩⟩
    obtain ⟨tree, reads, rfl⟩ := exists_of_means rfl element
    rw [List.append_nil]
    refine ⟨tree :: trees, prolongs _ _ (.one reads), ?_⟩
    simp [Production.contribution, Derivation.keep]
  · change Spells Means [.terminal .comma, .nonterminal .expression] tokens kept at spells
    rcases spells with _ | ⟨⟨sign, rfl, separates, rfl⟩, _ | ⟨element, ⟨⟩⟩⟩
    obtain ⟨tree, reads, rfl⟩ := exists_of_means rfl element
    rw [List.append_nil, List.singleton_append]
    exact ⟨[tree], rfl, fun before firsts earlier => .more separates earlier reads⟩
  · change Spells Means [.nonterminal .moreArguments, .terminal .comma, .nonterminal .expression]
      tokens kept at spells
    rcases spells with _ | ⟨⟨trees, rfl, prolongs⟩, _ | ⟨⟨sign, rfl, separates, rfl⟩,
      _ | ⟨element, ⟨⟩⟩⟩⟩
    obtain ⟨tree, reads, rfl⟩ := exists_of_means rfl element
    rw [List.append_nil, List.singleton_append]
    refine ⟨trees ++ [tree], ?_, fun before firsts earlier => ?_⟩
    · simp [Production.contribution, Derivation.keep]
    · rw [← List.append_assoc, ← List.append_assoc]
      exact .more separates (prolongs _ _ earlier) reads

/-- Without a conjure block, what the grammar derives reads in the layer of its symbol. -/
theorem means_of_derives {symbol : Symbol} {tokens : List Token} {kept : List (Option Tree)}
    (derives : Grammar.Derives symbol tokens kept)
    (plain : ∀ token ∈ tokens, token.kind ≠ .conjureWord) : Means symbol tokens kept := by
  refine Grammar.Derives.induct (motive := fun symbol tokens kept =>
    (∀ token ∈ tokens, token.kind ≠ .conjureWord) → Means symbol tokens kept) ?_ ?_ derives plain
  · exact fun token _ => ⟨token, rfl, rfl, rfl⟩
  · intro rule member tokens kept _ inner plain
    have spells : Spells Means rule.body tokens kept :=
      inner.imp fun symbol piece kept inside means =>
        means fun token listed => plain token (inside token listed)
    obtain ⟨unit, listed, rfl⟩ | ⟨binary, listed, rfl⟩ | ⟨sign, -, label, signs, rfl⟩ |
      ⟨kind, -, label, stands, rfl⟩ | bracket | list | rfl | rfl | ⟨other, plainHead⟩ :=
        shape_of_mem rule member
    · exact means_unit listed spells
    · exact means_binary listed spells
    · exact means_sign signs spells
    · exact means_atom stands spells
    · exact means_bracket bracket spells
    · exact means_list list spells
    · -- A conjure block holds its word.
      rcases spells with _ | ⟨⟨token, listed, isWord⟩, _⟩
      exact absurd isWord (plain token (List.mem_append_left _ listed))
    · rcases spells with _ | ⟨⟨token, rfl, isWord, rfl⟩, _⟩
      exact ⟨token, List.mem_cons_self, isWord⟩
    · generalize rule.head = head at other plainHead ⊢
      cases head
      all_goals first
        | exact fun layer known => absurd (other.symm.trans known) nofun
        | exact absurd (by decide) plainHead

/-! ## From layers to derivations -/

open Grammar (Derives derives_of_spells derives_terminal)

/-- The nonterminal of a layer. -/
def Layer.category : Layer → Nonterminal
  | disjunction => .orExpression
  | conjunction => .andExpression
  | comparison => .comparisonExpression
  | sum => .addExpression
  | product => .multiplyExpression
  | signed => .unaryExpression
  | power => .powerExpression
  | applied => .postfixExpression
  | atom => .atom
  | list => .arguments

theorem derives_token {token : Token} {kind : Terminal} (isKind : token.kind = kind) :
    Derives (.terminal kind) [token] [some (.token token)] :=
  isKind ▸ derives_terminal token

/-- A production that passes to another nonterminal derives what that one does. -/
theorem derives_of_unitRule {outer inner : Nonterminal}
    (member : unitRule outer inner ∈ Grammar.rules) {tokens : List Token}
    {kept : List (Option Tree)} (derives : Derives (.nonterminal inner) tokens kept) :
    Derives (.nonterminal outer) tokens kept := by
  have whole := derives_of_spells member (.cons derives .nil)
  simpa [unitRule, Production.contribution, Derivation.keep] using whole

theorem derives_unit {outer inner : Nonterminal} (member : (outer, inner) ∈ units)
    {tokens : List Token} {kept : List (Option Tree)}
    (derives : Derives (.nonterminal inner) tokens kept) :
    Derives (.nonterminal outer) tokens kept :=
  derives_of_unitRule (mem_rules_of_shape.1 _ member) derives

theorem derives_binary {outer left right : Nonterminal} {kind : Terminal}
    (member : (outer, left, kind, right) ∈ binaries) {before after : List Token} {sign : Token}
    {first second : Tree} (isSign : sign.kind = kind)
    (leftOperand : Derives (.nonterminal left) before [some first])
    (rightOperand : Derives (.nonterminal right) after [some second]) :
    Derives (.nonterminal outer) (before ++ sign :: after)
      [some (built .binary (before ++ sign :: after)
        [some first, some (.token sign), some second])] := by
  have whole := derives_of_spells (mem_rules_of_shape.2.1 _ member)
    (.cons leftOperand (.cons (derives_token isSign) (.cons rightOperand .nil)))
  simpa [binaryRule, Production.contribution, Derivation.keep] using whole

/-- The nonterminals of two neighbouring layers are joined by a unit. -/
theorem unit_of_tighter : ∀ layer inner : Layer, layer.tighter? = some inner →
    (layer.category, inner.category) ∈ units := by
  intro layer inner next
  cases layer <;> cases inner <;> first | decide | exact absurd next (by decide)

/-- An operator that chains in a layer has a production. -/
theorem binary_of_chained {layer inner : Layer} (next : layer.tighter? = some inner) :
    ∀ kind ∈ layer.chained,
      (layer.category, layer.category, kind, inner.category) ∈ binaries := by
  cases layer <;> cases next <;> decide

/-- What reads in a layer is derived from its nonterminal. A list is derived as its first
element and the others after it. -/
def Derived : Layer → List Token → List Tree → Prop
  | .list, tokens, trees => ∃ first rest tree others, tokens = first ++ rest ∧
      trees = tree :: others ∧ Derives (.nonterminal .expression) first [some tree] ∧
      (rest = [] ∧ others = [] ∨
        Derives (.nonterminal .moreArguments) rest (others.map some))
  | layer, tokens, trees => Derives (.nonterminal layer.category) tokens (trees.map some)

theorem derived_eq {layer : Layer} (other : layer ≠ .list) (tokens : List Token)
    (trees : List Tree) :
    Derived layer tokens trees = Derives (.nonterminal layer.category) tokens (trees.map some) := by
  cases layer
  all_goals first
    | rfl
    | exact absurd rfl other

theorem ne_list_of_tighter {layer inner : Layer} (next : layer.tighter? = some inner) :
    layer ≠ .list ∧ inner ≠ .list := by
  cases layer <;> cases inner <;> first | decide | exact absurd next (by decide)

theorem derives_expression {tokens : List Token} {tree : Tree}
    (derived : Derived .disjunction tokens [tree]) :
    Derives (.nonterminal .expression) tokens [some tree] :=
  derives_unit (by decide) derived

theorem derives_arguments {tokens : List Token} {trees : List Tree}
    (derived : Derived .list tokens trees) :
    Derives (.nonterminal .arguments) tokens [some (built .arguments tokens (trees.map some))] := by
  obtain ⟨first, rest, tree, others, rfl, rfl, element, ⟨rfl, rfl⟩ | more⟩ := derived
  · have rule := mem_rules_of_shape.2.2.2.2
      ⟨.arguments, [.keep (.nonterminal .expression)], .node .arguments⟩ (by decide)
    exact derives_of_spells rule (.cons element .nil)
  · have rule := mem_rules_of_shape.2.2.2.2 ⟨.arguments,
      [.keep (.nonterminal .expression), .keep (.nonterminal .moreArguments)], .node .arguments⟩
      (by decide)
    have whole := derives_of_spells rule (.cons element (.cons more .nil))
    simpa [Production.contribution, Derivation.keep] using whole

/-- A production in brackets derives what its pieces do. -/
theorem derives_bracket (rule : Production) (member : rule ∈ bracketRules) {tokens : List Token}
    {kept : List (List (Option Tree))} (spells : Spells Derives rule.body tokens kept) :
    Derives (.nonterminal rule.head) tokens (rule.contribution tokens kept) :=
  derives_of_spells (mem_rules_of_shape.2.2.2.2 rule (List.mem_append_left _ member)) spells

theorem derived_more {before tokens : List Token} {sign : Token} {trees : List Tree} {tree : Tree}
    (separates : sign.kind = .comma) (earlier : Derived .list before trees)
    (element : Derived .disjunction tokens [tree]) :
    Derived .list (before ++ sign :: tokens) (trees ++ [tree]) := by
  have last := derives_expression element
  obtain ⟨first, rest, head, others, rfl, rfl, begins, more⟩ := earlier
  refine ⟨first, rest ++ sign :: tokens, head, others ++ [tree], by simp, rfl, begins, .inr ?_⟩
  rcases more with ⟨rfl, rfl⟩ | more
  · have rule := mem_rules_of_shape.2.2.2.2
      ⟨.moreArguments, [.drop .comma, .keep (.nonterminal .expression)], .splice⟩ (by decide)
    have whole := derives_of_spells rule (.cons (derives_token separates) (.cons last .nil))
    simpa [Production.contribution, Derivation.keep] using whole
  · have rule := mem_rules_of_shape.2.2.2.2 ⟨.moreArguments,
      [.keep (.nonterminal .moreArguments), .drop .comma, .keep (.nonterminal .expression)],
      .splice⟩ (by decide)
    have whole := derives_of_spells rule
      (.cons more (.cons (derives_token separates) (.cons last .nil)))
    simpa [Production.contribution, Derivation.keep] using whole

theorem derived_of_reads {layer : Layer} {tokens : List Token} {trees : List Tree}
    (reads : Reads layer tokens trees) : Derived layer tokens trees := by
  induction reads with
  | tighter next operand ih =>
    obtain ⟨other, otherInner⟩ := ne_list_of_tighter next
    rw [derived_eq other]
    rw [derived_eq otherInner] at ih
    exact derives_unit (unit_of_tighter _ _ next) ih
  | chained next chains left right ihLeft ihRight =>
    obtain ⟨other, otherInner⟩ := ne_list_of_tighter next
    rw [derived_eq other] at ihLeft ⊢
    rw [derived_eq otherInner] at ihRight
    exact derives_binary (binary_of_chained next _ chains) rfl ihLeft ihRight
  | compared compares left right ihLeft ihRight =>
    exact derives_binary (by decide) compares ihLeft ihRight
  | signed signs operand ih =>
    have whole := derives_of_spells (mem_rules_of_shape.2.2.1 _ (Terminal.mem_all _) _ signs)
      (.cons (derives_token rfl) (.cons ih .nil))
    change Derives (.nonterminal .unaryExpression) _ _
    simpa [signRule, Production.contribution, Derivation.keep] using whole
  | raised raises base exponent ihBase ihExponent =>
    exact derives_binary (by decide) raises ihBase ihExponent
  | subscript opens closes applied inside ihApplied ihInside =>
    exact derives_bracket subscriptRule (by decide) (.cons ihApplied (.cons (derives_token opens)
      (.cons (derives_expression ihInside) (.cons (derives_token closes) .nil))))
  | call named opens closes inside ih =>
    refine derives_unit (by decide : (.postfixExpression, .call) ∈ units) ?_
    exact derives_bracket callRule (by decide) (.cons (derives_token named) (.cons (derives_token opens)
      (.cons (derives_arguments ih) (.cons (derives_token closes) .nil))))
  | callNothing named opens closes =>
    refine derives_unit (by decide : (.postfixExpression, .call) ∈ units) ?_
    exact derives_bracket callNothingRule (by decide) (.cons (derives_token named) (.cons (derives_token opens)
      (.cons (derives_token closes) .nil)))
  | token stands =>
    exact derives_of_spells (mem_rules_of_shape.2.2.2.1 _ (Terminal.mem_all _) _ stands)
      (.cons (derives_token rfl) .nil)
  | parenthesised opens closes inside ih =>
    exact derives_bracket parenthesisRule (by decide) (.cons (derives_token opens)
      (.cons (derives_expression ih) (.cons (derives_token closes) .nil)))
  | array opens closes inside ih =>
    exact derives_bracket arrayRule (by decide) (.cons (derives_token opens)
      (.cons (derives_arguments ih) (.cons (derives_token closes) .nil)))
  | arrayEmpty opens closes =>
    exact derives_bracket emptyArrayRule (by decide) (.cons (derives_token opens)
      (.cons (derives_token closes) .nil))
  | one element ih =>
    exact ⟨_, [], _, [], (List.append_nil _).symm, rfl, derives_expression ih, .inl ⟨rfl, rfl⟩⟩
  | more separates earlier element ihEarlier ihElement =>
    exact derived_more separates ihEarlier ihElement

/-- Tokens without a conjure block read as a tree exactly when the grammar derives them as
an expression with that tree. -/
theorem derives_expression_iff {tokens : List Token}
    (plain : ∀ token ∈ tokens, token.kind ≠ .conjureWord) (kept : List (Option Tree)) :
    Derives (.nonterminal .expression) tokens kept ↔
      ∃ tree, Reads .disjunction tokens [tree] ∧ kept = [some tree] := by
  constructor
  · exact fun derives => exists_of_means rfl (means_of_derives derives plain)
  · rintro ⟨tree, reads, rfl⟩
    exact derives_expression (derived_of_reads reads)

end Expression

end GlyphCompiler
