/-
# What a grammar derives

A symbol derives some tokens and contributes some trees to the node around it.
This relation forgets the derivation itself, and it is built up and taken apart
by productions: the body of a production is spelled piece by piece, and the
production keeps what its parts say of the pieces' contributions.
-/

import GlyphCompiler.Proofs.Parser.Checks

namespace GlyphCompiler

/-- Where some tokens stand. -/
def startOf : List Token → Position
  | [] => .start
  | token :: _ => token.position

/-- A node over some tokens. -/
def built (label : Label) (tokens : List Token) (children : List (Option Tree)) : Tree :=
  .node label (startOf tokens) children

/-- What a production contributes, given its tokens and what each symbol of its body
contributes. -/
def Production.contribution (rule : Production) (tokens : List Token)
    (kept : List (List (Option Tree))) : List (Option Tree) :=
  match rule.build with
  | .splice => Derivation.keep rule.parts kept
  | .node label => [some (built label tokens (Derivation.keep rule.parts kept))]

namespace Grammar

/-- The grammar derives some tokens from a symbol, which contributes some trees. -/
def Derives (symbol : Symbol) (tokens : List Token) (kept : List (Option Tree)) : Prop :=
  ∃ derivation : Derivation, derivation.Valid rules ∧ derivation.symbol = symbol ∧
    derivation.tokens = tokens ∧ derivation.contribution = kept

/-- The symbols of a body stand in a relation to some tokens and contributions, piece by
piece. -/
inductive Spells (relation : Symbol → List Token → List (Option Tree) → Prop) :
    List Symbol → List Token → List (List (Option Tree)) → Prop
  | nil : Spells relation [] [] []
  | cons {symbol : Symbol} {rest : List Symbol} {tokens later : List Token}
      {kept : List (Option Tree)} {others : List (List (Option Tree))}
      (here : relation symbol tokens kept) (there : Spells relation rest later others) :
      Spells relation (symbol :: rest) (tokens ++ later) (kept :: others)

/-- Every piece of a body stands in another relation that its tokens and contributions
have where they stand in the first. -/
theorem Spells.imp {relation other : Symbol → List Token → List (Option Tree) → Prop}
    {body : List Symbol} {tokens : List Token} {kept : List (List (Option Tree))}
    (spells : Spells relation body tokens kept)
    (implies : ∀ symbol piece contribution, (∀ token ∈ piece, token ∈ tokens) →
      relation symbol piece contribution → other symbol piece contribution) :
    Spells other body tokens kept := by
  induction spells with
  | nil => exact .nil
  | cons here _ ih =>
    refine .cons (implies _ _ _ (fun _ member => List.mem_append_left _ member) here) (ih ?_)
    exact fun symbol piece contribution inside =>
      implies symbol piece contribution fun token member =>
        List.mem_append_right _ (inside token member)

/-! ## Positions -/

theorem start_not_mem_body : ∀ rule ∈ rules, .nonterminal .start ∉ rule.body := by
  decide +kernel

/-- Only the start symbol derives nothing. -/
theorem tokens_ne_nil {derivation : Derivation} (valid : derivation.Valid rules)
    (other : derivation.symbol ≠ .nonterminal .start) : derivation.tokens ≠ [] := by
  induction valid with
  | leaf token => exact List.cons_ne_nil _ _
  | @node rule children member spelled below ih =>
    have notStart : rule.head ≠ .start := fun same => other (by rw [Derivation.symbol, same])
    cases children with
    | nil => exact absurd rfl (Parser.children_ne_nil ranked_rules member notStart spelled)
    | cons first rest =>
      rw [Derivation.tokens, Derivation.tokensOf]
      refine List.append_ne_nil_of_left_ne_nil (ih first List.mem_cons_self fun isStart => ?_) _
      refine start_not_mem_body rule member ?_
      rw [← spelled, ← isStart, List.map_cons]
      exact List.mem_cons_self

theorem startOf_append {tokens : List Token} (nonempty : tokens ≠ []) (more : List Token) :
    startOf (tokens ++ more) = startOf tokens := by
  cases tokens with
  | nil => exact absurd rfl nonempty
  | cons token rest => rfl

/-- A valid derivation stands where its tokens do. -/
theorem position_eq_startOf {derivation : Derivation} (valid : derivation.Valid rules) :
    derivation.position = startOf derivation.tokens := by
  induction valid with
  | leaf token => rfl
  | @node rule children member spelled below ih =>
    match children, spelled with
    | [], _ => rfl
    | first :: rest, spelled =>
      have notStart : first.symbol ≠ .nonterminal .start := by
        intro isStart
        refine start_not_mem_body rule member ?_
        rw [← spelled, ← isStart, List.map_cons]
        exact List.mem_cons_self
      rw [Derivation.position, ih first List.mem_cons_self, Derivation.tokens,
        Derivation.tokensOf, startOf_append (tokens_ne_nil (below first List.mem_cons_self) notStart)]

/-- What a node contributes is what its production keeps. -/
theorem contribution_node {rule : Production} {children : List Derivation}
    (valid : (Derivation.node rule children).Valid rules) :
    (Derivation.node rule children).contribution =
      rule.contribution (Derivation.tokensOf children) (Derivation.contributions children) := by
  rw [Derivation.contribution, Production.contribution]
  cases rule.build with
  | splice => rfl
  | node label =>
    simp only
    rw [position_eq_startOf valid]
    rfl

/-! ## Building up and taking apart -/

theorem derives_terminal (token : Token) :
    Derives (.terminal token.kind) [token] [some (.token token)] :=
  ⟨.leaf token, .leaf token, rfl, rfl, rfl⟩

/-- The derivations of a body, piece by piece. -/
theorem exists_children {body : List Symbol} {tokens : List Token}
    {kept : List (List (Option Tree))} (spells : Spells Derives body tokens kept) :
    ∃ children : List Derivation, (∀ child ∈ children, child.Valid rules) ∧
      children.map Derivation.symbol = body ∧ Derivation.tokensOf children = tokens ∧
      Derivation.contributions children = kept := by
  induction spells with
  | nil => exact ⟨[], nofun, rfl, rfl, rfl⟩
  | cons here _ ih =>
    obtain ⟨first, valid, rfl, rfl, rfl⟩ := here
    obtain ⟨rest, below, rfl, rfl, rfl⟩ := ih
    refine ⟨first :: rest, fun child member => ?_, rfl, rfl, rfl⟩
    rcases List.mem_cons.mp member with rfl | later
    · exact valid
    · exact below child later

/-- A production derives what its body spells. -/
theorem derives_of_spells {rule : Production} (member : rule ∈ rules) {tokens : List Token}
    {kept : List (List (Option Tree))} (spells : Spells Derives rule.body tokens kept) :
    Derives (.nonterminal rule.head) tokens (rule.contribution tokens kept) := by
  obtain ⟨children, below, spelled, rfl, rfl⟩ := exists_children spells
  have valid : (Derivation.node rule children).Valid rules := .node member spelled below
  exact ⟨_, valid, rfl, rfl, contribution_node valid⟩

/-- A relation that every token and every production respects holds of everything that the
grammar derives. -/
theorem Derives.induct {motive : Symbol → List Token → List (Option Tree) → Prop}
    (terminal : ∀ token : Token, motive (.terminal token.kind) [token] [some (.token token)])
    (production : ∀ rule ∈ rules, ∀ tokens kept, Spells Derives rule.body tokens kept →
      Spells motive rule.body tokens kept →
      motive (.nonterminal rule.head) tokens (rule.contribution tokens kept))
    {symbol : Symbol} {tokens : List Token} {kept : List (Option Tree)}
    (derives : Derives symbol tokens kept) : motive symbol tokens kept := by
  obtain ⟨derivation, valid, rfl, rfl, rfl⟩ := derives
  induction valid with
  | leaf token => exact terminal token
  | @node rule children member spelled below ih =>
    rw [contribution_node (.node member spelled below)]
    have pieces (relation : Symbol → List Token → List (Option Tree) → Prop)
        (known : ∀ child ∈ children, relation child.symbol child.tokens child.contribution) :
        Spells relation rule.body (Derivation.tokensOf children)
          (Derivation.contributions children) := by
      rw [← spelled]
      clear spelled below ih
      induction children with
      | nil => exact .nil
      | cons first rest ihRest =>
        exact .cons (known first List.mem_cons_self)
          (ihRest fun child listed => known child (List.mem_cons_of_mem _ listed))
    exact production rule member _ _
      (pieces Derives fun child listed => ⟨child, below child listed, rfl, rfl, rfl⟩)
      (pieces motive ih)

/-- Whatever a nonterminal derives is spelled by the body of one of its productions. -/
theorem exists_rule {head : Nonterminal} {tokens : List Token} {kept : List (Option Tree)}
    (derives : Derives (.nonterminal head) tokens kept) :
    ∃ rule ∈ rules, rule.head = head ∧ ∃ pieces, Spells Derives rule.body tokens pieces ∧
      kept = rule.contribution tokens pieces := by
  refine Derives.induct (motive := fun symbol tokens kept => ∀ head, symbol = .nonterminal head →
    ∃ rule ∈ rules, rule.head = head ∧ ∃ pieces, Spells Derives rule.body tokens pieces ∧
      kept = rule.contribution tokens pieces) ?_ ?_ derives head rfl
  · exact fun token head same => absurd same nofun
  · intro rule member tokens pieces spells _ head same
    exact ⟨rule, member, Symbol.nonterminal.inj same, pieces, spells, rfl⟩

/-- A terminal derives one token of its kind. -/
theorem exists_token {kind : Terminal} {tokens : List Token} {kept : List (Option Tree)}
    (derives : Derives (.terminal kind) tokens kept) :
    ∃ token : Token, token.kind = kind ∧ tokens = [token] ∧ kept = [some (.token token)] := by
  refine Derives.induct (motive := fun symbol tokens kept => ∀ kind, symbol = .terminal kind →
    ∃ token : Token, token.kind = kind ∧ tokens = [token] ∧ kept = [some (.token token)])
    ?_ ?_ derives kind rfl
  · exact fun token kind same => ⟨token, Symbol.terminal.inj same, rfl, rfl⟩
  · exact fun rule _ tokens pieces _ _ kind same => absurd same nofun

end Grammar

end GlyphCompiler
