/-
# The constructs of a program

A construct of a program is a part of its derivation that has a node of its own in the
parse tree. Whatever the surface syntax of a parsed program points at is where the first
token of a construct stands.
-/

import GlyphCompiler.Proofs.Parser.Names
import GlyphCompiler.Proofs.Surface.Places

namespace GlyphCompiler

namespace Derivation

mutual

/-- The constructs of a derivation: the parts that have a node in the parse tree. -/
def constructs : Derivation → List Derivation
  | .leaf _ => []
  | .node production children =>
    match production.build with
    | .node _ => .node production children :: constructsOf children
    | .splice => constructsOf children

/-- The constructs of some derivations. -/
def constructsOf : List Derivation → List Derivation
  | [] => []
  | child :: rest => child.constructs ++ constructsOf rest

end

/-- A position is that of the first token of a construct. -/
def Begins (derivation : Derivation) (position : Position) : Prop :=
  ∃ construct ∈ derivation.constructs, ∃ token rest, construct.tokens = token :: rest ∧
    token.position = position

theorem constructsOf_eq_flatMap (derivations : List Derivation) :
    constructsOf derivations = derivations.flatMap constructs := by
  induction derivations with
  | nil => rfl
  | cons first rest ih => rw [constructsOf, ih, List.flatMap_cons]

theorem contributions_eq_map (derivations : List Derivation) :
    contributions derivations = derivations.map contribution := by
  induction derivations with
  | nil => rfl
  | cons first rest ih => rw [contributions, ih, List.map_cons]

theorem Begins.of_child {production : Production} {children : List Derivation} {child : Derivation}
    (member : child ∈ children) {position : Position} (begins : child.Begins position) :
    (node production children).Begins position := by
  obtain ⟨construct, listed, first⟩ := begins
  have below : construct ∈ constructsOf children := by
    rw [constructsOf_eq_flatMap]
    exact List.mem_flatMap.mpr ⟨child, member, listed⟩
  refine ⟨construct, ?_, first⟩
  rw [constructs]
  split
  · exact List.mem_cons_of_mem _ below
  · exact below

theorem mem_constructs_self {production : Production} {label : Label}
    (builds : production.build = .node label) (children : List Derivation) :
    node production children ∈ (node production children).constructs := by
  rw [constructs, builds]
  exact List.mem_cons_self

/-- Every construct but the whole derivation is one of a child. -/
theorem mem_constructs_cases {production : Production} {children : List Derivation}
    {construct : Derivation} (member : construct ∈ (node production children).constructs) :
    construct = node production children ∨ ∃ child ∈ children, construct ∈ child.constructs := by
  rw [constructs, constructsOf_eq_flatMap] at member
  split at member
  · exact (List.mem_cons.mp member).imp_right List.mem_flatMap.mp
  · exact .inr (List.mem_flatMap.mp member)

/-- A construct derives some of the tokens of the program. -/
theorem Valid.tokens_subset {rules : List Production} {derivation : Derivation}
    (valid : derivation.Valid rules) :
    ∀ construct ∈ derivation.constructs, construct.tokens ⊆ derivation.tokens := by
  induction valid with
  | leaf token => exact fun construct member => absurd member List.not_mem_nil
  | @node rule children _ _ _ ih =>
    intro construct member
    obtain rfl | ⟨child, listed, below⟩ := mem_constructs_cases member
    · exact List.Subset.refl _
    · rw [tokens, tokensOf_eq_flatMap]
      exact fun token inside =>
        List.mem_flatMap.mpr ⟨child, listed, ih child listed construct below inside⟩

end Derivation

/-! ## From derivations to the surface syntax -/

namespace Grammar

open Surface.Assemble (ofTree? pointsAtName ChildWithin within_ofNode? exists_of_mem_ofTrees?)

theorem build_start : ∀ rule ∈ rules, rule.head = .start → rule.build = .node .start := by
  decide +kernel

/-- Nodes that note the position of their first token keep a name first. -/
theorem head?_parts_of_build : ∀ rule ∈ rules, ∀ label ∈ pointsAtName, rule.build = .node label →
    rule.parts.head? = some (.keep (.terminal .name)) := by
  decide +kernel

variable {inside : Position → Prop}

/-- A node that keeps a name first begins with the token of that name. -/
theorem exists_first_name {rule : Production} {children : List Derivation}
    (spelled : children.map Derivation.symbol = rule.body)
    (leads : rule.parts.head? = some (.keep (.terminal .name))) :
    ∃ token rest more, Derivation.tokensOf children = token :: rest ∧
      Derivation.keep rule.parts (Derivation.contributions children) =
        some (.token token) :: more := by
  obtain ⟨parts, isParts⟩ := List.head?_eq_some_iff.mp leads
  rw [Production.body, isParts, List.filterMap_cons_some (show Part.symbol? _ = some _ from rfl)]
    at spelled
  cases children with
  | nil => cases spelled
  | cons first children =>
    cases first with
    | node production below => cases (List.cons.inj spelled).1
    | leaf token => exact ⟨token, _, _, rfl, by rw [isParts]; rfl⟩

/-- What the trees of a derivation are read as points at first tokens of its constructs. -/
theorem within_of_valid {derivation : Derivation} (valid : derivation.Valid rules)
    (begins : ∀ position, derivation.Begins position → inside position) {tree : Tree}
    (member : some tree ∈ derivation.contribution) {construct : Surface.Construct}
    (reads : ofTree? tree = some construct) : construct.Within inside := by
  induction valid generalizing tree construct with
  | leaf token =>
    obtain rfl : tree = .token token := by simpa [Derivation.contribution] using member
    cases reads
    trivial
  | @node rule children isRule spelled below ih =>
    have within (tree : Tree)
        (kept : some tree ∈ Derivation.keep rule.parts (Derivation.contributions children))
        (construct : Surface.Construct) (reads : ofTree? tree = some construct) :
        construct.Within inside := by
      obtain ⟨piece, listed, isKept⟩ := mem_of_mem_keep kept
      rw [Derivation.contributions_eq_map] at listed
      obtain ⟨child, isChild, rfl⟩ := List.mem_map.mp listed
      exact ih child isChild (fun position first => begins position (.of_child isChild first))
        isKept reads
    rw [contribution_node (.node isRule spelled below), Production.contribution] at member
    split at member
    · exact within tree member construct reads
    next label builds =>
    obtain rfl : tree = built label (Derivation.tokensOf children)
        (Derivation.keep rule.parts (Derivation.contributions children)) := by
      simpa using member
    obtain ⟨constructs, areRead, isNode⟩ := Option.bind_eq_some_iff.mp reads
    have first (token : Token) (rest : List Token)
        (tokens : Derivation.tokensOf children = token :: rest) : inside token.position :=
      begins _ ⟨_, Derivation.mem_constructs_self builds children, token, rest, tokens, rfl⟩
    have inChildren : ∀ child ∈ constructs, ChildWithin inside child := by
      rintro _ listed construct ⟨⟩
      obtain ⟨tree, isKept, isRead⟩ := exists_of_mem_ofTrees? areRead listed
      exact within tree isKept construct isRead
    refine within_ofNode? (fun other => ?_) (fun leaf rest points leads => ?_) inChildren isNode
    · have nonempty : Derivation.tokensOf children ≠ [] := by
        have whole : (Derivation.node rule children).Valid rules := .node isRule spelled below
        refine tokens_ne_nil whole fun isStart => ?_
        rw [build_start rule isRule (Symbol.nonterminal.inj isStart)] at builds
        exact other (Build.node.inj builds).symm
      cases tokens : Derivation.tokensOf children with
      | nil => exact absurd tokens nonempty
      | cons token rest => exact first token rest tokens
    · obtain ⟨token, others, more, tokens, keeps⟩ :=
        exists_first_name spelled (head?_parts_of_build rule isRule label points builds)
      rw [keeps] at areRead
      obtain ⟨later, -, same⟩ := Option.bind_eq_some_iff.mp areRead
      cases same
      cases leads
      exact first _ others tokens

end Grammar

end GlyphCompiler
