/-
# Where a `main` stands in parsed programs

Only the list of a whole program takes items, and only an item can be a `main`. So in
a parsed program every `main` is one of the statements of the program itself, and
there is no `main` in any of them.
-/

import GlyphCompiler.Proofs.Parser.Names
import GlyphCompiler.Proofs.Surface.Main

namespace GlyphCompiler

namespace Surface

/-- Is there a `main` in a construct? -/
def Construct.hasMain : Construct → Bool
  | .token _ | .mutability _ | .type _ | .parameter _ | .parameters _ => false
  | .expression value | .expressionBody _ value => value.hasMain
  | .arguments values => anyHasMain values
  | .statement written => written.hasMain
  | .program written => bodyHasMain written.body

namespace Assemble

/-- Is there a `main` in a child of a node? -/
def holdsMainIn (child : Option Construct) : Bool :=
  child.any Construct.hasMain

section

variable {child : Option Construct} {children : List (Option Construct)}

theorem hasMain_of_expression? {value : Expr} (reads : expression? child = some value) :
    value.hasMain = holdsMainIn child := by
  unfold expression? at reads
  split at reads <;> cases reads
  rfl

theorem hasMain_of_statement? {statement : Stmt} (reads : statement? child = some statement) :
    statement.hasMain = holdsMainIn child := by
  unfold statement? at reads
  split at reads <;> cases reads
  rfl

theorem hasMain_of_block? {body : List Stmt} (reads : block? child = some body) :
    bodyHasMain body = holdsMainIn child := by
  unfold block? at reads
  split at reads <;> cases reads
  rfl

theorem hasMain_of_alternative? {body : List Stmt} (reads : alternative? child = some body) :
    bodyHasMain body = holdsMainIn child := by
  unfold alternative? at reads
  split at reads <;> cases reads
  · rfl
  · exact Bool.or_false _
  · rfl

theorem hasMain_of_functionBody? {body : List Stmt} (reads : functionBody? child = some body) :
    bodyHasMain body = holdsMainIn child := by
  unfold functionBody? at reads
  split at reads <;> cases reads
  · rfl
  · exact Bool.or_false _

theorem hasMain_of_arguments? {arguments : List Expr} (reads : arguments? child = some arguments) :
    anyHasMain arguments = holdsMainIn child := by
  unfold arguments? at reads
  split at reads <;> cases reads <;> rfl

/-- There is a `main` in children that are read one by one only if there is one in what is
read of them. -/
theorem any_of_mapM {Piece : Type} {read : Option Construct → Option Piece} {has : Piece → Bool}
    (here : ∀ child piece, read child = some piece → has piece = holdsMainIn child)
    {pieces : List Piece} (reads : children.mapM read = some pieces) :
    pieces.any has = children.any holdsMainIn := by
  induction children generalizing pieces with
  | nil =>
    cases reads
    rfl
  | cons child children ih =>
    simp only [List.mapM_cons, Option.bind_eq_bind, Option.bind_eq_some_iff, Option.pure_def,
      Option.some.injEq] at reads
    obtain ⟨first, isFirst, rest, areRest, rfl⟩ := reads
    rw [List.any_cons, List.any_cons, here child first isFirst, ih areRest]

variable {label : Label} {position : Position} {result : Construct}

theorem hasMain_ofType? (reads : ofType? label position children = some result) :
    result.hasMain = false := by
  unfold ofType? at reads
  split at reads <;> simp [Option.bind_eq_some_iff] at reads
  · obtain ⟨_, _, rfl⟩ := reads; rfl
  · obtain ⟨_, _, rfl⟩ := reads; rfl
  · obtain ⟨_, _, rfl⟩ := reads; rfl
  · obtain ⟨_, _, rfl⟩ := reads; rfl
  · obtain ⟨_, _, _, _, _, _, rfl⟩ := reads; rfl

theorem hasMain_literal? {build : String → Expr} (plain : ∀ text, (build text).hasMain = false)
    (reads : literal? build children = some result) : result.hasMain = false := by
  unfold literal? at reads
  split at reads <;> cases reads
  exact plain _

theorem hasMain_ofExpression? (reads : ofExpression? label position children = some result)
    (without : children.any holdsMainIn = false) : result.hasMain = false := by
  unfold ofExpression? at reads
  split at reads
  case h_1 | h_2 | h_3 | h_4 | h_5 => exact hasMain_literal? (fun _ => rfl) reads
  case h_6 | h_7 | h_8 =>
    cases reads
    rfl
  case h_9 =>
    obtain ⟨ident, -, rest⟩ := Option.bind_eq_some_iff.mp reads
    cases rest
    rfl
  case h_10 | h_11 =>
    obtain ⟨operator, -, rest⟩ := Option.bind_eq_some_iff.mp reads
    cases rest
    simpa [holdsMainIn, Construct.hasMain, Expr.hasMain] using without
  case h_12 | h_13 =>
    obtain ⟨operand, isOperand, rest⟩ := Option.bind_eq_some_iff.mp reads
    cases rest
    rw [Construct.hasMain, Expr.hasMain, hasMain_of_expression? isOperand]
    simp_all
  case h_14 =>
    obtain ⟨base, isBase, rest⟩ := Option.bind_eq_some_iff.mp reads
    obtain ⟨index, isIndex, rest⟩ := Option.bind_eq_some_iff.mp rest
    cases rest
    rw [Construct.hasMain, Expr.hasMain, hasMain_of_expression? isBase, hasMain_of_expression? isIndex]
    simp_all
  case h_15 =>
    obtain ⟨callee, -, rest⟩ := Option.bind_eq_some_iff.mp reads
    obtain ⟨values, areValues, rest⟩ := Option.bind_eq_some_iff.mp rest
    cases rest
    rw [Construct.hasMain, Expr.hasMain, hasMain_of_arguments? areValues]
    simp_all
  case h_16 =>
    obtain ⟨values, areValues, rest⟩ := Option.bind_eq_some_iff.mp reads
    cases rest
    rw [Construct.hasMain, Expr.hasMain, hasMain_of_arguments? areValues]
    simp_all
  case h_17 =>
    obtain ⟨body, isBody, rest⟩ := Option.bind_eq_some_iff.mp reads
    cases rest
    rw [Construct.hasMain, Expr.hasMain, hasMain_of_block? isBody]
    simp_all
  case h_18 =>
    obtain ⟨values, areValues, rest⟩ := Option.bind_eq_some_iff.mp reads
    cases rest
    rw [Construct.hasMain, anyHasMain_eq_any,
      any_of_mapM (fun _ _ => hasMain_of_expression?) areValues, without]
  case h_19 => cases reads

theorem hasMain_ofStatement? (reads : ofStatement? label position children = some result)
    (other : label ≠ .mainStatement) (without : children.any holdsMainIn = false) :
    result.hasMain = false := by
  unfold ofStatement? at reads
  split at reads
  case h_1 => exact absurd rfl other
  case h_2 =>
    obtain ⟨module, -, rest⟩ := Option.bind_eq_some_iff.mp reads
    obtain ⟨symbol, -, rest⟩ := Option.bind_eq_some_iff.mp rest
    cases rest
    rfl
  case h_3 =>
    obtain ⟨ident, -, rest⟩ := Option.bind_eq_some_iff.mp reads
    obtain ⟨declared, -, rest⟩ := Option.bind_eq_some_iff.mp rest
    obtain ⟨type, -, rest⟩ := Option.bind_eq_some_iff.mp rest
    obtain ⟨body, isBody, rest⟩ := Option.bind_eq_some_iff.mp rest
    cases rest
    rw [Construct.hasMain, Stmt.hasMain, hasMain_of_functionBody? isBody]
    simp_all
  case h_4 =>
    obtain ⟨ident, -, rest⟩ := Option.bind_eq_some_iff.mp reads
    obtain ⟨type, -, rest⟩ := Option.bind_eq_some_iff.mp rest
    cases rest
    simp_all [holdsMainIn, Construct.hasMain, Stmt.hasMain, Expr.hasMain]
  case h_5 =>
    obtain ⟨ident, -, rest⟩ := Option.bind_eq_some_iff.mp reads
    obtain ⟨type, -, rest⟩ := Option.bind_eq_some_iff.mp rest
    obtain ⟨value, isValue, rest⟩ := Option.bind_eq_some_iff.mp rest
    cases rest
    rw [Construct.hasMain, Stmt.hasMain, hasMain_of_expression? isValue]
    simp_all
  case h_6 =>
    obtain ⟨ident, -, rest⟩ := Option.bind_eq_some_iff.mp reads
    obtain ⟨value, isValue, rest⟩ := Option.bind_eq_some_iff.mp rest
    cases rest
    rw [Construct.hasMain, Stmt.hasMain, hasMain_of_expression? isValue]
    simp_all
  case h_7 | h_8 =>
    obtain ⟨ident, -, rest⟩ := Option.bind_eq_some_iff.mp reads
    cases rest
    rfl
  case h_9 =>
    obtain ⟨condition, isCondition, rest⟩ := Option.bind_eq_some_iff.mp reads
    obtain ⟨consequent, isConsequent, rest⟩ := Option.bind_eq_some_iff.mp rest
    obtain ⟨alternative, isAlternative, rest⟩ := Option.bind_eq_some_iff.mp rest
    cases rest
    rw [Construct.hasMain, Stmt.hasMain, hasMain_of_expression? isCondition,
      hasMain_of_block? isConsequent, hasMain_of_alternative? isAlternative]
    simp_all
  case h_10 =>
    obtain ⟨condition, isCondition, rest⟩ := Option.bind_eq_some_iff.mp reads
    obtain ⟨body, isBody, rest⟩ := Option.bind_eq_some_iff.mp rest
    cases rest
    rw [Construct.hasMain, Stmt.hasMain, hasMain_of_expression? isCondition,
      hasMain_of_block? isBody]
    simp_all
  case h_11 | h_12 =>
    cases reads
    rfl
  case h_13 =>
    obtain ⟨value, isValue, rest⟩ := Option.bind_eq_some_iff.mp reads
    cases rest
    rw [Construct.hasMain, Stmt.hasMain, hasMain_of_expression? isValue]
    simp_all
  case h_14 =>
    obtain ⟨value, isValue, rest⟩ := Option.bind_eq_some_iff.mp reads
    cases rest
    rw [Construct.hasMain, Stmt.hasMain, hasMain_of_expression? isValue]
    simp_all
  case h_15 =>
    obtain ⟨callee, -, rest⟩ := Option.bind_eq_some_iff.mp reads
    obtain ⟨values, areValues, rest⟩ := Option.bind_eq_some_iff.mp rest
    cases rest
    rw [Construct.hasMain, Stmt.hasMain, hasMain_of_arguments? areValues]
    simp_all
  case h_16 =>
    cases reads
    simpa [holdsMainIn, Construct.hasMain, Stmt.hasMain, Expr.hasMain] using without
  case h_17 =>
    obtain ⟨body, isBody, rest⟩ := Option.bind_eq_some_iff.mp reads
    cases rest
    rw [Construct.hasMain, Stmt.hasMain, bodyHasMain_eq_any,
      any_of_mapM (fun _ _ => hasMain_of_statement?) isBody, without]
  case h_18 => cases reads

/-- There is a `main` in a node only if the node is one, or there is one below it. -/
theorem hasMain_ofNode? (reads : ofNode? label position children = some result)
    (other : label ≠ .mainStatement) (without : children.any holdsMainIn = false) :
    result.hasMain = false := by
  unfold ofNode? at reads
  split at reads
  case h_1 =>
    obtain ⟨body, isBody, rest⟩ := Option.bind_eq_some_iff.mp reads
    cases rest
    rw [Construct.hasMain, bodyHasMain_eq_any,
      any_of_mapM (fun _ _ => hasMain_of_statement?) isBody, without]
  case h_2 =>
    split at reads
    · obtain ⟨ident, -, rest⟩ := Option.bind_eq_some_iff.mp reads
      obtain ⟨type, -, rest⟩ := Option.bind_eq_some_iff.mp rest
      cases rest
      rfl
    · cases reads
  case h_3 =>
    obtain ⟨declared, -, rest⟩ := Option.bind_eq_some_iff.mp reads
    cases rest
    rfl
  case h_4 =>
    split at reads <;> cases reads
    rfl
  case h_5 =>
    split at reads
    · obtain ⟨value, isValue, rest⟩ := Option.bind_eq_some_iff.mp reads
      cases rest
      rw [Construct.hasMain, hasMain_of_expression? isValue]
      simp_all
    · cases reads
  case h_6 | h_7 | h_8 | h_9 | h_10 => exact hasMain_ofType? reads
  all_goals first
    | exact hasMain_ofExpression? reads without
    | exact hasMain_ofStatement? reads other without

end

end Assemble

end Surface

/-! ## Derived programs -/

namespace Grammar

open Surface.Assemble (ofTree? ofTrees? statement? holdsMainIn hasMain_ofNode?
  exists_of_mem_mapM exists_of_mem_ofTrees?
  hasMain_of_statement?)

/-- Is a symbol one that the items of a program are made of? -/
def isOuter : Symbol → Bool
  | .nonterminal .moreItems | .nonterminal .item | .nonterminal .mainStatement => true
  | _ => false

theorem not_isOuter_of_body : ∀ rule ∈ rules, isOuter (.nonterminal rule.head) = false →
    rule.head ≠ .start → rule.build ≠ .node .mainStatement ∧
      ∀ symbol ∈ rule.body, isOuter symbol = false ∧ symbol ≠ .nonterminal .start := by
  decide +kernel

/-- A production of items passes them on, or it is that of a `main`. -/
theorem build_of_isOuter : ∀ rule ∈ rules, isOuter (.nonterminal rule.head) = true →
    (rule.build = .splice ∧ .nonterminal .start ∉ rule.body) ∨
      rule.build = .node .mainStatement ∧
        ∀ symbol ∈ rule.body, isOuter symbol = false ∧ symbol ≠ .nonterminal .start := by
  decide +kernel

theorem body_of_start : ∀ rule ∈ rules, rule.head = .start →
    rule.build = .node .start ∧ ∀ symbol ∈ rule.body, isOuter symbol = true := by
  decide +kernel

/-- There is no `main` in what a tree is read as. -/
def NoMain (tree : Tree) : Prop :=
  ∀ construct, ofTree? tree = some construct → construct.hasMain = false

/-- There is no `main` inside the statement that a tree is read as. -/
def NoInnerMain (tree : Tree) : Prop :=
  ∀ statement, ofTree? tree = some (.statement statement) → statement.hasInnerMain = false

/-- What some trees are read as holds no `main` if the trees do not. -/
theorem noMain_ofTrees? {kept : List (Option Tree)} {constructs : List (Option Surface.Construct)}
    (reads : ofTrees? kept = some constructs) (without : ∀ tree, some tree ∈ kept → NoMain tree) :
    constructs.any holdsMainIn = false := by
  rw [List.any_eq_false]
  intro child listed
  cases child with
  | none => simp [holdsMainIn]
  | some construct =>
    obtain ⟨tree, isKept, isRead⟩ := exists_of_mem_ofTrees? reads listed
    have here : construct.hasMain = false := without tree isKept construct isRead
    simp [holdsMainIn, here]

variable {tokens : List Token} {kept : List (Option Tree)}

/-- Only items hold a `main`. -/
theorem noMain_of_derives {symbol : Symbol} (derives : Derives symbol tokens kept)
    (inner : isOuter symbol = false) (notStart : symbol ≠ .nonterminal .start) :
    ∀ tree, some tree ∈ kept → NoMain tree := by
  refine Derives.induct (motive := fun symbol _ kept => isOuter symbol = false →
    symbol ≠ .nonterminal .start → ∀ tree, some tree ∈ kept → NoMain tree)
    ?_ ?_ derives inner notStart
  · intro token _ _ tree member construct reads
    obtain rfl : tree = .token token := by simpa using member
    cases reads
    rfl
  · intro rule isRule tokens pieces _ spells inner notStart tree member
    obtain ⟨notMain, inside⟩ := not_isOuter_of_body rule isRule inner (by simpa using notStart)
    have below (tree : Tree) (isKept : some tree ∈ Derivation.keep rule.parts pieces) :
        NoMain tree := by
      obtain ⟨piece, listed, member⟩ := mem_of_mem_keep isKept
      obtain ⟨symbol, isSymbol, _, -, known⟩ := spells.mem_piece listed
      obtain ⟨isInner, notStart⟩ := inside symbol isSymbol
      exact known isInner notStart tree member
    rw [Production.contribution] at member
    split at member
    · exact below tree member
    · next label builds =>
      obtain rfl : tree = built label tokens (Derivation.keep rule.parts pieces) := by
        simpa using member
      intro construct reads
      obtain ⟨constructs, areRead, reads⟩ := Option.bind_eq_some_iff.mp reads
      exact hasMain_ofNode? reads (fun same => notMain (by rw [builds, same]))
        (noMain_ofTrees? areRead below)

/-- The statements that some trees are read as, if there is no `main` inside of any. -/
theorem forall_of_ofTrees? {kept : List (Option Tree)}
    {constructs : List (Option Surface.Construct)} {body : List Surface.Stmt}
    (reads : ofTrees? kept = some constructs) (without : ∀ tree, some tree ∈ kept → NoInnerMain tree)
    (isBody : constructs.mapM statement? = some body) :
    ∀ statement ∈ body, statement.hasInnerMain = false := by
  intro statement member
  obtain ⟨child, listed, isStatement⟩ := exists_of_mem_mapM isBody member
  obtain rfl : child = some (.statement statement) := by
    unfold statement? at isStatement
    split at isStatement <;> simp_all
  obtain ⟨tree, isKept, isRead⟩ := exists_of_mem_ofTrees? reads listed
  exact without tree isKept statement isRead

/-- Only the statement right below a `main` is in it. -/
theorem noInnerMain_main {position : Position} {children : List (Option Tree)}
    (without : ∀ tree, some tree ∈ children → NoMain tree) :
    NoInnerMain (.node .mainStatement position children) := by
  intro statement reads
  obtain ⟨constructs, areRead, reads⟩ := Option.bind_eq_some_iff.mp reads
  have absent := noMain_ofTrees? areRead without
  match constructs, reads with
  | [child], reads =>
    obtain ⟨body, isBody, same⟩ := Option.bind_eq_some_iff.mp reads
    cases same
    simpa [Surface.Stmt.hasInnerMain, hasMain_of_statement? isBody] using absent

/-- There is no `main` inside an item. -/
theorem noInnerMain_of_derives {symbol : Symbol} (derives : Derives symbol tokens kept)
    (notStart : symbol ≠ .nonterminal .start) : ∀ tree, some tree ∈ kept → NoInnerMain tree := by
  have both : Derives symbol tokens kept ∧
      (symbol ≠ .nonterminal .start → ∀ tree, some tree ∈ kept → NoInnerMain tree) := by
    refine Derives.induct (motive := fun symbol tokens kept => Derives symbol tokens kept ∧
      (symbol ≠ .nonterminal .start → ∀ tree, some tree ∈ kept → NoInnerMain tree)) ?_ ?_ derives
    · refine fun token => ⟨derives_terminal token, fun _ tree member statement reads => ?_⟩
      obtain rfl : tree = .token token := by simpa using member
      cases reads
    · intro rule isRule tokens pieces derived spells
      have derives := derives_of_spells isRule derived
      refine ⟨derives, fun notStart tree member => ?_⟩
      cases outer : isOuter (.nonterminal rule.head) with
      | false =>
        intro statement reads
        exact Surface.hasInnerMain_of_hasMain
          (noMain_of_derives derives outer notStart tree member _ reads)
      | true =>
        obtain ⟨builds, inside⟩ | ⟨builds, inside⟩ := build_of_isOuter rule isRule outer
        · rw [Production.contribution, builds] at member
          obtain ⟨piece, listed, member⟩ := mem_of_mem_keep member
          obtain ⟨symbol, isSymbol, _, -, -, known⟩ := spells.mem_piece listed
          exact known (fun same => inside (same ▸ isSymbol)) tree member
        · rw [Production.contribution, builds] at member
          obtain rfl := Option.some.inj (List.mem_singleton.mp member)
          refine noInnerMain_main fun other isKept => ?_
          obtain ⟨piece, listed, member⟩ := mem_of_mem_keep isKept
          obtain ⟨symbol, isSymbol, _, -, derives, -⟩ := spells.mem_piece listed
          obtain ⟨inner, notStart⟩ := inside symbol isSymbol
          exact noMain_of_derives derives inner notStart other member
  exact both.2 notStart

/-- A program is read from items, one for each of its statements. -/
theorem hasInnerMain_of_derives {tree : Tree} {program : Surface.Program}
    (derives : Derives (.nonterminal .start) tokens [some tree])
    (reads : ofTree? tree = some (.program program)) :
    ∀ statement ∈ program.body, statement.hasInnerMain = false := by
  obtain ⟨rule, isRule, isStart, pieces, spells, same⟩ := exists_rule derives
  obtain ⟨builds, items⟩ := body_of_start rule isRule isStart
  rw [Production.contribution, builds] at same
  obtain rfl : tree = built .start tokens (Derivation.keep rule.parts pieces) := by
    simpa using same
  obtain ⟨constructs, areRead, reads⟩ := Option.bind_eq_some_iff.mp reads
  obtain ⟨body, isBody, same⟩ := Option.bind_eq_some_iff.mp reads
  cases same
  have items (other : Tree) (isKept : some other ∈ Derivation.keep rule.parts pieces) :
      NoInnerMain other := by
    obtain ⟨piece, listed, member⟩ := mem_of_mem_keep isKept
    obtain ⟨symbol, isSymbol, _, -, derives⟩ := spells.mem_piece listed
    refine noInnerMain_of_derives derives (fun same => ?_) other member
    have outer := items symbol isSymbol
    rw [same] at outer
    cases outer
  exact forall_of_ofTrees? areRead items isBody

end Grammar

/-- In a parsed program no statement holds a `main` inside. -/
theorem hasInnerMain_of_parse {source : String} {tree : Tree} {program : Surface.Program}
    (parsed : parse source = .ok tree) (reads : Surface.ofTree tree = .ok program) :
    ∀ statement ∈ program.body, statement.hasInnerMain = false := by
  obtain ⟨tokens, -, derives⟩ := Grammar.exists_derives_of_parse parsed
  unfold Surface.ofTree at reads
  split at reads
  · next found =>
    cases reads
    exact Grammar.hasInnerMain_of_derives derives found
  · cases reads

end GlyphCompiler
