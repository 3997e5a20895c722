/-
# Names of parsed programs

A token that is read as a name is a letter or underscore with letters, digits and
underscores after it. The productions that declare something keep such a token for its
name, so every name that a parsed program declares is spelled like that.
-/

import GlyphCompiler.Proofs.Analysis.Names
import GlyphCompiler.Proofs.Parser.Spelling
import GlyphCompiler.Proofs.Surface.Assembly

namespace GlyphCompiler

open Pattern (isNameStart isNamePart)

/-- Is a text a letter or underscore, with letters, digits and underscores after it? -/
def isName (text : String) : Bool :=
  text.toList.head?.any isNameStart && text.toList.all isNamePart

theorem isNamePart_of_isNameStart {character : Char} (starts : isNameStart character = true) :
    isNamePart character = true := by
  simp only [isNameStart, Bool.or_eq_true] at starts
  simp only [isNamePart, Char.isAlphanum, Bool.or_eq_true]
  exact starts.imp_left .inl

/-! ## Tokens -/

/-- A token has the text of a name if it is one. -/
def Token.Fair (token : Token) : Prop :=
  token.kind = .name → isName token.text = true

theorem isName_of_matches {text : List Char} (isText : Terminal.name.Matches text) :
    isName (String.ofList text) = true := by
  obtain ⟨first, rest, rfl, starts, parts⟩ := isText
  simpa [isName, starts, isNamePart_of_isNameStart starts] using parts

/-- The tokens that spell a text are fair. -/
theorem Spelled.fair {before text : List Char} {tokens : List Token}
    (spelled : Spelled before text tokens) : ∀ token ∈ tokens, token.Fair := by
  intro token member isKind
  have isText := spelled.forall_matches token member
  rw [isKind] at isText
  simpa using isName_of_matches isText

/-! ## Names of constructs -/

namespace Surface

/-- The names that a construct declares. -/
def Construct.names : Construct → List String
  | .token _ | .mutability _ | .type _ => []
  | .parameter declared => [declared.ident.name]
  | .parameters declared => declared.map (·.ident.name)
  | .expression value | .expressionBody _ value => value.names
  | .arguments values => namesOfExprs values
  | .statement written => written.names
  | .program written => namesOfBody written.body

namespace Assemble

/-- The names that a child of a node declares. -/
def namesOf (child : Option Construct) : List String :=
  child.elim [] Construct.names

/-- The name that a node declares by itself: the text of a token among its children. -/
def ownName (label : Label) (children : List (Option Construct)) : List String :=
  match label, children with
  | .functionDeclaration, name :: _ | .conjureBinding, name :: _ | .parameter, name :: _
  | .variableDeclaration, _ :: name :: _ => (ident? name).toList.map Ident.name
  | _, _ => []

section

variable {child : Option Construct} {children : List (Option Construct)}

theorem namesOf_of_expression? {value : Expr} (reads : expression? child = some value) :
    value.names = namesOf child := by
  unfold expression? at reads
  split at reads <;> cases reads
  rfl

theorem namesOf_of_statement? {statement : Stmt} (reads : statement? child = some statement) :
    statement.names = namesOf child := by
  unfold statement? at reads
  split at reads <;> cases reads
  rfl

theorem namesOf_of_parameter? {parameter : Parameter} (reads : parameter? child = some parameter) :
    [parameter.ident.name] = namesOf child := by
  unfold parameter? at reads
  split at reads <;> cases reads
  rfl

theorem namesOf_of_block? {body : List Stmt} (reads : block? child = some body) :
    namesOfBody body = namesOf child := by
  unfold block? at reads
  split at reads <;> cases reads
  rfl

theorem namesOf_of_alternative? {body : List Stmt} (reads : alternative? child = some body) :
    namesOfBody body = namesOf child := by
  unfold alternative? at reads
  split at reads <;> cases reads
  · rfl
  · exact List.append_nil _
  · rfl

theorem namesOf_of_functionBody? {body : List Stmt} (reads : functionBody? child = some body) :
    namesOfBody body = namesOf child := by
  unfold functionBody? at reads
  split at reads <;> cases reads
  · rfl
  · exact List.append_nil _

theorem namesOf_of_arguments? {arguments : List Expr} (reads : arguments? child = some arguments) :
    namesOfExprs arguments = namesOf child := by
  unfold arguments? at reads
  split at reads <;> cases reads <;> rfl

theorem namesOf_of_parameters? {parameters : List Parameter}
    (reads : parameters? child = some parameters) :
    parameters.map (·.ident.name) = namesOf child := by
  unfold parameters? at reads
  split at reads <;> cases reads <;> rfl

/-- Children that are read one by one declare what is read of them. -/
theorem namesOf_of_mapM {Piece : Type} {read : Option Construct → Option Piece}
    {names : Piece → List String}
    (here : ∀ child piece, read child = some piece → names piece = namesOf child)
    {pieces : List Piece} (reads : children.mapM read = some pieces) :
    pieces.flatMap names = children.flatMap namesOf := by
  induction children generalizing pieces with
  | nil =>
    cases reads
    rfl
  | cons child children ih =>
    simp only [List.mapM_cons, Option.bind_eq_bind, Option.bind_eq_some_iff, Option.pure_def,
      Option.some.injEq] at reads
    obtain ⟨first, isFirst, rest, areRest, rfl⟩ := reads
    rw [List.flatMap_cons, List.flatMap_cons, here child first isFirst, ih areRest]

theorem namesOfBody_eq_flatMap (body : List Stmt) : namesOfBody body = body.flatMap Stmt.names := by
  induction body with
  | nil => rfl
  | cons statement body ih => rw [namesOfBody, ih, List.flatMap_cons]

theorem namesOfExprs_eq_flatMap (expressions : List Expr) :
    namesOfExprs expressions = expressions.flatMap Expr.names := by
  induction expressions with
  | nil => rfl
  | cons expression expressions ih => rw [namesOfExprs, ih, List.flatMap_cons]

variable {label : Label} {position : Position} {result : Construct}

theorem names_ofType? (reads : ofType? label position children = some result) :
    result.names = [] := by
  unfold ofType? at reads
  split at reads <;> simp [Option.bind_eq_some_iff] at reads
  · obtain ⟨_, _, rfl⟩ := reads; rfl
  · obtain ⟨_, _, rfl⟩ := reads; rfl
  · obtain ⟨_, _, rfl⟩ := reads; rfl
  · obtain ⟨_, _, rfl⟩ := reads; rfl
  · obtain ⟨_, _, _, _, _, _, rfl⟩ := reads; rfl

theorem names_literal? {build : String → Expr} (plain : ∀ text, (build text).names = [])
    (reads : literal? build children = some result) : result.names = [] := by
  unfold literal? at reads
  split at reads <;> cases reads
  exact plain _

theorem names_ofExpression? (reads : ofExpression? label position children = some result) :
    result.names ⊆ children.flatMap namesOf := by
  unfold ofExpression? at reads
  split at reads
  case h_1 | h_2 | h_3 | h_4 | h_5 =>
    rw [names_literal? (fun _ => rfl) reads]
    exact List.nil_subset _
  case h_6 | h_7 | h_8 =>
    cases reads
    exact List.nil_subset _
  case h_9 =>
    obtain ⟨ident, -, rest⟩ := Option.bind_eq_some_iff.mp reads
    cases rest
    exact List.nil_subset _
  case h_10 =>
    obtain ⟨operator, -, rest⟩ := Option.bind_eq_some_iff.mp reads
    cases rest
    simp [Construct.names, Expr.names, namesOf]
  case h_11 =>
    obtain ⟨operator, -, rest⟩ := Option.bind_eq_some_iff.mp reads
    cases rest
    simp [Construct.names, Expr.names, namesOf]
  case h_12 | h_13 =>
    obtain ⟨operand, isOperand, rest⟩ := Option.bind_eq_some_iff.mp reads
    cases rest
    simp [Construct.names, Expr.names, namesOf_of_expression? isOperand]
  case h_14 =>
    obtain ⟨base, isBase, rest⟩ := Option.bind_eq_some_iff.mp reads
    obtain ⟨index, isIndex, rest⟩ := Option.bind_eq_some_iff.mp rest
    cases rest
    simp [Construct.names, Expr.names, namesOf_of_expression? isBase, namesOf_of_expression? isIndex]
  case h_15 =>
    obtain ⟨callee, -, rest⟩ := Option.bind_eq_some_iff.mp reads
    obtain ⟨values, areValues, rest⟩ := Option.bind_eq_some_iff.mp rest
    cases rest
    simp [Construct.names, Expr.names, namesOf_of_arguments? areValues]
  case h_16 =>
    obtain ⟨values, areValues, rest⟩ := Option.bind_eq_some_iff.mp reads
    cases rest
    simp [Construct.names, Expr.names, namesOf_of_arguments? areValues]
  case h_17 =>
    obtain ⟨body, isBody, rest⟩ := Option.bind_eq_some_iff.mp reads
    cases rest
    simp [Construct.names, Expr.names, namesOf_of_block? isBody]
  case h_18 =>
    obtain ⟨values, areValues, rest⟩ := Option.bind_eq_some_iff.mp reads
    cases rest
    rw [Construct.names, namesOfExprs_eq_flatMap,
      namesOf_of_mapM (fun _ _ => namesOf_of_expression?) areValues]
    exact List.Subset.refl _
  case h_19 => cases reads

theorem names_ofStatement? (reads : ofStatement? label position children = some result) :
    result.names ⊆ ownName label children ++ children.flatMap namesOf := by
  unfold ofStatement? at reads
  split at reads
  case h_1 =>
    obtain ⟨body, isBody, rest⟩ := Option.bind_eq_some_iff.mp reads
    cases rest
    simp [Construct.names, Stmt.names, namesOf_of_statement? isBody]
  case h_2 =>
    obtain ⟨module, -, rest⟩ := Option.bind_eq_some_iff.mp reads
    obtain ⟨symbol, -, rest⟩ := Option.bind_eq_some_iff.mp rest
    cases rest
    exact List.nil_subset _
  case h_3 =>
    obtain ⟨ident, isIdent, rest⟩ := Option.bind_eq_some_iff.mp reads
    obtain ⟨declared, areDeclared, rest⟩ := Option.bind_eq_some_iff.mp rest
    obtain ⟨type, -, rest⟩ := Option.bind_eq_some_iff.mp rest
    obtain ⟨body, isBody, rest⟩ := Option.bind_eq_some_iff.mp rest
    cases rest
    intro name
    simp only [Construct.names, Stmt.names, ownName, isIdent, namesOf_of_parameters? areDeclared,
      namesOf_of_functionBody? isBody]
    grind
  case h_4 =>
    obtain ⟨ident, isIdent, rest⟩ := Option.bind_eq_some_iff.mp reads
    obtain ⟨type, -, rest⟩ := Option.bind_eq_some_iff.mp rest
    cases rest
    intro name
    simp only [Construct.names, Stmt.names, ownName, isIdent]
    grind [namesOf, Construct.names, Expr.names]
  case h_5 =>
    obtain ⟨ident, isIdent, rest⟩ := Option.bind_eq_some_iff.mp reads
    obtain ⟨type, -, rest⟩ := Option.bind_eq_some_iff.mp rest
    obtain ⟨value, isValue, rest⟩ := Option.bind_eq_some_iff.mp rest
    cases rest
    intro name
    simp only [Construct.names, Stmt.names, ownName, isIdent, namesOf_of_expression? isValue]
    grind
  case h_6 =>
    obtain ⟨ident, -, rest⟩ := Option.bind_eq_some_iff.mp reads
    obtain ⟨value, isValue, rest⟩ := Option.bind_eq_some_iff.mp rest
    cases rest
    simp [Construct.names, Stmt.names, namesOf_of_expression? isValue]
  case h_7 | h_8 =>
    obtain ⟨ident, -, rest⟩ := Option.bind_eq_some_iff.mp reads
    cases rest
    exact List.nil_subset _
  case h_9 =>
    obtain ⟨condition, isCondition, rest⟩ := Option.bind_eq_some_iff.mp reads
    obtain ⟨consequent, isConsequent, rest⟩ := Option.bind_eq_some_iff.mp rest
    obtain ⟨alternative, isAlternative, rest⟩ := Option.bind_eq_some_iff.mp rest
    cases rest
    simp [Construct.names, Stmt.names, namesOf_of_expression? isCondition,
      namesOf_of_block? isConsequent, namesOf_of_alternative? isAlternative]
  case h_10 =>
    obtain ⟨condition, isCondition, rest⟩ := Option.bind_eq_some_iff.mp reads
    obtain ⟨body, isBody, rest⟩ := Option.bind_eq_some_iff.mp rest
    cases rest
    simp [Construct.names, Stmt.names, namesOf_of_expression? isCondition, namesOf_of_block? isBody]
  case h_11 | h_12 =>
    cases reads
    exact List.nil_subset _
  case h_13 | h_14 =>
    obtain ⟨value, isValue, rest⟩ := Option.bind_eq_some_iff.mp reads
    cases rest
    simp [Construct.names, Stmt.names, namesOf_of_expression? isValue]
  case h_15 =>
    obtain ⟨callee, -, rest⟩ := Option.bind_eq_some_iff.mp reads
    obtain ⟨values, areValues, rest⟩ := Option.bind_eq_some_iff.mp rest
    cases rest
    simp [Construct.names, Stmt.names, namesOf_of_arguments? areValues]
  case h_16 =>
    cases reads
    simp [Construct.names, Stmt.names, Expr.names, namesOf]
  case h_17 =>
    obtain ⟨body, isBody, rest⟩ := Option.bind_eq_some_iff.mp reads
    cases rest
    rw [Construct.names, Stmt.names, namesOfBody_eq_flatMap,
      namesOf_of_mapM (fun _ _ => namesOf_of_statement?) isBody]
    exact List.subset_append_right _ _
  case h_18 => cases reads

/-- What a node declares is declared below it, or is the name of a token right below it. -/
theorem names_ofNode? (reads : ofNode? label position children = some result) :
    result.names ⊆ ownName label children ++ children.flatMap namesOf := by
  unfold ofNode? at reads
  split at reads
  case h_1 =>
    obtain ⟨body, isBody, rest⟩ := Option.bind_eq_some_iff.mp reads
    cases rest
    rw [Construct.names, namesOfBody_eq_flatMap,
      namesOf_of_mapM (fun _ _ => namesOf_of_statement?) isBody]
    exact List.subset_append_right _ _
  case h_2 =>
    split at reads
    · obtain ⟨ident, isIdent, rest⟩ := Option.bind_eq_some_iff.mp reads
      obtain ⟨type, -, rest⟩ := Option.bind_eq_some_iff.mp rest
      cases rest
      simp [Construct.names, ownName, isIdent]
    · cases reads
  case h_3 =>
    obtain ⟨declared, areDeclared, rest⟩ := Option.bind_eq_some_iff.mp reads
    cases rest
    rw [Construct.names, List.map_eq_flatMap,
      namesOf_of_mapM (fun _ _ => namesOf_of_parameter?) areDeclared]
    exact List.subset_append_right _ _
  case h_4 =>
    split at reads <;> cases reads
    exact List.nil_subset _
  case h_5 =>
    split at reads
    · obtain ⟨value, isValue, rest⟩ := Option.bind_eq_some_iff.mp reads
      cases rest
      simp [Construct.names, namesOf_of_expression? isValue]
    · cases reads
  case h_6 | h_7 | h_8 | h_9 | h_10 =>
    rw [names_ofType? reads]
    exact List.nil_subset _
  all_goals first
    | exact List.subset_append_of_subset_right _ (names_ofExpression? reads)
    | exact names_ofStatement? reads

end
end Assemble
end Surface
/-! ## Names of derived programs -/

namespace Grammar

open Surface (namesOfBody)
open Surface.Assemble (ofTree? ofTrees? namesOf ownName names_ofNode? ident? exists_of_mem_ofTrees?)

/-- Is a name the first thing that a production keeps? -/
def leadsWithName : List Part → Bool
  | .drop _ :: parts => leadsWithName parts
  | .keep symbol :: _ => symbol = .terminal .name
  | _ => false

theorem leadsWithName_of_build : ∀ rule ∈ rules, rule.build ∈
    [Build.node .functionDeclaration, .node .conjureBinding, .node .parameter] →
      leadsWithName rule.parts = true := by
  decide +kernel

theorem leadsWithName_tail : ∀ rule ∈ rules, rule.build = .node .variableDeclaration →
    rule.parts.head? = some (.keep (.nonterminal .mutability)) ∧
      leadsWithName rule.parts.tail = true := by
  decide +kernel

theorem build_mutability : ∀ rule ∈ rules, rule.head = .mutability →
    rule.build = .node .mutability := by
  decide +kernel

variable {parts : List Part} {tokens : List Token} {pieces : List (List (Option Tree))}

/-- What leads with a name keeps the token of a name first. -/
theorem exists_leading_name (spells : Spells Derives (parts.filterMap Part.symbol?) tokens pieces)
    (leads : leadsWithName parts = true) :
    ∃ token rest, Derivation.keep parts pieces = some (.token token) :: rest ∧ token ∈ tokens ∧
      token.kind = .name := by
  induction parts generalizing tokens pieces with
  | nil => cases leads
  | cons part parts ih =>
    cases part with
    | absent => cases leads
    | drop terminal =>
      obtain _ | ⟨-, there⟩ := spells
      obtain ⟨token, rest, keeps, member, isName⟩ := ih there leads
      exact ⟨token, rest, keeps, List.mem_append_right _ member, isName⟩
    | keep symbol =>
      obtain rfl : symbol = .terminal .name := by simpa [leadsWithName] using leads
      obtain _ | ⟨here, -⟩ := spells
      obtain ⟨token, isName, rfl, rfl⟩ := exists_token here
      exact ⟨token, _, rfl, by simp, isName⟩

/-- Every name that a tree declares is spelled as a name. -/
def NamesFair (tree : Tree) : Prop :=
  ∀ construct, ofTree? tree = some construct → ∀ name ∈ construct.names, isName name = true

/-- What some trees are read as is fair if the trees are. -/
theorem isName_of_ofTrees? {kept : List (Option Tree)} {constructs : List (Option Surface.Construct)}
    (reads : ofTrees? kept = some constructs) (fair : ∀ tree, some tree ∈ kept → NamesFair tree) :
    ∀ name ∈ constructs.flatMap namesOf, isName name = true := by
  intro name member
  obtain ⟨child, listed, named⟩ := List.mem_flatMap.mp member
  cases child with
  | none => cases named
  | some construct =>
    obtain ⟨tree, isKept, isRead⟩ := exists_of_mem_ofTrees? reads listed
    exact fair tree isKept construct isRead name named

/-- A production keeps nothing but what its body contributes. -/
theorem mem_of_mem_keep {tree : Tree} (member : some tree ∈ Derivation.keep parts pieces) :
    ∃ piece ∈ pieces, some tree ∈ piece := by
  induction parts generalizing pieces with
  | nil => simp [Derivation.keep] at member
  | cons part parts ih =>
    cases part with
    | absent => exact ih (by simpa [Derivation.keep] using member)
    | drop terminal =>
      cases pieces with
      | nil => simp [Derivation.keep] at member
      | cons piece pieces =>
        obtain ⟨other, listed, inside⟩ := ih member
        exact ⟨other, List.mem_cons_of_mem _ listed, inside⟩
    | keep symbol =>
      cases pieces with
      | nil => simp [Derivation.keep] at member
      | cons piece pieces =>
        obtain here | later := List.mem_append.mp member
        · exact ⟨piece, List.mem_cons_self, here⟩
        · obtain ⟨other, listed, inside⟩ := ih later
          exact ⟨other, List.mem_cons_of_mem _ listed, inside⟩

/-- Every piece of what is spelled comes from a symbol of the body and some of the tokens. -/
theorem Spells.mem_piece {relation : Symbol → List Token → List (Option Tree) → Prop}
    {body : List Symbol} (spells : Spells relation body tokens pieces) {piece : List (Option Tree)}
    (member : piece ∈ pieces) :
    ∃ symbol ∈ body, ∃ inner, (∀ token ∈ inner, token ∈ tokens) ∧ relation symbol inner piece := by
  induction spells with
  | nil => cases member
  | @cons symbol rest here later kept others isHere there ih =>
    obtain rfl | member := List.mem_cons.mp member
    · exact ⟨symbol, List.mem_cons_self, here, fun token inside => List.mem_append_left _ inside,
        isHere⟩
    · obtain ⟨other, listed, inner, within, related⟩ := ih member
      exact ⟨other, List.mem_cons_of_mem _ listed, inner,
        fun token inside => List.mem_append_right _ (within token inside), related⟩

/-- What the first child of a node is read as, if it is the token of a name. -/
theorem isName_of_leading {token : Token} {rest : List (Option Tree)}
    {constructs : List (Option Surface.Construct)}
    (reads : ofTrees? (some (.token token) :: rest) = some constructs) (fair : isName token.text = true) :
    ∃ child others, constructs = child :: others ∧
      ∀ name ∈ (ident? child).toList.map Surface.Ident.name, isName name = true := by
  obtain ⟨others, -, same⟩ := Option.bind_eq_some_iff.mp reads
  cases same
  exact ⟨_, others, rfl, by simpa [ident?] using fair⟩

/-- After the mutability of a variable its name is kept. -/
theorem exists_tail_of_mutability {rest : List Part}
    (spells : Spells Derives ((.keep (.nonterminal .mutability) :: rest).filterMap Part.symbol?) tokens
      pieces) (leads : leadsWithName rest = true) :
    ∃ tree token more, Derivation.keep (.keep (.nonterminal .mutability) :: rest) pieces =
      some tree :: some (.token token) :: more ∧ token ∈ tokens ∧ token.kind = .name := by
  obtain _ | ⟨here, there⟩ := spells
  obtain ⟨rule, member, isHead, inner, -, rfl⟩ := exists_rule here
  obtain ⟨token, more, keeps, listed, kind⟩ := exists_leading_name there leads
  rw [Derivation.keep, keeps, Production.contribution, build_mutability rule member isHead]
  exact ⟨_, token, more, rfl, List.mem_append_right _ listed, kind⟩

/-- The name that a node declares by itself is spelled as one. -/
theorem isName_of_ownName {rule : Production} (member : rule ∈ rules) {label : Label}
    (builds : rule.build = .node label) (spells : Spells Derives rule.body tokens pieces)
    (fair : ∀ token ∈ tokens, token.Fair) {constructs : List (Option Surface.Construct)}
    (reads : ofTrees? (Derivation.keep rule.parts pieces) = some constructs) :
    ∀ name ∈ ownName label constructs, isName name = true := by
  have leading (leads : leadsWithName rule.parts = true) : ∃ child others,
      constructs = child :: others ∧
        ∀ name ∈ (ident? child).toList.map Surface.Ident.name, isName name = true := by
    obtain ⟨token, rest, keeps, listed, kind⟩ := exists_leading_name spells leads
    rw [keeps] at reads
    exact isName_of_leading reads (fair token listed kind)
  unfold ownName
  split
  case h_1 | h_2 | h_3 =>
    obtain ⟨child, others, same, named⟩ :=
      leading (leadsWithName_of_build rule member (by simp [builds]))
    cases same
    exact named
  case h_4 =>
    obtain ⟨isFirst, leads⟩ := leadsWithName_tail rule member builds
    rw [Production.body] at spells
    obtain ⟨rest, split⟩ := List.head?_eq_some_iff.mp isFirst
    rw [split] at spells reads leads
    obtain ⟨tree, token, more, keeps, listed, kind⟩ := exists_tail_of_mutability spells leads
    rw [keeps] at reads
    obtain ⟨first, -, reads⟩ := Option.bind_eq_some_iff.mp reads
    obtain ⟨later, areLater, same⟩ := Option.bind_eq_some_iff.mp reads
    obtain ⟨child, others, rfl, named⟩ := isName_of_leading areLater (fair token listed kind)
    cases same
    exact named
  case h_5 => simp

/-- Whatever is derived from tokens whose names are spelled as names declares such names. -/
theorem namesFair_of_derives {symbol : Symbol} {kept : List (Option Tree)}
    (derives : Derives symbol tokens kept) (fair : ∀ token ∈ tokens, token.Fair) (tree : Tree)
    (member : some tree ∈ kept) : NamesFair tree := by
  refine Derives.induct (motive := fun _ tokens kept => (∀ token ∈ tokens, token.Fair) →
    ∀ tree, some tree ∈ kept → NamesFair tree) ?_ ?_ derives fair tree member
  · intro token _ tree member construct reads
    obtain rfl : tree = .token token := by simpa using member
    cases reads
    simp [Surface.Construct.names]
  · intro rule isRule tokens pieces derives spells fair tree member
    have below (inner : Tree) (kept : some inner ∈ Derivation.keep rule.parts pieces) :
        NamesFair inner := by
      obtain ⟨piece, listed, inside⟩ := mem_of_mem_keep kept
      obtain ⟨symbol, -, within, subset, known⟩ := spells.mem_piece listed
      exact known (fun token inner => fair token (subset token inner)) inner inside
    rw [Production.contribution] at member
    split at member
    · exact below tree member
    · next label builds =>
      obtain rfl : tree = built label tokens (Derivation.keep rule.parts pieces) := by
        simpa using member
      intro construct reads
      obtain ⟨constructs, areRead, reads⟩ := Option.bind_eq_some_iff.mp reads
      have own := isName_of_ownName isRule builds derives fair areRead
      have inner := isName_of_ofTrees? areRead below
      intro name isNamed
      exact (List.mem_append.mp (names_ofNode? reads isNamed)).elim (own name) (inner name)

/-- The tree of a text is derived from the tokens that the text spells. -/
theorem exists_derives_of_parse {source : String} {tree : Tree} (parsed : parse source = .ok tree) :
    ∃ tokens, Spelled [] source.toList tokens ∧
      Derives (.nonterminal .start) tokens [some tree] := by
  obtain ⟨derivation, derived, isTree⟩ := (parse_eq_ok_iff source tree).mp parsed
  obtain ⟨valid, isStart, spelled⟩ := spelled_of_parseDerivation derived
  exact ⟨_, spelled, derivation, valid, isStart, rfl, (tree?_eq_some_iff derivation tree).mp isTree⟩

end Grammar

/-- Every name that a parsed program declares is a letter or underscore, with letters, digits
and underscores after it. -/
theorem isName_of_parse {source : String} {tree : Tree} {program : Surface.Program}
    (parsed : parse source = .ok tree) (reads : Surface.ofTree tree = .ok program) :
    ∀ name ∈ Surface.namesOfBody program.body, isName name = true := by
  obtain ⟨tokens, spelled, derives⟩ := Grammar.exists_derives_of_parse parsed
  have named := Grammar.namesFair_of_derives derives spelled.fair tree List.mem_cons_self
  unfold Surface.ofTree at reads
  split at reads
  · next found =>
    cases reads
    exact named _ found
  · cases reads

end GlyphCompiler
