/-
# Where the surface syntax points

An analysis can blame a construct at the positions that are noted in its surface syntax:
those of the construct itself, and of the names and types that are looked up. They come
from the nodes of the parse tree, or from the token that a node begins with.
-/

import GlyphCompiler.Proofs.Surface.Assembly

namespace GlyphCompiler

namespace Surface

/-! ## Positions that can be blamed -/

section

variable (inside : Position → Prop)

mutual

/-- A written type points inside. -/
def TypeSyntax.Within : TypeSyntax → Prop
  | .named ident => inside ident.position
  | .pointer type | .optional type | .array type => type.Within
  | .function position listed (some result) =>
    inside position ∧ typesWithin listed ∧ result.Within
  | .function position listed none => inside position ∧ typesWithin listed

/-- Some written types point inside. -/
def typesWithin : List TypeSyntax → Prop
  | [] => True
  | first :: rest => first.Within ∧ typesWithin rest

end

/-- A parameter points inside. -/
def Parameter.Within (parameter : Parameter) : Prop :=
  inside parameter.ident.position ∧ parameter.type.Within inside

mutual

/-- An expression points inside. -/
def Expr.Within : Expr → Prop
  | .integer position _ | .decimal position _ | .string position _ | .quoted position _
  | .codepoint position _ | .bool position _ | .null position => inside position
  | .name ident => inside ident.position
  | .binary position _ left right | .subscript position left right =>
    inside position ∧ left.Within ∧ right.Within
  | .unary position _ operand | .addressOf position operand | .dereference position operand =>
    inside position ∧ operand.Within
  | .call callee arguments => inside callee.position ∧ exprsWithin arguments
  | .array position elements => inside position ∧ exprsWithin elements
  | .conjure position body => inside position ∧ bodyWithin body

/-- Some expressions point inside. -/
def exprsWithin : List Expr → Prop
  | [] => True
  | first :: rest => first.Within ∧ exprsWithin rest

/-- A statement points inside. What a declaration or a call names is blamed at the statement. -/
def Stmt.Within : Stmt → Prop
  | .affix position _ _ | .breakLoop position | .returnVoid position => inside position
  | .main position body => inside position ∧ body.Within
  | .function position _ parameters result body =>
    inside position ∧ (∀ parameter ∈ parameters, parameter.Within inside) ∧
      (∀ type ∈ result, type.Within inside) ∧ bodyWithin body
  | .conjureBinding position _ type body =>
    inside position ∧ type.Within inside ∧ bodyWithin body
  | .declare position _ _ type value =>
    inside position ∧ (∀ written ∈ type, written.Within inside) ∧ value.Within
  | .assign position target value =>
    inside position ∧ inside target.position ∧ value.Within
  | .step position _ target => inside position ∧ inside target.position
  | .branch position condition consequent alternative =>
    inside position ∧ condition.Within ∧ bodyWithin consequent ∧ bodyWithin alternative
  | .loop position condition body => inside position ∧ condition.Within ∧ bodyWithin body
  | .returnValue position value | .exscribe position value => inside position ∧ value.Within
  | .call position _ arguments => inside position ∧ exprsWithin arguments
  | .block position body => inside position ∧ bodyWithin body

/-- Some statements point inside. -/
def bodyWithin : List Stmt → Prop
  | [] => True
  | first :: rest => first.Within ∧ bodyWithin rest

end

/-- What a parse tree is read as points inside. -/
def Construct.Within : Construct → Prop
  | .token _ | .mutability _ => True
  | .type written => written.Within inside
  | .parameter declared => declared.Within inside
  | .parameters declared => ∀ parameter ∈ declared, parameter.Within inside
  | .expression value => value.Within inside
  | .arguments values => exprsWithin inside values
  | .statement written => written.Within inside
  | .expressionBody position value => inside position ∧ value.Within inside
  | .program written => bodyWithin inside written.body

end

variable {inside : Position → Prop}

theorem typesWithin_iff {types : List TypeSyntax} :
    typesWithin inside types ↔ ∀ type ∈ types, type.Within inside := by
  induction types with
  | nil => simp [typesWithin]
  | cons first rest ih => rw [typesWithin, ih, List.forall_mem_cons]

theorem exprsWithin_iff {expressions : List Expr} :
    exprsWithin inside expressions ↔ ∀ expression ∈ expressions, expression.Within inside := by
  induction expressions with
  | nil => simp [exprsWithin]
  | cons first rest ih => rw [exprsWithin, ih, List.forall_mem_cons]

theorem bodyWithin_iff {body : List Stmt} :
    bodyWithin inside body ↔ ∀ statement ∈ body, statement.Within inside := by
  induction body with
  | nil => simp [bodyWithin]
  | cons first rest ih => rw [bodyWithin, ih, List.forall_mem_cons]

/-- The position of an expression is one that it points at. -/
theorem Expr.Within.position {expression : Expr} (within : expression.Within inside) :
    inside expression.position := by
  cases expression <;> first | exact within | exact within.1

/-! ## From parse trees -/

namespace Assemble

/-- The labels of nodes that note the position of the token that they begin with. -/
def pointsAtName : List Label :=
  [.namedType, .name, .call, .assignment, .increment, .decrement, .parameter]

/-- What a child of a node is read as points inside. -/
def ChildWithin (inside : Position → Prop) (child : Option Construct) : Prop :=
  ∀ construct ∈ child, construct.Within inside

section

variable {child : Option Construct} {children : List (Option Construct)}

theorem within_of_type? {type : TypeSyntax} (reads : type? child = some type)
    (below : ChildWithin inside child) : type.Within inside := by
  unfold type? at reads
  split at reads <;> cases reads
  exact below _ rfl

theorem within_of_parameter? {parameter : Parameter} (reads : parameter? child = some parameter)
    (below : ChildWithin inside child) : parameter.Within inside := by
  unfold parameter? at reads
  split at reads <;> cases reads
  exact below _ rfl

theorem within_of_expression? {expression : Expr} (reads : expression? child = some expression)
    (below : ChildWithin inside child) : expression.Within inside := by
  unfold expression? at reads
  split at reads <;> cases reads
  exact below _ rfl

theorem within_of_statement? {statement : Stmt} (reads : statement? child = some statement)
    (below : ChildWithin inside child) : statement.Within inside := by
  unfold statement? at reads
  split at reads <;> cases reads
  exact below _ rfl

theorem within_of_block? {body : List Stmt} (reads : block? child = some body)
    (below : ChildWithin inside child) : bodyWithin inside body := by
  unfold block? at reads
  split at reads <;> cases reads
  exact (below _ rfl).2

theorem within_of_alternative? {body : List Stmt} (reads : alternative? child = some body)
    (below : ChildWithin inside child) : bodyWithin inside body := by
  unfold alternative? at reads
  split at reads <;> cases reads
  · exact (below _ rfl).2
  · exact ⟨below _ rfl, trivial⟩
  · trivial

theorem within_of_functionBody? {body : List Stmt} (reads : functionBody? child = some body)
    (below : ChildWithin inside child) : bodyWithin inside body := by
  unfold functionBody? at reads
  split at reads <;> cases reads
  · exact (below _ rfl).2
  · exact ⟨below _ rfl, trivial⟩

theorem within_of_arguments? {arguments : List Expr} (reads : arguments? child = some arguments)
    (below : ChildWithin inside child) : exprsWithin inside arguments := by
  unfold arguments? at reads
  split at reads <;> cases reads
  · exact below _ rfl
  · trivial

theorem within_of_parameters? {parameters : List Parameter}
    (reads : parameters? child = some parameters) (below : ChildWithin inside child) :
    ∀ parameter ∈ parameters, parameter.Within inside := by
  unfold parameters? at reads
  split at reads <;> cases reads
  · exact below _ rfl
  · simp

theorem within_of_optionalType? {type : Option TypeSyntax} (reads : optionalType? child = some type)
    (below : ChildWithin inside child) : ∀ written ∈ type, written.Within inside := by
  unfold optionalType? at reads
  split at reads <;> cases reads
  · rintro written ⟨⟩
    exact below _ rfl
  · simp

/-- Children that are read one by one. -/
theorem within_of_mapM {Piece : Type} {read : Option Construct → Option Piece}
    {within : Piece → Prop}
    (here : ∀ child piece, read child = some piece → ChildWithin inside child → within piece)
    {pieces : List Piece} (reads : children.mapM read = some pieces)
    (below : ∀ child ∈ children, ChildWithin inside child) : ∀ piece ∈ pieces, within piece := by
  intro piece member
  obtain ⟨child, listed, isRead⟩ := exists_of_mem_mapM reads member
  exact here child piece isRead (below child listed)

/-- A name that a node begins with stands at the token that it is read from. -/
theorem inside_of_ident? {label : Label} {ident : Ident} (points : label ∈ pointsAtName)
    (first : ∀ leaf rest, label ∈ pointsAtName → child :: children = some (.token leaf) :: rest →
      inside leaf.position)
    (reads : ident? child = some ident) : inside ident.position := by
  unfold ident? at reads
  split at reads <;> cases reads
  exact first _ _ points rfl

variable {label : Label} {position : Position} {result : Construct}

theorem within_ofType? (here : inside position)
    (first : ∀ leaf rest, label ∈ pointsAtName → children = some (.token leaf) :: rest →
      inside leaf.position)
    (below : ∀ child ∈ children, ChildWithin inside child)
    (reads : ofType? label position children = some result) : result.Within inside := by
  unfold ofType? at reads
  split at reads
  case h_1 =>
    obtain ⟨target, isTarget, rest⟩ := Option.bind_eq_some_iff.mp reads
    cases rest
    have within := within_of_type? isTarget (below _ (by simp))
    exact within
  case h_2 | h_3 =>
    obtain ⟨inner, isInner, rest⟩ := Option.bind_eq_some_iff.mp reads
    cases rest
    have within := within_of_type? isInner (below _ (by simp))
    exact within
  case h_4 =>
    obtain ⟨ident, isIdent, rest⟩ := Option.bind_eq_some_iff.mp reads
    cases rest
    exact inside_of_ident? (by decide) first isIdent
  case h_5 parts =>
    obtain ⟨last, isLast, rest⟩ := Option.bind_eq_some_iff.mp reads
    obtain ⟨result, isResult, rest⟩ := Option.bind_eq_some_iff.mp rest
    obtain ⟨listed, areListed, rest⟩ := Option.bind_eq_some_iff.mp rest
    cases rest
    have types : typesWithin inside listed := typesWithin_iff.mpr <|
      within_of_mapM (fun _ _ => within_of_type?) areListed fun child member =>
        below child (List.mem_cons_of_mem _ (List.dropLast_subset _ member))
    have ends := within_of_optionalType? isResult
      (below last (List.mem_cons_of_mem _ (List.mem_of_getLast? isLast)))
    cases result with
    | none => exact ⟨here, types⟩
    | some result => exact ⟨here, types, ends result rfl⟩
  case h_6 => cases reads

theorem within_literal? {build : String → Expr} (reads : literal? build children = some result)
    (here : ∀ text, (build text).Within inside) : result.Within inside := by
  unfold literal? at reads
  split at reads <;> cases reads
  exact here _

theorem within_ofExpression? (here : inside position)
    (first : ∀ leaf rest, label ∈ pointsAtName → children = some (.token leaf) :: rest →
      inside leaf.position)
    (below : ∀ child ∈ children, ChildWithin inside child)
    (reads : ofExpression? label position children = some result) : result.Within inside := by
  unfold ofExpression? at reads
  split at reads
  case h_1 | h_2 | h_3 | h_4 | h_5 => exact within_literal? reads fun _ => here
  case h_6 | h_7 | h_8 =>
    cases reads
    exact here
  case h_9 =>
    obtain ⟨ident, isIdent, rest⟩ := Option.bind_eq_some_iff.mp reads
    cases rest
    exact inside_of_ident? (by decide) first isIdent
  case h_10 =>
    obtain ⟨operator, -, rest⟩ := Option.bind_eq_some_iff.mp reads
    cases rest
    simp only [List.forall_mem_cons] at below
    exact ⟨here, below.1 _ rfl, below.2.2.1 _ rfl⟩
  case h_11 =>
    obtain ⟨operator, -, rest⟩ := Option.bind_eq_some_iff.mp reads
    cases rest
    simp only [List.forall_mem_cons] at below
    exact ⟨here, below.2.1 _ rfl⟩
  case h_12 | h_13 =>
    obtain ⟨operand, isOperand, rest⟩ := Option.bind_eq_some_iff.mp reads
    cases rest
    exact ⟨here, within_of_expression? isOperand (below _ (by simp))⟩
  case h_14 =>
    obtain ⟨base, isBase, rest⟩ := Option.bind_eq_some_iff.mp reads
    obtain ⟨index, isIndex, rest⟩ := Option.bind_eq_some_iff.mp rest
    cases rest
    exact ⟨here, within_of_expression? isBase (below _ (by simp)),
      within_of_expression? isIndex (below _ (by simp))⟩
  case h_15 =>
    obtain ⟨callee, isCallee, rest⟩ := Option.bind_eq_some_iff.mp reads
    obtain ⟨values, areValues, rest⟩ := Option.bind_eq_some_iff.mp rest
    cases rest
    exact ⟨inside_of_ident? (by decide) first isCallee,
      within_of_arguments? areValues (below _ (by simp))⟩
  case h_16 =>
    obtain ⟨values, areValues, rest⟩ := Option.bind_eq_some_iff.mp reads
    cases rest
    exact ⟨here, within_of_arguments? areValues (below _ (by simp))⟩
  case h_17 =>
    obtain ⟨body, isBody, rest⟩ := Option.bind_eq_some_iff.mp reads
    cases rest
    exact ⟨here, within_of_block? isBody (below _ (by simp))⟩
  case h_18 =>
    obtain ⟨values, areValues, rest⟩ := Option.bind_eq_some_iff.mp reads
    cases rest
    exact exprsWithin_iff.mpr (within_of_mapM (fun _ _ => within_of_expression?) areValues below)
  case h_19 => cases reads

theorem within_ofStatement? (here : inside position)
    (first : ∀ leaf rest, label ∈ pointsAtName → children = some (.token leaf) :: rest →
      inside leaf.position)
    (below : ∀ child ∈ children, ChildWithin inside child)
    (reads : ofStatement? label position children = some result) : result.Within inside := by
  unfold ofStatement? at reads
  split at reads
  case h_1 =>
    obtain ⟨body, isBody, rest⟩ := Option.bind_eq_some_iff.mp reads
    cases rest
    exact ⟨here, within_of_statement? isBody (below _ (by simp))⟩
  case h_2 =>
    obtain ⟨module, -, rest⟩ := Option.bind_eq_some_iff.mp reads
    obtain ⟨symbol, -, rest⟩ := Option.bind_eq_some_iff.mp rest
    cases rest
    exact here
  case h_3 =>
    obtain ⟨ident, -, rest⟩ := Option.bind_eq_some_iff.mp reads
    obtain ⟨declared, areDeclared, rest⟩ := Option.bind_eq_some_iff.mp rest
    obtain ⟨type, isType, rest⟩ := Option.bind_eq_some_iff.mp rest
    obtain ⟨body, isBody, rest⟩ := Option.bind_eq_some_iff.mp rest
    cases rest
    exact ⟨here, within_of_parameters? areDeclared (below _ (by simp)),
      within_of_optionalType? isType (below _ (by simp)),
      within_of_functionBody? isBody (below _ (by simp))⟩
  case h_4 =>
    obtain ⟨ident, -, rest⟩ := Option.bind_eq_some_iff.mp reads
    obtain ⟨type, isType, rest⟩ := Option.bind_eq_some_iff.mp rest
    cases rest
    simp only [List.forall_mem_cons] at below
    have conjured := below.2.2.1 _ rfl
    exact ⟨here, within_of_type? isType below.2.1, conjured.2⟩
  case h_5 =>
    obtain ⟨ident, -, rest⟩ := Option.bind_eq_some_iff.mp reads
    obtain ⟨type, isType, rest⟩ := Option.bind_eq_some_iff.mp rest
    obtain ⟨value, isValue, rest⟩ := Option.bind_eq_some_iff.mp rest
    cases rest
    exact ⟨here, within_of_optionalType? isType (below _ (by simp)),
      within_of_expression? isValue (below _ (by simp))⟩
  case h_6 =>
    obtain ⟨ident, isIdent, rest⟩ := Option.bind_eq_some_iff.mp reads
    obtain ⟨value, isValue, rest⟩ := Option.bind_eq_some_iff.mp rest
    cases rest
    exact ⟨here, inside_of_ident? (by decide) first isIdent,
      within_of_expression? isValue (below _ (by simp))⟩
  case h_7 | h_8 =>
    obtain ⟨ident, isIdent, rest⟩ := Option.bind_eq_some_iff.mp reads
    cases rest
    exact ⟨here, inside_of_ident? (by decide) first isIdent⟩
  case h_9 =>
    obtain ⟨condition, isCondition, rest⟩ := Option.bind_eq_some_iff.mp reads
    obtain ⟨consequent, isConsequent, rest⟩ := Option.bind_eq_some_iff.mp rest
    obtain ⟨alternative, isAlternative, rest⟩ := Option.bind_eq_some_iff.mp rest
    cases rest
    exact ⟨here, within_of_expression? isCondition (below _ (by simp)),
      within_of_block? isConsequent (below _ (by simp)),
      within_of_alternative? isAlternative (below _ (by simp))⟩
  case h_10 =>
    obtain ⟨condition, isCondition, rest⟩ := Option.bind_eq_some_iff.mp reads
    obtain ⟨body, isBody, rest⟩ := Option.bind_eq_some_iff.mp rest
    cases rest
    exact ⟨here, within_of_expression? isCondition (below _ (by simp)),
      within_of_block? isBody (below _ (by simp))⟩
  case h_11 | h_12 =>
    cases reads
    exact here
  case h_13 | h_14 =>
    obtain ⟨value, isValue, rest⟩ := Option.bind_eq_some_iff.mp reads
    cases rest
    exact ⟨here, within_of_expression? isValue (below _ (by simp))⟩
  case h_15 =>
    obtain ⟨callee, -, rest⟩ := Option.bind_eq_some_iff.mp reads
    obtain ⟨values, areValues, rest⟩ := Option.bind_eq_some_iff.mp rest
    cases rest
    exact ⟨here, within_of_arguments? areValues (below _ (by simp))⟩
  case h_16 =>
    cases reads
    have called := below _ List.mem_cons_self _ rfl
    exact ⟨here, called.2⟩
  case h_17 =>
    obtain ⟨body, isBody, rest⟩ := Option.bind_eq_some_iff.mp reads
    cases rest
    exact ⟨here, bodyWithin_iff.mpr (within_of_mapM (fun _ _ => within_of_statement?) isBody below)⟩
  case h_18 => cases reads

/-- What a node is read as points inside if the node stands inside, and what is below it does. -/
theorem within_ofNode? (here : label ≠ .start → inside position)
    (first : ∀ leaf rest, label ∈ pointsAtName → children = some (.token leaf) :: rest →
      inside leaf.position)
    (below : ∀ child ∈ children, ChildWithin inside child)
    (reads : ofNode? label position children = some result) : result.Within inside := by
  unfold ofNode? at reads
  split at reads
  case h_1 =>
    obtain ⟨body, isBody, rest⟩ := Option.bind_eq_some_iff.mp reads
    cases rest
    exact bodyWithin_iff.mpr (within_of_mapM (fun _ _ => within_of_statement?) isBody below)
  case h_2 =>
    split at reads
    · obtain ⟨ident, isIdent, rest⟩ := Option.bind_eq_some_iff.mp reads
      obtain ⟨type, isType, rest⟩ := Option.bind_eq_some_iff.mp rest
      cases rest
      exact ⟨inside_of_ident? (by decide) first isIdent,
        within_of_type? isType (below _ (by simp))⟩
    · cases reads
  case h_3 =>
    obtain ⟨declared, areDeclared, rest⟩ := Option.bind_eq_some_iff.mp reads
    cases rest
    exact within_of_mapM (fun _ _ => within_of_parameter?) areDeclared below
  case h_4 =>
    split at reads <;> cases reads
    trivial
  case h_5 =>
    split at reads
    · obtain ⟨value, isValue, rest⟩ := Option.bind_eq_some_iff.mp reads
      cases rest
      exact ⟨here (by decide), within_of_expression? isValue (below _ (by simp))⟩
    · cases reads
  case h_6 | h_7 | h_8 | h_9 | h_10 => exact within_ofType? (here (by decide)) first below reads
  all_goals first
    | exact within_ofExpression? (here (by decide)) first below reads
    | exact within_ofStatement? (here (by decide)) first below reads

end

end Assemble

end Surface

end GlyphCompiler
