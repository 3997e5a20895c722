/-
# Operands of accepted programs

An operand of an accepted program has the type that its form and its own operands
give it: only the argument of a call can have another one, that of the parameter
that it is passed to. A whole number of an accepted program has no more digits than
can be written.
-/

import GlyphCompiler.Proofs.Analysis.Scoping

namespace GlyphCompiler

/-- The type that an expression gets from its form and from its operands. -/
def Expr.ownType : Expr → Ty
  | .bool _ _ => .bool
  | .reference use => use.target.type
  | .binary info operator _ _ => if operator.isArithmetic then info.type else .bool
  | .unary info operator _ => if operator = .not then .bool else info.type
  | .addressOf _ operand => .pointer operand.target.type
  | .dereference info operand => operand.type.target?.getD info.type
  | expression => expression.type

/-- An expression has the type that it gets from its form, and so has a variable whose
address it takes. -/
def Expr.OwnTyped (expression : Expr) : Prop :=
  expression.type = expression.ownType ∧
    match expression with
    | .addressOf _ operand => operand.info.type = operand.target.type
    | _ => True

/-- The expressions directly below a node, those aside that are passed to a function. -/
def Node.operands : Node → List Expr
  | .expr (.call _ callee _) => [callee.toExpr]
  | node => node.children.filterMap Node.expr?

/-- Is a node neither a number nor a call? -/
def Node.isOrdinary : Node → Bool
  | .expr (.number _ _) | .expr (.call _ _ _) => false
  | _ => true

/-- A whole number can be written. -/
def Node.Short : Node → Prop
  | .expr (.number _ (.int value)) => value.natAbs < Nat.pow 10 Number.digitLimit
  | _ => True

namespace Node

variable {node : Node}

/-- Every expression below a node that is no call is an operand of it. -/
theorem operands_of_isOrdinary (ordinary : node.isOrdinary = true) :
    node.operands = node.children.filterMap Node.expr? := by
  cases node with
  | expr expression =>
    cases expression with
    | call info callee arguments => cases ordinary
    | _ => rfl
  | stmt statement => rfl

theorem short_of_isOrdinary (ordinary : node.isOrdinary = true) : node.Short := by
  cases node with
  | expr expression =>
    cases expression with
    | number info value => cases ordinary
    | _ => trivial
  | stmt statement => trivial

/-- An operand stands directly below its node. -/
theorem mem_children_of_mem_operands {operand : Expr} (member : operand ∈ node.operands) :
    .expr operand ∈ node.children := by
  have listed (listed : operand ∈ node.children.filterMap Node.expr?) :
      .expr operand ∈ node.children := by
    obtain ⟨child, isChild, same⟩ := List.mem_filterMap.mp listed
    cases child with
    | expr expression =>
      cases same
      exact isChild
    | stmt statement => cases same
  cases node with
  | expr expression =>
    cases expression with
    | call info callee arguments =>
      rw [List.mem_singleton.mp member]
      exact List.mem_cons_self
    | _ => exact listed member
  | stmt statement => exact listed member

end Node

namespace Analysis

/-- What holds of each node of an accepted program whatever it is used for. -/
structure Regular (node : Node) : Prop where
  own : ∀ operand ∈ node.operands, operand.OwnTyped
  short : node.Short

/-- What stands below a node is regular everywhere, and is an operand if it is an
expression. -/
structure RegularPart (child : Node) : Prop where
  all : child.All Regular
  own : ∀ expression ∈ child.expr?, expression.OwnTyped

section

variable {final before after : State} {scopes : Scopes}

theorem type_settle_of_ne_any (value : Expr) (notAny : value.type ≠ .any) :
    (settle final value).type = value.type := by
  cases calls : value.directCall? with
  | none => exact type_settle final value calls
  | some function => rw [type_settle_of_directCall calls, if_neg notAny]

/-- A node is regular everywhere if what stands below it is. -/
theorem all_of_children {node : Node} (ordinary : node.isOrdinary = true)
    (children : ∀ child ∈ node.children, RegularPart child) : node.All Regular := by
  refine Node.all_iff.mpr ⟨⟨fun operand member => ?_, Node.short_of_isOrdinary ordinary⟩,
    fun child member => (children child member).all⟩
  have isChild := Node.mem_children_of_mem_operands member
  exact (children _ isChild).own operand (by simp)

theorem RegularPart.ofStmt {statement : Stmt} (all : (Node.stmt statement).All Regular) :
    RegularPart (.stmt statement) :=
  ⟨all, by simp⟩

theorem RegularPart.ofExpr {value : Expr} (all : (Node.expr value).All Regular)
    (own : value.OwnTyped) : RegularPart (.expr value) :=
  ⟨all, by simpa using own⟩

/-- An expression in the place of an operand has the type of its form. -/
theorem RegularPart.ownTyped {value : Expr} (regular : RegularPart (.expr value)) :
    value.OwnTyped :=
  regular.own value (by simp)

/-- The statements of a body are regular everywhere. -/
def RegularBody (final : State) (body : List Stmt) : Prop :=
  ∀ statement ∈ body, (Node.stmt (settleStmt final statement)).All Regular

theorem RegularBody.children {body : List Stmt} (regular : RegularBody final body) :
    ∀ child ∈ (settleBody final body).map Node.stmt, RegularPart child := by
  rw [settleBody_eq_map]
  simpa using fun statement member => RegularPart.ofStmt (regular statement member)

/-- An expression whose parts are operands is one itself, unless it is a number or a call. -/
theorem RegularPart.ofParts {value : Expr} (parts : List Expr)
    (children : value.children = parts.map fun part => .expr (settle final part))
    (ordinary : (Node.expr value).isOrdinary = true) (own : value.OwnTyped)
    (regular : ∀ part ∈ parts, RegularPart (.expr (settle final part))) :
    RegularPart (.expr value) := by
  refine .ofExpr (all_of_children ordinary ?_) own
  rw [Node.children, children]
  simpa using regular

/-- An expression without parts is an operand, unless it is a number or a call. -/
theorem RegularPart.leaf {value : Expr} (children : value.children = [])
    (ordinary : (Node.expr value).isOrdinary = true) (own : value.OwnTyped) :
    RegularPart (.expr value) :=
  @RegularPart.ofParts .initial value [] children ordinary own (by simp)

/-- A number is an operand if it can be written. -/
theorem RegularPart.number {info : Info} {value : Number}
    (short : (Node.expr (.number info value)).Short) : RegularPart (.expr (.number info value)) :=
  .ofExpr (Node.all_iff.mpr
    ⟨⟨by simp [Node.operands, Node.children, Expr.children], short⟩,
      by simp [Node.children, Expr.children]⟩) ⟨rfl, trivial⟩

theorem operands_withType (type : Ty) (value : Expr) :
    (Node.expr (value.withType type)).operands = (Node.expr value).operands := by
  cases value <;> rfl

theorem short_withType (type : Ty) (value : Expr) :
    (Node.expr (value.withType type)).Short ↔ (Node.expr value).Short := by
  cases value with
  | number info value => cases value <;> exact Iff.rfl
  | _ => exact Iff.rfl

/-- A node stays regular when it gets another type. -/
theorem all_regular_withType {value : Expr} (type : Ty) (all : (Node.expr value).All Regular) :
    (Node.expr (value.withType type)).All Regular := by
  obtain ⟨root, below⟩ := Node.all_iff.mp all
  refine Node.all_iff.mpr ⟨⟨?_, (short_withType type value).mpr root.short⟩, ?_⟩
  · rw [operands_withType]
    exact root.own
  · simpa [Node.children] using below

theorem regular_of_isLiteral {literal : Expr} (isLiteral : IsLiteral literal) :
    RegularPart (.expr (settle final literal)) := by
  cases isLiteral with
  | integer position value short => exact .number short
  | decimal position value => exact .number trivial
  | bool _ _ => exact .leaf rfl rfl ⟨rfl, trivial⟩
  | string _ _ => exact .leaf rfl rfl ⟨rfl, trivial⟩
  | glyph _ _ => exact .leaf rfl rfl ⟨rfl, trivial⟩
  | codepoint _ _ => exact .leaf rfl rfl ⟨rfl, trivial⟩
  | null _ => exact .leaf rfl rfl ⟨rfl, trivial⟩

theorem regular_callee (callee : Callee) (own : callee.toExpr.OwnTyped) :
    RegularPart (.expr callee.toExpr) := by
  cases callee with
  | function info target => exact .leaf rfl rfl own
  | reference use => exact .leaf rfl rfl own

/-- A call is regular if its arguments are. It has the type that is noted of it. -/
theorem regular_call {info : Info} {callee : Callee} {arguments : List Expr}
    (own : callee.toExpr.OwnTyped)
    (regular : ∀ argument ∈ arguments, (Node.expr (settle final argument)).All Regular) :
    RegularPart (.expr (settle final (.call info callee arguments))) := by
  have called : RegularPart (.expr (final.settleCallee callee).toExpr) := by
    refine regular_callee _ ?_
    cases callee with
    | function note target => exact ⟨rfl, trivial⟩
    | reference use => exact own
  refine .ofExpr (Node.all_iff.mpr ⟨⟨?_, trivial⟩, ?_⟩) ⟨rfl, trivial⟩
  · intro operand member
    rw [List.mem_singleton.mp member]
    exact called.ownTyped
  · intro child member
    rw [settle, settleAll_eq_map, Node.children, Expr.children] at member
    obtain rfl | member := List.mem_cons.mp member
    · exact called.all
    · rw [List.map_map] at member
      obtain ⟨argument, isArgument, rfl⟩ := List.mem_map.mp member
      exact regular argument isArgument

/-- The type of an operator's result is that of its form. -/
theorem ownTyped_binary (operator : BinaryOperator) (left right : Ty) (position : Position)
    (first second : Expr) :
    (Expr.binary ⟨resultType operator left right, position⟩ operator first second).OwnTyped := by
  refine ⟨?_, trivial⟩
  cases operator <;> rfl

theorem ownTyped_unary (operator : UnaryOperator) (type : Ty) (position : Position)
    (operand : Expr) : (Expr.unary ⟨unaryType operator type, position⟩ operator operand).OwnTyped := by
  refine ⟨?_, trivial⟩
  cases operator <;> rfl

/-- What a call comes to has the type that is noted of it. -/
theorem AnalyzesCall.own_withType {position : Position} {callee : Surface.Ident}
    {written : List Surface.Expr} {value : Expr}
    (analyzes : AnalyzesCall scopes position callee written before (.expression value) after)
    (type : Ty) : ((settle final value).withType type).OwnTyped := by
  cases analyzes <;> exact ⟨rfl, trivial⟩

/-- A statement is regular if what stands below it is. -/
theorem regularBody_singleton {statement : Stmt}
    (children : ∀ child ∈ (settleStmt final statement).children, RegularPart child) :
    RegularBody final [statement] := by
  intro other member
  rw [List.mem_singleton.mp member]
  exact all_of_children rfl children

/-- A statement that holds one value is regular if the value is an operand. -/
theorem regularBody_of_value {statement : Stmt} {value : Expr}
    (children : (settleStmt final statement).children = [.expr value])
    (regular : RegularPart (.expr value)) : RegularBody final [statement] := by
  refine regularBody_singleton ?_
  rw [children]
  simpa using regular

mutual

theorem AnalyzesExpr.regular {scopes : Scopes} {written : Surface.Expr} {before after : State}
    {value : Expr} :
    AnalyzesExpr scopes written before value after → RegularPart (.expr (settle final value))
  | .literal isLiteral => regular_of_isLiteral isLiteral
  | .reference _ => .leaf rfl rfl ⟨rfl, trivial⟩
  | .function _ => .leaf rfl rfl ⟨rfl, trivial⟩
  | .binary left right =>
    .ofParts [_, _] rfl rfl (ownTyped_binary ..) (by simpa using ⟨left.regular, right.regular⟩)
  | .unary analyzes =>
    .ofParts [_] rfl rfl (ownTyped_unary ..) (by simpa using analyzes.regular)
  | @AnalyzesExpr.addressOf _ _ ident _ target _ =>
    @RegularPart.ofParts final _ [.reference ⟨⟨target.type, ident.position⟩, target⟩] rfl rfl
      ⟨rfl, rfl⟩ (by simpa using .leaf rfl rfl ⟨rfl, trivial⟩)
  | .dereference analyzes pointer => by
    refine .ofParts [_] rfl rfl ⟨?_, trivial⟩ (by simpa using analyzes.regular)
    have notAny : _ ≠ Ty.any := ne_of_eq_of_ne pointer (by simp)
    rw [settle, Expr.ownType, type_settle_of_ne_any _ notAny, pointer]
    rfl
  | .subscript base index _ _ =>
    .ofParts [_, _] rfl rfl ⟨rfl, trivial⟩ (by simpa using ⟨base.regular, index.regular⟩)
  | .call analyzes => analyzes.regular
  | .array analyzes _ => by
    refine .ofParts _ ?_ rfl ⟨rfl, trivial⟩ fun part member => (analyzes.regular part member).2 rfl
    rw [settle, settleAll_eq_map, Expr.children, List.map_map]
    rfl
  | .conjure analyzes _ => .ofExpr (all_of_children rfl analyzes.regular.children) ⟨rfl, trivial⟩

theorem AnalyzesValue.regular {scopes : Scopes} {written : Surface.Expr} {before after : State}
    {value : Expr} :
    AnalyzesValue scopes written before value after → RegularPart (.expr (settle final value))
  | .value analyzes _ => analyzes.regular

theorem AnalyzesExprs.regular {scopes : Scopes} {passing : Passing} {written : List Surface.Expr}
    {before after : State} {arguments : List Expr} :
    AnalyzesExprs scopes passing written before arguments after →
      ∀ argument ∈ arguments, (Node.expr (settle final argument)).All Regular ∧
        (passing = .values → RegularPart (.expr (settle final argument)))
  | .nil => by simp
  | @AnalyzesExprs.into _ parameter _ _ _ _ _ _ argument _ analyzes _ rest => by
    have first := analyzes.regular
    have others := rest.regular
    refine List.forall_mem_cons.mpr ⟨⟨?_, by simp⟩, fun other member =>
      ⟨(others other member).1, by simp⟩⟩
    split
    · exact first.all
    · next notAny =>
      rw [settle_withType notAny]
      exact all_regular_withType parameter first.all
  | .value analyzes rest => by
    have first := analyzes.regular
    exact List.forall_mem_cons.mpr ⟨⟨first.all, fun _ => first⟩, rest.regular⟩
  | .plain analyzes rest =>
    List.forall_mem_cons.mpr ⟨⟨analyzes.regular.all, by simp⟩, rest.regular⟩

theorem AnalyzesCall.regular {scopes : Scopes} {position : Position} {callee : Surface.Ident}
    {written : List Surface.Expr} {before after : State} {outcome : Outcome} :
    AnalyzesCall scopes position callee written before outcome after →
      RegularPart (.expr (settle final outcome.value))
  | .function _ _ analyzes =>
    regular_call ⟨rfl, trivial⟩ fun argument member => (analyzes.regular argument member).1
  | .reference _ _ _ analyzes =>
    regular_call ⟨rfl, trivial⟩ fun argument member => (analyzes.regular argument member).1
  | .typeOf _ => .leaf rfl rfl ⟨rfl, trivial⟩
  | .printed analyzes => (analyzes.regular _ List.mem_cons_self).2 rfl
  | .apply analyzes =>
    .ofParts [_, _] rfl rfl ⟨rfl, trivial⟩ fun part member => (analyzes.regular part member).2 rfl
  | .supplant analyzes =>
    .ofParts [_, _, _] rfl rfl ⟨rfl, trivial⟩ fun part member => (analyzes.regular part member).2 rfl

theorem AnalyzesStmt.regular {region next : Region} {written : Surface.Stmt} {before after : State}
    {statement : Stmt} :
    AnalyzesStmt region written before statement next after → RegularBody final [statement]
  | .mainBlock _ body => regularBody_singleton body.regular.children
  | .mainStatement _ _ inner => regularBody_singleton inner.regular.children
  | .affix _ | .step _ _ | .breakLoop _ | .returnVoid _ =>
    regularBody_singleton (by simp [settleStmt, Stmt.children])
  | .function _ _ _ _ body _ => regularBody_singleton body.regular.children
  | .conjureBinding body _ => regularBody_singleton body.regular.children
  | .declare value _ _ _ _ _ | .declareInferred value _ _ _ _ _ | .assign _ _ value _
  | .returnFirst _ value _ | .returnAgain _ value _ _ _ | .exscribe value =>
    regularBody_of_value rfl value.regular
  | .branch condition _ consequent alternative =>
    regularBody_singleton <| List.forall_mem_cons.mpr ⟨condition.regular,
      List.forall_mem_append.mpr ⟨consequent.regular.children, alternative.regular.children⟩⟩
  | .loop condition _ body =>
    regularBody_singleton <| List.forall_mem_cons.mpr ⟨condition.regular, body.regular.children⟩
  | .evaluate call =>
    regularBody_of_value rfl (.ofExpr (all_regular_withType _ call.regular.all) (call.own_withType _))
  | .printed call => regularBody_of_value rfl call.regular
  | .block body => regularBody_singleton body.regular.children

theorem AnalyzesStmts.regular {region : Region} {written : List Surface.Stmt}
    {before after : State} {body : List Stmt} :
    AnalyzesStmts region written before body after → RegularBody final body
  | .nil => by simp [RegularBody]
  | .cons first rest =>
    List.forall_mem_cons.mpr ⟨first.regular _ List.mem_cons_self, rest.regular⟩

theorem AnalyzesBody.regular {scopes : Scopes} {written : List Surface.Stmt}
    {before after : State} {body : List Stmt} :
    AnalyzesBody scopes written before body after → RegularBody final body
  | .body _ analyzes => analyzes.regular

end

end

/-- Every node of an accepted program is regular. -/
theorem regular_of_analyze {source : String} {program : Program}
    (accepted : analyze source = .ok program) : ∀ node ∈ walkStmts program.body, Regular node := by
  obtain ⟨written, body, final, -, analyzes, -, isBody⟩ := exists_analyzesBody accepted
  intro node member
  rw [isBody] at member
  obtain ⟨statement, isStatement, below⟩ := mem_walkStmts.mp member
  rw [settleBody_eq_map] at isStatement
  obtain ⟨raw, isRaw, rfl⟩ := List.mem_map.mp isStatement
  exact analyzes.regular raw isRaw node below

end Analysis

end GlyphCompiler
