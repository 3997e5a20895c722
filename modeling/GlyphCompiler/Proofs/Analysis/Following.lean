/-
# The rules of analysis with a past

Each rule, given parts under higher numbers, does what it does with the parts as they
are: it rejects the same, and what it gives has the higher numbers.
-/

import GlyphCompiler.Proofs.Analysis.Past

namespace GlyphCompiler

namespace Analysis

namespace Past

variable {past : Past}

/-! ## Values and conversion -/

theorem follows_useValue (expression : Expr) :
    past.Follows (Expr.renumber past.number) (useValue expression)
      (useValue (expression.renumber past.number)) := by
  unfold useValue
  simp only [Expr.type_renumber, Expr.position_renumber]
  have last : past.Follows (Expr.renumber past.number)
      (if expression.type = .void then do
        reject .voidValue expression.position
        return expression
      else return expression)
      (if expression.type = .void then do
        reject .voidValue expression.position
        return expression.renumber past.number
      else return expression.renumber past.number) :=
    .ite .rejecting (.pure rfl)
  cases expression with
  | call info callee arguments =>
    cases callee with
    | function note function =>
      exact (Follows.isPending function).bind fun pending =>
        .ite ((Follows.defer info.position function none).bind fun _ => last) last
    | reference use => exact last
  | _ => exact last

theorem follows_checkConvert (value : Expr) (target : Ty) (position : Position) :
    past.Follows id (checkConvert value target position)
      (checkConvert (value.renumber past.number) target position) := by
  unfold checkConvert
  simp only [Expr.type_renumber, Expr.staticValue_renumber]
  have last : past.Follows id
      (do
        let known ← orFault value.staticValue
        unless value.type.canConvert target known do
          reject (.cannotConvert value.type target) position)
      (do
        let known ← orFault value.staticValue
        unless value.type.canConvert target known do
          reject (.cannotConvert value.type target) position) :=
    (Follows.orFault _).bind fun known => .ite (.pure rfl) (.reject _ _)
  cases value with
  | function info function =>
    exact (Follows.isPending function).bind fun pending =>
      .ite ((Follows.defer info.position function (some target)).bind fun _ => last) last
  | _ => exact last

theorem follows_checkCondition (condition : Expr) :
    past.Follows (Expr.renumber past.number) (checkCondition condition)
      (checkCondition (condition.renumber past.number)) := by
  unfold checkCondition
  simp only [Expr.type_renumber, Expr.position_renumber]
  exact .ite (.pure rfl) .rejecting

/-! ## Literals and names -/

theorem follows_integerLiteral (position : Position) (text : String) :
    past.Follows (Expr.renumber past.number) (integerLiteral position text)
      (integerLiteral position text) :=
  .ite .throwing (.pure rfl)

theorem follows_codepointLiteral (position : Position) (text : String) :
    past.Follows (Expr.renumber past.number) (codepointLiteral position text)
      (codepointLiteral position text) :=
  .ite .rejecting (.pure rfl)

theorem renumber_quotedLiteral (position : Position) (text : String) :
    quotedLiteral position text = (quotedLiteral position text).renumber past.number := by
  unfold quotedLiteral
  split <;> rfl

theorem follows_lookup (scopes : Scopes) (name : String) (position : Position) :
    past.Follows (Entity.renumber past.number) (lookup scopes name position)
      (lookup (Scopes.renumber past.number scopes) name position) := by
  unfold lookup
  rw [lookup_scopes]
  cases scopes.lookup name with
  | some entity => exact .pure rfl
  | none => exact .reject _ _

theorem follows_reference (scopes : Scopes) (ident : Surface.Ident) :
    past.Follows (Expr.renumber past.number) (reference scopes ident)
      (reference (Scopes.renumber past.number scopes) ident) := by
  refine (follows_lookup scopes ident.name ident.position).bind fun entity => ?_
  cases entity with
  | value target => exact .pure rfl
  | function function =>
    refine (Follows.current function).bind fun known => .pure ?_
    simp [Expr.renumber]
  | library symbol => exact .reject _ _

theorem follows_assignable (scopes : Scopes) (ident : Surface.Ident) :
    past.Follows (Variable.renumber past.number) (assignable scopes ident)
      (assignable (Scopes.renumber past.number scopes) ident) := by
  refine (follows_lookup scopes ident.name ident.position).bind fun entity => ?_
  cases entity with
  | value target => exact .ite (.pure rfl) .rejecting
  | function function => exact .reject _ _
  | library symbol => exact .reject _ _

/-! ## Operators -/

theorem follows_binary (position : Position) (operator : BinaryOperator) (left right : Expr) :
    past.Follows (Expr.renumber past.number) (binary position operator left right)
      (binary position operator (left.renumber past.number) (right.renumber past.number)) := by
  unfold binary
  simp only [Expr.type_renumber, Expr.staticValue_renumber]
  refine (Follows.orFault _).bind fun leftValue => (Follows.orFault _).bind fun rightValue => ?_
  have last : ∀ accepted result, past.Follows (Expr.renumber past.number)
      (if accepted = true then return .binary ⟨result, position⟩ operator left right
      else do
        reject (.cannotCombine operator left.type right.type) position
        return .binary ⟨result, position⟩ operator left right)
      (if accepted = true then
        return .binary ⟨result, position⟩ operator (left.renumber past.number)
          (right.renumber past.number)
      else do
        reject (.cannotCombine operator left.type right.type) position
        return .binary ⟨result, position⟩ operator (left.renumber past.number)
          (right.renumber past.number)) :=
    fun accepted result => .ite (.pure rfl) .rejecting
  exact .ite (.ite .rejecting (last _ _)) (last _ _)

theorem follows_unary (position : Position) (operator : UnaryOperator) (operand : Expr) :
    past.Follows (Expr.renumber past.number) (unary position operator operand)
      (unary position operator (operand.renumber past.number)) := by
  unfold unary
  simp only [Expr.type_renumber]
  cases operator <;> exact .ite (.pure rfl) .rejecting

theorem follows_addressOf (scopes : Scopes) (position : Position) (operand : Surface.Expr) :
    past.Follows (Expr.renumber past.number) (addressOf scopes position operand)
      (addressOf (Scopes.renumber past.number scopes) position operand) := by
  cases operand with
  | name ident =>
    refine (follows_reference scopes ident).bind fun named => ?_
    cases named with
    | reference use => exact .pure rfl
    | _ => exact .reject _ _
  | _ => exact .reject _ _

theorem follows_dereference (position : Position) (operand : Expr) :
    past.Follows (Expr.renumber past.number) (dereference position operand)
      (dereference position (operand.renumber past.number)) := by
  unfold dereference
  rw [Expr.type_renumber]
  cases operand.type with
  | pointer target => exact .pure rfl
  | _ => exact .reject _ _

/-! ## Arrays -/

theorem follows_subscript (position : Position) (base index : Expr) :
    past.Follows (Expr.renumber past.number) (subscript position base index)
      (subscript position (base.renumber past.number) (index.renumber past.number)) := by
  unfold subscript
  simp only [Expr.type_renumber, Expr.staticValue_renumber]
  cases base.type with
  | array element =>
    have last : past.Follows (Expr.renumber past.number)
        (return .subscript ⟨element, position⟩ base index)
        (return .subscript ⟨element, position⟩ (base.renumber past.number)
          (index.renumber past.number)) := .pure rfl
    refine .ite ((Follows.orFault _).bind fun known => ?_) .rejecting
    cases known with
    | number place =>
      refine .ite ((Follows.orFault _).bind fun text => .rejecting) ?_
      refine Follows.get.bind fun state => ?_
      rw [past.extent_around]
      refine (Follows.orFault _).bind fun length => ?_
      cases length with
      | some length =>
        exact .ite ((Follows.orFault _).bind fun text => .rejecting) last
      | none => exact last
    | _ => exact last
  | _ => exact .reject _ _

theorem follows_array (position : Position) (elements : List Expr) :
    past.Follows (Expr.renumber past.number) (array position elements)
      (array position (elements.map (Expr.renumber past.number))) := by
  cases elements with
  | nil => exact .pure rfl
  | cons first rest =>
    rw [List.map_cons, array, array]
    simp only [Expr.type_renumber]
    refine Follows.bind (Follows.forIn fun element => ?_) fun _ => .pure ?_
    · rw [Expr.type_renumber, Expr.position_renumber]
      exact .ite (.pure rfl) .rejecting
    · rw [Expr.renumber, renumberExprs, renumberExprs_eq_map]

/-! ## Calls -/

theorem follows_checkArity (name : String) (expected actual : Nat) (position : Position) :
    past.Follows id (checkArity name expected actual position)
      (checkArity name expected actual position) :=
  .ite (.pure rfl) (.reject _ _)

theorem follows_findCalled (scopes : Scopes) (position : Position) (callee : Surface.Ident)
    (count : Nat) :
    past.Follows (Called.renumber past.number) (findCalled scopes position callee count)
      (findCalled (Scopes.renumber past.number scopes) position callee count) := by
  refine (follows_lookup scopes callee.name position).bind fun entity => ?_
  cases entity with
  | library symbol => exact (follows_checkArity _ _ _ _).bind fun _ => .pure rfl
  | function function =>
    refine (Follows.current function).bind fun known => ?_
    simp only [Function.length_parameters_renumber, Function.types_renumber,
      Function.type_renumber, Function.result_renumber]
    exact (follows_checkArity _ _ _ _).bind fun _ => .pure rfl
  | value target =>
    simp only [Entity.renumber, Variable.type_renumber]
    cases target.type with
    | function parameters result => exact (follows_checkArity _ _ _ _).bind fun _ => .pure rfl
    | _ => exact .reject _ _

theorem follows_pass (passing : Passing) (argument : Expr) :
    past.Follows (Expr.renumber past.number) (pass passing argument)
      (pass passing (argument.renumber past.number)) := by
  cases passing with
  | into parameters =>
    cases parameters with
    | nil => exact .throw _
    | cons parameter parameters =>
      refine (follows_useValue argument).bind fun value => ?_
      rw [Expr.position_renumber]
      refine (follows_checkConvert value parameter value.position).bind fun _ => .pure ?_
      split
      · rfl
      · rw [Expr.renumber_withType]
  | values => exact follows_useValue argument
  | plain => exact .pure rfl

theorem follows_apply (position : Position) (mapping items : Expr) :
    past.Follows (Expr.renumber past.number) (apply position mapping items)
      (apply position (mapping.renumber past.number) (items.renumber past.number)) := by
  unfold apply
  simp only [Expr.type_renumber]
  split
  · split
    · exact .pure rfl
    · exact .ite (.pure rfl) .rejecting
    · exact .reject _ _
  · exact .reject _ _

theorem follows_supplant (position : Position) (text pattern replacement : Expr) :
    past.Follows (Expr.renumber past.number) (supplant position text pattern replacement)
      (supplant position (text.renumber past.number) (pattern.renumber past.number)
        (replacement.renumber past.number)) := by
  refine Follows.bind (Follows.forIn fun part => ?_) fun _ => .pure rfl
  rw [Expr.type_renumber, Expr.position_renumber]
  exact .ite (.pure rfl) .rejecting

theorem follows_callLibrary (position : Position) (symbol : LibraryFunction)
    (arguments : List Expr) :
    past.Follows (Outcome.renumber past.number) (callLibrary position symbol arguments)
      (callLibrary position symbol (arguments.map (Expr.renumber past.number))) := by
  unfold callLibrary
  cases symbol.intrinsic <;>
    rcases arguments with _ | ⟨first, _ | ⟨second, _ | ⟨third, _ | ⟨fourth, rest⟩⟩⟩⟩
  all_goals first
    | exact .throw _
    | exact .pure rfl
    | exact (follows_apply position first second).bind fun _ => .pure rfl
    | exact (follows_supplant position first second third).bind fun _ => .pure rfl

theorem follows_describedCallee (scopes : Scopes) (callee : Surface.Ident) :
    past.Follows id (describedCallee scopes callee)
      (describedCallee (Scopes.renumber past.number scopes) callee) := by
  refine (follows_lookup scopes callee.name callee.position).bind fun entity => ?_
  cases entity with
  | function function =>
    refine (Follows.current function).bind fun known => .pure ?_
    rw [Function.type_renumber, id]
  | library symbol => exact .pure rfl
  | value target => exact .ite (.pure rfl) .rejecting

theorem follows_call (scopes : Scopes) (position : Position) (callee : Surface.Ident) (count : Nat)
    {described describedMoved : Analyzer Ty}
    {arguments argumentsMoved : Passing → Analyzer (List Expr)}
    (describes : past.Follows id described describedMoved)
    (passes : ∀ passing, past.Follows (List.map (Expr.renumber past.number)) (arguments passing)
      (argumentsMoved passing)) :
    past.Follows (Outcome.renumber past.number)
      (call scopes position callee count described arguments)
      (call (Scopes.renumber past.number scopes) position callee count describedMoved
        argumentsMoved) := by
  refine (follows_findCalled scopes position callee count).bind fun called => ?_
  cases called with
  | callee target parameters result =>
    refine (passes (.into parameters)).bind fun arguments => .pure ?_
    rw [Outcome.renumber, Expr.renumber, renumberExprs_eq_map]
  | library symbol =>
    simp only [Called.renumber]
    split
    · exact describes.bind fun _ => .pure rfl
    · exact (passes .values).bind fun arguments => follows_callLibrary position symbol arguments

/-! ## Functions -/

theorem follows_declare (scopes : Scopes) (cause : String → Cause) (name : String)
    (entity : Entity) (position : Position) :
    past.Follows (Scopes.renumber past.number)
      (orReject (scopes.declare cause name entity position))
      (orReject (GlyphCompiler.Scopes.declare (Scopes.renumber past.number scopes) cause name
        (entity.renumber past.number) position)) := by
  rw [declare_scopes]
  exact .orReject_map _

theorem follows_parameters (written : List Surface.Parameter) :
    past.Follows (List.map (Variable.renumber past.number)) (parameters written)
      (parameters written) := by
  induction written with
  | nil => exact .pure rfl
  | cons parameter written ih =>
    exact (Follows.orReject _).bind fun type => Follows.freshId.bind fun id =>
      ih.bind fun rest => .pure rfl

/-- What a statement declares, under other numbers. -/
def renumberDeclared (change : Nat → Nat) :
    Option (Position × Function) → Option (Position × Function) :=
  Option.map fun declared => (declared.1, declared.2.renumber change)

theorem follows_declared (statement : Surface.Stmt) :
    past.Follows (renumberDeclared past.number) (declared statement) (declared statement) := by
  cases statement with
  | function position name written result body =>
    have resolved : past.Follows id (result.mapM fun type => orReject type.resolve)
        (result.mapM fun type => orReject type.resolve) := by
      cases result with
      | none => exact .pure rfl
      | some type =>
        intro state
        show (some <$> orReject type.resolve : Analyzer (Option Ty)).run _ =
          past.outcome id ((some <$> orReject type.resolve : Analyzer (Option Ty)).run state)
        cases type.resolve <;> rfl
    exact (follows_parameters written).bind fun targets => resolved.bind fun type =>
      Follows.freshId.bind fun id => .pure rfl
  | conjureBinding position name type body =>
    refine (Follows.orReject type.resolve).bind fun type => ?_
    have last : ∀ result, past.Follows (renumberDeclared past.number)
        (do return some (position, ⟨← freshId, name, [], result, false⟩))
        (do return some (position, ⟨← freshId, name, [], result, false⟩)) :=
      fun result => Follows.freshId.bind fun id => .pure rfl
    cases type with
    | function parameters result =>
      cases parameters with
      | nil => exact last result
      | cons parameter parameters => exact .rejecting
    | _ => exact last _
  | _ => exact .pure rfl

theorem follows_declareAhead (region : Region) (body : List Surface.Stmt) :
    past.Follows (Region.renumber past.number) (declareAhead region body)
      (declareAhead (region.renumber past.number) body) := by
  induction body generalizing region with
  | nil => exact .pure rfl
  | cons statement body ih =>
    refine (follows_declared statement).bind fun found => ?_
    cases found with
    | none => exact ih region
    | some found =>
      obtain ⟨position, function⟩ := found
      refine (follows_declare region.scopes .alreadyDeclared function.name (.function function)
        position).bind fun scopes => ?_
      have next := ih ⟨scopes, region.ahead ++ [function]⟩
      simp only [Region.renumber, List.map_append] at next
      exact next

theorem follows_enter (scopes : Scopes) (body : List Surface.Stmt) :
    past.Follows (Region.renumber past.number) (enter scopes body)
      (enter (Scopes.renumber past.number scopes) body) :=
  follows_declareAhead ⟨scopes, []⟩ body

theorem follows_declareParameters (scopes : Scopes) (written : List Surface.Parameter)
    (targets : List Variable) :
    past.Follows (Scopes.renumber past.number)
      (declareParameters scopes (written.zip targets))
      (declareParameters (Scopes.renumber past.number scopes)
        (written.zip (targets.map (Variable.renumber past.number)))) := by
  induction written generalizing scopes targets with
  | nil => exact .pure rfl
  | cons parameter written ih =>
    cases targets with
    | nil => exact .pure rfl
    | cons target targets =>
      exact (follows_declare scopes .alreadyDeclared target.name (.value target)
        parameter.ident.position).bind fun scopes => ih scopes targets

theorem follows_finishFunction (function : Function) (returns : Bool) (position : Position) :
    past.Follows id (finishFunction function returns position)
      (finishFunction (function.renumber past.number) returns position) :=
  .ite ((Follows.isPending function).bind fun _ =>
    .ite (.fixResult function .void) (.pure rfl)) (.ite (.pure rfl) (.reject _ _))

theorem follows_returningFunction (scopes : Scopes) (position : Position) :
    past.Follows (Function.renumber past.number) (returningFunction scopes position)
      (returningFunction (Scopes.renumber past.number scopes) position) := by
  unfold returningFunction
  rw [innermost_scopes]
  simp only [Scope.renumber]
  cases scopes.innermost.owner with
  | some function => exact .pure rfl
  | none => exact .reject _ _

theorem follows_returnVoid (scopes : Scopes) (position : Position) :
    past.Follows (Stmt.renumber past.number) (returnVoid scopes position)
      (returnVoid (Scopes.renumber past.number scopes) position) := by
  refine (follows_returningFunction scopes position).bind fun function =>
    (Follows.isPending function).bind fun pending => .ite ?_ ?_
  · exact (Follows.fixResult function .void).bind fun _ => .pure rfl
  · exact (Follows.current function).bind fun known => .ite (.pure rfl) .rejecting

theorem follows_returnValue (function : Function) (position : Position) (value : Expr) :
    past.Follows (Stmt.renumber past.number) (returnValue function position value)
      (returnValue (function.renumber past.number) position (value.renumber past.number)) := by
  unfold returnValue
  simp only [Expr.type_renumber]
  refine (Follows.isPending function).bind fun pending => .ite ?_ ?_
  · exact (Follows.fixResult function value.type).bind fun _ => .pure rfl
  · refine (Follows.current function).bind fun known => .ite .rejecting ?_
    exact (follows_checkConvert value known.result position).bind fun _ => .pure rfl

/-! ## Other statements -/

theorem follows_declareVariable (region : Region) (position : Position) (changeable : Bool)
    (ident : Surface.Ident) (written : Option Surface.TypeSyntax) (value : Expr) :
    past.Follows (renumberStep past.number)
      (declareVariable region position changeable ident written value)
      (declareVariable (region.renumber past.number) position changeable ident written
        (value.renumber past.number)) := by
  have noted (target : Variable) : past.Follows id
      (modify fun state : State =>
        { state with constants := (target.id, value) :: state.constants })
      (modify fun state : State =>
        { state with
          constants := (past.number target.id, value.renumber past.number) :: state.constants }) :=
    fun _ => rfl
  have last (type : Ty) : past.Follows (renumberStep past.number)
      (do
        let target : Variable := ⟨← freshId, ident.name, type, changeable⟩
        let scopes ← orReject
          (region.scopes.declare .alreadyDeclared target.name (.value target) position)
        unless changeable do
          modify fun state => { state with constants := (target.id, value) :: state.constants }
        return (.declare position target value, { region with scopes := scopes }))
      (do
        let target : Variable := ⟨← freshId, ident.name, type, changeable⟩
        let scopes ← orReject
          (GlyphCompiler.Scopes.declare (Scopes.renumber past.number region.scopes) .alreadyDeclared
            target.name (.value target) position)
        unless changeable do
          modify fun state =>
            { state with constants := (target.id, value.renumber past.number) :: state.constants }
        return (.declare position target (value.renumber past.number),
          { region.renumber past.number with scopes := scopes })) := by
    refine Follows.freshId.bind fun id => ?_
    refine (follows_declare region.scopes .alreadyDeclared ident.name
      (.value ⟨id, ident.name, type, changeable⟩) position).bind fun scopes => .ite (.pure rfl) ?_
    exact (noted ⟨id, ident.name, type, changeable⟩).bind fun _ => .pure rfl
  cases written with
  | some written =>
    exact (Follows.orReject _).bind fun type =>
      (follows_checkConvert value type position).bind fun _ => last type
  | none =>
    cases value with
    | null info => exact .rejecting
    | _ =>
      exact last _

theorem follows_affix (region : Region) (position : Position) (module symbol : String) :
    past.Follows (renumberStep past.number) (affix region position module symbol)
      (affix (region.renumber past.number) position module symbol) := by
  unfold affix
  refine .ite ?_ .rejecting
  cases Library.find? module symbol with
  | none => exact .reject _ _
  | some function =>
    exact (follows_declare region.scopes .alreadyBound function.name (.library function)
      position).bind fun scopes => .pure rfl

theorem follows_stepVariable (scopes : Scopes) (position : Position) (step : Step)
    (ident : Surface.Ident) :
    past.Follows (Stmt.renumber past.number) (stepVariable scopes position step ident)
      (stepVariable (Scopes.renumber past.number scopes) position step ident) :=
  (follows_assignable scopes ident).bind fun _ => .ite (.pure rfl) .rejecting

theorem follows_breakLoop (scopes : Scopes) (position : Position) :
    past.Follows (Stmt.renumber past.number) (breakLoop scopes position)
      (breakLoop (Scopes.renumber past.number scopes) position) := by
  unfold breakLoop
  rw [innermost_scopes]
  exact .ite (.pure rfl) .rejecting

/-- A `main` is noted with a past as without one, if nothing else is noted of it. -/
theorem follows_beginMain (noted : past.main = id) (position : Position) :
    past.Follows id (beginMain position) (beginMain position) := by
  have begins : past.Follows id
      (modify fun state : State => { state with mainSeen := true })
      (modify fun state : State => { state with mainSeen := true }) := by
    intro state
    show EStateM.Result.ok _ _ = EStateM.Result.ok _ _
    rw [around, around, noted]
    rfl
  refine Follows.get.bind fun state => ?_
  have same : (past.around state).mainSeen = state.mainSeen := by rw [around, noted, id]
  rw [same]
  exact .ite .rejecting begins

end Past

end Analysis

end GlyphCompiler
