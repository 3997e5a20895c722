/-
# Constants that are grounded

An expression names only what has a name where it stands or is declared within it, and all
of that has been numbered when the expression has been analyzed. A constant is numbered
after its first value. So the first value of a constant names only what was numbered before
the constant, whatever an analysis meets, and also where it fails.
-/

import GlyphCompiler.Proofs.Analysis.Chasing
import GlyphCompiler.Proofs.Analysis.Soundness

namespace GlyphCompiler

/-! ## What is named -/

/-- A function and its parameters. -/
def Function.owners (function : Function) : List Owner :=
  .function function :: function.parameters.map .value

@[simp]
theorem Expr.uses_withType (type : Ty) (expression : Expr) :
    (expression.withType type).uses = expression.uses := by
  cases expression <;> rfl

/-- What a name means, with the parameters of a function. -/
def Entity.owners : Entity → List Owner
  | .value target => [.value target]
  | .function target => target.owners
  | .library _ => []

namespace Analysis

/-- What has a name at a place. -/
def scopeOwners (scopes : Scopes) : List Owner :=
  (entities scopes).flatMap Entity.owners

/-- What has a name in a region, with the functions ahead. -/
def Region.owners (region : Region) : List Owner :=
  scopeOwners region.scopes ++ region.ahead.flatMap Function.owners

/-- What a call names. -/
def Called.owners : Called → List Owner
  | .callee target _ _ => [target.owner]
  | .library _ => []

/-- What the outcome of a call names. -/
def Outcome.owners : Outcome → List Owner
  | .printed value => value.uses
  | .expression result => result.uses

/-- What a statement names that has been analyzed, and what has a name after it. -/
def stepOwners (result : Stmt × Region) : List Owner :=
  result.1.uses ++ result.2.owners

attribute [grind =] Function.owners Entity.owners Region.owners Called.owners Outcome.owners
  stepOwners

@[simp, grind =]
theorem scopeOwners_block (scopes : Scopes) : scopeOwners scopes.block = scopeOwners scopes := rfl

@[simp, grind =]
theorem scopeOwners_loop (scopes : Scopes) : scopeOwners scopes.loop = scopeOwners scopes := rfl

@[simp, grind =]
theorem scopeOwners_functionBody (scopes : Scopes) (function : Function) :
    scopeOwners (scopes.functionBody function) = scopeOwners scopes := rfl

theorem owners_subset_of_lookup {scopes : Scopes} {name : String} {entity : Entity}
    (found : scopes.lookup name = some entity) : entity.owners ⊆ scopeOwners scopes :=
  fun _ owned => List.mem_flatMap.mpr ⟨entity, mem_entities_of_lookup found, owned⟩

/-- A declaration gives a name to nothing but what it declares. -/
theorem scopeOwners_declare {scopes declared : Scopes} {cause : String → Cause} {name : String}
    {entity : Entity} {position : Position}
    (done : scopes.declare cause name entity position = .ok declared) :
    scopeOwners declared ⊆ entity.owners ++ scopeOwners scopes := by
  intro owner member
  obtain ⟨other, listed, owned⟩ := List.mem_flatMap.mp member
  obtain rfl | outside := mem_entities_declare done listed
  · exact List.mem_append_left _ owned
  · exact List.mem_append_right _ (List.mem_flatMap.mpr ⟨other, outside, owned⟩)

/-! ## Grounded states -/

/-- The constants are grounded, and all of them have been numbered. -/
structure State.Grounded (state : State) : Prop where
  constants : Analysis.Grounded state.constants
  numbered : ∀ entry ∈ state.constants, entry.1 < state.nextId

theorem grounded_initial : State.initial.Grounded := ⟨⟨.nil, nofun⟩, nofun⟩

/-- An analysis leads on to a grounded state, in which no number is free again. -/
structure Leads (before after : State) : Prop where
  grounded : after.Grounded
  nextId : before.nextId ≤ after.nextId

theorem Leads.trans {before middle after : State} (first : Leads before middle)
    (second : Leads middle after) : Leads before after :=
  ⟨second.grounded, first.nextId.trans second.nextId⟩

theorem State.Grounded.leads {before after : State} (grounded : before.Grounded)
    (constants : after.constants = before.constants) (nextId : before.nextId ≤ after.nextId) :
    Leads before after where
  grounded := by
    refine ⟨constants ▸ grounded.constants, fun entry member => ?_⟩
    exact (grounded.numbered entry (constants ▸ member)).trans_le nextId
  nextId := nextId

/-- A step that is taken where what is known has been numbered leads from grounded states to
grounded states, also where it fails, and all that its result names has been numbered. -/
def Grounds {α : Type} (known : List Owner) (names : α → List Owner) (step : Analyzer α) : Prop :=
  ∀ before, before.Grounded → Under before.nextId known →
    match step.run before with
    | .ok result after => Leads before after ∧ Under after.nextId (names result)
    | .error _ after => Leads before after

/-- Nothing is named. -/
def nothing {α : Type} (_ : α) : List Owner := []

@[simp, grind =]
theorem nothing_eq {α : Type} (result : α) : nothing result = [] := rfl

/-! ## Steps -/

section

variable {α β : Type} {known : List Owner} {names : α → List Owner} {others : β → List Owner}
  {step : Analyzer α}

namespace Grounds

theorem pure {value : α} (within : names value ⊆ known) :
    Grounds known names (Pure.pure value) :=
  fun _ grounded numbered => ⟨⟨grounded, le_rfl⟩, numbered.subset within⟩

theorem bind {next : α → Analyzer β} (first : Grounds known names step)
    (second : ∀ value, Grounds (names value ++ known) others (next value)) :
    Grounds known others (step >>= next) := by
  intro before grounded numbered
  have ran := first before grounded numbered
  unfold EStateM.run at ran ⊢
  simp only [Bind.bind, EStateM.bind]
  cases done : step before with
  | error failure middle =>
    rw [done] at ran
    exact ran
  | ok value middle =>
    rw [done] at ran
    obtain ⟨leads, named⟩ := ran
    have rest := second value middle leads.grounded
      (under_append.mpr ⟨named, numbered.mono leads.nextId⟩)
    unfold EStateM.run at rest
    show match next value middle with
      | .ok result after => Leads before after ∧ Under after.nextId (others result)
      | .error _ after => Leads before after
    split
    · next result after finished =>
      rw [finished] at rest
      exact ⟨leads.trans rest.1, rest.2⟩
    · next failure after finished =>
      rw [finished] at rest
      exact leads.trans rest

theorem throw (failure : Failure) : Grounds known names (throw failure) :=
  fun _ grounded _ => ⟨grounded, le_rfl⟩

theorem reject (cause : Cause) (position : Position) : Grounds known names (reject cause position) :=
  throw _

/-- Nothing is done after a failure. -/
theorem throwing {failure : Failure} {next : β → Analyzer α} :
    Grounds known names (do next (← MonadExcept.throw failure)) :=
  fun _ grounded _ => ⟨grounded, le_rfl⟩

theorem rejecting {cause : Cause} {position : Position} {next : β → Analyzer α} :
    Grounds known names (do next (← Analysis.reject cause position)) :=
  throwing

theorem ite {condition : Prop} [Decidable condition] {other : Analyzer α}
    (first : Grounds known names step) (second : Grounds known names other) :
    Grounds known names (if condition then step else other) := by
  split
  · exact first
  · exact second

theorem lift (outcome : Except Failure α) : Grounds known nothing (lift outcome) := by
  cases outcome with
  | ok value => exact pure (List.nil_subset _)
  | error failure => exact throw failure

theorem orFault (outcome : Except Fault α) : Grounds known nothing (orFault outcome) := by
  cases outcome with
  | ok value => exact pure (List.nil_subset _)
  | error fault => exact throw _

theorem orReject (names : α → List Owner) {outcome : Except Diagnostic α}
    (within : ∀ value, outcome = .ok value → names value ⊆ known) :
    Grounds known names (orReject outcome) := by
  cases outcome with
  | ok value => exact pure (within value rfl)
  | error diagnostic => exact throw _

theorem get : Grounds known nothing get :=
  fun _ grounded _ => ⟨⟨grounded, le_rfl⟩, under_nil⟩

/-- A change of what is remembered that leaves constants and numbers as they are. -/
theorem modify {change : State → State}
    (constants : ∀ state, (change state).constants = state.constants)
    (nextId : ∀ state, (change state).nextId = state.nextId) :
    Grounds known nothing (modify change) :=
  fun before grounded _ => ⟨grounded.leads (constants before) (nextId before).ge, under_nil⟩

/-- A check of each of some members, one after another. -/
theorem forIn {members : List α} {check : α → Analyzer (ForInStep PUnit)}
    (each : ∀ member, Grounds known nothing (check member)) :
    Grounds known nothing (forIn members PUnit.unit fun member _ => check member) := by
  induction members with
  | nil => exact pure (List.nil_subset _)
  | cons member members ih =>
    rw [List.forIn_cons]
    refine (each member).bind fun outcome => ?_
    cases outcome with
    | done value => exact pure (List.nil_subset _)
    | yield value => exact ih

/-- What has a fresh number has been numbered afterwards. -/
theorem freshId (names : Nat → List Owner) (own : ∀ id, ∀ owner ∈ names id, owner.id = id) :
    Grounds known names freshId := by
  intro before grounded _
  refine ⟨grounded.leads rfl (Nat.le_succ _), fun owner member => ?_⟩
  rw [own _ owner member]
  exact Nat.lt_succ_self _

theorem isPending (function : Function) : Grounds known nothing (isPending function) :=
  get.bind fun _ => pure (List.nil_subset _)

/-- A function keeps its number when its result becomes known. -/
theorem current {function : Function} (within : function.owners ⊆ known) :
    Grounds known Function.owners (current function) := by
  intro before grounded numbered
  refine ⟨⟨grounded, le_rfl⟩, ?_⟩
  have under := under_cons.mp (numbered.subset within)
  exact under_cons.mpr under

theorem fixResult (function : Function) (type : Ty) :
    Grounds known nothing (fixResult function type) :=
  modify (fun _ => rfl) fun _ => rfl

theorem defer (position : Position) (function : Function) (target : Option Ty) :
    Grounds known nothing (defer position function target) :=
  modify (fun _ => rfl) fun _ => rfl

end Grounds

end

section

variable {known : List Owner} {scopes : Scopes} {region : Region}

/-! ## Values and conversion -/

theorem grounds_useValue {expression : Expr} (within : expression.uses ⊆ known) :
    Grounds known Expr.uses (useValue expression) := by
  unfold useValue
  have last : Grounds known Expr.uses
      (if expression.type = .void then do
        reject .voidValue expression.position
        return expression
      else return expression) :=
    .ite .rejecting (.pure within)
  cases expression with
  | call info callee arguments =>
    cases callee with
    | function note function =>
      exact (Grounds.isPending function).bind fun pending =>
        .ite ((Grounds.defer info.position function none).bind fun _ => last) last
    | reference use => exact last
  | _ => exact last

theorem grounds_checkConvert (value : Expr) (target : Ty) (position : Position) :
    Grounds known nothing (checkConvert value target position) := by
  unfold checkConvert
  have last : Grounds known nothing
      (do
        let known ← orFault value.staticValue
        unless value.type.canConvert target known do
          reject (.cannotConvert value.type target) position) :=
    (Grounds.orFault _).bind fun known => .ite (.pure (List.nil_subset _)) (.reject _ _)
  cases value with
  | function info function =>
    exact (Grounds.isPending function).bind fun pending =>
      .ite ((Grounds.defer info.position function (some target)).bind fun _ => last) last
  | _ => exact last

theorem grounds_checkCondition {condition : Expr} (within : condition.uses ⊆ known) :
    Grounds known Expr.uses (checkCondition condition) :=
  .ite (.pure within) .rejecting

/-! ## Literals and names -/

theorem grounds_integerLiteral (position : Position) (text : String) :
    Grounds known Expr.uses (integerLiteral position text) :=
  .ite .throwing (.pure (List.nil_subset _))

theorem grounds_codepointLiteral (position : Position) (text : String) :
    Grounds known Expr.uses (codepointLiteral position text) :=
  .ite .rejecting (.pure (List.nil_subset _))

theorem uses_quotedLiteral (position : Position) (text : String) :
    (quotedLiteral position text).uses = [] := by
  unfold quotedLiteral
  split <;> rfl

theorem grounds_lookup (within : scopeOwners scopes ⊆ known) (name : String) (position : Position) :
    Grounds known Entity.owners (lookup scopes name position) := by
  unfold lookup
  split
  · next entity found => exact .pure (List.Subset.trans (owners_subset_of_lookup found) within)
  · exact .reject _ _

theorem grounds_reference (within : scopeOwners scopes ⊆ known) (ident : Surface.Ident) :
    Grounds known Expr.uses (reference scopes ident) := by
  refine (grounds_lookup within ident.name ident.position).bind fun entity => ?_
  cases entity with
  | value target => exact .pure (by grind)
  | function function =>
    exact (Grounds.current (by grind)).bind fun function => .pure (by grind)
  | library symbol => exact .reject _ _

theorem grounds_assignable (within : scopeOwners scopes ⊆ known) (ident : Surface.Ident) :
    Grounds known (fun target => [.value target]) (assignable scopes ident) := by
  refine (grounds_lookup within ident.name ident.position).bind fun entity => ?_
  cases entity with
  | value target => exact .ite (.pure (by grind)) .rejecting
  | function function => exact .reject _ _
  | library symbol => exact .reject _ _

/-! ## Operators and arrays -/

theorem grounds_binary {left right : Expr} (withinLeft : left.uses ⊆ known)
    (withinRight : right.uses ⊆ known) (position : Position) (operator : BinaryOperator) :
    Grounds known Expr.uses (binary position operator left right) := by
  refine (Grounds.orFault _).bind fun leftValue => (Grounds.orFault _).bind fun rightValue => ?_
  have last : ∀ accepted result, Grounds known Expr.uses
      (if accepted = true then return .binary ⟨result, position⟩ operator left right
      else do
        reject (.cannotCombine operator left.type right.type) position
        return .binary ⟨result, position⟩ operator left right) :=
    fun accepted result => .ite (.pure (by grind)) .rejecting
  exact .ite (.ite .rejecting (last _ _)) (last _ _)

theorem grounds_unary {operand : Expr} (within : operand.uses ⊆ known) (position : Position)
    (operator : UnaryOperator) : Grounds known Expr.uses (unary position operator operand) := by
  unfold unary
  cases operator <;> exact .ite (.pure (by grind)) .rejecting

theorem grounds_addressOf (within : scopeOwners scopes ⊆ known) (position : Position)
    (operand : Surface.Expr) : Grounds known Expr.uses (addressOf scopes position operand) := by
  cases operand with
  | name ident =>
    refine (grounds_reference within ident).bind fun named => ?_
    cases named with
    | reference use => exact .pure (by grind)
    | _ => exact .reject _ _
  | _ => exact .reject _ _

theorem grounds_dereference {operand : Expr} (within : operand.uses ⊆ known)
    (position : Position) : Grounds known Expr.uses (dereference position operand) := by
  unfold dereference
  split
  · exact .pure (by grind)
  · exact .reject _ _

theorem grounds_subscript {base index : Expr} (withinBase : base.uses ⊆ known)
    (withinIndex : index.uses ⊆ known) (position : Position) :
    Grounds known Expr.uses (subscript position base index) := by
  unfold subscript
  cases base.type with
  | array element =>
    have last : Grounds known Expr.uses (return .subscript ⟨element, position⟩ base index) :=
      .pure (by grind)
    refine .ite ((Grounds.orFault _).bind fun value => ?_) .rejecting
    cases value with
    | number place =>
      refine .ite ((Grounds.orFault _).bind fun text => .rejecting) ?_
      refine Grounds.get.bind fun state => (Grounds.orFault _).bind fun length => ?_
      cases length with
      | some length => exact .ite ((Grounds.orFault _).bind fun text => .rejecting) last
      | none => exact last
    | _ => exact last
  | _ => exact .reject _ _

theorem grounds_array {elements : List Expr} (within : usesOfExprs elements ⊆ known)
    (position : Position) : Grounds known Expr.uses (array position elements) := by
  cases elements with
  | nil => exact .pure (List.nil_subset _)
  | cons first rest =>
    refine Grounds.bind (.forIn fun element => ?_) fun _ => .pure (by grind)
    exact .ite (.pure (List.nil_subset _)) .rejecting

/-! ## Calls -/

theorem grounds_checkArity (name : String) (expected actual : Nat) (position : Position) :
    Grounds known nothing (checkArity name expected actual position) :=
  .ite (.pure (List.nil_subset _)) (.reject _ _)

theorem grounds_findCalled (within : scopeOwners scopes ⊆ known) (position : Position)
    (callee : Surface.Ident) (count : Nat) :
    Grounds known Called.owners (findCalled scopes position callee count) := by
  refine (grounds_lookup within callee.name position).bind fun entity => ?_
  cases entity with
  | library symbol => exact (grounds_checkArity _ _ _ _).bind fun _ => .pure (List.nil_subset _)
  | function function =>
    refine (Grounds.current (by grind)).bind fun function => ?_
    exact (grounds_checkArity _ _ _ _).bind fun _ => .pure (by grind [Callee.owner])
  | value target =>
    simp only
    split
    · exact (grounds_checkArity _ _ _ _).bind fun _ => .pure (by grind [Callee.owner])
    · exact .reject _ _

theorem grounds_pass {argument : Expr} (within : argument.uses ⊆ known) (passing : Passing) :
    Grounds known Expr.uses (pass passing argument) := by
  cases passing with
  | into parameters =>
    cases parameters with
    | nil => exact .throw _
    | cons parameter parameters =>
      refine (grounds_useValue within).bind fun value =>
        (grounds_checkConvert value parameter value.position).bind fun _ => .pure ?_
      split
      · grind
      · grind [Expr.uses_withType]
  | values => exact grounds_useValue within
  | plain => exact .pure within

theorem grounds_apply {mapping items : Expr} (withinMapping : mapping.uses ⊆ known)
    (withinItems : items.uses ⊆ known) (position : Position) :
    Grounds known Expr.uses (apply position mapping items) := by
  unfold apply
  split
  · split
    · exact .pure (by grind)
    · exact .ite (.pure (by grind)) .rejecting
    · exact .reject _ _
  · exact .reject _ _

theorem grounds_supplant {text pattern replacement : Expr}
    (within : usesOfExprs [text, pattern, replacement] ⊆ known) (position : Position) :
    Grounds known Expr.uses (supplant position text pattern replacement) := by
  refine Grounds.bind (.forIn fun part => ?_) fun _ => .pure (by grind)
  exact .ite (.pure (List.nil_subset _)) .rejecting

theorem grounds_callLibrary {arguments : List Expr} (within : usesOfExprs arguments ⊆ known)
    (position : Position) (symbol : LibraryFunction) :
    Grounds known Outcome.owners (callLibrary position symbol arguments) := by
  unfold callLibrary
  split
  · exact .pure (by grind)
  · exact (grounds_apply (by grind) (by grind) position).bind fun _ => .pure (by grind)
  · exact (grounds_supplant within position).bind fun _ => .pure (by grind)
  · exact .throw _

theorem grounds_describedCallee (within : scopeOwners scopes ⊆ known) (callee : Surface.Ident) :
    Grounds known nothing (describedCallee scopes callee) := by
  refine (grounds_lookup within callee.name callee.position).bind fun entity => ?_
  cases entity with
  | function function =>
    exact (Grounds.current (by grind)).bind fun _ => .pure (List.nil_subset _)
  | library symbol => exact .pure (List.nil_subset _)
  | value target => exact .ite (.pure (List.nil_subset _)) .rejecting

theorem grounds_call (within : scopeOwners scopes ⊆ known) (position : Position)
    (callee : Surface.Ident) (count : Nat) {described : Analyzer Ty}
    {arguments : Passing → Analyzer (List Expr)}
    (describes : ∀ {known}, scopeOwners scopes ⊆ known → Grounds known nothing described)
    (passes : ∀ {known}, scopeOwners scopes ⊆ known →
      ∀ passing, Grounds known usesOfExprs (arguments passing)) :
    Grounds known Outcome.owners (call scopes position callee count described arguments) := by
  refine (grounds_findCalled within position callee count).bind fun called => ?_
  cases called with
  | callee target parameters result =>
    exact (passes (by grind) (.into parameters)).bind fun arguments => .pure (by grind)
  | library symbol =>
    simp only
    split
    · exact (describes within).bind fun _ => .pure (by grind)
    · exact (passes within .values).bind fun arguments =>
        grounds_callLibrary (List.subset_append_left _ _) position symbol

/-! ## Functions -/

/-- The names after a declaration are those before it and what is declared. -/
theorem grounds_declare (entity : Entity) (within : scopeOwners scopes ⊆ known)
    (declared : entity.owners ⊆ known) (cause : String → Cause) (name : String)
    (position : Position) :
    Grounds known scopeOwners (orReject (scopes.declare cause name entity position)) :=
  .orReject _ fun _ done => List.Subset.trans (scopeOwners_declare done)
    (List.append_subset.mpr ⟨declared, within⟩)

theorem grounds_parameters (written : List Surface.Parameter) :
    Grounds known (List.map .value) (parameters written) := by
  induction written generalizing known with
  | nil => exact .pure (List.nil_subset _)
  | cons parameter written ih =>
    refine (Grounds.orReject nothing fun _ _ => List.nil_subset _).bind fun type => ?_
    refine (Grounds.freshId (fun id => [.value ⟨id, parameter.ident.name, type, true⟩])
      (by simp)).bind fun id => ih.bind fun rest => .pure (by grind)

/-- The function that a statement declares, with its parameters. -/
def declaredOwners (found : Option (Position × Function)) : List Owner :=
  (found.map fun declared => declared.2.owners).getD []

theorem grounds_declared (statement : Surface.Stmt) :
    Grounds known declaredOwners (declared statement) := by
  cases statement with
  | function position name written result body =>
    have resolved {known : List Owner} :
        Grounds known nothing (result.mapM fun type => orReject type.resolve) := by
      cases result with
      | none => exact .pure (List.nil_subset _)
      | some type =>
        rw [Option.mapM_some]
        exact (Grounds.orReject nothing fun _ _ => List.nil_subset _).bind fun _ =>
          .pure (List.nil_subset _)
    refine (grounds_parameters written).bind fun parameters => resolved.bind fun type => ?_
    refine (Grounds.freshId (fun id =>
      [.function ⟨id, name, parameters, type.getD .any, type.isNone⟩]) (by simp)).bind fun id => ?_
    exact .pure (by grind [declaredOwners])
  | conjureBinding position name type body =>
    refine (Grounds.orReject nothing fun _ _ => List.nil_subset _).bind fun type => ?_
    have last {known : List Owner} (result : Ty) : Grounds known declaredOwners
        (do return some (position, ⟨← freshId, name, [], result, false⟩)) :=
      (Grounds.freshId (fun id => [.function ⟨id, name, [], result, false⟩])
        (by simp)).bind fun id => .pure (by grind [declaredOwners])
    cases type with
    | function parameters result =>
      cases parameters with
      | nil => exact last result
      | cons parameter parameters => exact .rejecting
    | _ => exact last _
  | _ => exact .pure (List.nil_subset _)

theorem grounds_declareAhead (within : region.owners ⊆ known) (body : List Surface.Stmt) :
    Grounds known Region.owners (declareAhead region body) := by
  induction body generalizing region known with
  | nil => exact .pure within
  | cons statement body ih =>
    refine (grounds_declared statement).bind fun found => ?_
    cases found with
    | none => exact ih within
    | some found =>
      obtain ⟨position, function⟩ := found
      have isDeclared : declaredOwners (some (position, function)) = function.owners := rfl
      exact (grounds_declare (.function function) (by grind) (by grind) _ _ _).bind
        fun scopes => ih (by grind)

theorem grounds_enter (within : scopeOwners scopes ⊆ known) (body : List Surface.Stmt) :
    Grounds known Region.owners (enter scopes body) :=
  grounds_declareAhead (by grind) body

theorem grounds_declareParameters (within : scopeOwners scopes ⊆ known)
    (written : List Surface.Parameter) {targets : List Variable}
    (numbered : targets.map .value ⊆ known) :
    Grounds known scopeOwners (declareParameters scopes (written.zip targets)) := by
  induction written generalizing scopes targets known with
  | nil => exact .pure within
  | cons parameter written ih =>
    cases targets with
    | nil => exact .pure within
    | cons target targets =>
      exact (grounds_declare (.value target) within (by grind) _ _ _).bind
        fun scopes => ih (by grind) (by grind)

theorem grounds_finishFunction (function : Function) (returns : Bool) (position : Position) :
    Grounds known nothing (finishFunction function returns position) :=
  .ite ((Grounds.isPending function).bind fun _ =>
    .ite (.fixResult function .void) (.pure (List.nil_subset _)))
    (.ite (.pure (List.nil_subset _)) (.reject _ _))

theorem grounds_returningFunction (scopes : Scopes) (position : Position) :
    Grounds known nothing (returningFunction scopes position) := by
  unfold returningFunction
  split
  · exact .pure (List.nil_subset _)
  · exact .reject _ _

theorem grounds_returnVoid (scopes : Scopes) (position : Position) :
    Grounds known Stmt.uses (returnVoid scopes position) := by
  refine (grounds_returningFunction scopes position).bind fun function =>
    (Grounds.isPending function).bind fun pending => .ite ?_ ?_
  · exact (Grounds.fixResult function .void).bind fun _ => .pure (List.nil_subset _)
  · exact Grounds.get.bind fun state => .ite (.pure (List.nil_subset _)) .rejecting

theorem grounds_returnValue {value : Expr} (within : value.uses ⊆ known) (function : Function)
    (position : Position) : Grounds known Stmt.uses (returnValue function position value) := by
  refine (Grounds.isPending function).bind fun pending => .ite ?_ ?_
  · exact (Grounds.fixResult function value.type).bind fun _ => .pure (by grind)
  · refine Grounds.get.bind fun state => .ite .rejecting ?_
    exact (grounds_checkConvert value _ position).bind fun _ => .pure (by grind)

/-! ## Other statements -/

theorem run_freshId_bind {α : Type} (next : Nat → Analyzer α) (state : State) :
    (freshId >>= next).run state = (next state.nextId).run (state.numbering 1) := rfl

/-- A constant is noted under a number that was free when its first value was known. -/
theorem grounds_note {value : Expr} (within : value.uses ⊆ known) (around : region.owners ⊆ known)
    (position : Position) (changeable : Bool) (name : String) (type : Ty) :
    Grounds known stepOwners
      (do
        let target : Variable := ⟨← freshId, name, type, changeable⟩
        let scopes ← orReject
          (region.scopes.declare .alreadyDeclared target.name (.value target) position)
        unless changeable do
          modify fun state => { state with constants := (target.id, value) :: state.constants }
        return (.declare position target value, { region with scopes := scopes })) := by
  intro before grounded numbered
  have fresh : Leads before (before.numbering 1) := grounded.leads rfl (Nat.le_succ _)
  rw [run_freshId_bind]
  dsimp only
  cases done : region.scopes.declare .alreadyDeclared name
    (.value ⟨before.nextId, name, type, changeable⟩) position with
  | error diagnostic => exact fresh
  | ok scopes =>
    have earlier : Under before.nextId value.uses := numbered.subset within
    have named : Under (before.nextId + 1) (stepOwners
        (.declare position ⟨before.nextId, name, type, changeable⟩ value,
          { region with scopes := scopes })) := by
      have own : Under (before.nextId + 1) [.value ⟨before.nextId, name, type, changeable⟩] := by
        simp
      refine (under_append.mpr ⟨own, numbered.mono (Nat.le_succ _)⟩).subset ?_
      grind [scopeOwners_declare done]
    cases changeable with
    | true => exact ⟨fresh, named⟩
    | false =>
      -- The number was taken last, so it is above all that the value names and that is noted.
      have ordered : Analysis.Grounded ((before.nextId, value) :: before.constants) :=
        ⟨.cons grounded.numbered grounded.constants.descending,
          List.forall_mem_cons.mpr ⟨earlier, grounded.constants.named⟩⟩
      exact ⟨⟨⟨ordered, List.forall_mem_cons.mpr ⟨Nat.lt_succ_self _, fresh.grounded.numbered⟩⟩,
        Nat.le_succ _⟩, named⟩

theorem grounds_declareVariable {value : Expr} (within : value.uses ⊆ known)
    (around : region.owners ⊆ known) (position : Position) (changeable : Bool)
    (ident : Surface.Ident) (written : Option Surface.TypeSyntax) :
    Grounds known stepOwners (declareVariable region position changeable ident written value) := by
  have last {known : List Owner} (within : value.uses ⊆ known) (around : region.owners ⊆ known)
      (type : Ty) := grounds_note within around position changeable ident.name type
  cases written with
  | some written =>
    exact (Grounds.orReject nothing fun _ _ => List.nil_subset _).bind fun type =>
      (grounds_checkConvert value type position).bind fun _ => last within around type
  | none =>
    cases value with
    | null info => exact .rejecting
    | _ => exact last within around _

theorem grounds_affix (within : region.owners ⊆ known) (position : Position)
    (module symbol : String) : Grounds known stepOwners (affix region position module symbol) := by
  unfold affix
  refine .ite ?_ .rejecting
  cases Library.find? module symbol with
  | none => exact .reject _ _
  | some function =>
    exact (grounds_declare (.library function) (by grind) (List.nil_subset _) _ _ _).bind
      fun scopes => .pure (by grind)

theorem grounds_stepVariable (within : scopeOwners scopes ⊆ known) (position : Position)
    (step : Step) (ident : Surface.Ident) :
    Grounds known Stmt.uses (stepVariable scopes position step ident) :=
  (grounds_assignable within ident).bind fun _ => .ite (.pure (by grind)) .rejecting

theorem grounds_breakLoop (scopes : Scopes) (position : Position) :
    Grounds known Stmt.uses (breakLoop scopes position) :=
  .ite (.pure (List.nil_subset _)) .rejecting

theorem grounds_beginMain (position : Position) : Grounds known nothing (beginMain position) :=
  Grounds.get.bind fun _ => .ite .rejecting (.modify (fun _ => rfl) fun _ => rfl)

end

/-! ## Every step is grounded -/

mutual

theorem grounds_expression : ∀ (written : Surface.Expr) {scopes : Scopes} {known : List Owner},
    scopeOwners scopes ⊆ known → Grounds known Expr.uses (expression scopes written)
  | .integer position text, _, _, _ => grounds_integerLiteral position text
  | .decimal _ _, _, _, _ | .string _ _, _, _, _ | .bool _ _, _, _, _ | .null _, _, _, _ =>
    .pure (List.nil_subset _)
  | .quoted position text, _, _, _ => .pure (by grind [uses_quotedLiteral])
  | .codepoint position text, _, _, _ => grounds_codepointLiteral position text
  | .name ident, _, _, within => grounds_reference within ident
  | .binary position operator left right, _, _, within =>
    (grounds_expression left within).bind fun left =>
      (grounds_useValue (by grind)).bind fun left =>
        (grounds_expression right (by grind)).bind fun right =>
          (grounds_useValue (by grind)).bind fun right =>
            grounds_binary (by grind) (by grind) position operator
  | .unary position operator operand, _, _, within =>
    (grounds_expression operand within).bind fun operand =>
      (grounds_useValue (by grind)).bind fun operand => grounds_unary (by grind) position operator
  | .addressOf position operand, _, _, within => grounds_addressOf within position operand
  | .dereference position operand, _, _, within =>
    (grounds_expression operand within).bind fun operand => grounds_dereference (by grind) position
  | .subscript position base index, _, _, within =>
    (grounds_expression base within).bind fun base =>
      (grounds_useValue (by grind)).bind fun base =>
        (grounds_expression index (by grind)).bind fun index =>
          (grounds_useValue (by grind)).bind fun index =>
            grounds_subscript (by grind) (by grind) position
  | .call callee written, _, _, within => by
    refine (grounds_call within callee.position callee written.length (grounds_described written)
      (fun within passing => grounds_arguments written passing within)).bind fun outcome => ?_
    cases outcome with
    | expression result => exact .pure (by grind)
    | printed value => exact .reject _ _
  | .array position written, _, _, within =>
    (grounds_arguments written .values within).bind fun elements =>
      grounds_array (by grind) position
  | .conjure position written, scopes, known, within => by
    -- The function has a number, but no name that its body could use.
    refine (Grounds.freshId nothing (by simp)).bind fun id => ?_
    refine (grounds_enter (by grind) written).bind fun region =>
      (grounds_statements written (by grind)).bind fun body => ?_
    exact .ite (Grounds.get.bind fun state => .pure (by grind)) .rejecting

theorem grounds_arguments : ∀ (written : List Surface.Expr) (passing : Passing) {scopes : Scopes}
    {known : List Owner}, scopeOwners scopes ⊆ known →
      Grounds known usesOfExprs (arguments scopes passing written)
  | [], _, _, _, _ => .pure (List.nil_subset _)
  | first :: rest, passing, _, _, within =>
    (grounds_expression first within).bind fun argument =>
      (grounds_pass (by grind) passing).bind fun argument =>
        (grounds_arguments rest passing.rest (by grind)).bind fun rest => .pure (by grind)

theorem grounds_described : ∀ (written : List Surface.Expr) {scopes : Scopes}
    {known : List Owner}, scopeOwners scopes ⊆ known →
      Grounds known nothing (described scopes written)
  | [], _, _, _ => .throw _
  | [written], _, _, within => by
    cases written with
    | call callee written =>
      exact (grounds_describedCallee within callee).bind fun type =>
        (grounds_arguments written .plain within).bind fun _ => .pure (List.nil_subset _)
    | _ => exact (grounds_expression _ within).bind fun described => .pure (List.nil_subset _)
  | first :: second :: rest, _, _, _ => by
    rw [described_many]
    exact .throw _

theorem grounds_statement : ∀ (written : Surface.Stmt) {region : Region} {known : List Owner},
    region.owners ⊆ known → Grounds known stepOwners (statement region written)
  | .affix position module symbol, _, _, within => grounds_affix within position module symbol
  | .main position written, region, _, within => by
    cases written with
    | block blockPosition written =>
      exact (grounds_beginMain position).bind fun _ =>
        (grounds_enter (by grind) written).bind fun inner =>
          (grounds_statements written (by grind)).bind fun body => .pure (by grind)
    | _ =>
      rw [statement_main region position _ (by simp)]
      exact (grounds_beginMain position).bind fun _ =>
        (grounds_enter (by grind) [_]).bind fun inner =>
          (grounds_statement _ (by grind)).bind fun ⟨body, inner⟩ => .pure (by grind)
  | .function position name parameters result written, ⟨scopes, ahead⟩, _, within => by
    cases ahead with
    | nil => exact .throw _
    | cons function ahead =>
      exact (grounds_declareParameters (by grind) parameters (by grind)).bind fun inner =>
        (grounds_enter (by grind) written).bind fun inner =>
          (grounds_statements written (by grind)).bind fun body =>
            (grounds_finishFunction function _ position).bind fun _ =>
              (Grounds.current (by grind)).bind fun function => .pure (by grind)
  | .conjureBinding position name type written, ⟨scopes, ahead⟩, _, within => by
    cases ahead with
    | nil => exact .throw _
    | cons function ahead =>
      exact (grounds_enter (by grind) written).bind fun inner =>
        (grounds_statements written (by grind)).bind fun body =>
          (grounds_finishFunction function _ position).bind fun _ => .pure (by grind)
  | .declare position changeable ident type written, _, _, within =>
    (grounds_expression written (by grind)).bind fun value =>
      (grounds_useValue (by grind)).bind fun value =>
        grounds_declareVariable (by grind) (by grind) position changeable ident type
  | .assign position ident written, region, _, within =>
    (grounds_assignable (by grind) ident).bind fun target =>
      (grounds_expression written (by grind)).bind fun value =>
        (grounds_useValue (by grind)).bind fun value =>
          (grounds_checkConvert value target.type position).bind fun _ => .pure (by grind)
  | .step position step ident, region, _, within =>
    (grounds_stepVariable (by grind) position step ident).bind fun _ => .pure (by grind)
  | .branch position condition consequent alternative, region, _, within =>
    (grounds_expression condition (by grind)).bind fun condition =>
      (grounds_checkCondition (by grind)).bind fun condition =>
        (grounds_enter (by grind) consequent).bind fun inner =>
          (grounds_statements consequent (by grind)).bind fun body =>
            (grounds_enter (by grind) alternative).bind fun inner =>
              (grounds_statements alternative (by grind)).bind fun body => .pure (by grind)
  | .loop position condition written, region, _, within =>
    (grounds_expression condition (by grind)).bind fun condition =>
      (grounds_checkCondition (by grind)).bind fun condition =>
        (grounds_enter (by grind) written).bind fun inner =>
          (grounds_statements written (by grind)).bind fun body => .pure (by grind)
  | .breakLoop position, region, _, within =>
    (grounds_breakLoop region.scopes position).bind fun _ => .pure (by grind)
  | .returnVoid position, region, _, within =>
    (grounds_returnVoid region.scopes position).bind fun _ => .pure (by grind)
  | .returnValue position written, region, _, within =>
    (grounds_returningFunction region.scopes position).bind fun function =>
      (grounds_expression written (by grind)).bind fun value =>
        (grounds_useValue (by grind)).bind fun value =>
          (grounds_returnValue (by grind) function position).bind fun _ => .pure (by grind)
  | .exscribe position written, region, _, within =>
    (grounds_expression written (by grind)).bind fun value =>
      (grounds_useValue (by grind)).bind fun _ => .pure (by grind)
  | .call position callee written, region, _, within => by
    refine (grounds_call (by grind) position callee written.length (grounds_described written)
      (fun within passing => grounds_arguments written passing within)).bind fun outcome => ?_
    cases outcome with
    | expression result => exact .pure (by grind)
    | printed value => exact .pure (by grind)
  | .block position written, region, _, within =>
    (grounds_enter (by grind) written).bind fun inner =>
      (grounds_statements written (by grind)).bind fun _ => .pure (by grind)

theorem grounds_statements : ∀ (written : List Surface.Stmt) {region : Region} {known : List Owner},
    region.owners ⊆ known → Grounds known usesOfBody (statements region written)
  | [], _, _, _ => .pure (List.nil_subset _)
  | first :: rest, _, _, within =>
    (grounds_statement first within).bind fun ⟨_, region⟩ =>
      (grounds_statements rest (by grind)).bind fun _ => .pure (by grind)

end

theorem grounds_judge (known : List Owner) (use : Deferred) :
    Grounds known nothing (judge use) := by
  refine Grounds.get.bind fun state => ?_
  cases use.target with
  | none => exact .ite (.reject _ _) (.pure (List.nil_subset _))
  | some target => exact .ite (.pure (List.nil_subset _)) (.reject _ _)

theorem grounds_judgeDeferred (known : List Owner) : Grounds known nothing judgeDeferred :=
  Grounds.get.bind fun _ => (Grounds.forIn fun use =>
    (grounds_judge _ use).bind fun _ => .pure (List.nil_subset _)).bind fun _ =>
      .pure (List.nil_subset _)

theorem grounds_ofSource (source : String) : Grounds [] nothing (ofSource source) := by
  refine (Grounds.lift _).bind fun tree => (Grounds.lift _).bind fun written => ?_
  exact (grounds_enter (List.nil_subset _) written.body).bind fun region =>
    (grounds_statements written.body (by grind)).bind fun body =>
      (grounds_judgeDeferred _).bind fun _ => Grounds.get.bind fun _ => .pure (List.nil_subset _)

end Analysis

end GlyphCompiler
