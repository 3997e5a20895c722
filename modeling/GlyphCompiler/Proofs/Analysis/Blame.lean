/-
# What the rules of analysis blame

A rule that is given parts of a program blames them: where it rejects them, and where it
puts a judgement off, it points at positions of theirs. What it gives stands where they do.
-/

import GlyphCompiler.Analysis.Analyze
import GlyphCompiler.Proofs.Analysis.Scoping
import GlyphCompiler.Proofs.Surface.Places

namespace GlyphCompiler

namespace Analysis

/-- The uses that have been put off stand inside. -/
def State.Within (inside : Position → Prop) (state : State) : Prop :=
  ∀ use ∈ state.deferred, inside use.position

/-- A step has ended with a result that passes a test, or with a rejection that points inside.
A fault points nowhere. -/
def Ends {α : Type} (inside : Position → Prop) (gives : α → Prop) :
    EStateM.Result Failure State α → Prop
  | .ok result state => gives result ∧ state.Within inside
  | .error (.diagnostic diagnostic) _ => inside diagnostic.position
  | .error (.fault _) _ => True

/-- What may be a rejection points inside if it is one. -/
def Points {α : Type} (inside : Position → Prop) (outcome : Except Diagnostic α) : Prop :=
  ∀ diagnostic, outcome = .error diagnostic → inside diagnostic.position

/-- A step blames positions inside only, and what it gives passes a test. -/
def Blames {α : Type} (inside : Position → Prop) (gives : α → Prop) (step : Analyzer α) : Prop :=
  ∀ state, state.Within inside → Ends inside gives (step.run state)

section

variable {inside : Position → Prop} {α β : Type} {gives : α → Prop} {wants : β → Prop}
  {step other : Analyzer α} {rest : α → Analyzer β} {position : Position}

namespace Points

theorem ok (value : α) : Points inside (.ok value) :=
  fun _ failed => by cases failed

theorem error {cause : Cause} (here : inside position) :
    Points (α := α) inside (.error ⟨cause, position⟩) := by
  rintro diagnostic ⟨⟩
  exact here

theorem bind {outcome : Except Diagnostic α} {next : α → Except Diagnostic β}
    (first : Points inside outcome) (second : ∀ value, Points inside (next value)) :
    Points inside (outcome >>= next) := by
  cases outcome with
  | ok value => exact second value
  | error diagnostic =>
    rintro _ ⟨⟩
    exact first diagnostic rfl

end Points

namespace Blames

theorem pure {value : α} (given : gives value) : Blames inside gives (Pure.pure value) :=
  fun _ within => ⟨given, within⟩

theorem bind (first : Blames inside gives step)
    (second : ∀ value, gives value → Blames inside wants (rest value)) :
    Blames inside wants (step >>= rest) := by
  intro state within
  have ran := first state within
  unfold EStateM.run at ran ⊢
  simp only [Bind.bind, EStateM.bind]
  cases done : step state with
  | ok value after =>
    rw [done] at ran
    exact second value ran.1 after ran.2
  | error failure after =>
    rw [done] at ran
    cases failure <;> exact ran

/-- A step that gives something without a test. -/
theorem anything (blames : Blames inside gives step) : Blames inside (fun _ => True) step := by
  intro state within
  have ran := blames state within
  cases done : step.run state with
  | ok value after =>
    rw [done] at ran
    exact ⟨trivial, ran.2⟩
  | error failure after =>
    rw [done] at ran
    cases failure <;> exact ran

theorem fault (reason : Fault) : Blames inside gives (throw (.fault reason)) :=
  fun _ _ => trivial

theorem reject {cause : Cause} (here : inside position) :
    Blames inside gives (reject cause position) :=
  fun _ _ => here

/-- Nothing is done after a rejection. -/
theorem rejecting {cause : Cause} {rest : β → Analyzer α} (here : inside position) :
    Blames inside gives (do rest (← Analysis.reject cause position)) :=
  fun _ _ => here

theorem faulting {reason : Fault} {rest : β → Analyzer α} :
    Blames inside gives (do rest (← MonadExcept.throw (Failure.fault reason))) :=
  fun _ _ => trivial

theorem ite {condition : Prop} [Decidable condition] (first : Blames inside gives step)
    (second : Blames inside gives other) :
    Blames inside gives (if condition then step else other) := by
  split
  · exact first
  · exact second

theorem orFault (outcome : Except Fault α) : Blames inside (fun _ => True) (orFault outcome) := by
  cases outcome with
  | ok value => exact .pure trivial
  | error reason => exact .fault reason

theorem orReject {outcome : Except Diagnostic α} (points : Points inside outcome) :
    Blames inside (fun _ => True) (orReject outcome) := by
  cases outcome with
  | ok value => exact .pure trivial
  | error diagnostic => exact fun _ _ => points diagnostic rfl

theorem get : Blames inside (State.Within inside) get :=
  fun _ within => ⟨within, within⟩

theorem modify {change : State → State}
    (keeps : ∀ state, State.Within inside state → State.Within inside (change state)) :
    Blames inside (fun _ => True) (modify change) :=
  fun state within => ⟨trivial, keeps state within⟩

theorem isPending (function : Function) : Blames inside (fun _ => True) (isPending function) :=
  fun _ within => ⟨trivial, within⟩

theorem current (function : Function) : Blames inside (fun _ => True) (current function) :=
  fun _ within => ⟨trivial, within⟩

theorem freshId : Blames inside (fun _ => True) freshId :=
  fun _ within => ⟨trivial, within⟩

theorem fixResult (function : Function) (result : Ty) :
    Blames inside (fun _ => True) (fixResult function result) :=
  fun _ within => ⟨trivial, within⟩

/-- A use is put off at a position inside. -/
theorem defer (function : Function) (target : Option Ty) (here : inside position) :
    Blames inside (fun _ => True) (defer position function target) :=
  fun _ within => ⟨trivial, List.forall_mem_cons.mpr ⟨here, within⟩⟩

/-- A check of each of some members, one after another. -/
theorem forIn {members : List α} {check : α → Analyzer (ForInStep PUnit)}
    (each : ∀ member ∈ members, Blames inside (fun _ => True) (check member)) :
    Blames inside (fun _ => True) (forIn members PUnit.unit fun member _ => check member) := by
  induction members with
  | nil => exact .pure trivial
  | cons member members ih =>
    obtain ⟨here, later⟩ := List.forall_mem_cons.mp each
    simp only [List.forIn_cons]
    refine here.bind fun outcome _ => ?_
    cases outcome with
    | done value => exact .pure trivial
    | yield value => exact ih later

end Blames

end

section

variable {inside : Position → Prop} {position : Position}

/-! ## Values and conversion -/

theorem blames_useValue {expression : Expr} (here : inside expression.position) :
    Blames inside (fun value => inside value.position) (useValue expression) := by
  have last : Blames inside (fun value : Expr => inside value.position)
      (if expression.type = .void then do
        reject .voidValue expression.position
        return expression
      else return expression) :=
    .ite (.rejecting here) (.pure here)
  unfold useValue
  cases expression with
  | call info callee arguments =>
    cases callee with
    | function note function =>
      exact (Blames.isPending function).bind fun pending _ =>
        .ite ((Blames.defer function none here).bind fun _ _ => last) last
    | reference use => exact last
  | _ => exact last

theorem blames_checkConvert {value : Expr} (target : Ty) (inValue : inside value.position)
    (here : inside position) :
    Blames inside (fun _ => True) (checkConvert value target position) := by
  have last : Blames inside (fun _ => True)
      (do
        let known ← orFault value.staticValue
        unless value.type.canConvert target known do
          reject (.cannotConvert value.type target) position) :=
    (Blames.orFault _).bind fun known _ => .ite (.pure trivial) (.reject here)
  unfold checkConvert
  cases value with
  | function info function =>
    exact (Blames.isPending function).bind fun pending _ =>
      .ite ((Blames.defer function (some target) inValue).bind fun _ _ => last) last
  | _ => exact last

theorem blames_checkCondition {condition : Expr} (here : inside condition.position) :
    Blames inside (fun value => inside value.position) (checkCondition condition) :=
  .ite (.pure here) (.rejecting here)

/-! ## Literals and names -/

theorem blames_integerLiteral (text : String) (here : inside position) :
    Blames inside (fun value => inside value.position) (integerLiteral position text) :=
  .ite .faulting (.pure here)

theorem blames_codepointLiteral (text : String) (here : inside position) :
    Blames inside (fun value => inside value.position) (codepointLiteral position text) :=
  .ite (.rejecting here) (.pure here)

theorem position_quotedLiteral (position : Position) (text : String) :
    (quotedLiteral position text).position = position := by
  unfold quotedLiteral
  split <;> rfl

theorem blames_lookup (scopes : Scopes) (name : String) (here : inside position) :
    Blames inside (fun _ => True) (lookup scopes name position) := by
  unfold lookup
  split
  · exact .pure trivial
  · exact .reject here

theorem blames_reference (scopes : Scopes) {ident : Surface.Ident} (here : inside ident.position) :
    Blames inside (fun value => inside value.position) (reference scopes ident) := by
  refine (blames_lookup scopes ident.name here).bind fun entity _ => ?_
  cases entity with
  | value target => exact .pure here
  | function function => exact (Blames.current function).bind fun known _ => .pure here
  | library symbol => exact .reject here

theorem blames_assignable (scopes : Scopes) {ident : Surface.Ident} (here : inside ident.position) :
    Blames inside (fun _ => True) (assignable scopes ident) := by
  refine (blames_lookup scopes ident.name here).bind fun entity _ => ?_
  cases entity with
  | value target => exact .ite (.pure trivial) (.rejecting here)
  | function function => exact .reject here
  | library symbol => exact .reject here

/-! ## Operators -/

theorem blames_binary (operator : BinaryOperator) (left right : Expr) (here : inside position) :
    Blames inside (fun value => inside value.position) (binary position operator left right) := by
  refine (Blames.orFault _).bind fun leftValue _ => (Blames.orFault _).bind fun rightValue _ => ?_
  exact .ite (.ite (.rejecting here) (.ite (.pure here) (.rejecting here)))
    (.ite (.pure here) (.rejecting here))

theorem blames_unary (operator : UnaryOperator) (operand : Expr) (here : inside position) :
    Blames inside (fun value => inside value.position) (unary position operator operand) := by
  cases operator <;> exact .ite (.pure here) (.rejecting here)

theorem blames_addressOf (scopes : Scopes) {operand : Surface.Expr} (here : inside position)
    (within : operand.Within inside) :
    Blames inside (fun value => inside value.position) (addressOf scopes position operand) := by
  cases operand with
  | name ident =>
    refine (blames_reference scopes within).bind fun named _ => ?_
    cases named with
    | reference use => exact .pure here
    | _ => exact .reject here
  | _ => exact .reject here

theorem blames_dereference (operand : Expr) (here : inside position) :
    Blames inside (fun value => inside value.position) (dereference position operand) := by
  unfold dereference
  split
  · exact .pure here
  · exact .reject here

/-! ## Arrays -/

theorem blames_subscript (base index : Expr) (here : inside position) :
    Blames inside (fun value => inside value.position) (subscript position base index) := by
  unfold subscript
  split
  · next element _ =>
    have last : Blames inside (fun value : Expr => inside value.position)
        (return .subscript ⟨element, position⟩ base index) := .pure here
    refine .ite ((Blames.orFault _).bind fun known _ => ?_) (.rejecting here)
    cases known with
    | number place =>
      refine .ite ((Blames.orFault _).bind fun text _ => .rejecting here) ?_
      refine Blames.get.bind fun state _ => (Blames.orFault _).bind fun length _ => ?_
      cases length with
      | some length =>
        exact .ite ((Blames.orFault _).bind fun text _ => .rejecting here) last
      | none => exact last
    | _ => exact last
  · exact .reject here

theorem blames_array {elements : List Expr} (here : inside position)
    (inElements : ∀ element ∈ elements, inside element.position) :
    Blames inside (fun value => inside value.position) (array position elements) := by
  cases elements with
  | nil => exact .pure here
  | cons first rest =>
    refine Blames.bind (Blames.forIn fun element member => ?_) fun _ _ => .pure here
    exact .ite (.pure trivial) (.rejecting (inElements element (List.mem_cons_of_mem _ member)))

/-! ## Calls -/

theorem blames_checkArity (name : String) (expected actual : Nat) (here : inside position) :
    Blames inside (fun _ => True) (checkArity name expected actual position) :=
  .ite (.pure trivial) (.reject here)

theorem blames_findCalled (scopes : Scopes) (callee : Surface.Ident) (count : Nat)
    (here : inside position) :
    Blames inside (fun _ => True) (findCalled scopes position callee count) := by
  refine (blames_lookup scopes callee.name here).bind fun entity _ => ?_
  cases entity with
  | library symbol => exact (blames_checkArity _ _ _ here).bind fun _ _ => .pure trivial
  | function function =>
    exact (Blames.current function).bind fun known _ =>
      (blames_checkArity _ _ _ here).bind fun _ _ => .pure trivial
  | value target =>
    simp only
    split
    · exact (blames_checkArity _ _ _ here).bind fun _ _ => .pure trivial
    · exact .reject here

theorem blames_pass (passing : Passing) {argument : Expr} (here : inside argument.position) :
    Blames inside (fun value => inside value.position) (pass passing argument) := by
  cases passing with
  | into parameters =>
    cases parameters with
    | nil => exact .fault _
    | cons parameter parameters =>
      refine (blames_useValue here).bind fun value inValue => ?_
      refine (blames_checkConvert parameter inValue inValue).bind fun _ _ => .pure ?_
      split
      · exact inValue
      · rwa [Expr.position_withType]
  | values => exact blames_useValue here
  | plain => exact .pure here

theorem blames_apply (mapping items : Expr) (here : inside position) :
    Blames inside (fun value => inside value.position) (apply position mapping items) := by
  unfold apply
  split
  · split
    · exact .pure here
    · exact .ite (.pure here) (.rejecting here)
    · exact .reject here
  · exact .reject here

theorem blames_supplant {text pattern replacement : Expr} (here : inside position)
    (inParts : ∀ part ∈ [text, pattern, replacement], inside part.position) :
    Blames inside (fun value => inside value.position)
      (supplant position text pattern replacement) := by
  refine Blames.bind (Blames.forIn fun part member => ?_) fun _ _ => .pure here
  exact .ite (.pure trivial) (.rejecting (inParts part member))

theorem blames_callLibrary (symbol : LibraryFunction) {arguments : List Expr}
    (here : inside position) (inArguments : ∀ argument ∈ arguments, inside argument.position) :
    Blames inside (fun outcome => inside outcome.value.position)
      (callLibrary position symbol arguments) := by
  unfold callLibrary
  split
  · exact .pure (inArguments _ List.mem_cons_self)
  · exact (blames_apply _ _ here).bind fun value inValue => .pure inValue
  · exact (blames_supplant here inArguments).bind fun value inValue => .pure inValue
  · exact .fault _

theorem blames_describedCallee (scopes : Scopes) {callee : Surface.Ident}
    (here : inside callee.position) :
    Blames inside (fun _ => True) (describedCallee scopes callee) := by
  refine (blames_lookup scopes callee.name here).bind fun entity _ => ?_
  cases entity with
  | function function => exact (Blames.current function).bind fun known _ => .pure trivial
  | library symbol => exact .pure trivial
  | value target => exact .ite (.pure trivial) (.rejecting here)

theorem blames_call (scopes : Scopes) (callee : Surface.Ident) (count : Nat)
    {described : Analyzer Ty} {arguments : Passing → Analyzer (List Expr)} (here : inside position)
    (describes : Blames inside (fun _ => True) described)
    (passes : ∀ passing, Blames inside (fun values => ∀ value ∈ values, inside value.position)
      (arguments passing)) :
    Blames inside (fun outcome => inside outcome.value.position)
      (call scopes position callee count described arguments) := by
  refine (blames_findCalled scopes callee count here).bind fun called _ => ?_
  cases called with
  | callee target parameters result =>
    exact (passes (.into parameters)).bind fun values _ => .pure here
  | library symbol =>
    simp only
    split
    · exact describes.bind fun _ _ => .pure here
    · exact (passes .values).bind fun values inValues => blames_callLibrary symbol here inValues

/-! ## Types -/

mutual

/-- A written type is rejected at a position that it points at. -/
theorem points_resolve : ∀ {written : Surface.TypeSyntax}, written.Within inside →
    Points inside written.resolve
  | .named ident, within => by
    rw [Surface.TypeSyntax.resolve]
    split
    · exact .ok _
    · exact .error within
  | .pointer type, within | .optional type, within | .array type, within =>
    (points_resolve (show type.Within inside from within)).bind fun _ => .ok _
  | .function position listed (some result), within =>
    (points_resolveAll within.2.1).bind fun _ => (points_resolve within.2.2).bind fun _ => .ok _
  | .function position listed none, within => by
    refine (points_resolveAll within.2).bind fun types => ?_
    split
    · exact .ok _
    · exact .error within.1

theorem points_resolveAll : ∀ {written : List Surface.TypeSyntax},
    Surface.typesWithin inside written → Points inside (Surface.TypeSyntax.resolveAll written)
  | [], _ => .ok _
  | _ :: _, within =>
    (points_resolve within.1).bind fun _ => (points_resolveAll within.2).bind fun _ => .ok _

end

/-! ## Functions -/

theorem points_declare (scopes : Scopes) (cause : String → Cause) (name : String) (entity : Entity)
    (here : inside position) : Points inside (scopes.declare cause name entity position) := by
  refine Points.bind ?_ fun scope => .ok _
  unfold Scope.declare
  split
  · exact .error here
  · exact .ok _

theorem blames_parameters {written : List Surface.Parameter}
    (within : ∀ parameter ∈ written, parameter.Within inside) :
    Blames inside (fun _ => True) (parameters written) := by
  induction written with
  | nil => exact .pure trivial
  | cons parameter written ih =>
    obtain ⟨here, later⟩ := List.forall_mem_cons.mp within
    exact (Blames.orReject (points_resolve here.2)).bind fun type _ =>
      Blames.freshId.bind fun id _ => (ih later).bind fun rest _ => .pure trivial

theorem blames_declared {statement : Surface.Stmt} (within : statement.Within inside) :
    Blames inside (fun found => ∀ declared ∈ found, inside declared.1) (declared statement) := by
  cases statement with
  | function position name written result body =>
    obtain ⟨here, inParameters, inResult, -⟩ := within
    have resolved : Blames inside (fun _ => True)
        (result.mapM fun type => orReject type.resolve) := by
      cases result with
      | none => exact .pure trivial
      | some type =>
        exact (Blames.orReject (points_resolve (inResult type rfl))).bind fun type _ =>
          .pure trivial
    refine (blames_parameters inParameters).bind fun targets _ => resolved.bind fun type _ =>
      Blames.freshId.bind fun id _ => .pure ?_
    rintro _ ⟨⟩
    exact here
  | conjureBinding position name type body =>
    obtain ⟨here, inType, -⟩ := within
    refine (Blames.orReject (points_resolve inType)).bind fun type _ => ?_
    have last : ∀ result, Blames inside
        (fun found : Option (Position × Function) => ∀ declared ∈ found, inside declared.1)
        (do return some (position, ⟨← freshId, name, [], result, false⟩)) := by
      refine fun result => Blames.freshId.bind fun id _ => .pure ?_
      rintro _ ⟨⟩
      exact here
    simp only
    split
    · exact last _
    · exact .rejecting here
    · exact last _
  | _ => exact .pure (by simp)

theorem blames_declareAhead (region : Region) {body : List Surface.Stmt}
    (within : Surface.bodyWithin inside body) :
    Blames inside (fun _ => True) (declareAhead region body) := by
  induction body generalizing region with
  | nil => exact .pure trivial
  | cons statement body ih =>
    refine (blames_declared within.1).bind fun found inFound => ?_
    cases found with
    | none => exact ih region within.2
    | some found =>
      exact (Blames.orReject (points_declare _ _ _ _ (inFound found rfl))).bind fun scopes _ =>
        ih _ within.2

theorem blames_enter (scopes : Scopes) {body : List Surface.Stmt}
    (within : Surface.bodyWithin inside body) :
    Blames inside (fun _ => True) (enter scopes body) :=
  blames_declareAhead ⟨scopes, []⟩ within

theorem blames_declareParameters (scopes : Scopes) {written : List (Surface.Parameter × Variable)}
    (within : ∀ entry ∈ written, entry.1.Within inside) :
    Blames inside (fun _ => True) (declareParameters scopes written) := by
  induction written generalizing scopes with
  | nil => exact .pure trivial
  | cons entry written ih =>
    obtain ⟨here, later⟩ := List.forall_mem_cons.mp within
    exact (Blames.orReject (points_declare _ _ _ _ here.1)).bind fun scopes _ => ih scopes later

theorem blames_finishFunction (function : Function) (returns : Bool) (here : inside position) :
    Blames inside (fun _ => True) (finishFunction function returns position) :=
  .ite ((Blames.isPending function).bind fun _ _ =>
    .ite (.fixResult function .void) (.pure trivial)) (.ite (.pure trivial) (.reject here))

theorem blames_returningFunction (scopes : Scopes) (here : inside position) :
    Blames inside (fun _ => True) (returningFunction scopes position) := by
  unfold returningFunction
  split
  · exact .pure trivial
  · exact .reject here

theorem blames_returnVoid (scopes : Scopes) (here : inside position) :
    Blames inside (fun _ => True) (returnVoid scopes position) := by
  refine (blames_returningFunction scopes here).bind fun function _ =>
    (Blames.isPending function).bind fun pending _ => .ite ?_ ?_
  · exact (Blames.fixResult function .void).bind fun _ _ => .pure trivial
  · exact (Blames.current function).bind fun known _ => .ite (.pure trivial) (.rejecting here)

theorem blames_returnValue (function : Function) {value : Expr} (here : inside position)
    (inValue : inside value.position) :
    Blames inside (fun _ => True) (returnValue function position value) := by
  refine (Blames.isPending function).bind fun pending _ => .ite ?_ ?_
  · exact (Blames.fixResult function value.type).bind fun _ _ => .pure trivial
  · refine (Blames.current function).bind fun known _ => .ite (.rejecting here) ?_
    exact (blames_checkConvert known.result inValue here).bind fun _ _ => .pure trivial

/-! ## Other statements -/

theorem blames_declareVariable (region : Region) (changeable : Bool) (ident : Surface.Ident)
    {written : Option Surface.TypeSyntax} {value : Expr} (here : inside position)
    (inType : ∀ type ∈ written, type.Within inside) (inValue : inside value.position) :
    Blames inside (fun _ => True)
      (declareVariable region position changeable ident written value) := by
  have noted (target : Variable) : Blames inside (fun _ => True)
      (modify fun state : State =>
        { state with constants := (target.id, value) :: state.constants }) :=
    .modify fun _ within => within
  have last (type : Ty) : Blames inside (fun _ => True)
      (do
        let target : Variable := ⟨← freshId, ident.name, type, changeable⟩
        let scopes ← orReject
          (region.scopes.declare .alreadyDeclared target.name (.value target) position)
        unless changeable do
          modify fun state => { state with constants := (target.id, value) :: state.constants }
        return (Stmt.declare position target value, { region with scopes := scopes })) := by
    refine Blames.freshId.bind fun id _ =>
      (Blames.orReject (points_declare _ _ _ _ here)).bind fun scopes _ => .ite (.pure trivial) ?_
    exact (noted _).bind fun _ _ => .pure trivial
  cases written with
  | some written =>
    exact (Blames.orReject (points_resolve (inType written rfl))).bind fun type _ =>
      (blames_checkConvert type inValue here).bind fun _ _ => last type
  | none =>
    cases value with
    | null info => exact .rejecting here
    | _ => exact last _

theorem blames_affix (region : Region) (module symbol : String) (here : inside position) :
    Blames inside (fun _ => True) (affix region position module symbol) := by
  unfold affix
  refine .ite ?_ (.rejecting here)
  split
  · exact .reject here
  · exact (Blames.orReject (points_declare _ _ _ _ here)).bind fun scopes _ => .pure trivial

theorem blames_stepVariable (scopes : Scopes) (step : Step) {ident : Surface.Ident}
    (here : inside position) (inTarget : inside ident.position) :
    Blames inside (fun _ => True) (stepVariable scopes position step ident) := by
  refine (blames_assignable scopes inTarget).bind fun target _ => ?_
  exact .ite (.pure trivial) (.rejecting here)

theorem blames_breakLoop (scopes : Scopes) (here : inside position) :
    Blames inside (fun _ => True) (breakLoop scopes position) :=
  .ite (.pure trivial) (.rejecting here)

theorem blames_beginMain (here : inside position) :
    Blames inside (fun _ => True) (beginMain position) :=
  Blames.get.bind fun _ _ => .ite (.rejecting here) (.modify fun _ within => within)

end

end Analysis

end GlyphCompiler
