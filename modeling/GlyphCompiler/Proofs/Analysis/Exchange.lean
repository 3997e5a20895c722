/-
# Functions with declared results in either order

Declaring one of two functions numbers it and its parameters, and analyzing its body
leaves what was known before as it was: its result is declared, so nothing around it
waits for it. So two such functions may be declared, and analyzed, in either order.
Every other construct does to programs that are written alike what the rules do.
-/

import GlyphCompiler.Proofs.Analysis.Control
import GlyphCompiler.Proofs.Analysis.Simulation

namespace GlyphCompiler

namespace Analysis

variable {matching wide : Matching} {first second : Position}

/-! ## Steps that differ only in how they fail -/

/-- A step may be replaced by one that yields the same, on either side. -/
theorem Simulates.of_yields {α β : Type} {alike : Matching → α → β → Prop}
    {step step' : Analyzer α} {other other' : Analyzer β}
    (simulates : Simulates matching alike step' other')
    (same : ∀ before result after, Yields step before result after ↔ Yields step' before result after)
    (otherSame : ∀ before result after,
      Yields other before result after ↔ Yields other' before result after) :
    Simulates matching alike step other := by
  intro before otherBefore agree
  have ran := simulates before otherBefore agree
  have here := same before
  have there := otherSame otherBefore
  unfold Yields at here there
  generalize step.run before = outcome at here ⊢
  generalize step'.run before = outcome' at here ran
  generalize other.run otherBefore = otherOutcome at there ⊢
  generalize other'.run otherBefore = otherOutcome' at there ran
  cases ran with
  | ok advance agree results =>
    rw [(here _ _).mpr rfl, (there _ _).mpr rfl]
    exact .ok advance agree results
  | error =>
    cases outcome with
    | ok result after => cases (here result after).mp rfl
    | error failure after =>
      cases otherOutcome with
      | ok result after => cases (there result after).mp rfl
      | error failure after => exact .error

/-- A result that matches has been yielded. -/
theorem Simulates.yielded {α β : Type} {alike : Matching → α → β → Prop} {step : Analyzer α}
    {other : Analyzer β} (simulates : Simulates matching alike step other) :
    Simulates matching
      (fun wide result otherResult => alike wide result otherResult ∧
        ∃ before after, Yields step before result after) step other := by
  intro before otherBefore agree
  have ran := simulates before otherBefore agree
  cases isOutcome : step.run before with
  | ok result after =>
    rw [isOutcome] at ran
    generalize other.run otherBefore = otherOutcome at ran ⊢
    cases ran with
    | ok advance agree results => exact .ok advance agree ⟨results, before, after, isOutcome⟩
  | error failure after =>
    rw [isOutcome] at ran
    generalize other.run otherBefore = otherOutcome at ran ⊢
    cases ran
    exact .error

/-! ## Two declarations in one scope -/

/-- Declare two functions in the innermost scope. -/
def declarePair (scopes : Scopes) (earlier later : Function) (position next : Position) :
    Except Diagnostic Scopes := do
  let inner ← scopes.declare .alreadyDeclared earlier.name (.function earlier) position
  inner.declare .alreadyDeclared later.name (.function later) next

theorem declarePair_eq (scopes : Scopes) (earlier later : Function) (position next : Position) :
    declarePair scopes earlier later position next =
      match scopes.innermost.find? earlier.name, scopes.innermost.find? later.name with
      | some _, _ => .error ⟨.alreadyDeclared earlier.name, position⟩
      | none, some _ => .error ⟨.alreadyDeclared later.name, next⟩
      | none, none =>
        if later.name = earlier.name then .error ⟨.alreadyDeclared later.name, next⟩
        else .ok ({ scopes.innermost with
          bindings := scopes.innermost.bindings ++ [(earlier.name, .function earlier)] ++
            [(later.name, .function later)] } :: scopes.tail) := by
  unfold declarePair GlyphCompiler.Scopes.declare Scope.declare
  generalize GlyphCompiler.Scopes.innermost scopes = scope
  cases found : scope.find? earlier.name with
  | some entity => rfl
  | none =>
    simp only [bind, Except.bind, pure, Except.pure, GlyphCompiler.Scopes.innermost,
      List.headD_cons, List.tail_cons, Scope.find?_append]
    cases scope.find? later.name with
    | some entity => rfl
    | none => by_cases same : later.name = earlier.name <;> simp [same]

/-- Two functions are declared in one order as in the other one. -/
theorem Scopes.Alike.declarePair {scopes others : Scopes}
    {earlier later otherEarlier otherLater : Function}
    {position next otherPosition otherNext : Position} (alike : Scopes.Alike matching scopes others)
    (firsts : earlier.Alike matching otherEarlier) (seconds : later.Alike matching otherLater) :
    Settles (Scopes.Alike matching) (declarePair scopes earlier later position next)
      (Analysis.declarePair others otherLater otherEarlier otherPosition otherNext) := by
  rw [declarePair_eq, declarePair_eq, ← firsts.name, ← seconds.name]
  have innermost := alike.innermost
  have outer : List.Forall₂ (Scope.Alike matching) scopes.tail others.tail := by
    cases alike with
    | nil => exact .nil
    | cons _ below => exact below
  generalize GlyphCompiler.Scopes.innermost scopes = scope at innermost ⊢
  generalize GlyphCompiler.Scopes.innermost others = other at innermost ⊢
  have foundEarlier := innermost.found earlier.name
  have foundLater := innermost.found later.name
  revert foundEarlier foundLater
  generalize scope.find? earlier.name = one
  generalize other.find? earlier.name = otherOne
  generalize scope.find? later.name = two
  generalize other.find? later.name = otherTwo
  rintro (_ | _) (_ | _)
  · exact .error
  · exact .error
  · exact .error
  by_cases same : later.name = earlier.name
  · rw [if_pos same, if_pos same.symm]
    exact .error
  rw [if_neg same, if_neg (Ne.symm same)]
  refine .ok (.cons ⟨fun asked => ?_, innermost.inLoop, innermost.owner⟩ outer)
  have before := innermost.found asked
  unfold Scope.find? at before ⊢
  simp only [List.lookup_append, List.lookup_cons, List.lookup_nil]
  revert before
  generalize scope.bindings.lookup asked = outside
  generalize other.bindings.lookup asked = otherOutside
  rintro (here | _)
  · exact .some here
  by_cases isEarlier : asked = earlier.name
  · have notLater : (asked == later.name) = false := by
      rw [beq_eq_false_iff_ne, isEarlier]
      exact Ne.symm same
    rw [beq_iff_eq.mpr isEarlier, notLater]
    exact .some (.function firsts)
  · rw [beq_eq_false_iff_ne.mpr isEarlier]
    cases asked == later.name with
    | true => exact .some (.function seconds)
    | false => exact .none

/-! ## Functions that are declared ahead -/

/-- The function that a declaration with a declared result declares. -/
def signature : Surface.Stmt → Analyzer Function
  | .function _ name written (some result) _ => do
    let parameters ← parameters written
    let type ← orReject result.resolve
    return ⟨← freshId, name, parameters, type, false⟩
  | _ => throw (.fault .inconsistent)

/-- Where a declaration of a function stands. -/
def declaredAt : Surface.Stmt → Position
  | .function position _ _ _ _ => position
  | _ => .start

theorem declared_of_isDeclaredAt {statement : Surface.Stmt} {place : Position}
    (isDeclared : statement.IsDeclaredAt place) :
    declared statement = do return some (declaredAt statement, ← signature statement) := by
  cases statement with
  | function position name written result body =>
    cases result with
    | none => exact isDeclared.elim
    | some result => simp [declared, signature, declaredAt]
  | _ => exact isDeclared.elim

theorem isDeclaredAt_of_alike {may : Surface.Stmt → Prop} {statement other : Surface.Stmt}
    {place : Position} (alike : statement.Alike first second may other)
    (isDeclared : statement.IsDeclaredAt place) : other.IsDeclaredAt (declaredAt other) := by
  cases alike with
  | function name parametersAlike results _ =>
    cases results with
    | none => exact isDeclared.elim
    | some types => rfl
  | _ => exact isDeclared.elim

theorem simulates_signature {may : Surface.Stmt → Prop} {written other : Surface.Stmt}
    (alike : written.Alike first second may other) :
    Simulates matching
      (fun wide function other => function.Alike wide other ∧ function.inferred = false)
      (signature written) (signature other) := by
  cases alike with
  | function name parametersAlike results _ =>
    cases results with
    | none => exact .throw _ _
    | some types =>
      refine (simulates_parameters parametersAlike).bind fun _ _ _ _ targets => ?_
      refine (simulates_resolve types).bindSame fun _ early type => ?_
      refine Simulates.freshId.bind fun _ late id otherId matched => .pure ⟨?_, rfl⟩
      exact ⟨matched, rfl, Variable.alikes_mono targets (early.trans late), rfl, rfl⟩
  | _ => exact .throw _ _

/-- To declare a function is only to number it and its parameters. -/
theorem leaves_signature (statement : Surface.Stmt) : Leaves (signature statement) := by
  intro before function after yields
  have numbers : ∃ count, after = before.numbering count := by
    unfold signature at yields
    split at yields
    · simp only [yields_bind, yields_orReject, yields_pure, yields_freshId] at yields
      obtain ⟨targets, _, found, type, _, ⟨-, rfl⟩, id, _, ⟨-, rfl⟩, -, rfl⟩ := yields
      obtain ⟨-, -, -, rfl⟩ := yields_parameters found
      exact ⟨targets.length + 1, rfl⟩
    · cases yields
  obtain ⟨count, rfl⟩ := numbers
  exact ⟨.numbering before count, rfl⟩

/-- Two functions with declared results are declared ahead once both are numbered. -/
theorem yields_declareAhead_pair {region result : Region} {earlier later : Surface.Stmt}
    {rest : List Surface.Stmt} {place next : Position} {before after : State}
    (isFirst : earlier.IsDeclaredAt place) (isSecond : later.IsDeclaredAt next) :
    Yields (declareAhead region (earlier :: later :: rest)) before result after ↔
      Yields (do
        let functions ← both (signature earlier) (signature later)
        let scopes ← orReject (declarePair region.scopes functions.1 functions.2
          (declaredAt earlier) (declaredAt later))
        declareAhead ⟨scopes, region.ahead ++ [functions.1, functions.2]⟩ rest) before result after := by
  simp only [declareAhead, declared_of_isDeclaredAt isFirst, declared_of_isDeclaredAt isSecond,
    both, declarePair, bind_assoc, pure_bind, yields_bind, yields_orReject, List.append_assoc, List.cons_append, List.nil_append]
  constructor
  · rintro ⟨function, _, isFunction, inner, _, ⟨declares, rfl⟩, other, _, isOther, scopes, _,
      ⟨declaresOther, rfl⟩, rest⟩
    refine ⟨function, _, isFunction, other, _, isOther, scopes, _, ⟨?_, rfl⟩, rest⟩
    rw [declares]
    exact declaresOther
  · rintro ⟨function, _, isFunction, other, _, isOther, scopes, _, ⟨declares, rfl⟩, rest⟩
    cases isInner : region.scopes.declare .alreadyDeclared function.name (.function function)
        (declaredAt earlier) with
    | error rejected =>
      rw [isInner] at declares
      cases declares
    | ok inner =>
      rw [isInner] at declares
      exact ⟨function, _, isFunction, inner, _, ⟨isInner, rfl⟩, other, _, isOther, scopes, _,
        ⟨declares, rfl⟩, rest⟩

/-- What has been opened for two lists of statements matches. -/
structure Opened (layout : Surface.Layout) (written : List Surface.Stmt) (region other : Region)
    (matching : Matching) (result otherResult : Region) : Prop where
  scopes : Scopes.Alike matching result.scopes otherResult.scopes
  ahead : ∃ opened others, result.ahead = region.ahead ++ opened ∧
    otherResult.ahead = other.ahead ++ others ∧ AheadAlike matching layout written opened others

theorem simulates_declareAhead {matching : Matching} {may : Surface.Stmt → Prop}
    {layout : Surface.Layout} {written others : List Surface.Stmt} {region other : Region}
    (scopes : Scopes.Alike matching region.scopes other.scopes)
    (bodies : Surface.BodyAlike first second may layout written others) :
    Simulates matching (Opened layout written region other) (declareAhead region written)
      (declareAhead other others) := by
  cases bodies with
  | nil => exact .pure ⟨scopes, [], [], by simp, by simp, .done⟩
  | cons here below =>
    unfold declareAhead
    refine (simulates_declared here).bind ?_
    rintro wide within found otherFound ⟨alike, declares⟩
    cases alike with
    | none =>
      refine (simulates_declareAhead (scopes.mono within) below).imp ?_
      rintro wider _ _ _ ⟨scopes, opened, others, isOpened, isOther, ahead⟩
      exact ⟨scopes, opened, others, isOpened, isOther, .skip declares.symm ahead⟩
    | @some found otherFound functions =>
      obtain ⟨position, function⟩ := found
      obtain ⟨otherPosition, otherFunction⟩ := otherFound
      dsimp only at functions ⊢
      rw [← functions.name]
      refine (Simulates.orReject_of_settles ((scopes.mono within).declare (.function functions))).bind
        fun wider further inner otherInner innerAlike => ?_
      refine (simulates_declareAhead innerAlike below).imp ?_
      rintro widest _ _ furthest ⟨scopes, opened, others, isOpened, isOther, ahead⟩
      refine ⟨scopes, function :: opened, otherFunction :: others, ?_, ?_,
        .one declares.symm ?_ ahead⟩
      · rw [isOpened, List.append_assoc, List.singleton_append]
      · rw [isOther, List.append_assoc, List.singleton_append]
      · exact functions.mono (further.trans furthest)
  | exchange isFirst isSecond _ _ _ _ firsts seconds below =>
    have isOtherFirst := isDeclaredAt_of_alike firsts isFirst
    have isOtherSecond := isDeclaredAt_of_alike seconds isSecond
    refine .of_yields ?_ (fun _ _ _ => yields_declareAhead_pair isFirst isSecond)
      (fun _ _ _ => yields_declareAhead_pair isOtherSecond isOtherFirst)
    have numbered := (@simulates_signature matching _ _ _ _ _ firsts).exchange
      (simulates_signature seconds) (fun within alike => ⟨alike.1.mono within, alike.2⟩)
      (fun within alike => ⟨alike.1.mono within, alike.2⟩)
      (leaves_signature _) (leaves_signature _) (leaves_signature _) (leaves_signature _)
    refine numbered.bind ?_
    rintro wide within functions otherFunctions ⟨⟨earliers, declaresEarlier⟩, laters, declaresLater⟩
    refine (Simulates.orReject_of_settles ((scopes.mono within).declarePair earliers laters)).bind
      fun wider further inner otherInner innerAlike => ?_
    refine (simulates_declareAhead innerAlike below).imp ?_
    rintro widest _ _ furthest ⟨scopes, opened, others, isOpened, isOther, ahead⟩
    have outwards := further.trans furthest
    refine ⟨scopes, functions.1 :: functions.2 :: opened,
      otherFunctions.1 :: otherFunctions.2 :: others, ?_, ?_, .two declaresEarlier declaresLater
        (earliers.mono outwards) (laters.mono outwards) ahead⟩
    · rw [isOpened, List.append_assoc, List.cons_append, List.singleton_append]
    · rw [isOther, List.append_assoc, List.cons_append, List.singleton_append]
termination_by sizeOf written

theorem simulates_enter {may : Surface.Stmt → Prop} {layout : Surface.Layout}
    {written others : List Surface.Stmt} {scopes otherScopes : Scopes}
    (bodies : Surface.BodyAlike first second may layout written others)
    (alike : Scopes.Alike matching scopes otherScopes) :
    Simulates matching (Region.Alike layout written) (enter scopes written)
      (enter otherScopes others) := by
  refine (simulates_declareAhead alike bodies).imp ?_
  rintro wide region other - ⟨scopes, opened, others, isOpened, isOther, ahead⟩
  obtain rfl : region.ahead = opened := isOpened
  obtain rfl : other.ahead = others := isOther
  exact ⟨scopes, ahead⟩

/-! ## Bodies of functions -/

/-- Analyze the declaration of a function that is ahead. -/
def declaration (scopes : Scopes) (function : Function) : Surface.Stmt → Analyzer Stmt
  | .function position _ parameters _ written => do
    let inner ← declareParameters (scopes.functionBody function)
      (parameters.zip function.parameters)
    let body ← statements (← enter inner written) written
    finishFunction function (alwaysReturns body) position
    return .function position (← current function) body
  | _ => throw (.fault .inconsistent)

theorem statement_function (scopes : Scopes) (function : Function) (ahead : List Function)
    (position : Position) (name : String) (parameters : List Surface.Parameter)
    (result : Option Surface.TypeSyntax) (written : List Surface.Stmt) :
    statement ⟨scopes, function :: ahead⟩ (.function position name parameters result written) = do
      return (← declaration scopes function (.function position name parameters result written),
        ⟨scopes, ahead⟩) := by
  simp [statement, declaration]

theorem simulates_declaration_of_body {may : Surface.Stmt → Prop} {layout : Surface.Layout}
    {scopes others : Scopes} {function other : Function} {position otherPosition : Position}
    {name otherName : String} {parameters otherParameters : List Surface.Parameter}
    {result otherResult : Option Surface.TypeSyntax} {written otherWritten : List Surface.Stmt}
    (alike : Scopes.Alike matching scopes others) (functions : function.Alike matching other)
    (parametersAlike : List.Forall₂ Surface.Parameter.Alike parameters otherParameters)
    (bodies : Surface.BodyAlike first second may layout written otherWritten)
    (analyzes : ∀ {wide region otherRegion}, Region.Alike layout written wide region otherRegion →
      Simulates wide (BodyAlike first second) (statements region written)
        (statements otherRegion otherWritten)) :
    Simulates matching (Stmt.Alike first second)
      (declaration scopes function (.function position name parameters result written))
      (declaration others other
        (.function otherPosition otherName otherParameters otherResult otherWritten)) := by
  refine (simulates_declareParameters (alike.functionBody functions) parametersAlike
    functions.parameters).bind fun _ opened _ _ inner => ?_
  refine (simulates_enter bodies inner).bind fun _ entered _ _ regions => ?_
  refine (analyzes regions).bind fun _ analyzed _ _ below => ?_
  rw [below.alwaysReturns]
  have within := opened.trans (entered.trans analyzed)
  refine (simulates_finishFunction (functions.mono within) _).bindSame fun _ finished _ => ?_
  refine (Simulates.current (functions.mono (within.trans finished))).bind
    fun _ known _ _ targets => ?_
  exact .pure (.function targets (below.mono (finished.trans known)))

/-- The analysis of a function with a declared result leaves what was known as it was. -/
theorem leaves_declaration {scopes : Scopes} {function : Function} {written : Surface.Stmt}
    (declares : function.inferred = false) (without : written.hasMain = false) :
    Leaves (declaration scopes function written) := by
  intro before result after yields
  cases written with
  | function position name parameters type written =>
    have stated : Yields (statement ⟨scopes, [function]⟩
        (.function position name parameters type written)) before (result, ⟨scopes, []⟩) after := by
      rw [statement_function, yields_bind]
      exact ⟨result, after, yields, yields_pure.mpr ⟨rfl, rfl⟩⟩
    cases analyzes_statement stated with
    | function _ _ owner _ body _ =>
      constructor
      · refine (body.keeps.mono ?_).trans (.finishing fun inferred => ?_)
        · rintro id - ⟨other, isOwner | member, inferred, -⟩
          · obtain rfl : function = other := Option.some.inj (owner.symm.trans isOwner)
            exact Bool.false_ne_true (declares.symm.trans inferred)
          · cases member
        · exact Bool.false_ne_true (declares.symm.trans inferred)
      · exact (State.mainSeen_finishing _ _).trans (body.controlled before without).1
  | _ => cases yields

/-- A function with a declared result still has one when its body has been analyzed. -/
theorem isDeclaredAt_of_yields_declaration {scopes : Scopes} {function : Function}
    {written : Surface.Stmt} {place : Position} {before after : State} {result : Stmt}
    (isDeclared : written.IsDeclaredAt place) (declares : function.inferred = false)
    (yields : Yields (declaration scopes function written) before result after) :
    result.IsDeclaredAt place := by
  cases written with
  | function position name parameters type written =>
    cases type with
    | none => exact isDeclared.elim
    | some type =>
      simp only [declaration, yields_bind, yields_current, yields_pure] at yields
      obtain ⟨_, _, -, _, _, -, body, _, -, _, _, -, _, _, ⟨rfl, -⟩, rfl, -⟩ := yields
      exact ⟨isDeclared, declares⟩
  | _ => cases yields

/-- Two functions with declared results are analyzed one after the other. -/
theorem statements_pair {scopes : Scopes} {function other : Function} {ahead : List Function}
    {earlier later : Surface.Stmt} {rest : List Surface.Stmt} {place next : Position}
    (isFirst : earlier.IsDeclaredAt place) (isSecond : later.IsDeclaredAt next) :
    statements ⟨scopes, function :: other :: ahead⟩ (earlier :: later :: rest) = do
      let declared ← both (declaration scopes function earlier) (declaration scopes other later)
      let others ← statements ⟨scopes, ahead⟩ rest
      return declared.1 :: declared.2 :: others := by
  cases earlier with
  | function =>
    cases later with
    | function => simp [statements, statement_function, both]
    | _ => exact isSecond.elim
  | _ => exact isFirst.elim

/-! ## Everything that is written alike -/

-- The recursion is on the size of what is written: what a description describes, and what
-- stands in a `main`, is told apart only after the step for the whole of it.

mutual

/-- Expressions that are written alike are analyzed alike. -/
theorem simulates_expression {matching : Matching} {scopes others : Scopes}
    {written other : Surface.Expr} (alike : Scopes.Alike matching scopes others) :
    written.Alike first second Surface.Stmt.Mainless other →
      Simulates matching (Expr.Alike first second) (expression scopes written)
        (expression others other)
  | .integer text => simulates_integerLiteral text
  | .decimal text => .pure (.number (by rfl) _)
  | .string text => .pure (.string (by rfl) _)
  | .quoted text => .pure (alike_quotedLiteral text)
  | .codepoint text => simulates_codepointLiteral text
  | .bool value => .pure (.bool (by rfl) value)
  | .null => .pure (.null (by rfl))
  | .name name => simulates_reference alike name
  | .binary operator lefts rights => by
    refine (simulates_expression alike lefts).bind fun _ one _ _ left =>
      (simulates_useValue left).bind fun _ two _ _ left => ?_
    refine (simulates_expression (alike.mono (one.trans two)) rights).bind fun _ three _ _ right =>
      (simulates_useValue right).bind fun _ four _ _ right => ?_
    exact simulates_binary operator (left.mono (three.trans four)) right
  | .unary operator operands =>
    (simulates_expression alike operands).bind fun _ _ _ _ operand =>
      (simulates_useValue operand).bind fun _ _ _ _ operand => simulates_unary operator operand
  | .addressOf operands => simulates_addressOf alike operands
  | .dereference operands =>
    (simulates_expression alike operands).bind fun _ _ _ _ operand => simulates_dereference operand
  | .subscript bases indices => by
    refine (simulates_expression alike bases).bind fun _ one _ _ base =>
      (simulates_useValue base).bind fun _ two _ _ base => ?_
    refine (simulates_expression (alike.mono (one.trans two)) indices).bind
      fun _ three _ _ index => (simulates_useValue index).bind fun _ four _ _ index => ?_
    exact simulates_subscript (base.mono (three.trans four)) index
  | .call name below => by
    unfold expression
    rw [below.length_eq]
    refine (simulates_call alike name _
      (fun _ within => simulates_described (alike.mono within) below)
      (fun _ within passing => simulates_arguments (alike.mono within) passing below)).bind
        fun _ _ outcome otherOutcome outcomes => ?_
    cases outcomes with
    | printed values => exact .reject _ _ _ _
    | expression expressions => exact .pure expressions
  | .array below =>
    (simulates_arguments alike .values below).bind fun _ _ _ _ elements => simulates_array elements
  | .conjure bodies => by
    refine Simulates.freshId.bind fun wide numbered id otherId matched => ?_
    have functions : Function.Alike wide ⟨id, "conjure", [], .any, true⟩
        ⟨otherId, "conjure", [], .any, true⟩ := ⟨matched, rfl, .nil, rfl, rfl⟩
    refine (simulates_enter bodies ((alike.mono numbered).functionBody functions)).bind
      fun _ entered _ _ regions => ?_
    refine (simulates_statements regions bodies).bind fun _ analyzed _ _ below => ?_
    rw [below.containsReturn]
    refine .ite ?_ .rejecting
    exact (Simulates.current (functions.mono (entered.trans analyzed))).bind
      fun _ within _ _ known => .pure (.conjure known.result (below.mono within))

termination_by sizeOf written

theorem simulates_arguments {matching : Matching} {scopes others : Scopes}
    {written otherWritten : List Surface.Expr} (alike : Scopes.Alike matching scopes others)
    (passing : Passing) :
    Surface.ExprsAlike first second Surface.Stmt.Mainless written otherWritten →
      Simulates matching (ExprsAlike first second) (arguments scopes passing written)
        (arguments others passing otherWritten)
  | .nil => .pure .nil
  | .cons here below => by
    refine (simulates_expression alike here).bind fun _ one _ _ argument =>
      (simulates_pass passing argument).bind fun _ two _ _ argument => ?_
    refine (simulates_arguments (alike.mono (one.trans two)) passing.rest below).bind
      fun _ three _ _ rest => .pure (.cons (argument.mono three) rest)

termination_by sizeOf written

theorem simulates_described {matching : Matching} {scopes others : Scopes}
    {written otherWritten : List Surface.Expr} (alike : Scopes.Alike matching scopes others) :
    Surface.ExprsAlike first second Surface.Stmt.Mainless written otherWritten →
      Simulates matching (fun _ => Eq) (described scopes written) (described others otherWritten)
  | .nil => .throw _ _
  | .cons here .nil => by
    have whole := simulates_expression alike here
    -- Of a call only the type of what is called is described.
    cases here with
    | call name below =>
      refine (simulates_describedCallee alike name).bindSame fun _ within type => ?_
      exact (simulates_arguments (alike.mono within) .plain below).bind fun _ _ _ _ _ => .pure rfl
    | _ => exact whole.bind fun _ _ _ _ described => .pure described.type
  | .cons _ (.cons _ _) => by
    rw [described_many, described_many]
    exact .throw _ _

termination_by sizeOf written

theorem simulates_statement {matching : Matching} {layout : Surface.Layout}
    {rest : List Surface.Stmt} {region otherRegion : Region} {written other : Surface.Stmt}
    (regions : Region.Alike (.one layout) (written :: rest) matching region otherRegion) :
    written.Alike first second Surface.Stmt.Mainless other →
      Simulates matching (Onward first second layout rest) (statement region written)
        (statement otherRegion other)
  | .main here => by
    obtain ⟨alike, ahead⟩ := regions
    have inner {wide : Matching} {region otherRegion : Region}
        (opened : Region.Alike (.one .done) [_] wide region otherRegion) :=
      simulates_statement opened here
    have single : Surface.BodyAlike first second Surface.Stmt.Mainless (.one .done) [_] [_] := .cons here .nil
    cases here with
    | block bodies =>
      refine simulates_beginMain.bindSame fun _ begun _ => ?_
      refine (simulates_enter bodies (alike.mono begun).block).bind fun _ entered _ _ opened => ?_
      refine (simulates_statements opened bodies).bind fun _ analyzed _ _ below => ?_
      have within := begun.trans (entered.trans analyzed)
      exact .pure ⟨.main below, alike.mono within, (ahead.past rfl).mono within⟩
    | _ =>
      rw [statement_main _ _ _ (by simp), statement_main _ _ _ (by simp)]
      refine simulates_beginMain.bindSame fun _ begun _ => ?_
      refine (simulates_enter single (alike.mono begun)).bind fun _ entered _ _ opened => ?_
      refine (inner opened).bind fun _ analyzed _ _ onward => .pure ?_
      have within := begun.trans (entered.trans analyzed)
      exact ⟨.main (.cons onward.statements .nil), onward.regions.scopes, (ahead.past rfl).mono within⟩
  | .affix module symbol => simulates_affix regions.scopes (regions.ahead.past rfl) module symbol
  | .function name parametersAlike results bodies => by
    obtain ⟨scopes, functions⟩ := region
    obtain ⟨others, otherFunctions⟩ := otherRegion
    obtain ⟨alike, ahead⟩ := regions
    cases ahead with
    | skip declares => cases declares
    | one _ functions below =>
      rw [statement_function, statement_function]
      exact (simulates_declaration_of_body alike functions parametersAlike bodies
        fun opened => simulates_statements opened bodies).bind fun _ within _ _ declared =>
          .pure ⟨declared, alike.mono within, below.mono within⟩
  | .conjureBinding name types bodies => by
    obtain ⟨scopes, functions⟩ := region
    obtain ⟨others, otherFunctions⟩ := otherRegion
    obtain ⟨alike, ahead⟩ := regions
    cases ahead with
    | skip declares => cases declares
    | one _ functions ahead =>
      refine (simulates_enter bodies (alike.functionBody functions)).bind
        fun _ entered _ _ opened => ?_
      refine (simulates_statements opened bodies).bind fun _ analyzed _ _ below => ?_
      rw [below.containsReturn]
      have within := entered.trans analyzed
      exact (simulates_finishFunction (functions.mono within) _).bindSame fun _ finished _ =>
        .pure ⟨.function (functions.mono (within.trans finished)) (below.mono finished),
          alike.mono (within.trans finished), ahead.mono (within.trans finished)⟩
  | .declare changeable name types values => by
    refine (simulates_expression regions.scopes values).bind fun _ one _ _ value =>
      (simulates_useValue value).bind fun _ two _ _ value => ?_
    exact simulates_declareVariable changeable (regions.scopes.mono (one.trans two))
      ((regions.ahead.past rfl).mono (one.trans two)) name types value
  | .assign name values => by
    refine (simulates_assignable regions.scopes name).bind fun _ one _ _ targets => ?_
    refine (simulates_expression (regions.scopes.mono one) values).bind fun _ two _ _ value =>
      (simulates_useValue value).bind fun _ three _ _ value => ?_
    rw [targets.type]
    have within := one.trans (two.trans three)
    exact (simulates_checkConvert _ value).bindSame fun _ four _ =>
      .pure ⟨.assign (targets.mono (two.trans (three.trans four))) (value.mono four),
        regions.scopes.mono (within.trans four), (regions.ahead.past rfl).mono (within.trans four)⟩
  | .step step name =>
    (simulates_stepVariable regions.scopes name step).bind fun _ within _ _ stepped =>
      .pure ⟨stepped, regions.scopes.mono within, (regions.ahead.past rfl).mono within⟩
  | .branch conditions consequents alternatives => by
    have alike := regions.scopes
    refine (simulates_expression alike conditions).bind fun _ one _ _ condition =>
      (simulates_checkCondition condition).bind fun _ two _ _ condition => ?_
    have decided := one.trans two
    refine (simulates_enter consequents (alike.mono decided).block).bind fun _ three _ _ opened => ?_
    refine (simulates_statements opened consequents).bind fun _ four _ _ consequent => ?_
    have chosen := decided.trans (three.trans four)
    refine (simulates_enter alternatives (alike.mono chosen).block).bind fun _ five _ _ opened => ?_
    refine (simulates_statements opened alternatives).bind fun _ six _ _ alternative => ?_
    have last := five.trans six
    exact .pure ⟨.branch (condition.mono ((three.trans four).trans last)) (consequent.mono last)
      alternative, alike.mono (chosen.trans last), (regions.ahead.past rfl).mono (chosen.trans last)⟩
  | .loop conditions bodies => by
    have alike := regions.scopes
    refine (simulates_expression alike conditions).bind fun _ one _ _ condition =>
      (simulates_checkCondition condition).bind fun _ two _ _ condition => ?_
    have decided := one.trans two
    refine (simulates_enter bodies (alike.mono decided).loop).bind fun _ three _ _ opened => ?_
    refine (simulates_statements opened bodies).bind fun _ four _ _ body => ?_
    have last := three.trans four
    exact .pure ⟨.loop (condition.mono last) body, alike.mono (decided.trans last),
      (regions.ahead.past rfl).mono (decided.trans last)⟩
  | .breakLoop =>
    (simulates_breakLoop regions.scopes).bind fun _ within _ _ left =>
      .pure ⟨left, regions.scopes.mono within, (regions.ahead.past rfl).mono within⟩
  | .returnValue values => by
    refine (simulates_returningFunction regions.scopes).bind fun _ one _ _ functions => ?_
    refine (simulates_expression (regions.scopes.mono one) values).bind fun _ two _ _ value =>
      (simulates_useValue value).bind fun _ three _ _ value => ?_
    have within := one.trans (two.trans three)
    exact (simulates_returnValue (functions.mono (two.trans three)) value).bind
      fun _ four _ _ returned => .pure ⟨returned, regions.scopes.mono (within.trans four),
        (regions.ahead.past rfl).mono (within.trans four)⟩
  | .returnVoid =>
    (simulates_returnVoid regions.scopes).bind fun _ within _ _ returned =>
      .pure ⟨returned, regions.scopes.mono within, (regions.ahead.past rfl).mono within⟩
  | .exscribe values => by
    refine (simulates_expression regions.scopes values).bind fun _ one _ _ value =>
      (simulates_useValue value).bind fun _ two _ _ value => ?_
    exact .pure ⟨.exscribe value, regions.scopes.mono (one.trans two),
      (regions.ahead.past rfl).mono (one.trans two)⟩
  | .call name below => by
    unfold statement
    rw [below.length_eq]
    refine (simulates_call regions.scopes name _
      (fun _ within => simulates_described (regions.scopes.mono within) below)
      (fun _ within passing => simulates_arguments (regions.scopes.mono within) passing below)).bind
        fun _ within outcome otherOutcome outcomes => ?_
    have left := (regions.ahead.past rfl).mono within
    cases outcomes with
    | printed values => exact .pure ⟨.exscribe values, regions.scopes.mono within, left⟩
    | expression expressions => exact .pure ⟨.evaluate expressions, regions.scopes.mono within, left⟩
  | .block bodies => by
    refine (simulates_enter bodies regions.scopes.block).bind fun _ entered _ _ opened => ?_
    refine (simulates_statements opened bodies).bind fun _ analyzed _ _ below => ?_
    have within := entered.trans analyzed
    exact .pure ⟨.block below, regions.scopes.mono within, (regions.ahead.past rfl).mono within⟩

termination_by sizeOf written

/-- The declaration of a function, whichever of the functions ahead it is. -/
theorem simulates_declaration {matching : Matching} {scopes others : Scopes}
    {function otherFunction : Function} {written other : Surface.Stmt}
    (alike : Scopes.Alike matching scopes others)
    (functions : function.Alike matching otherFunction) :
    written.Alike first second Surface.Stmt.Mainless other →
      Simulates matching (Stmt.Alike first second) (declaration scopes function written)
        (declaration others otherFunction other)
  | .function _ parametersAlike _ bodies =>
    simulates_declaration_of_body alike functions parametersAlike bodies
      fun opened => simulates_statements opened bodies
  | .main _ | .affix _ _ | .conjureBinding _ _ _ | .declare _ _ _ _ | .assign _ _ | .step _ _
  | .branch _ _ _ | .loop _ _ | .breakLoop | .returnValue _ | .returnVoid | .exscribe _
  | .call _ _ | .block _ => .throw _ _

termination_by sizeOf written

theorem simulates_statements {matching : Matching} {layout : Surface.Layout}
    {region otherRegion : Region} {written other : List Surface.Stmt}
    (regions : Region.Alike layout written matching region otherRegion) :
    Surface.BodyAlike first second Surface.Stmt.Mainless layout written other →
      Simulates matching (BodyAlike first second) (statements region written)
        (statements otherRegion other)
  | .nil => .pure .nil
  | .cons here below => by
    refine (simulates_statement regions here).bind fun _ one _ _ onward => ?_
    exact (simulates_statements onward.regions below).bind fun _ two _ _ others =>
      .pure (.cons (onward.statements.mono two) others)
  | .exchange isFirst isSecond mayEarlier mayLater mayOtherEarlier mayOtherLater firsts seconds
      below => by
    obtain ⟨scopes, functions⟩ := region
    obtain ⟨others, otherFunctions⟩ := otherRegion
    obtain ⟨alike, ahead⟩ := regions
    -- Neither body waits for the other: both results are declared, and neither holds a `main`.
    cases ahead with
    | @two _ _ _ _ _ _ _ _ functions otherFunctions declaresEarlier declaresLater firstFunctions
        secondFunctions rest =>
      rw [statements_pair isFirst isSecond,
        statements_pair (isDeclaredAt_of_alike seconds isSecond) (isDeclaredAt_of_alike firsts isFirst)]
      have declared :=
        (simulates_declaration alike firstFunctions firsts).yielded.exchange
          (simulates_declaration alike secondFunctions seconds).yielded
          (fun within alike => ⟨alike.1.mono within, alike.2⟩)
          (fun within alike => ⟨alike.1.mono within, alike.2⟩)
          (leaves_declaration declaresEarlier mayEarlier)
          (leaves_declaration declaresLater mayLater)
          (leaves_declaration (firstFunctions.inferred ▸ declaresEarlier) mayOtherEarlier)
          (leaves_declaration (secondFunctions.inferred ▸ declaresLater) mayOtherLater)
      refine declared.bind fun _ one results otherResults
        ⟨⟨earliers, _, _, ranFirst⟩, laters, _, _, ranSecond⟩ => ?_
      have isFirst := isDeclaredAt_of_yields_declaration isFirst declaresEarlier ranFirst
      have isSecond := isDeclaredAt_of_yields_declaration isSecond declaresLater ranSecond
      have left : Region.Alike _ _ _ ⟨scopes, functions⟩ ⟨others, otherFunctions⟩ :=
        ⟨alike.mono one, rest.mono one⟩
      exact (simulates_statements left below).bind fun _ two _ _ others =>
        .pure (.exchange isFirst isSecond (earliers.mono two) (laters.mono two) others)
termination_by sizeOf written

end

end Analysis

end GlyphCompiler
