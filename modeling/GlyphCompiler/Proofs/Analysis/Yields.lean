/-
# What a step of an analysis yields

A step of an analysis either fails or yields a result in a new state. The lemmas
here say when each rule of the analysis yields something, what it yields, and
what it leaves behind in the state. Later proofs use them in place of the rules.
-/

import GlyphCompiler.Analysis.Analyze

namespace GlyphCompiler

namespace Analysis

/-- A step yields a result, and leads from one state to another. -/
def Yields {α : Type} (step : Analyzer α) (before : State) (result : α) (after : State) : Prop :=
  step.run before = .ok result after

section

variable {α β : Type} {before after : State}

@[simp]
theorem yields_pure {value result : α} :
    Yields (pure value) before result after ↔ result = value ∧ after = before := by
  constructor
  · intro yields
    cases yields
    exact ⟨rfl, rfl⟩
  · rintro ⟨rfl, rfl⟩
    rfl

@[simp]
theorem yields_bind {step : Analyzer α} {next : α → Analyzer β} {result : β} :
    Yields (step >>= next) before result after ↔
      ∃ value middle, Yields step before value middle ∧ Yields (next value) middle result after := by
  constructor
  · intro yields
    unfold Yields EStateM.run at yields
    simp only [bind, EStateM.bind] at yields
    split at yields
    · next value middle first => exact ⟨value, middle, first, yields⟩
    · cases yields
  · rintro ⟨value, middle, first, second⟩
    unfold Yields EStateM.run at *
    simp only [bind, EStateM.bind, first]
    exact second

@[simp]
theorem yields_map {step : Analyzer α} {change : α → β} {result : β} :
    Yields (change <$> step) before result after ↔
      ∃ value, Yields step before value after ∧ result = change value := by
  rw [← bind_pure_comp, yields_bind]
  constructor
  · rintro ⟨value, middle, first, second⟩
    obtain ⟨rfl, rfl⟩ := yields_pure.mp second
    exact ⟨value, first, rfl⟩
  · rintro ⟨value, first, rfl⟩
    exact ⟨value, after, first, yields_pure.mpr ⟨rfl, rfl⟩⟩

@[simp]
theorem yields_ite {condition : Prop} [Decidable condition] {first second : Analyzer α}
    {result : α} :
    Yields (if condition then first else second) before result after ↔
      (condition ∧ Yields first before result after) ∨
        (¬ condition ∧ Yields second before result after) := by
  by_cases condition <;> simp [*]

@[simp]
theorem not_yields_throw {failure : Failure} {result : α} :
    ¬ Yields (throw failure) before result after := by
  intro yields
  cases yields

@[simp]
theorem not_yields_reject {cause : Cause} {position : Position} {result : α} :
    ¬ Yields (reject cause position) before result after := by
  intro yields
  cases yields

@[simp]
theorem yields_get {result : State} :
    Yields get before result after ↔ result = before ∧ after = before := by
  constructor
  · intro yields
    cases yields
    exact ⟨rfl, rfl⟩
  · rintro ⟨rfl, rfl⟩
    rfl

@[simp]
theorem yields_modify {change : State → State} {result : PUnit} :
    Yields (modify change) before result after ↔ after = change before := by
  constructor
  · intro yields
    cases yields
    rfl
  · rintro rfl
    rfl

@[simp]
theorem yields_lift {outcome : Except Failure α} {result : α} :
    Yields (lift outcome) before result after ↔ outcome = .ok result ∧ after = before := by
  cases outcome <;> simp [lift, eq_comm]

@[simp]
theorem yields_orFault {outcome : Except Fault α} {result : α} :
    Yields (orFault outcome) before result after ↔ outcome = .ok result ∧ after = before := by
  cases outcome <;> simp [orFault, eq_comm]

@[simp]
theorem yields_orReject {outcome : Except Diagnostic α} {result : α} :
    Yields (orReject outcome) before result after ↔ outcome = .ok result ∧ after = before := by
  cases outcome <;> simp [orReject, eq_comm]

@[simp]
theorem yields_isPending {function : Function} {result : Bool} :
    Yields (isPending function) before result after ↔
      result = before.isPending function ∧ after = before := by
  simp only [isPending, bind_pure_comp, yields_map, yields_get]
  grind

@[simp]
theorem yields_current {function result : Function} :
    Yields (current function) before result after ↔
      result = before.current function ∧ after = before := by
  simp only [current, bind_pure_comp, yields_map, yields_get]
  grind

/-- The state after some numbers have been handed out. -/
def State.numbering (state : State) (count : Nat) : State :=
  { state with nextId := state.nextId + count }

@[simp]
theorem yields_freshId {result : Nat} :
    Yields freshId before result after ↔
      result = before.nextId ∧ after = before.numbering 1 := by
  constructor
  · intro yields
    cases yields
    exact ⟨rfl, rfl⟩
  · rintro ⟨rfl, rfl⟩
    rfl

/-- The state after a use has been put off. -/
def State.deferring (state : State) (use : Deferred) : State :=
  { state with deferred := use :: state.deferred }

@[simp]
theorem yields_defer {position : Position} {function : Function} {target : Option Ty}
    {result : Unit} :
    Yields (defer position function target) before result after ↔
      after = before.deferring ⟨position, function, target⟩ := by
  simp [defer, State.deferring]

/-- The state after the result type of a function has been fixed. -/
def State.fixing (state : State) (function : Function) (result : Ty) : State :=
  { state with results := (function.id, result) :: state.results }

@[simp]
theorem yields_fixResult {function : Function} {type : Ty} {result : Unit} :
    Yields (fixResult function type) before result after ↔
      after = before.fixing function type := by
  simp [fixResult, State.fixing]

/-- A check of every member of a list holds of every member, and changes nothing if no
check does. -/
theorem yields_forIn (holds : α → Prop) {check : α → Analyzer (ForInStep PUnit)} {members : List α}
    {result : PUnit}
    (each : ∀ member result after, Yields (check member) before result after →
      holds member ∧ result = .yield PUnit.unit ∧ after = before)
    (yields : Yields (forIn members PUnit.unit fun member _ => check member) before result after) :
    (∀ member ∈ members, holds member) ∧ after = before := by
  induction members with
  | nil => exact ⟨by simp, (yields_pure.mp yields).2⟩
  | cons member members ih =>
    rw [List.forIn_cons, yields_bind] at yields
    obtain ⟨_, _, first, rest⟩ := yields
    obtain ⟨here, rfl, rfl⟩ := each member _ _ first
    obtain ⟨others, same⟩ := ih rest
    exact ⟨by simpa using ⟨here, others⟩, same⟩

end

/-! ## Values and conversion -/

/-- What the use of an expression as a value leaves behind: the call of a function
whose result is still to be inferred is put off. -/
def State.usingValue (state : State) : Expr → State
  | .call info (.function _ function) _ =>
    if state.isPending function then state.deferring ⟨info.position, function, none⟩ else state
  | _ => state

/-- What the flow of a value into a type leaves behind: a function whose result is
still to be inferred is put off. -/
def State.converting (state : State) (target : Ty) : Expr → State
  | .function info function =>
    if state.isPending function then state.deferring ⟨info.position, function, some target⟩
    else state
  | _ => state

@[simp]
theorem State.nextId_usingValue (state : State) (expression : Expr) :
    (state.usingValue expression).nextId = state.nextId := by
  unfold State.usingValue
  repeat' split
  all_goals rfl

@[simp]
theorem State.nextId_converting (state : State) (target : Ty) (expression : Expr) :
    (state.converting target expression).nextId = state.nextId := by
  unfold State.converting
  repeat' split
  all_goals rfl

@[simp]
theorem State.results_usingValue (state : State) (expression : Expr) :
    (state.usingValue expression).results = state.results := by
  unfold State.usingValue
  repeat' split
  all_goals rfl

@[simp]
theorem State.results_converting (state : State) (target : Ty) (expression : Expr) :
    (state.converting target expression).results = state.results := by
  unfold State.converting
  repeat' split
  all_goals rfl

@[simp]
theorem State.constants_usingValue (state : State) (expression : Expr) :
    (state.usingValue expression).constants = state.constants := by
  unfold State.usingValue
  repeat' split
  all_goals rfl

@[simp]
theorem State.constants_converting (state : State) (target : Ty) (expression : Expr) :
    (state.converting target expression).constants = state.constants := by
  unfold State.converting
  repeat' split
  all_goals rfl

variable {before after : State}

@[simp]
theorem yields_useValue {expression result : Expr} :
    Yields (useValue expression) before result after ↔
      result = expression ∧ expression.type ≠ .void ∧ after = before.usingValue expression := by
  unfold useValue State.usingValue
  dsimp only
  by_cases isVoid : expression.type = .void
  · simp only [isVoid, if_true]
    split <;> simp
  · simp only [isVoid, if_false]
    split
    · next info noted function arguments =>
      by_cases pending : before.isPending function = true <;> simp [pending, isVoid, and_comm]
    · simp [isVoid]

@[simp]
theorem yields_checkConvert {value : Expr} {target : Ty} {position : Position} {result : Unit} :
    Yields (checkConvert value target position) before result after ↔
      (∃ known, value.staticValue = .ok known ∧ value.type.canConvert target known = true) ∧
        after = before.converting target value := by
  unfold checkConvert State.converting
  dsimp only
  split
  · next info function =>
    by_cases pending : before.isPending function = true <;> simp [pending] <;> grind
  · simp
    grind

/-! ## Literals and names -/

@[simp]
theorem yields_integerLiteral {position : Position} {text : String} {result : Expr} :
    Yields (integerLiteral position text) before result after ↔
      text.length ≤ Number.digitLimit ∧
        result = .number ⟨.ofInt (DecimalDigit.number text.toList), position⟩
          (.int (DecimalDigit.number text.toList)) ∧ after = before := by
  unfold integerLiteral
  simp

@[simp]
theorem yields_codepointLiteral {position : Position} {text : String} {result : Expr} :
    Yields (codepointLiteral position text) before result after ↔
      hexNumber (text.toList.drop 2) ≤ greatestCodePoint ∧
        result = .codepoint ⟨.codepoint, position⟩ (hexNumber (text.toList.drop 2)) ∧
          after = before := by
  unfold codepointLiteral
  simp

@[simp]
theorem yields_lookup {scopes : Scopes} {name : String} {position : Position} {result : Entity} :
    Yields (lookup scopes name position) before result after ↔
      scopes.lookup name = some result ∧ after = before := by
  unfold lookup
  split <;> simp [*, eq_comm]

theorem yields_assignable {scopes : Scopes} {ident : Surface.Ident} {result : Variable}
    (yields : Yields (assignable scopes ident) before result after) :
    scopes.lookup ident.name = some (.value result) ∧ result.mutable = true ∧ after = before := by
  simp only [assignable, yields_bind, yields_lookup] at yields
  obtain ⟨entity, middle, ⟨found, rfl⟩, rest⟩ := yields
  cases entity with
  | value target =>
    simp at rest
    obtain ⟨changeable, rfl, rfl⟩ := rest
    exact ⟨found, changeable, rfl⟩
  | function target => simp at rest
  | library symbol => simp at rest

/-! ## Operators -/

/-- The type of the result of an operator between two operands. -/
def resultType (operator : BinaryOperator) (left right : Ty) : Ty :=
  if operator.isLogical || operator.isEquality || operator.isOrder then .bool
  else if operator = .add && (left.isText || right.isText) then .string
  else if left = .any then right else left

theorem yields_binary {position : Position} {operator : BinaryOperator} {left right result : Expr}
    (yields : Yields (binary position operator left right) before result after) :
    result = .binary ⟨resultType operator left.type right.type, position⟩ operator left right ∧
      after = before := by
  simp only [binary, yields_bind, yields_orFault] at yields
  obtain ⟨leftValue, _, ⟨-, rfl⟩, rightValue, _, ⟨-, rfl⟩, rest⟩ := yields
  unfold resultType
  cases logical : operator.isLogical <;> cases equality : operator.isEquality <;>
    cases order : operator.isOrder <;>
    simp only [logical, equality, order, Bool.false_eq_true, if_true, if_false] at rest <;>
    split at rest <;> simp_all <;> grind

/-- The type of the result of an operator before an operand. -/
def unaryType (operator : UnaryOperator) (operand : Ty) : Ty :=
  match operator with
  | .neg => operand
  | .not => .bool

theorem yields_unary {position : Position} {operator : UnaryOperator} {operand result : Expr}
    (yields : Yields (unary position operator operand) before result after) :
    result = .unary ⟨unaryType operator operand.type, position⟩ operator operand ∧
      after = before := by
  unfold unary at yields
  cases operator <;> simp at yields <;> exact yields.2

theorem yields_addressOf {scopes : Scopes} {position : Position} {operand : Surface.Expr}
    {result : Expr} (yields : Yields (addressOf scopes position operand) before result after) :
    ∃ ident target, operand = .name ident ∧ scopes.lookup ident.name = some (.value target) ∧
      result = .addressOf ⟨.pointer target.type, position⟩
        ⟨⟨target.type, ident.position⟩, target⟩ ∧ after = before := by
  unfold addressOf at yields
  split at yields
  · next ident =>
    simp only [reference, yields_bind, yields_lookup] at yields
    obtain ⟨named, _, ⟨entity, _, ⟨found, rfl⟩, rest⟩, taken⟩ := yields
    cases entity with
    | value target =>
      simp at rest
      obtain ⟨rfl, rfl⟩ := rest
      simp at taken
      exact ⟨ident, target, rfl, found, taken.1, taken.2⟩
    | function target =>
      simp at rest
      obtain ⟨_, ⟨-, -⟩, rfl⟩ := rest
      simp at taken
    | library symbol => simp at rest
  · simp at yields

theorem yields_dereference {position : Position} {operand result : Expr}
    (yields : Yields (dereference position operand) before result after) :
    ∃ target, operand.type = .pointer target ∧
      result = .dereference ⟨target, position⟩ operand ∧ after = before := by
  unfold dereference at yields
  split at yields
  · next target pointer =>
    simp at yields
    exact ⟨target, pointer, yields.1, yields.2⟩
  · simp at yields

/-! ## Arrays -/

/-- An index whose value is known is not negative, nor past the end of an array of known
extent. -/
def InExtent (constants : List (Nat × Expr)) (base index : Expr) : Prop :=
  ∀ place, index.staticValue = .ok (.number place) → place.isNegative = false ∧
    ∀ length, extent constants base = .ok (some length) → (Number.int length).le place = false

theorem yields_subscript {position : Position} {base index result : Expr}
    (yields : Yields (subscript position base index) before result after) :
    ∃ element, base.type = .array element ∧ InExtent before.constants base index ∧
      result = .subscript ⟨element, position⟩ base index ∧ after = before := by
  unfold subscript at yields
  split at yields
  · next element isArray =>
    refine ⟨element, isArray, ?_⟩
    simp [and_assoc] at yields
    obtain ⟨-, known, isKnown, rest⟩ := yields
    split at rest
    · next place =>
      simp [and_assoc] at rest
      obtain ⟨notNegative, length, isLength, rest⟩ := rest
      refine ⟨fun other isOther => ?_, ?_⟩
      · cases isKnown.symm.trans isOther
        refine ⟨notNegative, fun count isCount => ?_⟩
        cases isLength.symm.trans isCount
        simp at rest
        exact rest.1
      · split at rest <;> simp at rest
        · exact rest.2
        · exact rest
    · next notNumber =>
      refine ⟨fun place isPlace => ?_, by simpa using rest⟩
      cases isKnown.symm.trans isPlace
      exact absurd rfl (notNumber place)
  · simp at yields

theorem yields_array {position : Position} {elements : List Expr} {result : Expr}
    (yields : Yields (array position elements) before result after) :
    (∃ element, result = .array ⟨.array element, position⟩ elements ∧
      ∀ member ∈ elements, member.type = element) ∧ after = before := by
  cases elements with
  | nil =>
    simp [array] at yields
    exact ⟨⟨.any, yields.1, by simp⟩, yields.2⟩
  | cons first rest =>
    simp only [array, yields_bind] at yields
    obtain ⟨_, _, checked, done⟩ := yields
    obtain ⟨same, rfl⟩ := yields_forIn (fun member => member.type = first.type) (by simp) checked
    simp at done
    exact ⟨⟨first.type, done.1, by simpa using same⟩, done.2⟩

/-! ## Calls -/

@[simp]
theorem yields_checkArity {name : String} {expected actual : Nat} {position : Position}
    {result : Unit} :
    Yields (checkArity name expected actual position) before result after ↔
      expected = actual ∧ after = before := by
  simp [checkArity]

theorem yields_findCalled {scopes : Scopes} {position : Position} {callee : Surface.Ident}
    {count : Nat} {result : Called}
    (yields : Yields (findCalled scopes position callee count) before result after) :
    after = before ∧
      ((∃ symbol, scopes.lookup callee.name = some (.library symbol) ∧ result = .library symbol) ∨
      (∃ function, scopes.lookup callee.name = some (.function function) ∧
        function.parameters.length = count ∧
        result = .callee
          (.function ⟨(before.current function).type, callee.position⟩ (before.current function))
          (function.parameters.map Variable.type) (before.current function).result) ∨
      (∃ target parameters type, scopes.lookup callee.name = some (.value target) ∧
        target.type = .function parameters type ∧ parameters.length = count ∧
        result = .callee (.reference ⟨⟨target.type, callee.position⟩, target⟩) parameters type)) := by
  simp only [findCalled, yields_bind, yields_lookup] at yields
  obtain ⟨entity, _, ⟨found, rfl⟩, rest⟩ := yields
  cases entity with
  | library symbol =>
    simp [and_assoc] at rest
    exact ⟨rest.2.1, .inl ⟨symbol, found, rest.2.2⟩⟩
  | function function =>
    simp [and_assoc] at rest
    exact ⟨rest.2.1, .inr (.inl ⟨function, found, rest.1, rest.2.2⟩)⟩
  | value target =>
    dsimp only at rest
    split at rest
    · next parameters type isFunction =>
      simp [and_assoc] at rest
      exact ⟨rest.2.1, .inr (.inr ⟨target, parameters, type, found, isFunction, rest.1, rest.2.2⟩)⟩
    · simp at rest

theorem yields_apply {position : Position} {mapping items result : Expr}
    (yields : Yields (apply position mapping items) before result after) :
    (∃ type, result = .apply ⟨.array type, position⟩ mapping items) ∧ after = before := by
  unfold apply at yields
  split at yields
  · split at yields
    · simp at yields
      exact ⟨⟨_, yields.1⟩, yields.2⟩
    · simp at yields
      exact ⟨⟨_, yields.2.1⟩, yields.2.2⟩
    · simp at yields
  · simp at yields

theorem yields_supplant {position : Position} {text pattern replacement result : Expr}
    (yields : Yields (supplant position text pattern replacement) before result after) :
    result = .supplant ⟨.string, position⟩ text pattern replacement ∧ after = before := by
  simp only [supplant, yields_bind] at yields
  obtain ⟨_, _, checked, done⟩ := yields
  obtain ⟨-, rfl⟩ := yields_forIn (fun part => textOrAny part.type = true) (by simp) checked
  simpa using done

theorem yields_describedCallee {scopes : Scopes} {callee : Surface.Ident} {result : Ty}
    (yields : Yields (describedCallee scopes callee) before result after) : after = before := by
  simp only [describedCallee, yields_bind, yields_lookup] at yields
  obtain ⟨entity, _, ⟨-, rfl⟩, rest⟩ := yields
  cases entity with
  | value target =>
    simp at rest
    exact rest.2.2
  | function target =>
    simp only [bind_pure_comp, yields_map, yields_current] at rest
    obtain ⟨_, ⟨-, same⟩, -⟩ := rest
    exact same
  | library symbol =>
    simp at rest
    exact rest.2

/-! ## Functions -/

/-- The state after a function has ended: it is void if no result has been found. -/
def State.finishing (state : State) (function : Function) : State :=
  if state.isPending function then state.fixing function .void else state

theorem yields_finishFunction {function : Function} {returns : Bool} {position : Position}
    {result : Unit} (yields : Yields (finishFunction function returns position) before result after) :
    after = before.finishing function ∧
      (function.inferred = false → function.result = .void ∨ returns = true) := by
  unfold finishFunction at yields
  unfold State.finishing
  simp [and_assoc] at yields
  obtain ⟨inferred, ⟨pending, done⟩ | ⟨pending, done⟩⟩ | ⟨declared, returned, rfl⟩ := yields
  · simp [pending, done, inferred]
  · simp [pending, done, inferred]
  · exact ⟨by simp [State.isPending, declared], fun _ => returned⟩

theorem yields_returningFunction {scopes : Scopes} {position : Position} {result : Function}
    (yields : Yields (returningFunction scopes position) before result after) :
    scopes.innermost.owner = some result ∧ after = before := by
  unfold returningFunction at yields
  split at yields
  · next owner isOwner =>
    simp at yields
    exact ⟨yields.1 ▸ isOwner, yields.2⟩
  · simp at yields

theorem yields_returnVoid {scopes : Scopes} {position : Position} {result : Stmt}
    (yields : Yields (returnVoid scopes position) before result after) :
    ∃ function, scopes.innermost.owner = some function ∧ result = .returnVoid position ∧
      after = before.finishing function := by
  simp only [returnVoid, yields_bind] at yields
  obtain ⟨function, _, found, rest⟩ := yields
  obtain ⟨isOwner, rfl⟩ := yields_returningFunction found
  refine ⟨function, isOwner, ?_⟩
  unfold State.finishing
  simp [and_assoc] at rest
  obtain ⟨pending, rfl, rfl⟩ | ⟨pending, -, rfl, rfl⟩ := rest
  · simp [pending]
  · simp [pending]

theorem yields_returnValue {function : Function} {position : Position} {value : Expr}
    {result : Stmt} (yields : Yields (returnValue function position value) before result after) :
    result = .returnValue position value ∧
      ((before.isPending function = true ∧ after = before.fixing function value.type) ∨
        (before.isPending function = false ∧ (before.current function).result ≠ .void ∧
          (∃ known, value.staticValue = .ok known ∧
            value.type.canConvert (before.current function).result known = true) ∧
          after = before.converting (before.current function).result value)) := by
  unfold returnValue at yields
  simp at yields
  grind

/-! ## Other statements -/

theorem yields_affix {region : Region} {position : Position} {module symbol : String}
    {result : Stmt × Region} (yields : Yields (affix region position module symbol) before result after) :
    ∃ function scopes, result = (.affix position function, { region with scopes := scopes }) ∧
      region.scopes.declare .alreadyBound function.name (.library function) position = .ok scopes ∧
      after = before := by
  unfold affix at yields
  simp at yields
  obtain ⟨-, rest⟩ := yields
  split at rest
  · simp at rest
  · next function found =>
    simp at rest
    obtain ⟨scopes, ⟨declared, rfl⟩, rfl⟩ := rest
    exact ⟨function, scopes, rfl, declared, rfl⟩

theorem yields_stepVariable {scopes : Scopes} {position : Position} {step : Step}
    {ident : Surface.Ident} {result : Stmt}
    (yields : Yields (stepVariable scopes position step ident) before result after) :
    ∃ target, scopes.lookup ident.name = some (.value target) ∧ target.mutable = true ∧
      result = .step position step target ∧ after = before := by
  simp only [stepVariable, yields_bind] at yields
  obtain ⟨target, _, found, rest⟩ := yields
  obtain ⟨named, changeable, rfl⟩ := yields_assignable found
  simp at rest
  exact ⟨target, named, changeable, rest.2.1, rest.2.2⟩

@[simp]
theorem yields_breakLoop {scopes : Scopes} {position : Position} {result : Stmt} :
    Yields (breakLoop scopes position) before result after ↔
      scopes.innermost.inLoop = true ∧ result = .breakLoop position ∧ after = before := by
  simp [breakLoop]

@[simp]
theorem yields_beginMain {position : Position} {result : Unit} :
    Yields (beginMain position) before result after ↔
      before.mainSeen = false ∧ after = { before with mainSeen := true } := by
  simp [beginMain, and_assoc]

/-- The state after a variable has been declared. -/
def State.declaring (state : State) (changeable : Bool) (value : Expr) : State :=
  if changeable then state.numbering 1
  else { state.numbering 1 with constants := (state.nextId, value) :: state.constants }

theorem yields_declareVariable {region : Region} {position : Position} {changeable : Bool}
    {ident : Surface.Ident} {written : Option Surface.TypeSyntax} {value : Expr}
    {result : Stmt × Region}
    (yields : Yields (declareVariable region position changeable ident written value)
      before result after) :
    ∃ type scopes middle,
      ((∃ known, value.staticValue = .ok known ∧ value.type.canConvert type known = true) ∧
          middle = before.converting type value ∨
        type = value.type ∧ middle = before) ∧
      region.scopes.declare .alreadyDeclared ident.name
        (.value ⟨before.nextId, ident.name, type, changeable⟩) position = .ok scopes ∧
      result = (.declare position ⟨before.nextId, ident.name, type, changeable⟩ value,
        { region with scopes := scopes }) ∧
      after = middle.declaring changeable value := by
  unfold declareVariable at yields
  dsimp only at yields
  split at yields
  · simp [and_assoc] at yields
    obtain ⟨type, -, converts, scopes, declared, rest⟩ := yields
    refine ⟨type, scopes, _, .inl ⟨converts, rfl⟩, declared, ?_⟩
    obtain ⟨rfl, rfl, rfl⟩ | ⟨rfl, rfl, rfl⟩ := rest
    · exact ⟨rfl, rfl⟩
    · simp [State.declaring, State.numbering]
  · simp at yields
  · simp [and_assoc] at yields
    obtain ⟨scopes, declared, rest⟩ := yields
    refine ⟨value.type, scopes, before, .inr ⟨rfl, rfl⟩, declared, ?_⟩
    obtain ⟨rfl, rfl, rfl⟩ | ⟨rfl, rfl, rfl⟩ := rest
    · exact ⟨rfl, rfl⟩
    · simp [State.declaring, State.numbering]

/-! ## Beginning a list of statements -/

/-- The numbers of a function and its parameters. -/
def idsOf (function : Function) : List Nat :=
  function.parameters.map Variable.id ++ [function.id]

/-- The names of a function and its parameters. -/
def namesOf (function : Function) : List String :=
  function.name :: function.parameters.map Variable.name

theorem yields_parameters {written : List Surface.Parameter} {result : List Variable}
    (yields : Yields (parameters written) before result after) :
    result.map Variable.id = List.range' before.nextId result.length ∧
      result.map Variable.name = written.map (·.ident.name) ∧
      (∀ target ∈ result, target.mutable = true) ∧ after = before.numbering result.length := by
  induction written generalizing before result with
  | nil =>
    simp [parameters] at yields
    obtain ⟨rfl, rfl⟩ := yields
    exact ⟨rfl, rfl, nofun, rfl⟩
  | cons parameter written ih =>
    simp [parameters, and_assoc] at yields
    obtain ⟨type, -, rest, found, rfl⟩ := yields
    obtain ⟨ids, names, changeable, rfl⟩ := ih found
    refine ⟨?_, ?_, ?_, ?_⟩
    · simp [ids, List.range'_succ, State.numbering]
    · simp [names]
    · exact List.forall_mem_cons.mpr ⟨rfl, changeable⟩
    · simp [State.numbering, Nat.add_comm, Nat.add_left_comm]

/-- Does a statement declare a function? -/
def declaresFunction : Surface.Stmt → Bool
  | .function _ _ _ _ _ | .conjureBinding _ _ _ _ => true
  | _ => false

/-- The names that a statement gives to the function that it declares and its parameters. -/
def functionNames : Surface.Stmt → List String
  | .function _ name parameters _ _ => name :: parameters.map (·.ident.name)
  | .conjureBinding _ name _ _ => [name]
  | _ => []

theorem yields_declared {statement : Surface.Stmt} {result : Option (Position × Function)}
    (yields : Yields (declared statement) before result after) :
    (declaresFunction statement = false ∧ result = none ∧ after = before) ∨
      declaresFunction statement = true ∧ ∃ position function, result = some (position, function) ∧
        idsOf function = List.range' before.nextId (idsOf function).length ∧
        namesOf function = functionNames statement ∧
        (function.inferred = true → function.result = .any) ∧
        (∀ parameter ∈ function.parameters, parameter.mutable = true) ∧
        after = before.numbering (idsOf function).length := by
  unfold declared at yields
  split at yields
  · next position name written type body =>
    simp only [yields_bind] at yields
    obtain ⟨targets, middle, found, type', middle', resolved, id, _, fresh, done⟩ := yields
    obtain ⟨ids, names, changeable, rfl⟩ := yields_parameters found
    obtain rfl : middle' = before.numbering targets.length := by
      cases type with
      | none => exact (yields_pure.mp resolved).2
      | some type =>
        simp at resolved
        obtain ⟨_, ⟨-, same⟩, -⟩ := resolved
        exact same
    obtain ⟨rfl, rfl⟩ := yields_freshId.mp fresh
    obtain ⟨rfl, rfl⟩ := yields_pure.mp done
    refine .inr ⟨rfl, position, _, rfl, ?_, ?_, by simp +contextual, changeable, ?_⟩
    · simp [idsOf, ids, State.numbering, List.range'_concat]
    · simp [namesOf, functionNames, names]
    · simp [idsOf, State.numbering, Nat.add_assoc]
  · next position name written body =>
    simp only [yields_bind, yields_orReject] at yields
    obtain ⟨type, _, ⟨-, rfl⟩, rest⟩ := yields
    split at rest <;> simp [and_assoc] at rest <;> obtain ⟨rfl, rfl⟩ := rest <;>
      exact .inr ⟨rfl, position, _, rfl, rfl, rfl, by simp, by simp, rfl⟩
  · next notFunction notBinding =>
    refine .inl ⟨?_, yields_pure.mp yields⟩
    cases statement with
    | function position name parameters result body => exact absurd rfl (notFunction _ _ _ _ _)
    | conjureBinding position name type body => exact absurd rfl (notBinding _ _ _ _)
    | _ => rfl

end Analysis

end GlyphCompiler
