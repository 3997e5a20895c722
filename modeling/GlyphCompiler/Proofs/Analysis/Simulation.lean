/-
# The rules of analysis, one beside the other

Each rule, given parts that match, rejects both or comes to results that match. Where
the parts stand only the positions in what is rejected and in the results depend on.
-/

import GlyphCompiler.Proofs.Analysis.Agreement
import GlyphCompiler.Proofs.Surface.Exchange

namespace GlyphCompiler

/-! ## Names and scopes that match -/

/-- Two names mean what matches. -/
inductive Entity.Alike (matching : Matching) : Entity → Entity → Prop
  | value {target other : Variable} (targets : target.Alike matching other) :
    Entity.Alike matching (.value target) (.value other)
  | function {target other : Function} (targets : target.Alike matching other) :
    Entity.Alike matching (.function target) (.function other)
  | library (symbol : LibraryFunction) : Entity.Alike matching (.library symbol) (.library symbol)

theorem Entity.Alike.mono {matching wide : Matching} {entity other : Entity}
    (alike : entity.Alike matching other) (within : matching ≤ wide) : entity.Alike wide other := by
  cases alike with
  | value targets => exact .value (targets.mono within)
  | function targets => exact .function (targets.mono within)
  | library symbol => exact .library symbol

/-- Names mean the same in two scopes, which stand in the same places. -/
structure Scope.Alike (matching : Matching) (scope other : Scope Entity Function) : Prop where
  found : ∀ name, Option.Rel (Entity.Alike matching) (scope.find? name) (other.find? name)
  inLoop : scope.inLoop = other.inLoop
  owner : Option.Rel (Function.Alike matching) scope.owner other.owner

theorem optionRel_mono {α β : Type} {narrow wide : α → β → Prop} {one : Option α} {other : Option β}
    (related : Option.Rel narrow one other) (implies : ∀ {left right}, narrow left right → wide left right) :
    Option.Rel wide one other := by
  cases related with
  | some here => exact .some (implies here)
  | none => exact .none

theorem Scope.Alike.mono {matching wide : Matching} {scope other : Scope Entity Function}
    (alike : scope.Alike matching other) (within : matching ≤ wide) : scope.Alike wide other :=
  ⟨fun name => optionRel_mono (alike.found name) fun found => found.mono within, alike.inLoop,
    optionRel_mono alike.owner fun owner => owner.mono within⟩

namespace Analysis

variable {matching wide : Matching} {first second : Position}

/-- Scopes that match one by one. -/
abbrev Scopes.Alike (matching : Matching) (scopes others : Scopes) : Prop :=
  List.Forall₂ (Scope.Alike matching) scopes others

namespace Scopes.Alike

variable {scopes others : Scopes}

theorem mono (alike : Scopes.Alike matching scopes others) (within : matching ≤ wide) :
    Scopes.Alike wide scopes others :=
  alike.imp fun _ _ here => here.mono within

theorem lookup (alike : Scopes.Alike matching scopes others) (name : String) :
    Option.Rel (Entity.Alike matching) (GlyphCompiler.Scopes.lookup scopes name)
      (GlyphCompiler.Scopes.lookup others name) := by
  induction alike with
  | nil => exact .none
  | cons here _ ih =>
    unfold GlyphCompiler.Scopes.lookup at ih ⊢
    rw [List.findSome?_cons, List.findSome?_cons]
    have found := here.found name
    revert found
    generalize Scope.find? _ name = one
    generalize Scope.find? _ name = another
    rintro (same | _)
    · exact .some same
    · exact ih

theorem root : Scope.Alike matching .root .root :=
  ⟨fun _ => .none, rfl, .none⟩

theorem innermost (alike : Scopes.Alike matching scopes others) :
    (GlyphCompiler.Scopes.innermost scopes).Alike matching
      (GlyphCompiler.Scopes.innermost others) := by
  cases alike with
  | nil => exact root
  | cons here _ => exact here

theorem block (alike : Scopes.Alike matching scopes others) :
    Scopes.Alike matching (GlyphCompiler.Scopes.block scopes) (GlyphCompiler.Scopes.block others) :=
  .cons ⟨fun _ => .none, alike.innermost.inLoop, alike.innermost.owner⟩ alike

theorem loop (alike : Scopes.Alike matching scopes others) :
    Scopes.Alike matching (GlyphCompiler.Scopes.loop scopes) (GlyphCompiler.Scopes.loop others) :=
  .cons ⟨fun _ => .none, rfl, alike.innermost.owner⟩ alike

theorem functionBody {function otherFunction : Function}
    (alike : Scopes.Alike matching scopes others)
    (functions : function.Alike matching otherFunction) :
    Scopes.Alike matching (GlyphCompiler.Scopes.functionBody scopes function)
      (GlyphCompiler.Scopes.functionBody others otherFunction) :=
  .cons ⟨fun _ => .none, rfl, .some functions⟩ alike

theorem declare {entity otherEntity : Entity} {cause : String → Cause}
    {name : String} {position otherPosition : Position}
    (alike : Scopes.Alike matching scopes others) (entities : entity.Alike matching otherEntity) :
    Settles (Scopes.Alike matching)
      (GlyphCompiler.Scopes.declare scopes cause name entity position)
      (GlyphCompiler.Scopes.declare others cause name otherEntity otherPosition) := by
  unfold GlyphCompiler.Scopes.declare Scope.declare
  have innermost := alike.innermost
  have outer : List.Forall₂ (Scope.Alike matching) scopes.tail others.tail := by
    cases alike with
    | nil => exact .nil
    | cons _ below => exact below
  generalize GlyphCompiler.Scopes.innermost scopes = scope at innermost ⊢
  generalize GlyphCompiler.Scopes.innermost others = other at innermost ⊢
  have found := innermost.found name
  revert found
  generalize isFound : scope.find? name = one
  generalize isOtherFound : other.find? name = another
  rintro (same | _)
  · exact .error
  refine .ok (.cons ⟨fun asked => ?_, innermost.inLoop, innermost.owner⟩ outer)
  have before := innermost.found asked
  unfold Scope.find? at before ⊢
  simp only [List.lookup_append]
  revert before
  generalize scope.bindings.lookup asked = one
  generalize other.bindings.lookup asked = another
  rintro (same | _)
  · exact .some same
  · simp only [List.lookup_cons, List.lookup_nil, Option.none_or]
    split
    · exact .some entities
    · exact .none

end Scopes.Alike

/-! ## Values and conversion -/

section

variable {value otherValue : Expr}

theorem simulates_useValue (alike : value.Alike first second matching otherValue) :
    Simulates matching (Expr.Alike first second) (useValue value) (useValue otherValue) := by
  unfold useValue
  rw [alike.type]
  have last (wide : Matching) (within : matching ≤ wide) :
      Simulates wide (Expr.Alike first second)
        (if otherValue.type = .void then do
          reject .voidValue value.position
          return value
        else return value)
        (if otherValue.type = .void then do
          reject .voidValue otherValue.position
          return otherValue
        else return otherValue) :=
    .ite .rejecting (.pure (alike.mono within))
  cases alike with
  | call type callees below =>
    cases callees with
    | function type targets =>
      exact (Simulates.isPending targets).bindSame fun wide within pending =>
        .ite ((Simulates.defer none (targets.mono within)).bindSame fun wider further _ =>
          last wider (within.trans further)) (last wide within)
    | reference uses => exact last _ le_rfl
  | _ => exact last _ le_rfl

theorem simulates_checkConvert {position otherPosition : Position} (target : Ty)
    (alike : value.Alike first second matching otherValue) :
    Simulates matching (fun _ => Eq) (checkConvert value target position)
      (checkConvert otherValue target otherPosition) := by
  unfold checkConvert
  rw [alike.type, alike.staticValue]
  have last (wide : Matching) : Simulates wide (fun _ => Eq)
      (do
        let known ← orFault otherValue.staticValue
        unless otherValue.type.canConvert target known do
          reject (.cannotConvert otherValue.type target) position)
      (do
        let known ← orFault otherValue.staticValue
        unless otherValue.type.canConvert target known do
          reject (.cannotConvert otherValue.type target) otherPosition) :=
    (Simulates.orFault _).bindSame fun _ _ known => .ite (.pure rfl) (.reject _ _ _ _)
  cases alike with
  | function type targets =>
    exact (Simulates.isPending targets).bindSame fun wide within pending =>
      .ite ((Simulates.defer (some target) (targets.mono within)).bindSame fun wider _ _ =>
        last wider) (last wide)
  | _ => exact last _

theorem simulates_checkCondition (alike : value.Alike first second matching otherValue) :
    Simulates matching (Expr.Alike first second) (checkCondition value)
      (checkCondition otherValue) := by
  unfold checkCondition
  rw [alike.type]
  exact .ite (.pure alike) .rejecting

end

/-! ## Literals and names -/

theorem simulates_integerLiteral {position otherPosition : Position} (text : String) :
    Simulates matching (Expr.Alike first second) (integerLiteral position text)
      (integerLiteral otherPosition text) :=
  .ite .throwing (.pure (.number (by rfl) _))

theorem simulates_codepointLiteral {position otherPosition : Position} (text : String) :
    Simulates matching (Expr.Alike first second) (codepointLiteral position text)
      (codepointLiteral otherPosition text) :=
  .ite .rejecting (.pure (.codepoint (by rfl) _))

theorem alike_quotedLiteral {position otherPosition : Position} (text : String) :
    (quotedLiteral position text).Alike first second matching
      (quotedLiteral otherPosition text) := by
  unfold quotedLiteral
  split
  · exact .glyph (by rfl) _
  · exact .string (by rfl) _

section

variable {scopes others : Scopes} {position otherPosition : Position}
  {ident other : Surface.Ident}

theorem simulates_lookup (alike : Scopes.Alike matching scopes others) (name : String) :
    Simulates matching Entity.Alike (lookup scopes name position)
      (lookup others name otherPosition) := by
  unfold lookup
  have found := alike.lookup name
  revert found
  generalize GlyphCompiler.Scopes.lookup scopes name = one
  generalize GlyphCompiler.Scopes.lookup others name = another
  rintro (same | _)
  · exact .pure same
  · exact .reject _ _ _ _

theorem simulates_reference (alike : Scopes.Alike matching scopes others)
    (name : ident.name = other.name) :
    Simulates matching (Expr.Alike first second) (reference scopes ident)
      (reference others other) := by
  unfold reference
  rw [name]
  refine (simulates_lookup alike _).bind fun wide within entity otherEntity entities => ?_
  cases entities with
  | value targets => exact .pure (.reference ⟨targets.type, targets⟩)
  | function functions =>
    exact (Simulates.current functions).bind fun _ _ _ _ known => .pure (.function known.type known)
  | library symbol => exact .reject _ _ _ _

theorem simulates_assignable (alike : Scopes.Alike matching scopes others)
    (name : ident.name = other.name) :
    Simulates matching Variable.Alike (assignable scopes ident) (assignable others other) := by
  unfold assignable
  rw [name]
  refine (simulates_lookup alike _).bind fun wide within entity otherEntity entities => ?_
  cases entities with
  | value targets =>
    dsimp only
    rw [targets.mutable]
    exact .ite (.pure targets) .rejecting
  | function functions => exact .reject _ _ _ _
  | library symbol => exact .reject _ _ _ _

end

/-! ## Operators -/

section

variable {scopes others : Scopes} {position otherPosition : Position}
  {left otherLeft right otherRight operand otherOperand : Expr}

theorem simulates_binary (operator : BinaryOperator)
    (lefts : left.Alike first second matching otherLeft)
    (rights : right.Alike first second matching otherRight) :
    Simulates matching (Expr.Alike first second) (binary position operator left right)
      (binary otherPosition operator otherLeft otherRight) := by
  unfold binary
  rw [lefts.type, rights.type, lefts.staticValue, rights.staticValue]
  refine (Simulates.orFault _).bindSame fun _ early leftValue =>
    (Simulates.orFault _).bindSame fun wide late rightValue => ?_
  have within := early.trans late
  have last : ∀ accepted result, Simulates wide (Expr.Alike first second)
      (if accepted = true then return .binary ⟨result, position⟩ operator left right
      else do
        reject (.cannotCombine operator otherLeft.type otherRight.type) position
        return .binary ⟨result, position⟩ operator left right)
      (if accepted = true then return .binary ⟨result, otherPosition⟩ operator otherLeft otherRight
      else do
        reject (.cannotCombine operator otherLeft.type otherRight.type) otherPosition
        return .binary ⟨result, otherPosition⟩ operator otherLeft otherRight) :=
    fun _ _ =>
      .ite (.pure (.binary (by rfl) operator (lefts.mono within) (rights.mono within))) .rejecting
  exact .ite (.ite .rejecting (last _ _)) (last _ _)

theorem simulates_unary (operator : UnaryOperator)
    (operands : operand.Alike first second matching otherOperand) :
    Simulates matching (Expr.Alike first second) (unary position operator operand)
      (unary otherPosition operator otherOperand) := by
  unfold unary
  rw [operands.type]
  cases operator <;> exact .ite (.pure (.unary (by rfl) _ operands)) .rejecting

theorem simulates_addressOf {may : Surface.Stmt → Prop} {operand otherOperand : Surface.Expr}
    (alike : Scopes.Alike matching scopes others)
    (operands : operand.Alike first second may otherOperand) :
    Simulates matching (Expr.Alike first second) (addressOf scopes position operand)
      (addressOf others otherPosition otherOperand) := by
  cases operands with
  | name name =>
    refine (@simulates_reference _ first second _ _ _ _ alike name).bind
      fun _ _ named otherNamed namedAlike => ?_
    cases namedAlike with
    | reference uses => exact .pure (.addressOf (congrArg Ty.pointer uses.type) uses)
    | _ => exact .reject _ _ _ _
  | _ => exact .reject _ _ _ _

theorem simulates_dereference (operands : operand.Alike first second matching otherOperand) :
    Simulates matching (Expr.Alike first second) (dereference position operand)
      (dereference otherPosition otherOperand) := by
  unfold dereference
  rw [operands.type]
  cases otherOperand.type with
  | pointer target => exact .pure (.dereference (by rfl) operands)
  | _ => exact .reject _ _ _ _

end

/-! ## Arrays -/

section

variable {position otherPosition : Position}

theorem simulates_subscript {base index otherBase otherIndex : Expr}
    (bases : base.Alike first second matching otherBase)
    (indices : index.Alike first second matching otherIndex) :
    Simulates matching (Expr.Alike first second) (subscript position base index)
      (subscript otherPosition otherBase otherIndex) := by
  unfold subscript
  rw [bases.type, indices.type, indices.staticValue]
  cases otherBase.type with
  | array element =>
    have last (wide : Matching) (within : matching ≤ wide) :
        Simulates wide (Expr.Alike first second)
          (return .subscript ⟨element, position⟩ base index)
          (return .subscript ⟨element, otherPosition⟩ otherBase otherIndex) :=
      .pure (.subscript (by rfl) (bases.mono within) (indices.mono within))
    refine .ite ((Simulates.orFault _).bindSame fun wide within known => ?_) .rejecting
    cases known with
    | number place =>
      refine .ite ((Simulates.orFault _).bindSame fun _ _ _ => .rejecting) ?_
      refine Simulates.get.bind fun wider further state otherState agree => ?_
      rw [agree.extent (bases.mono (within.trans further))]
      refine (Simulates.orFault _).bindSame fun widest furthest length => ?_
      have done := last widest (within.trans (further.trans furthest))
      cases length with
      | some length => exact .ite ((Simulates.orFault _).bindSame fun _ _ _ => .rejecting) done
      | none => exact done
    | _ => exact last wide within
  | _ => exact .reject _ _ _ _

theorem simulates_array {elements others : List Expr}
    (below : ExprsAlike first second matching elements others) :
    Simulates matching (Expr.Alike first second) (array position elements)
      (array otherPosition others) := by
  cases below with
  | nil => exact .pure (.array (by rfl) .nil)
  | cons here below =>
    rw [array, array, here.type]
    refine Simulates.bind (Simulates.forIn (fun same => ?_) below.types) fun _ within _ _ _ =>
      .pure (.array (by rfl) (.cons (here.mono within) (below.mono within)))
    rw [same]
    exact .ite (.pure rfl) .rejecting

end

/-! ## Calls -/

/-- What is called matches, and takes the same. -/
inductive Called.Alike (matching : Matching) : Called → Called → Prop
  | callee {callee other : Callee} (callees : callee.Alike matching other) (parameters : List Ty)
      (result : Ty) :
    Called.Alike matching (.callee callee parameters result) (.callee other parameters result)
  | library (symbol : LibraryFunction) : Called.Alike matching (.library symbol) (.library symbol)

/-- What two calls come to matches. -/
inductive Outcome.Alike (first second : Position) (matching : Matching) : Outcome → Outcome → Prop
  | printed {value other : Expr} (values : value.Alike first second matching other) :
    Outcome.Alike first second matching (.printed value) (.printed other)
  | expression {expression other : Expr}
      (expressions : expression.Alike first second matching other) :
    Outcome.Alike first second matching (.expression expression) (.expression other)

section

variable {scopes others : Scopes} {position otherPosition : Position}
  {callee other : Surface.Ident}

theorem simulates_checkArity (name : String) (expected actual : Nat) :
    Simulates matching (fun _ => Eq) (checkArity name expected actual position)
      (checkArity name expected actual otherPosition) :=
  .ite (.pure rfl) (.reject _ _ _ _)

theorem simulates_findCalled (alike : Scopes.Alike matching scopes others)
    (name : callee.name = other.name) (count : Nat) :
    Simulates matching Called.Alike (findCalled scopes position callee count)
      (findCalled others otherPosition other count) := by
  unfold findCalled
  rw [name]
  refine (simulates_lookup alike _).bind fun _ _ entity otherEntity entities => ?_
  cases entities with
  | library symbol =>
    exact (simulates_checkArity _ _ _).bindSame fun _ _ _ => .pure (.library symbol)
  | function functions =>
    refine (Simulates.current functions).bind fun _ _ function otherFunction known => ?_
    rw [known.parameters.length_eq, Variable.types_alike known.parameters, known.result]
    exact (simulates_checkArity _ _ _).bindSame fun _ within _ =>
      .pure (.callee (.function known.type (known.mono within)) _ _)
  | @value target otherTarget targets =>
    dsimp only
    rw [targets.type]
    split
    · exact (simulates_checkArity _ _ _).bindSame fun _ within _ =>
        .pure (.callee (.reference ⟨by rfl, targets.mono within⟩) _ _)
    · exact .reject _ _ _ _

theorem simulates_pass {argument otherArgument : Expr} (passing : Passing)
    (arguments : argument.Alike first second matching otherArgument) :
    Simulates matching (Expr.Alike first second) (pass passing argument)
      (pass passing otherArgument) := by
  cases passing with
  | into parameters =>
    cases parameters with
    | nil => exact .throw _ _
    | cons parameter parameters =>
      refine (simulates_useValue arguments).bind fun _ _ value otherValue values =>
        (simulates_checkConvert parameter values).bindSame fun _ within _ => .pure ?_
      split
      · exact values.mono within
      · exact (values.mono within).withType parameter
  | values => exact simulates_useValue arguments
  | plain => exact .pure arguments

theorem simulates_apply {mapping otherMapping items otherItems : Expr}
    (mappings : mapping.Alike first second matching otherMapping)
    (itemsAlike : items.Alike first second matching otherItems) :
    Simulates matching (Expr.Alike first second) (apply position mapping items)
      (apply otherPosition otherMapping otherItems) := by
  unfold apply
  rw [mappings.type, itemsAlike.type]
  split
  · split
    · exact .pure (.apply (by rfl) mappings itemsAlike)
    · exact .ite (.pure (.apply (by rfl) mappings itemsAlike)) .rejecting
    · exact .reject _ _ _ _
  · exact .reject _ _ _ _

theorem simulates_supplant {text otherText pattern otherPattern replacement otherReplacement : Expr}
    (texts : text.Alike first second matching otherText)
    (patterns : pattern.Alike first second matching otherPattern)
    (replacements : replacement.Alike first second matching otherReplacement) :
    Simulates matching (Expr.Alike first second) (supplant position text pattern replacement)
      (supplant otherPosition otherText otherPattern otherReplacement) := by
  have parts : ExprsAlike first second matching [text, pattern, replacement]
      [otherText, otherPattern, otherReplacement] :=
    .cons texts (.cons patterns (.cons replacements .nil))
  refine Simulates.bind (Simulates.forIn (fun same => ?_) parts.types) fun _ within _ _ _ =>
    .pure (.supplant (by rfl) (texts.mono within) (patterns.mono within) (replacements.mono within))
  rw [same]
  exact .ite (.pure rfl) .rejecting

theorem simulates_callLibrary (symbol : LibraryFunction) {arguments otherArguments : List Expr}
    (below : ExprsAlike first second matching arguments otherArguments) :
    Simulates matching (Outcome.Alike first second) (callLibrary position symbol arguments)
      (callLibrary otherPosition symbol otherArguments) := by
  unfold callLibrary
  obtain _ | ⟨one, _ | ⟨two, _ | ⟨three, _ | ⟨four, more⟩⟩⟩⟩ := below <;>
    cases symbol.intrinsic
  all_goals first
    | exact .throw _ _
    | exact .pure (.printed one)
    | exact (simulates_apply one two).bind fun _ _ _ _ applied => .pure (.expression applied)
    | exact (simulates_supplant one two three).bind fun _ _ _ _ replaced =>
        .pure (.expression replaced)

theorem simulates_describedCallee (alike : Scopes.Alike matching scopes others)
    (name : callee.name = other.name) :
    Simulates matching (fun _ => Eq) (describedCallee scopes callee)
      (describedCallee others other) := by
  unfold describedCallee
  rw [name]
  refine (simulates_lookup alike _).bind fun _ _ entity otherEntity entities => ?_
  cases entities with
  | function functions =>
    exact (Simulates.current functions).bind fun _ _ _ _ known => .pure known.type
  | library symbol => exact .pure rfl
  | value targets =>
    dsimp only
    rw [targets.type]
    exact .ite (.pure rfl) .rejecting

theorem simulates_call (alike : Scopes.Alike matching scopes others)
    (name : callee.name = other.name) (count : Nat) {described otherDescribed : Analyzer Ty}
    {arguments otherArguments : Passing → Analyzer (List Expr)}
    (describes : ∀ wide, matching ≤ wide → Simulates wide (fun _ => Eq) described otherDescribed)
    (passes : ∀ wide, matching ≤ wide → ∀ passing,
      Simulates wide (ExprsAlike first second) (arguments passing) (otherArguments passing)) :
    Simulates matching (Outcome.Alike first second)
      (call scopes position callee count described arguments)
      (call others otherPosition other count otherDescribed otherArguments) := by
  refine (simulates_findCalled alike name count).bind fun wide within called otherCalled calls => ?_
  cases calls with
  | callee callees parameters result =>
    exact (passes wide within _).bind fun _ further _ _ below =>
      .pure (.expression (.call (by rfl) (callees.mono further) below))
  | library symbol =>
    dsimp only
    split
    · exact (describes wide within).bindSame fun _ _ type =>
        .pure (.expression (.typeOf (by rfl) type))
    · exact (passes wide within .values).bind fun _ _ _ _ below =>
        simulates_callLibrary symbol below

end

/-! ## Types that are written alike -/

mutual

theorem settles_resolve {written other : Surface.TypeSyntax} :
    written.Alike other → Settles Eq written.resolve other.resolve
  | .named name => by
    unfold Surface.TypeSyntax.resolve
    rw [name]
    split
    · exact .ok rfl
    · exact .error
  | .pointer below | .optional below | .array below => by
    unfold Surface.TypeSyntax.resolve
    exact (settles_resolve below).bind fun same => .ok (same ▸ rfl)
  | .function below => by
    unfold Surface.TypeSyntax.resolve
    refine (settles_resolveAll below).bind fun same => ?_
    subst same
    split
    · exact .ok rfl
    · exact .error
  | .functionTo below results => by
    unfold Surface.TypeSyntax.resolve
    exact (settles_resolveAll below).bind fun same =>
      (settles_resolve results).bind fun sameResult => .ok (same ▸ sameResult ▸ rfl)

theorem settles_resolveAll {written others : List Surface.TypeSyntax} :
    Surface.TypesAlike written others →
      Settles Eq (Surface.TypeSyntax.resolveAll written)
        (Surface.TypeSyntax.resolveAll others)
  | .nil => .ok rfl
  | .cons here below => by
    unfold Surface.TypeSyntax.resolveAll
    exact (settles_resolve here).bind fun same =>
      (settles_resolveAll below).bind fun sameRest => .ok (same ▸ sameRest ▸ rfl)

end

theorem simulates_resolve {written other : Surface.TypeSyntax} (types : written.Alike other) :
    Simulates matching (fun _ => Eq) (orReject written.resolve) (orReject other.resolve) :=
  Simulates.orReject_of_settles (settles_resolve types)

/-! ## Functions -/

section

variable {scopes others : Scopes} {position otherPosition : Position}
  {function other : Function}

theorem simulates_parameters {written others : List Surface.Parameter}
    (alike : List.Forall₂ Surface.Parameter.Alike written others) :
    Simulates matching (fun wide => List.Forall₂ (Variable.Alike wide)) (parameters written)
      (parameters others) := by
  induction alike generalizing matching with
  | nil => exact .pure .nil
  | cons here _ ih =>
    refine (simulates_resolve here.type).bindSame fun _ _ type => ?_
    refine Simulates.freshId.bind fun _ _ id otherId matched => ?_
    refine ih.bind fun _ within rest otherRest targetsAlike => .pure (.cons ?_ targetsAlike)
    exact ⟨within _ _ matched, here.name, rfl, rfl⟩

/-- What two statements declare matches, if the first one declares a function. -/
structure Declared.Alike (declares : Bool) (matching : Matching)
    (found other : Option (Position × Function)) : Prop where
  alike : Option.Rel (fun one another => one.2.Alike matching another.2) found other
  declares : found.isSome = declares

theorem simulates_declared {may : Surface.Stmt → Prop} {written other : Surface.Stmt}
    (alike : written.Alike first second may other) :
    Simulates matching (Declared.Alike (declaresFunction written)) (declared written)
      (declared other) := by
  cases alike with
  | @function position otherPosition name _ _ result otherResult _ _ _ parametersAlike results _ =>
    have resolved (wide : Matching) : Simulates wide (fun _ => Eq)
        (result.mapM fun type => orReject type.resolve)
        (otherResult.mapM fun type => orReject type.resolve) := by
      cases results with
      | none => exact .pure rfl
      | some types => exact (simulates_resolve types).bindSame fun _ _ _ => .pure rfl
    refine (simulates_parameters parametersAlike).bind fun _ _ _ _ targets => ?_
    refine (resolved _).bindSame fun _ early type => ?_
    refine Simulates.freshId.bind fun _ late id otherId matched => .pure ⟨.some ?_, rfl⟩
    exact ⟨matched, rfl, Variable.alikes_mono targets (early.trans late), rfl, rfl⟩
  | @conjureBinding position otherPosition name _ _ _ _ _ types _ =>
    refine (simulates_resolve types).bindSame fun _ _ type => ?_
    have last (wide : Matching) (result : Ty) : Simulates wide (Declared.Alike true)
        (do return some (position, ⟨← freshId, name, [], result, false⟩))
        (do return some (otherPosition, ⟨← freshId, name, [], result, false⟩)) :=
      Simulates.freshId.bind fun _ _ id otherId matched =>
        .pure ⟨.some ⟨matched, rfl, .nil, rfl, rfl⟩, rfl⟩
    cases type with
    | function parameters result =>
      cases parameters with
      | nil => exact last _ result
      | cons parameter parameters => exact .rejecting
    | _ => exact last _ _
  | _ => exact .pure ⟨.none, rfl⟩

theorem simulates_declareParameters {written othersWritten : List Surface.Parameter}
    {targets otherTargets : List Variable} (alike : Scopes.Alike matching scopes others)
    (parametersAlike : List.Forall₂ Surface.Parameter.Alike written othersWritten)
    (targetsAlike : List.Forall₂ (Variable.Alike matching) targets otherTargets) :
    Simulates matching Scopes.Alike (declareParameters scopes (written.zip targets))
      (declareParameters others (othersWritten.zip otherTargets)) := by
  induction parametersAlike generalizing matching scopes others targets otherTargets with
  | nil => exact .pure alike
  | cons _ _ ih =>
    cases targetsAlike with
    | nil => exact .pure alike
    | cons here targetsAlike =>
      simp only [List.zip_cons_cons, declareParameters, here.name]
      refine (Simulates.orReject_of_settles (alike.declare (.value here))).bind
        fun _ within _ _ inner => ih inner (Variable.alikes_mono targetsAlike within)

theorem simulates_finishFunction (functions : function.Alike matching other) (returns : Bool) :
    Simulates matching (fun _ => Eq) (finishFunction function returns position)
      (finishFunction other returns otherPosition) := by
  unfold finishFunction
  rw [functions.inferred, functions.result]
  refine .ite ?_ (.ite (.pure rfl) (.reject _ _ _ _))
  exact (Simulates.isPending functions).bindSame fun _ within _ =>
    .ite (.fixResult .void (functions.mono within)) (.pure rfl)

theorem simulates_returningFunction (alike : Scopes.Alike matching scopes others) :
    Simulates matching Function.Alike (returningFunction scopes position)
      (returningFunction others otherPosition) := by
  unfold returningFunction
  have owner := alike.innermost.owner
  revert owner
  generalize (GlyphCompiler.Scopes.innermost scopes).owner = one
  generalize (GlyphCompiler.Scopes.innermost others).owner = another
  rintro (same | _)
  · exact .pure same
  · exact .reject _ _ _ _

theorem simulates_returnVoid (alike : Scopes.Alike matching scopes others) :
    Simulates matching (Stmt.Alike first second) (returnVoid scopes position)
      (returnVoid others otherPosition) := by
  refine (simulates_returningFunction alike).bind fun _ _ function other functions =>
    (Simulates.isPending functions).bindSame fun _ within _ => .ite ?_ ?_
  · exact (Simulates.fixResult .void (functions.mono within)).bindSame fun _ _ _ =>
      .pure .returnVoid
  · refine (Simulates.current (functions.mono within)).bind fun _ _ _ _ known => ?_
    rw [known.result]
    exact .ite (.pure .returnVoid) .rejecting

theorem simulates_returnValue {value otherValue : Expr} (functions : function.Alike matching other)
    (values : value.Alike first second matching otherValue) :
    Simulates matching (Stmt.Alike first second) (returnValue function position value)
      (returnValue other otherPosition otherValue) := by
  unfold returnValue
  rw [values.type]
  refine (Simulates.isPending functions).bindSame fun _ early _ => .ite ?_ ?_
  · exact (Simulates.fixResult _ (functions.mono early)).bindSame fun _ within _ =>
      .pure (.returnValue (values.mono (early.trans within)))
  · refine (Simulates.current (functions.mono early)).bind fun _ late _ _ known => ?_
    rw [known.result]
    refine .ite .rejecting ?_
    exact (simulates_checkConvert _ (values.mono (early.trans late))).bindSame fun _ within _ =>
      .pure (.returnValue (values.mono (early.trans (late.trans within))))

end

/-! ## Other statements -/

section

variable {scopes others : Scopes} {position otherPosition : Position}
  {ident other : Surface.Ident}

theorem simulates_stepVariable (alike : Scopes.Alike matching scopes others)
    (name : ident.name = other.name) (step : Step) :
    Simulates matching (Stmt.Alike first second) (stepVariable scopes position step ident)
      (stepVariable others otherPosition step other) := by
  refine (simulates_assignable alike name).bind fun _ _ target otherTarget targets => ?_
  rw [targets.type]
  exact .ite (.pure (.step step targets)) .rejecting

theorem simulates_breakLoop (alike : Scopes.Alike matching scopes others) :
    Simulates matching (Stmt.Alike first second) (breakLoop scopes position)
      (breakLoop others otherPosition) := by
  unfold breakLoop
  rw [alike.innermost.inLoop]
  exact .ite (.pure .breakLoop) .rejecting

theorem simulates_beginMain :
    Simulates matching (fun _ => Eq) (beginMain position) (beginMain otherPosition) := by
  refine Simulates.get.bind fun _ _ state otherState agree => ?_
  rw [agree.mainSeen]
  exact .ite .rejecting .beginning

end

/-! ## Statements that are left -/

/-- The functions ahead of two lists of statements match: where one statement is written
like the other, its function is that of the other, and where two functions with declared
results are exchanged, so are they ahead. -/
inductive AheadAlike (matching : Matching) :
    Surface.Layout → List Surface.Stmt → List Function → List Function → Prop
  | done : AheadAlike matching .done [] [] []
  | skip {layout : Surface.Layout} {statement : Surface.Stmt} {rest : List Surface.Stmt}
      {ahead others : List Function} (declares : declaresFunction statement = false)
      (below : AheadAlike matching layout rest ahead others) :
    AheadAlike matching (.one layout) (statement :: rest) ahead others
  | one {layout : Surface.Layout} {statement : Surface.Stmt} {rest : List Surface.Stmt}
      {function other : Function} {ahead others : List Function}
      (declares : declaresFunction statement = true) (here : function.Alike matching other)
      (below : AheadAlike matching layout rest ahead others) :
    AheadAlike matching (.one layout) (statement :: rest) (function :: ahead) (other :: others)
  | two {layout : Surface.Layout} {statement next : Surface.Stmt} {rest : List Surface.Stmt}
      {earlier later otherEarlier otherLater : Function} {ahead others : List Function}
      (declaresEarlier : earlier.inferred = false) (declaresLater : later.inferred = false)
      (firsts : earlier.Alike matching otherEarlier) (seconds : later.Alike matching otherLater)
      (below : AheadAlike matching layout rest ahead others) :
    AheadAlike matching (.two layout) (statement :: next :: rest) (earlier :: later :: ahead)
      (otherLater :: otherEarlier :: others)

namespace AheadAlike

variable {layout : Surface.Layout} {statement : Surface.Stmt} {rest : List Surface.Stmt}
  {ahead others : List Function}

theorem mono (alike : AheadAlike matching layout rest ahead others) (within : matching ≤ wide) :
    AheadAlike wide layout rest ahead others := by
  induction alike with
  | done => exact .done
  | skip declares _ ih => exact .skip declares ih
  | one declares here _ ih => exact .one declares (here.mono within) ih
  | two declaresEarlier declaresLater firsts seconds _ ih =>
    exact .two declaresEarlier declaresLater (firsts.mono within) (seconds.mono within) ih

/-- Past a statement that declares no function the same functions are ahead. -/
theorem past (alike : AheadAlike matching (.one layout) (statement :: rest) ahead others)
    (declares : declaresFunction statement = false) :
    AheadAlike matching layout rest ahead others := by
  cases alike with
  | skip _ below => exact below
  | one declares' => exact absurd (declares.symm.trans declares') Bool.false_ne_true

end AheadAlike

/-- The same is left of two lists of statements. -/
structure Region.Alike (layout : Surface.Layout) (rest : List Surface.Stmt) (matching : Matching)
    (region other : Region) : Prop where
  scopes : Scopes.Alike matching region.scopes other.scopes
  ahead : AheadAlike matching layout rest region.ahead other.ahead

/-- Two statements match, and so does what is left after them. -/
structure Onward (first second : Position) (layout : Surface.Layout) (rest : List Surface.Stmt)
    (matching : Matching) (result other : Stmt × Region) : Prop where
  statements : result.1.Alike first second matching other.1
  regions : Region.Alike layout rest matching result.2 other.2

section

variable {layout : Surface.Layout} {rest : List Surface.Stmt} {region other : Region}
  {position otherPosition : Position}

theorem simulates_affix (alike : Scopes.Alike matching region.scopes other.scopes)
    (ahead : AheadAlike matching layout rest region.ahead other.ahead) (module symbol : String) :
    Simulates matching (Onward first second layout rest) (affix region position module symbol)
      (affix other otherPosition module symbol) := by
  unfold affix
  refine .ite ?_ .rejecting
  cases Library.find? module symbol with
  | none => exact .reject _ _ _ _
  | some function =>
    exact (Simulates.orReject_of_settles (alike.declare (.library function))).bind
      fun _ within _ _ inner => .pure ⟨.affix function, inner, ahead.mono within⟩

theorem simulates_declareVariable {ident otherIdent : Surface.Ident} {value otherValue : Expr}
    {written otherWritten : Option Surface.TypeSyntax} (changeable : Bool)
    (alike : Scopes.Alike matching region.scopes other.scopes)
    (ahead : AheadAlike matching layout rest region.ahead other.ahead)
    (name : ident.name = otherIdent.name)
    (types : Option.Rel Surface.TypeSyntax.Alike written otherWritten)
    (values : value.Alike first second matching otherValue) :
    Simulates matching (Onward first second layout rest)
      (declareVariable region position changeable ident written value)
      (declareVariable other otherPosition changeable otherIdent otherWritten otherValue) := by
  have last (wide : Matching) (early : matching ≤ wide) (type : Ty) :
      Simulates wide (Onward first second layout rest)
        (do
          let target : Variable := ⟨← freshId, ident.name, type, changeable⟩
          let scopes ← orReject
            (region.scopes.declare .alreadyDeclared target.name (.value target) position)
          unless changeable do
            modify fun state => { state with constants := (target.id, value) :: state.constants }
          return (.declare position target value, { region with scopes := scopes }))
        (do
          let target : Variable := ⟨← freshId, otherIdent.name, type, changeable⟩
          let scopes ← orReject
            (other.scopes.declare .alreadyDeclared target.name (.value target) otherPosition)
          unless changeable do
            modify fun state =>
              { state with constants := (target.id, otherValue) :: state.constants }
          return (.declare otherPosition target otherValue, { other with scopes := scopes })) := by
    rw [name]
    refine Simulates.freshId.bind fun wider late id otherId matched => ?_
    have targets : Variable.Alike wider ⟨id, otherIdent.name, type, changeable⟩
        ⟨otherId, otherIdent.name, type, changeable⟩ := ⟨matched, rfl, rfl, rfl⟩
    have inner := alike.mono (early.trans late)
    refine (Simulates.orReject_of_settles (inner.declare (.value targets))).bind
      fun widest further _ _ declared => ?_
    have within := early.trans (late.trans further)
    refine .ite (.pure ⟨.declare (targets.mono further) (values.mono within), declared,
      ahead.mono within⟩) ?_
    refine (Simulates.remember (further _ _ matched) (values.mono within)).bindSame
      fun _ again _ => .pure ⟨.declare (targets.mono (further.trans again))
        (values.mono (within.trans again)), declared.mono again, ahead.mono (within.trans again)⟩
  unfold declareVariable
  cases types with
  | some types =>
    exact (simulates_resolve types).bindSame fun _ early type =>
      (simulates_checkConvert type (values.mono early)).bindSame fun _ late _ =>
        last _ (early.trans late) type
  | none =>
    have type := values.type
    cases values with
    | null => exact .rejecting
    | _ =>
      dsimp only
      rw [type]
      exact last _ le_rfl _

end

end Analysis

end GlyphCompiler
