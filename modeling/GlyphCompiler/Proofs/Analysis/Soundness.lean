/-
# Every analysis is a derivation

An analysis that yields something does so by the rules. The proof follows the
recursion of the analysis over the surface syntax.
-/

import GlyphCompiler.Proofs.Analysis.Derivation

namespace GlyphCompiler

namespace Analysis

variable {before after : State}

theorem yields_checkCondition {condition result : Expr}
    (yields : Yields (checkCondition condition) before result after) :
    result = condition ∧ condition.type = .bool ∧ after = before := by
  simp [checkCondition] at yields
  grind

theorem analyzes_call {scopes : Scopes} {position : Position} {callee : Surface.Ident} {written : List Surface.Expr}
    {result : Outcome}
    (describes : ∀ {before result after}, Yields (described scopes written) before result after →
      AnalyzesDescribed scopes written before after)
    (analyzes : ∀ {passing before result after},
      Yields (arguments scopes passing written) before result after →
        AnalyzesExprs scopes passing written before result after)
    (yields : Yields (call scopes position callee written.length (described scopes written)
      fun passing => arguments scopes passing written) before result after) :
    AnalyzesCall scopes position callee written before result after := by
  simp only [call, yields_bind] at yields
  obtain ⟨called, middle, finds, rest⟩ := yields
  obtain ⟨rfl, ⟨symbol, found, rfl⟩ | ⟨function, found, arity, rfl⟩ |
    ⟨target, parameters, type, found, isFunction, arity, rfl⟩⟩ := yields_findCalled finds
  · dsimp only at rest
    split at rest
    · simp only [yields_bind, yields_pure] at rest
      obtain ⟨type, _, yields, rfl, rfl⟩ := rest
      exact .typeOf (describes yields)
    · simp only [yields_bind] at rest
      obtain ⟨arguments, _, yields, rest⟩ := rest
      have analyzed := analyzes yields
      unfold callLibrary at rest
      split at rest
      · obtain ⟨rfl, rfl⟩ := yields_pure.mp rest
        exact .printed analyzed
      · simp only [yields_bind, yields_pure] at rest
        obtain ⟨applied, _, yields, rfl, rfl⟩ := rest
        obtain ⟨⟨type, rfl⟩, rfl⟩ := yields_apply yields
        exact .apply analyzed
      · simp only [yields_bind, yields_pure] at rest
        obtain ⟨supplanted, _, yields, rfl, rfl⟩ := rest
        obtain ⟨rfl, rfl⟩ := yields_supplant yields
        exact .supplant analyzed
      · simp at rest
  · simp only [yields_bind, yields_pure] at rest
    obtain ⟨arguments, _, yields, rfl, rfl⟩ := rest
    exact .function found arity (analyzes yields)
  · simp only [yields_bind, yields_pure] at rest
    obtain ⟨arguments, _, yields, rfl, rfl⟩ := rest
    exact .reference found isFunction arity (analyzes yields)

theorem described_many (scopes : Scopes) (first second : Surface.Expr) (rest : List Surface.Expr) :
    described scopes (first :: second :: rest) = throw (.fault .inconsistent) := by
  cases first <;> rfl

theorem statement_main (region : Region) (position : Position) (written : Surface.Stmt)
    (notBlock : ∀ blockPosition body, written ≠ .block blockPosition body) :
    statement region (.main position written) = do
      beginMain position
      let (body, inner) ← statement (← enter region.scopes [written]) written
      return (.main position [body], { region with scopes := inner.scopes }) := by
  cases written with
  | block blockPosition body => exact absurd rfl (notBlock blockPosition body)
  | _ => rfl

mutual

theorem analyzes_expression {scopes : Scopes} {before after : State} {result : Expr} :
    ∀ {written : Surface.Expr}, Yields (expression scopes written) before result after →
      AnalyzesExpr scopes written before result after
  | .integer position text, yields => by
    obtain ⟨short, rfl, rfl⟩ := yields_integerLiteral.mp yields
    refine .literal (.integer _ _ (Nat.lt_of_lt_of_le (DecimalDigit.number_lt text.toList) ?_))
    exact Nat.pow_le_pow_right (by decide) (String.length_toList ▸ short)
  | .decimal position text, yields => by
    obtain ⟨rfl, rfl⟩ := yields_pure.mp yields
    exact .literal (.decimal _ _)
  | .string position text, yields => by
    obtain ⟨rfl, rfl⟩ := yields_pure.mp yields
    exact .literal (.string _ _)
  | .quoted position text, yields => by
    obtain ⟨rfl, rfl⟩ := yields_pure.mp yields
    unfold quotedLiteral
    split
    · exact .literal (.glyph _ _)
    · exact .literal (.string _ _)
  | .codepoint position text, yields => by
    obtain ⟨-, rfl, rfl⟩ := yields_codepointLiteral.mp yields
    exact .literal (.codepoint _ _)
  | .bool position value, yields => by
    obtain ⟨rfl, rfl⟩ := yields_pure.mp yields
    exact .literal (.bool _ _)
  | .null position, yields => by
    obtain ⟨rfl, rfl⟩ := yields_pure.mp yields
    exact .literal (.null _)
  | .name ident, yields => by
    simp only [expression, reference, yields_bind, yields_lookup] at yields
    obtain ⟨entity, _, ⟨found, rfl⟩, rest⟩ := yields
    cases entity with
    | value target =>
      obtain ⟨rfl, rfl⟩ := yields_pure.mp rest
      exact .reference found
    | function function =>
      simp only [yields_bind, yields_current, yields_pure] at rest
      obtain ⟨_, _, ⟨rfl, rfl⟩, rfl, rfl⟩ := rest
      exact .function found
    | library symbol => simp at rest
  | .binary position operator left right, yields => by
    simp only [expression, yields_bind, yields_useValue] at yields
    obtain ⟨left, _, yieldsLeft, _, _, ⟨rfl, leftIsValue, rfl⟩, right, _, yieldsRight, _, _,
      ⟨rfl, rightIsValue, rfl⟩, rest⟩ := yields
    obtain ⟨rfl, rfl⟩ := yields_binary rest
    exact .binary (.value (analyzes_expression yieldsLeft) leftIsValue)
      (.value (analyzes_expression yieldsRight) rightIsValue)
  | .unary position operator operand, yields => by
    simp only [expression, yields_bind, yields_useValue] at yields
    obtain ⟨operand, _, yields, _, _, ⟨rfl, isValue, rfl⟩, rest⟩ := yields
    obtain ⟨rfl, rfl⟩ := yields_unary rest
    exact .unary (.value (analyzes_expression yields) isValue)
  | .addressOf position operand, yields => by
    obtain ⟨ident, target, rfl, found, rfl, rfl⟩ := yields_addressOf yields
    exact .addressOf found
  | .dereference position operand, yields => by
    simp only [expression, yields_bind] at yields
    obtain ⟨operand, _, yields, rest⟩ := yields
    obtain ⟨target, pointer, rfl, rfl⟩ := yields_dereference rest
    exact .dereference (analyzes_expression yields) pointer
  | .subscript position base index, yields => by
    simp only [expression, yields_bind, yields_useValue] at yields
    obtain ⟨base, _, yieldsBase, _, _, ⟨rfl, baseIsValue, rfl⟩, index, _, yieldsIndex, _, _,
      ⟨rfl, indexIsValue, rfl⟩, rest⟩ := yields
    obtain ⟨element, isArray, inExtent, rfl, rfl⟩ := yields_subscript rest
    exact .subscript (.value (analyzes_expression yieldsBase) baseIsValue)
      (.value (analyzes_expression yieldsIndex) indexIsValue) isArray inExtent
  | .call callee written, yields => by
    simp only [expression, yields_bind] at yields
    obtain ⟨outcome, _, called, rest⟩ := yields
    have analyzed := analyzes_call (analyzes_described ·) (analyzes_arguments ·) called
    cases outcome with
    | expression result =>
      obtain ⟨rfl, rfl⟩ := yields_pure.mp rest
      exact .call analyzed
    | printed value => simp at rest
  | .array position written, yields => by
    simp only [expression, yields_bind] at yields
    obtain ⟨elements, _, yields, rest⟩ := yields
    obtain ⟨⟨element, rfl, same⟩, rfl⟩ := yields_array rest
    exact .array (analyzes_arguments yields) same
  | .conjure position written, yields => by
    simp only [expression, bind_pure_comp, yields_bind, yields_freshId, yields_ite, yields_map,
      yields_current, and_assoc, exists_eq_left, Bool.not_eq_true, not_yields_reject, false_and,
      exists_false, and_false, or_false, exists_and_left] at yields
    obtain ⟨region, _, opens, body, _, yields, returns, rfl, rfl⟩ := yields
    exact .conjure (.body (opens_of_yields_enter opens) (analyzes_statements yields)) returns

theorem analyzes_arguments {scopes : Scopes} {passing : Passing} {before after : State}
    {result : List Expr} :
    ∀ {written : List Surface.Expr}, Yields (arguments scopes passing written) before result after →
      AnalyzesExprs scopes passing written before result after
  | [], yields => by
    obtain ⟨rfl, rfl⟩ := yields_pure.mp yields
    exact .nil
  | written :: rest, yields => by
    simp only [arguments, yields_bind, yields_pure] at yields
    obtain ⟨expression, _, yieldsFirst, argument, _, passes, arguments, _, yieldsRest, rfl, rfl⟩ :=
      yields
    have first := analyzes_expression yieldsFirst
    have others := analyzes_arguments yieldsRest
    cases passing with
    | into parameters =>
      cases parameters with
      | nil => simp [pass] at passes
      | cons parameter parameters =>
        simp only [pass, yields_bind, yields_useValue, yields_checkConvert, yields_pure] at passes
        obtain ⟨_, _, ⟨rfl, isValue, rfl⟩, _, _, ⟨converts, rfl⟩, rfl, rfl⟩ := passes
        exact .into (.value first isValue) converts others
    | values =>
      obtain ⟨rfl, isValue, rfl⟩ := yields_useValue.mp passes
      exact .value (.value first isValue) others
    | plain =>
      obtain ⟨rfl, rfl⟩ := yields_pure.mp passes
      exact .plain first others

theorem analyzes_described {scopes : Scopes} {before after : State} {result : Ty} :
    ∀ {written : List Surface.Expr}, Yields (described scopes written) before result after →
      AnalyzesDescribed scopes written before after
  | [written], yields => by
    cases written with
    | call callee written =>
      simp only [described, yields_bind, yields_pure] at yields
      obtain ⟨type, _, yieldsType, arguments, _, yields, rfl, rfl⟩ := yields
      obtain rfl := yields_describedCallee yieldsType
      exact .call (analyzes_arguments yields)
    | _ =>
      simp only [described, yields_bind, yields_pure] at yields
      obtain ⟨result, _, yields, rfl, rfl⟩ := yields
      exact .expression (analyzes_expression yields)
  | [], yields => by
    cases yields
  | first :: _ :: _, yields => by
    rw [described_many] at yields
    cases yields

theorem analyzes_statement {region : Region} {before after : State} {result : Stmt × Region} :
    ∀ {written : Surface.Stmt}, Yields (statement region written) before result after →
      AnalyzesStmt region written before result.1 result.2 after
  | .main position written, yields => by
    cases written with
    | block blockPosition written =>
      simp [statement, and_assoc] at yields
      obtain ⟨unseen, opened, _, opens, body, yields, rfl⟩ := yields
      exact .mainBlock unseen (.body (opens_of_yields_enter opens) (analyzes_statements yields))
    | _ =>
      rw [statement_main region position _ (by simp)] at yields
      simp [and_assoc] at yields
      obtain ⟨unseen, opened, _, opens, body, inner, yields, rfl⟩ := yields
      exact .mainStatement unseen (opens_of_yields_enter opens) (analyzes_statement yields)
  | .affix position module symbol, yields => by
    obtain ⟨function, scopes, rfl, declared, rfl⟩ := yields_affix yields
    exact .affix declared
  | .function position name parameters type written, yields => by
    obtain ⟨scopes, ahead⟩ := region
    cases ahead with
    | nil => simp [statement] at yields
    | cons function ahead =>
      simp only [statement, yields_bind, yields_current, yields_pure] at yields
      obtain ⟨inner, _, yieldsInner, opened, _, opens, body, _, yieldsBody, _, _, finishes,
        _, _, ⟨rfl, rfl⟩, rfl, rfl⟩ := yields
      have named := named_of_yields_declareParameters yieldsInner
      obtain ⟨visible, -, owner, inLoop, rfl⟩ := visible_of_yields_declareParameters yieldsInner
      obtain ⟨rfl, returns⟩ := yields_finishFunction finishes
      refine .function (fun other => (visible other).trans mem_visible_functionBody) named owner
        inLoop (.body (opens_of_yields_enter opens) (analyzes_statements yieldsBody)) returns
  | .conjureBinding position name type written, yields => by
    obtain ⟨scopes, ahead⟩ := region
    cases ahead with
    | nil => simp [statement] at yields
    | cons function ahead =>
      simp only [statement, yields_bind, yields_pure] at yields
      obtain ⟨opened, _, opens, body, _, yieldsBody, _, _, finishes, rfl, rfl⟩ := yields
      obtain ⟨rfl, returns⟩ := yields_finishFunction finishes
      exact .conjureBinding (.body (opens_of_yields_enter opens) (analyzes_statements yieldsBody))
        returns
  | .declare position changeable ident type written, yields => by
    simp only [statement, yields_bind, yields_useValue] at yields
    obtain ⟨value, _, yieldsValue, _, _, ⟨rfl, isValue, rfl⟩, declares⟩ := yields
    have value := AnalyzesValue.value (analyzes_expression yieldsValue) isValue
    obtain ⟨type, scopes, _, ⟨converts, rfl⟩ | ⟨rfl, rfl⟩, declared, rfl, rfl⟩ :=
      yields_declareVariable declares
    · exact .declare value rfl rfl converts declared rfl
    · exact .declareInferred value rfl rfl rfl declared rfl
  | .assign position ident written, yields => by
    simp only [statement, yields_bind, yields_useValue, yields_checkConvert, yields_pure] at yields
    obtain ⟨target, _, finds, value, _, yieldsValue, _, _, ⟨rfl, isValue, rfl⟩, _, _,
      ⟨converts, rfl⟩, rfl, rfl⟩ := yields
    obtain ⟨found, changeable, rfl⟩ := yields_assignable finds
    exact .assign found changeable (.value (analyzes_expression yieldsValue) isValue) converts
  | .step position step ident, yields => by
    simp only [statement, yields_bind, yields_pure] at yields
    obtain ⟨stepped, _, steps, rfl, rfl⟩ := yields
    obtain ⟨target, found, changeable, rfl, rfl⟩ := yields_stepVariable steps
    exact .step found changeable
  | .branch position condition consequent alternative, yields => by
    simp only [statement, yields_bind, yields_pure] at yields
    obtain ⟨condition, _, yieldsCondition, _, _, checks, first, _, opensFirst, consequent, _,
      yieldsConsequent, second, _, opensSecond, alternative, _, yieldsAlternative, rfl, rfl⟩ :=
      yields
    obtain ⟨rfl, isBool, rfl⟩ := yields_checkCondition checks
    exact .branch (analyzes_expression yieldsCondition) isBool
      (.body (opens_of_yields_enter opensFirst) (analyzes_statements yieldsConsequent))
      (.body (opens_of_yields_enter opensSecond) (analyzes_statements yieldsAlternative))
  | .loop position condition written, yields => by
    simp only [statement, yields_bind, yields_pure] at yields
    obtain ⟨condition, _, yieldsCondition, _, _, checks, opened, _, opens, body, _, yieldsBody,
      rfl, rfl⟩ := yields
    obtain ⟨rfl, isBool, rfl⟩ := yields_checkCondition checks
    exact .loop (analyzes_expression yieldsCondition) isBool
      (.body (opens_of_yields_enter opens) (analyzes_statements yieldsBody))
  | .breakLoop position, yields => by
    simp only [statement, yields_bind, yields_breakLoop, yields_pure] at yields
    obtain ⟨_, _, ⟨inLoop, rfl, rfl⟩, rfl, rfl⟩ := yields
    exact .breakLoop inLoop
  | .returnVoid position, yields => by
    simp only [statement, yields_bind, yields_pure] at yields
    obtain ⟨_, _, returns, rfl, rfl⟩ := yields
    obtain ⟨function, owner, rfl, rfl⟩ := yields_returnVoid returns
    exact .returnVoid owner
  | .returnValue position written, yields => by
    simp only [statement, yields_bind, yields_useValue, yields_pure] at yields
    obtain ⟨function, _, finds, value, _, yieldsValue, _, _, ⟨rfl, isValue, rfl⟩, _, _, returns,
      rfl, rfl⟩ := yields
    obtain ⟨owner, rfl⟩ := yields_returningFunction finds
    have value := AnalyzesValue.value (analyzes_expression yieldsValue) isValue
    obtain ⟨rfl, ⟨pending, rfl⟩ | ⟨known, hasResult, converts, rfl⟩⟩ := yields_returnValue returns
    · exact .returnFirst owner value pending
    · exact .returnAgain owner value known hasResult converts
  | .exscribe position written, yields => by
    simp only [statement, yields_bind, yields_useValue, yields_pure] at yields
    obtain ⟨value, _, yieldsValue, _, _, ⟨rfl, isValue, rfl⟩, rfl, rfl⟩ := yields
    exact .exscribe (.value (analyzes_expression yieldsValue) isValue)
  | .call position callee written, yields => by
    simp only [statement, yields_bind] at yields
    obtain ⟨outcome, _, called, rest⟩ := yields
    have analyzed := analyzes_call (analyzes_described ·) (analyzes_arguments ·) called
    cases outcome with
    | expression result =>
      obtain ⟨rfl, rfl⟩ := yields_pure.mp rest
      exact .evaluate analyzed
    | printed value =>
      obtain ⟨rfl, rfl⟩ := yields_pure.mp rest
      exact .printed analyzed
  | .block position written, yields => by
    simp only [statement, yields_bind, yields_pure] at yields
    obtain ⟨opened, _, opens, body, _, yieldsBody, rfl, rfl⟩ := yields
    exact .block (.body (opens_of_yields_enter opens) (analyzes_statements yieldsBody))

theorem analyzes_statements {region : Region} {before after : State} {result : List Stmt} :
    ∀ {written : List Surface.Stmt}, Yields (statements region written) before result after →
      AnalyzesStmts region written before result after
  | [], yields => by
    obtain ⟨rfl, rfl⟩ := yields_pure.mp yields
    exact .nil
  | written :: rest, yields => by
    simp only [statements, yields_bind, yields_pure] at yields
    obtain ⟨⟨first, inner⟩, _, yieldsFirst, rest, _, yieldsRest, rfl, rfl⟩ := yields
    exact .cons (analyzes_statement yieldsFirst) (analyzes_statements yieldsRest)

end

/-! ## Whole programs -/

/-- What is asked of a use that was put off: used as a value it has a result, and what
flows into a type converts to it. -/
def State.Allows (state : State) (use : Deferred) : Prop :=
  match use.target with
  | none => (state.current use.function).result ≠ .void
  | some target => (state.current use.function).type.canConvert target .unknown = true

theorem yields_judge {use : Deferred} {result : Unit} (yields : Yields (judge use) before result after) :
    before.Allows use ∧ after = before := by
  simp only [judge, yields_bind, yields_current] at yields
  obtain ⟨_, _, ⟨rfl, rfl⟩, rest⟩ := yields
  unfold State.Allows
  split at rest
  · next noTarget =>
    simp at rest
    simpa [noTarget] using rest
  · next target hasTarget =>
    simp at rest
    simpa [hasTarget] using rest

theorem yields_judgeDeferred {result : Unit} (yields : Yields judgeDeferred before result after) :
    (∀ use ∈ before.deferred, before.Allows use) ∧ after = before := by
  simp only [judgeDeferred, yields_bind, yields_get, yields_pure] at yields
  obtain ⟨seen, middle, ⟨isSeen, isMiddle⟩, _, last, judges, -, rfl⟩ := yields
  rw [isSeen, isMiddle] at judges
  have judged := yields_forIn before.Allows (fun use result state judges => by
    simp only [yields_bind, yields_pure] at judges
    obtain ⟨_, _, judges, rfl, rfl⟩ := judges
    obtain ⟨allows, rfl⟩ := yields_judge judges
    exact ⟨allows, rfl, rfl⟩) judges
  simpa using judged

/-- What the analysis makes of a text is the final form of a body that has been analyzed,
and every use that was put off has been judged. -/
theorem analyzesBody_of_ofSource {source : String} {program : Program} {start final : State}
    (ran : (ofSource source).run start = .ok program final) :
    ∃ tree surface body, parse source = .ok tree ∧ Surface.ofTree tree = .ok surface ∧
      AnalyzesBody [.root] surface.body start body final ∧
      (∀ use ∈ final.deferred, final.Allows use) ∧ program.body = settleBody final body := by
  have yields : Yields (ofSource source) start program final := ran
  simp only [ofSource, ofTree, Analysis.program, yields_bind, yields_lift, yields_get,
    yields_pure] at yields
  obtain ⟨tree, _, ⟨parsed, rfl⟩, surface, _, ⟨read, rfl⟩, region, _, enters, body, _, yieldsBody,
    _, _, judges, _, _, ⟨rfl, rfl⟩, rfl, rfl⟩ := yields
  obtain ⟨allows, rfl⟩ := yields_judgeDeferred judges
  exact ⟨tree, surface, body, parsed, read,
    .body (opens_of_yields_enter enters) (analyzes_statements yieldsBody), allows, rfl⟩

/-- An accepted text is analyzed from the initial state on. -/
theorem exists_run_of_analyze {source : String} {program : Program}
    (accepted : analyze source = .ok program) :
    ∃ final, (ofSource source).run .initial = .ok program final := by
  obtain ⟨tree, parsed, analyzed⟩ :
      ∃ tree, parse source = .ok tree ∧ analyzeTree tree = .ok program := by
    cases parsed : parse source with
    | error failure => simp [analyze, parsed, bind, Except.bind] at accepted
    | ok tree => exact ⟨tree, rfl, by simpa [analyze, parsed, bind, Except.bind] using accepted⟩
  unfold analyzeTree at analyzed
  split at analyzed
  · next result final ran =>
    cases analyzed
    have yields : Yields (ofSource source) .initial program final := by
      simp only [ofSource, yields_bind, yields_lift]
      exact ⟨tree, _, ⟨parsed, rfl⟩, ran⟩
    exact ⟨final, yields⟩
  · cases analyzed

/-- An accepted program is the final form of a body that has been analyzed, and every
use that was put off has been judged. -/
theorem exists_analyzesBody {source : String} {program : Program}
    (accepted : analyze source = .ok program) :
    ∃ written body final, (ofSource source).run .initial = .ok program final ∧
      AnalyzesBody [.root] written .initial body final ∧
      (∀ use ∈ final.deferred, final.Allows use) ∧ program.body = settleBody final body := by
  obtain ⟨final, ran⟩ := exists_run_of_analyze accepted
  obtain ⟨tree, surface, body, -, -, analyzes, allows, isBody⟩ := analyzesBody_of_ofSource ran
  exact ⟨surface.body, body, final, ran, analyzes, allows, isBody⟩

end Analysis

end GlyphCompiler
