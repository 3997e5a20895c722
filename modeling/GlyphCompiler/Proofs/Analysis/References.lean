/-
# Functions that are passed on

A function that flows into a type is judged when it is read. As long as its result is to
be found the function may return anything, so the first judgement says nothing; but then
the flow is put off and judged again when all results are known. A result that is known
never changes. So every function that is passed on fits in the end.
-/

import GlyphCompiler.Proofs.Analysis.Control
import GlyphCompiler.Proofs.Analysis.FirstReturn
import GlyphCompiler.Proofs.Analysis.Origin
import GlyphCompiler.Proofs.Analysis.Scoping
import GlyphCompiler.Proofs.Analysis.TypeConsistency
import GlyphCompiler.Proofs.Ty.ConversionOrder

namespace GlyphCompiler

/-- A function may be passed on as one that returns anything. -/
theorem Ty.canConvert_open_result (parameters : List Ty) (result : Ty) (value : Value) :
    (Ty.function parameters result).canConvert (.function parameters .any) value = true := by
  have same : List.Forall₂ (fun source target => source.canConvert target .unknown = true)
      parameters parameters :=
    List.forall₂_same.mpr fun parameter _ => parameter.canConvert_self .unknown
  rw [canConvert.eq_def]
  simp [(canConvertAll_iff _ _).mpr same, canConvert_any]

/-- If a value is the name of a function, the function converts to a type. -/
def Expr.Fits (value : Expr) (target : Ty) : Prop :=
  ∀ note function, value = .function note function →
    function.type.canConvert target .unknown = true

theorem Expr.fits_any (value : Expr) : value.Fits .any :=
  fun _ function _ => function.type.canConvert_any .unknown

namespace Analysis

variable {final before middle after : State} {scopes : Scopes}

/-! ## Single flows -/

theorem settle_eq_function {value : Expr} {note : Info} {function : Function}
    (same : settle final value = .function note function) :
    ∃ read, value = .function note read ∧ function = final.current read := by
  cases value with
  | function info read =>
    cases same
    exact ⟨read, rfl, rfl⟩
  | _ => cases same

/-- The name of a function is read as the function is known by then. -/
theorem AnalyzesExpr.readFunction {written : Surface.Expr} {note : Info} {function : Function}
    (analyzes : AnalyzesExpr scopes written before (.function note function) after) :
    ∃ target ∈ visible scopes, function = before.current target ∧ note.type = function.type ∧
      before = after := by
  cases analyzes with
  | literal isLiteral => cases isLiteral
  | function found => exact ⟨_, mem_visible_of_lookup found, rfl, rfl, rfl⟩
  | call calls => cases calls

/-- A function that converted to a type when it was read, or that was put off, converts
in the end. -/
theorem AnalyzesValue.fits {written : Surface.Expr} {value : Expr} {target : Ty}
    (analyzes : AnalyzesValue scopes written before value middle)
    (sound : Sound before (visible scopes)) (converts : Converts value target)
    (later : Grows (inferredIn scopes) (middle.converting target value) final)
    (allows : ∀ use ∈ final.deferred, final.Allows use) : (settle final value).Fits target := by
  intro note function same
  obtain ⟨read, rfl, rfl⟩ := settle_eq_function same
  cases analyzes with
  | value analyzes isValue =>
    obtain ⟨named, member, rfl, type, rfl⟩ := analyzes.readFunction
    have whole : Grows (inferredIn scopes) before final := (Grows.converting _ _ _).trans later
    obtain ⟨known, isKnown, converts⟩ := converts
    cases isKnown
    by_cases pending : before.isPending named = true
    -- The first judgement says nothing, but the flow has been put off and judged since.
    · have pendingToo : before.isPending (before.current named) = true := pending
      refine allows ⟨note.position, before.current named, some target⟩ (later.deferred _ ?_)
      simp [State.converting, State.usingValue, pendingToo, State.deferring]
    -- The function has not changed since the first judgement.
    · rw [whole.current_current, sound.current_known whole member (Bool.eq_false_iff.mpr pending)]
      rwa [← type]

/-- A function converts in the end to the type that was noted of it when it was read. -/
theorem AnalyzesValue.fits_own {written : Surface.Expr} {value : Expr}
    (analyzes : AnalyzesValue scopes written before value middle)
    (sound : Sound before (visible scopes)) (later : Grows (inferredIn scopes) middle final) :
    (settle final value).Fits value.type := by
  intro note function same
  obtain ⟨read, rfl, rfl⟩ := settle_eq_function same
  cases analyzes with
  | value analyzes isValue =>
    obtain ⟨named, member, rfl, type, rfl⟩ := analyzes.readFunction
    have whole : Grows (inferredIn scopes) before final := (Grows.usingValue _ _).trans later
    rw [Expr.type, Expr.info, type, whole.current_current]
    by_cases pending : before.isPending named = true
    -- It was noted as a function that returns anything.
    · obtain ⟨inferred, unknown⟩ := Bool.and_eq_true_iff.mp pending
      rw [current_of_unknown (Option.isNone_iff_eq_none.mp unknown)]
      have open_ : named.type = .function (named.parameters.map Variable.type) .any := by
        rw [Function.type, sound.inferred named member inferred]
      rw [open_]
      exact Ty.canConvert_open_result _ _ _
    · rw [sound.current_known whole member (Bool.eq_false_iff.mpr pending)]
      exact Ty.canConvert_self _ _

/-! ## What a body returns -/

namespace ReturnedTo

variable {owner : Function} {value : Expr}

/-- A function that is returned converts to the result of the function around it. -/
theorem fits (returned : ReturnedTo final owner value)
    (allows : ∀ use ∈ final.deferred, final.Allows use) :
    (settle final value).Fits (final.current owner).result := by
  cases returned with
  | first analyzes sound later result =>
    rw [result]
    exact analyzes.fits_own sound later
  | again analyzes sound converts later same =>
    rw [same]
    exact analyzes.fits sound converts later allows

theorem accounted (returned : ReturnedTo final owner value)
    (allows : ∀ use ∈ final.deferred, final.Allows use) : Accounted final value := by
  cases returned with
  | first analyzes sound later => exact (analyzes.lawful allows sound later).accounted
  | again analyzes sound converts later =>
    exact (analyzes.lawful allows sound ((Grows.converting _ _ _).trans later)).accounted

end ReturnedTo

/-- A function that is returned in the final form of a body converts to the result of the
function that the body belongs to. -/
theorem AnalyzesBody.fits_returned {written : List Surface.Stmt} {body : List Stmt}
    {owner : Function} {value : Expr} (analyzes : AnalyzesBody scopes written before body after)
    (sound : Sound before (visible scopes)) (later : Grows (inferredIn scopes) after final)
    (isOwner : scopes.innermost.owner = some owner)
    (allows : ∀ use ∈ final.deferred, final.Allows use)
    (member : value ∈ returned (settleBody final body)) :
    value.Fits (final.current owner).result := by
  rw [returned_settleBody, settleAll_eq_map] at member
  obtain ⟨read, listed, rfl⟩ := List.mem_map.mp member
  exact (analyzes.returnedTo sound later isOwner read listed).fits allows

/-! ## Flows between nodes -/

theorem Fits.withType {value : Expr} {target : Ty} (fits : value.Fits target) (type : Ty) :
    (value.withType type).Fits target := by
  intro note function same
  cases value with
  | function info read =>
    cases same
    exact fits info function rfl
  | _ => cases same

/-- A function that is passed to a parameter converts to its type. -/
theorem AnalyzesExprs.fits {parameters : List Ty} {written : List Surface.Expr}
    {arguments : List Expr} {argument : Expr} {parameter : Ty}
    (analyzes : AnalyzesExprs scopes (.into parameters) written before arguments after)
    (sound : Sound before (visible scopes)) (later : Grows (inferredIn scopes) after final)
    (allows : ∀ use ∈ final.deferred, final.Allows use)
    (pair : (argument, parameter) ∈ (settleAll final arguments).zip parameters) :
    argument.Fits parameter := by
  induction written generalizing parameters before arguments with
  | nil =>
    cases analyzes
    cases pair
  | cons first written ih =>
    cases analyzes with
    | @into _ type _ _ _ _ _ _ value _ here converts rest =>
      have grown := (here.grows sound).trans (.converting _ type value)
      have between := sound.grow grown (by simp)
      obtain same | pair := List.mem_cons.mp pair
      · cases same
        have remaining : Grows (inferredIn scopes) _ final :=
          (rest.grows between).weaken.trans later
        have fits := here.fits sound converts remaining allows
        split
        · next isAny =>
          rw [isAny]
          exact Expr.fits_any _
        · next notAny =>
          rw [settle_withType notAny]
          exact Fits.withType fits _
      · exact ih rest between pair

theorem AnalyzesCall.fits {position : Position} {callee : Surface.Ident}
    {written : List Surface.Expr} {call value : Expr} {type target : Ty}
    (analyzes : AnalyzesCall scopes position callee written before (.expression call) after)
    (sound : Sound before (visible scopes)) (later : Grows (inferredIn scopes) after final)
    (allows : ∀ use ∈ final.deferred, final.Allows use)
    (flow : Flow (.expr ((settle final call).withType type)) value target) : value.Fits target := by
  cases analyzes with
  | function found arity arguments =>
    cases flow with
    | argument info callee passed pair => exact arguments.fits sound later allows pair
  | reference found isFunction arity arguments =>
    cases flow with
    | argument info callee passed pair =>
      rw [State.settleCallee, Callee.type, isFunction] at pair
      exact arguments.fits sound later allows pair
  | _ => cases flow

/-- A function that flows into a type converts to it. -/
theorem Arises.fits {node : Node} {value : Expr} {target : Ty} (arises : Arises final node)
    (allows : ∀ use ∈ final.deferred, final.Allows use) (flow : Flow node value target) :
    value.Fits target := by
  cases arises with
  | stmt analyzes stands later =>
    cases analyzes with
    | function seen named isOwner inLoop body returns =>
      have sound := stands.around seen
      have inside := stands.inBody seen (body.grows sound) later
      cases flow with
      | returns position function inner member =>
        have fits := body.fits_returned sound inside isOwner allows member
        rwa [later.current_current]
    | conjureBinding body returns =>
      have sound := stands.around fun _ => mem_visible_functionBody
      have inside := stands.inBody (fun _ => mem_visible_functionBody) (body.grows sound) later
      cases flow with
      | returns position function inner member =>
        exact body.fits_returned sound inside rfl allows member
    | declare analyzes id name converts declared =>
      cases flow
      exact analyzes.fits stands.sound converts ((Grows.declaring _ _ _).trans later) allows
    | declareInferred analyzes id name type declared =>
      cases flow
      rw [type]
      exact analyzes.fits_own stands.sound ((Grows.declaring _ _ _).trans later)
    | assign found changeable analyzes converts =>
      cases flow
      exact analyzes.fits stands.sound converts later allows
    | _ => cases flow
  | expr analyzes sound later type =>
    cases analyzes with
    | literal isLiteral => cases isLiteral <;> cases flow
    | call calls => exact calls.fits sound later allows flow
    | _ => cases flow
  | call analyzes sound later type => exact analyzes.fits sound later allows flow

/-! ## Conjure expressions -/

/-- The body of a conjure expression comes from the derivation of the body of a function of
its own, of which nothing is known when it begins. -/
inductive Conjured (final : State) : List Stmt → Prop
  | body {scopes : Scopes} {written : List Surface.Stmt} {before after : State}
      {body : List Stmt} {owner : Function}
      (analyzes : AnalyzesBody scopes written before body after)
      (sound : Sound before (visible scopes)) (later : Grows (inferredIn scopes) after final)
      (isOwner : scopes.innermost.owner = some owner) (inferred : owner.inferred = true)
      (unknown : before.results.lookup owner.id = none) :
    Conjured final (settleBody final body)

theorem AnalyzesExpr.conjured {written : Surface.Expr} {value : Expr} {type : Ty} {info : Info}
    {body : List Stmt} (analyzes : AnalyzesExpr scopes written before value after)
    (sound : Sound before (visible scopes)) (later : Grows (inferredIn scopes) after final)
    (same : (settle final value).withType type = .conjure info body) : Conjured final body := by
  cases analyzes with
  | literal isLiteral => cases isLiteral <;> cases same
  | call calls => cases calls <;> cases same
  | conjure analyzes returns =>
    cases same
    have extended : Sound (before.numbering 1)
        (⟨before.nextId, "conjure", [], .any, true⟩ :: visible scopes) :=
      sound.cons rfl fun _ => rfl
    exact .body analyzes
      (extended.subset fun other member => List.mem_cons.mpr (mem_visible_functionBody.mp member))
      (later.wider fun function member => mem_visible_functionBody.mpr (.inr member)) rfl rfl
      (sound.unnumbered _ le_rfl)
  | _ => cases same

theorem Arises.conjured {info : Info} {body : List Stmt}
    (arises : Arises final (.expr (.conjure info body))) : Conjured final body := by
  generalize isNode : Node.expr (.conjure info body) = node at arises
  cases arises with
  | stmt analyzes stands later => cases isNode
  | expr analyzes sound later type => exact analyzes.conjured sound later (Node.expr.inj isNode).symm
  | call analyzes sound later type =>
    cases analyzes <;> cases isNode

/-- Functions that a conjure body returns convert to the type of the first value that it
returns, unless that is a call whose result was not known when it was read. -/
theorem Conjured.fits {body : List Stmt} {first : Expr} {rest : List Expr}
    (conjured : Conjured final body) (controlled : bodyControlled body .body)
    (allows : ∀ use ∈ final.deferred, final.Allows use) (returns : returned body = first :: rest) :
    PutOff final first ∨ ∀ value ∈ returned body, value.Fits first.type := by
  cases conjured with
  | @body scopes written before after body owner analyzes sound later isOwner inferred unknown =>
    have start : ResultAfter owner before [] := by simp [ResultAfter, unknown]
    have known := analyzes.resultAfter sound isOwner inferred controlled (by decide) start
    cases listed : returned body with
    | nil =>
      rw [returned_settleBody, listed] at returns
      cases returns
    | cons read others =>
      have member : read ∈ returned body := by simp [listed]
      obtain rfl : settle final read = first := by
        rw [returned_settleBody, listed] at returns
        exact (List.cons.inj returns).1
      have accounted := (analyzes.returnedTo sound later isOwner read member).accounted allows
      refine accounted.type_settle.symm.imp_right fun same value isReturned => ?_
      rw [List.nil_append, listed] at known
      rw [same, ← current_of_lookup (later.kept _ _ known)]
      exact analyzes.fits_returned sound later isOwner allows isReturned

/-! ## Accepted programs -/

/-- Every node of an accepted program comes from a derivation before the state that its
analysis ends in, and every use that was put off has been judged by that state. -/
theorem exists_arises {source : String} {program : Program}
    (accepted : analyze source = .ok program) :
    ∃ final, (ofSource source).run .initial = .ok program final ∧
      (∀ use ∈ final.deferred, final.Allows use) ∧
        ∀ node ∈ walkStmts program.body, Arises final node := by
  obtain ⟨written, body, final, ran, analyzes, allows, isBody⟩ := exists_analyzesBody accepted
  refine ⟨final, ran, allows, ?_⟩
  rw [isBody]
  exact analyzes.arises_walk sound_initial (.refl final)

/-- A function that is passed on in an accepted program is one that the program declares,
with the result that it has there. Wherever it flows, its type converts to the type that
it flows into, whether or not its result was known when it was read. What flows out of a
conjure body flows into the type of the first value that the body returns, unless that is
a call whose result was not known then, which leaves the type open. -/
theorem passedFunctions_convert {source : String} {program : Program}
    (accepted : analyze source = .ok program) :
    ∃ final, (ofSource source).run .initial = .ok program final ∧
      (∀ note function, .expr (.function note function) ∈ walkStmts program.body →
        ∃ position body, .stmt (.function position function body) ∈ walkStmts program.body) ∧
      (∀ node ∈ walkStmts program.body, ∀ note function target,
        Flow node (.function note function) target →
          function.type.canConvert target .unknown = true) ∧
      (∀ info body first rest, .expr (.conjure info body) ∈ walkStmts program.body →
        returned body = first :: rest → PutOff final first ∨
          ∀ note function, .function note function ∈ returned body →
            function.type.canConvert first.type .unknown = true) := by
  obtain ⟨final, ran, allows, arises⟩ := exists_arises accepted
  refine ⟨final, ran, fun note function => (scoped_of_analyze accepted).exists_declaration, ?_, ?_⟩
  · intro node member note function target flow
    exact (arises node member).fits allows flow note function rfl
  · intro info body first rest member returns
    have controlled := (controlled_of_analyze accepted).ofBody member rfl
    have fits := (arises _ member).conjured.fits controlled allows returns
    exact fits.imp_right fun all note function isReturned => all _ isReturned note function rfl

/-- A function is passed on before its result is known, and fits. -/
theorem passedFunctions_convert_passingProgram :
    analyze passingSource = .ok passingProgram ∧
      .expr passingCall ∈ walkStmts passingProgram.body ∧
        ∃ note, Flow (.expr passingCall) (.function note passedFunction) functionParameter.type ∧
          passedFunction.type.canConvert functionParameter.type .unknown = true := by
  obtain ⟨final, -, -, convert, -⟩ := passedFunctions_convert analyze_passingSource
  have member : .expr passingCall ∈ walkStmts passingProgram.body := by
    simp [passingProgram, passingBody, walkStmts, Stmt.walk, passingCall, Expr.walk]
  have flow : Flow (.expr passingCall)
      (.function ⟨functionParameter.type, ⟨3, 22⟩⟩ passedFunction) functionParameter.type :=
    .argument _ _ _ List.mem_cons_self
  exact ⟨analyze_passingSource, member, _, flow, convert _ member _ _ _ flow⟩

end Analysis

end GlyphCompiler
