/-
# What holds of the final form of a program

The final form of a program repeats the results that are known in the end. Here is
what then holds of each node: calls that stand for values have the type of the
result, values convert to the types that they flow into, and numbers of integer
types are whole.
-/

import GlyphCompiler.Proofs.Analysis.Growth
import GlyphCompiler.Proofs.Analysis.Soundness
import GlyphCompiler.Proofs.Program.Nodes

namespace GlyphCompiler

namespace Analysis

/-! ## Final forms -/

section

variable {state before after : State}

mutual

theorem staticValue_settle (state : State) :
    ∀ value : Expr, (settle state value).staticValue = value.staticValue
  | .array _ elements => by
    rw [settle, Expr.staticValue, staticValues_settleAll state elements, Expr.staticValue]
  | .unary _ _ operand => by
    rw [settle, Expr.staticValue, staticValue_settle state operand, Expr.staticValue]
  | .binary _ _ left right => by
    rw [settle, Expr.staticValue, staticValue_settle state left, staticValue_settle state right,
      Expr.staticValue]
  | .number _ _ | .bool _ _ | .string _ _ | .glyph _ _ | .codepoint _ _ | .null _ | .reference _
  | .function _ _ | .addressOf _ _ | .dereference _ _ | .call _ _ _ | .subscript _ _ _
  | .conjure _ _ | .typeOf _ _ | .apply _ _ _ | .supplant _ _ _ _ => rfl

theorem staticValues_settleAll (state : State) :
    ∀ values : List Expr, staticValues (settleAll state values) = staticValues values
  | [] => rfl
  | value :: values => by
    rw [settleAll, staticValues, staticValue_settle state value, staticValues_settleAll state values,
      staticValues]

end

@[simp]
theorem known_settle (state : State) (value : Expr) : (settle state value).known = value.known := by
  unfold Expr.known
  rw [staticValue_settle]

@[simp]
theorem position_settle (state : State) (value : Expr) :
    (settle state value).position = value.position := by
  cases value with
  | call info callee arguments =>
    cases callee with
    | function note function =>
      simp only [settle, State.settleInfo, Expr.position, Expr.info]
      split <;> rfl
    | reference use => rfl
  | _ => rfl

theorem settle_withType {type : Ty} (notAny : type ≠ .any) (value : Expr) :
    settle state (value.withType type) = (settle state value).withType type := by
  cases value with
  | call info callee arguments =>
    cases callee with
    | function note function =>
      simp only [settle, State.settleInfo, Expr.withType, Expr.mapInfo, notAny, if_false]
      split <;> rfl
    | reference use => rfl
  | _ => rfl

/-- Only a call of a function by its name can get another type in the end. -/
theorem type_settle (state : State) (value : Expr) (noCall : value.directCall? = none) :
    (settle state value).type = value.type := by
  cases value with
  | call info callee arguments =>
    cases callee with
    | function note function => cases noCall
    | reference use => rfl
  | _ => rfl

theorem settleAll_eq_map (state : State) (values : List Expr) :
    settleAll state values = values.map (settle state) := by
  induction values with
  | nil => rfl
  | cons value values ih => rw [settleAll, ih, List.map_cons]

theorem settleBody_eq_map (state : State) (body : List Stmt) :
    settleBody state body = body.map (settleStmt state) := by
  induction body with
  | nil => rfl
  | cons statement body ih => rw [settleBody, ih, List.map_cons]

mutual

theorem returned_settleStmt (state : State) :
    ∀ statement : Stmt, (settleStmt state statement).returned = settleAll state statement.returned
  | .returnValue _ _ => rfl
  | .branch _ _ consequent alternative => by
    rw [settleStmt, Stmt.returned, returned_settleBody state consequent,
      returned_settleBody state alternative, Stmt.returned]
    simp [settleAll_eq_map]
  | .loop _ _ body => by rw [settleStmt, Stmt.returned, returned_settleBody state body, Stmt.returned]
  | .block _ body => by rw [settleStmt, Stmt.returned, returned_settleBody state body, Stmt.returned]
  | .declare _ _ _ | .function _ _ _ | .main _ _ | .affix _ _ | .assign _ _ _ | .step _ _ _
  | .breakLoop _ | .returnVoid _ | .exscribe _ _ | .evaluate _ _ => rfl

theorem returned_settleBody (state : State) :
    ∀ body : List Stmt, returned (settleBody state body) = settleAll state (returned body)
  | [] => rfl
  | statement :: body => by
    rw [settleBody, returned, returned_settleStmt state statement, returned_settleBody state body,
      returned]
    simp [settleAll_eq_map]

end

/-- A function that was looked up earlier is the same in the end. -/
theorem Grows.current_current {may : Nat → Prop} (grows : Grows may before after)
    (function : Function) : after.current (before.current function) = after.current function := by
  unfold State.current
  cases known : before.results.lookup function.id with
  | none => simp
  | some type => simp [grows.kept _ _ known]

end

/-! ## What holds of each node -/

/-- The numbers of the inferred functions that can be seen. -/
def inferredIn (scopes : Scopes) (id : Nat) : Prop :=
  ∃ function ∈ visible scopes, function.inferred = true ∧ function.id = id

/-- A call that was put off: the result of what it calls was not known when it was read. -/
def PutOff (final : State) (value : Expr) : Prop :=
  ∃ function : Function, value.directCall? = some (final.current function) ∧
    function.inferred = true ∧ ⟨value.position, function, none⟩ ∈ final.deferred

/-- A call that stands for a value has one, and its type is that of the result, or of the
parameter that it is passed to. -/
def Resolved (value : Expr) (parameter : Option Ty) : Prop :=
  ∀ function, value.directCall? = some function → function.result ≠ .void ∧
    (value.type = function.result ∨
      ∃ type, parameter = some type ∧ type ≠ .any ∧ value.type = type)

/-- Numbers of integer types are whole, and a difference of integer type takes something
from an integer, if that can be told. -/
def Whole : Expr → Prop
  | .number info value =>
    info.type ≠ .any ∧ (info.type.isIntegral = true → ∃ whole, value = .int whole)
  | .binary info .sub left _ =>
    info.type.isIntegral = true ∨ info.type = .any →
      left.type.isIntegral = true ∨ left.type = .any ∨ left.directCall?.isSome = true
  | _ => True

/-- What holds of each node of an accepted program. -/
structure Lawful (final : State) (node : Node) : Prop where
  resolved : ∀ value parameter, (value, parameter) ∈ node.values → Resolved value parameter
  converts : ∀ value target, Flow node value target → value.ConvertsTo target ∨ PutOff final value
  arity : ∀ info callee arguments, node = .expr (.call info callee arguments) →
    arguments.length = callee.type.parameters.length
  conjured : ∀ info body, node = .expr (.conjure info body) →
    ∃ type, ∀ value ∈ returned body, value.ConvertsTo type ∨ PutOff final value
  whole : ∀ expression, node = .expr expression → Whole expression

/-- What is known in the end of an expression that stands for a value. If it calls a
function by its name, that function has a result, and the result was known when the
call was read or the call was put off. -/
def Accounted (final : State) (value : Expr) : Prop :=
  ∀ function, value.directCall? = some function →
    (final.current function).result ≠ .void ∧
      (value.type = (final.current function).result ∨
        value.type = .any ∧ function.inferred = true ∧
          ⟨value.position, function, none⟩ ∈ final.deferred)

section

variable {final before middle after : State} {scopes : Scopes}

theorem Grows.wider {inner : Scopes} (later : Grows (inferredIn scopes) before final)
    (seen : ∀ function ∈ visible scopes, function ∈ visible inner) :
    Grows (inferredIn inner) before final :=
  later.mono fun _ _ ⟨function, member, inferred, same⟩ =>
    ⟨function, seen function member, inferred, same⟩

theorem directCall?_eq_some {value : Expr} {function : Function} :
    value.directCall? = some function ↔
      ∃ info note arguments, value = .call info (.function note function) arguments := by
  constructor
  · intro calls
    cases value with
    | call info callee arguments =>
      cases callee with
      | function note target =>
        cases calls
        exact ⟨info, note, arguments, rfl⟩
      | reference use => cases calls
    | _ => cases calls
  · rintro ⟨info, note, arguments, rfl⟩
    rfl

/-- What a call of a function by its name looks like when it has been read. -/
theorem AnalyzesExpr.directCall {written : Surface.Expr} {value : Expr} {function : Function}
    (analyzes : AnalyzesExpr scopes written before value after)
    (calls : value.directCall? = some function) :
    ∃ target ∈ visible scopes, function = before.current target ∧ value.type = function.result := by
  obtain ⟨info, note, arguments, rfl⟩ := directCall?_eq_some.mp calls
  cases analyzes with
  | literal isLiteral => cases isLiteral
  | call calls =>
    cases calls with
    | function found => exact ⟨_, mem_visible_of_lookup found, rfl, rfl⟩

/-- A function with a written result has it in the end. -/
theorem Sound.current_declared {function : Function} (sound : Sound before (visible scopes))
    (later : Grows (inferredIn scopes) before final) (member : function ∈ visible scopes)
    (declared : function.inferred = false) : final.current function = function := by
  have outside : ¬ inferredIn scopes function.id := by
    rintro ⟨other, otherMember, inferred, same⟩
    rw [sound.coherent other otherMember function member same, declared] at inferred
    cases inferred
  have unknown : final.results.lookup function.id = none := by
    rw [later.confined _ (sound.numbered function member) outside,
      sound.declared function member declared]
  simp [State.current, unknown]

theorem current_of_lookup {function : Function} {type : Ty}
    (known : before.results.lookup function.id = some type) :
    (before.current function).result = type := by
  simp [State.current, known]

theorem current_of_unknown {function : Function}
    (unknown : before.results.lookup function.id = none) : before.current function = function := by
  simp [State.current, unknown]

theorem AnalyzesExpr.accounted {written : Surface.Expr} {value : Expr}
    (analyzes : AnalyzesExpr scopes written before value after)
    (sound : Sound before (visible scopes)) (later : Grows (inferredIn scopes) after final)
    (allows : ∀ use ∈ final.deferred, final.Allows use) (isValue : value.type ≠ .void)
    (putOff : ∀ function, value.directCall? = some function → value.type = .any →
      after.isPending function = true → ⟨value.position, function, none⟩ ∈ final.deferred) :
    Accounted final value := by
  intro function calls
  obtain ⟨target, member, rfl, type⟩ := analyzes.directCall calls
  have inside := analyzes.grows sound
  have whole : Grows (inferredIn scopes) before final := inside.weaken.trans later
  rw [whole.current_current]
  cases inferred : target.inferred with
  | false =>
    have same : before.current target = target :=
      current_of_unknown (sound.declared target member inferred)
    rw [sound.current_declared whole member inferred]
    rw [same] at type
    exact ⟨type ▸ isValue, .inl type⟩
  | true =>
    cases known : before.results.lookup target.id with
    | some result =>
      rw [current_of_lookup known] at type
      rw [current_of_lookup (whole.kept _ _ known)]
      exact ⟨type ▸ isValue, .inl type⟩
    | none =>
      rw [current_of_unknown known] at type calls ⊢
      rw [sound.inferred target member inferred] at type
      have pending : after.isPending target = true := by
        have unknown := inside.confined _ (sound.numbered target member) not_false
        simp [State.isPending, inferred, unknown, known]
      have deferred := putOff target calls type pending
      exact ⟨allows _ deferred, .inr ⟨type, inferred, deferred⟩⟩

theorem directCall?_settle (value : Expr) :
    (settle final value).directCall? = value.directCall?.map final.current := by
  cases value with
  | call info callee arguments => cases callee <;> rfl
  | _ => rfl

theorem type_settle_of_directCall {value : Expr} {function : Function}
    (calls : value.directCall? = some function) :
    (settle final value).type =
      if value.type = .any then (final.current function).result else value.type := by
  obtain ⟨info, note, arguments, rfl⟩ := directCall?_eq_some.mp calls
  simp only [settle, State.settleInfo, Expr.type, Expr.info]
  by_cases open_ : info.type = .any <;> simp [open_]

theorem directCall?_withType (type : Ty) (value : Expr) :
    (value.withType type).directCall? = value.directCall? := by
  cases value with
  | call info callee arguments => cases callee <;> rfl
  | _ => rfl

theorem Accounted.resolved {value : Expr} (accounted : Accounted final value) :
    Resolved (settle final value) none := by
  intro function settled
  rw [directCall?_settle] at settled
  obtain ⟨called, calls, rfl⟩ := Option.map_eq_some_iff.mp settled
  obtain ⟨hasResult, known⟩ := accounted called calls
  refine ⟨hasResult, .inl ?_⟩
  rw [type_settle_of_directCall calls]
  obtain type | ⟨type, -⟩ := known <;> simp [type]

/-- An argument is resolved, whatever type its parameter gives it. -/
theorem Accounted.resolved_passed {value : Expr} {parameter : Ty}
    (accounted : Accounted final value) :
    Resolved (settle final (if parameter = .any then value else value.withType parameter))
      (some parameter) := by
  split
  · intro function calls
    obtain ⟨hasResult, known | ⟨_, absent, -⟩⟩ := accounted.resolved function calls
    · exact ⟨hasResult, .inl known⟩
    · cases absent
  · next notAny =>
    rw [settle_withType notAny]
    intro function calls
    rw [directCall?_withType] at calls
    exact ⟨(accounted.resolved function calls).1,
      .inr ⟨parameter, rfl, notAny, Expr.type_withType _ _⟩⟩

/-- A value keeps the type that it had when it was read, unless it is a call that was put
off. -/
theorem Accounted.type_settle {value : Expr} (accounted : Accounted final value) :
    (settle final value).type = value.type ∨ PutOff final (settle final value) := by
  cases calls : value.directCall? with
  | none => exact .inl (Analysis.type_settle final value calls)
  | some function =>
    obtain ⟨-, type | ⟨-, inferred, deferred⟩⟩ := accounted function calls
    · left
      rw [type_settle_of_directCall calls, type]
      split <;> rfl
    · right
      refine ⟨function, by rw [directCall?_settle, calls]; rfl, inferred, ?_⟩
      rw [position_settle]
      exact deferred

/-- What converted when it was read still does, unless it is a call that was put off. -/
theorem Accounted.convertsTo {value : Expr} {target : Ty} (accounted : Accounted final value)
    (converts : value.ConvertsTo target) :
    (settle final value).ConvertsTo target ∨ PutOff final (settle final value) := by
  refine accounted.type_settle.imp_left fun same => ?_
  rw [Expr.ConvertsTo, known_settle, same]
  exact converts

theorem whole_settle {value : Expr} (whole : Whole value) : Whole (settle final value) := by
  cases value with
  | number info value => exact whole
  | binary info operator left right =>
    cases operator with
    | sub =>
      intro integral
      rw [directCall?_settle, Option.isSome_map]
      cases calls : left.directCall? with
      | none => rw [type_settle final left calls]; simpa [calls] using whole integral
      | some function => exact .inr (.inr rfl)
    | _ => trivial
  | call info callee arguments => trivial
  | _ => trivial

/-- A value that converts to an integer type is of an integer type, or of an open one. -/
theorem isIntegral_of_canConvert {source target : Ty} {known : Value}
    (converts : source.canConvert target known = true) (integral : target.isIntegral = true) :
    source.isIntegral = true ∨ source = .any := by
  cases target with
  | numeric kind =>
    unfold Ty.canConvert at converts
    split at converts
    · next trivially =>
      simp only [Bool.or_eq_true, decide_eq_true_eq] at trivially
      obtain (rfl | isAny) | absurd := trivially
      · exact .inl integral
      · exact .inr isAny
      · cases absurd
    · cases source with
      | numeric sourceKind =>
        left
        simp only [Numeric.canConvert, Numeric.familiesCompatible, Bool.and_eq_true] at converts
        simp_all [Ty.isIntegral, Numeric.isIntegral]
      | _ => simp at converts
  | _ => cases integral

theorem whole_withType {value : Expr} {type : Ty} (whole : Whole value)
    (converts : value.ConvertsTo type) (notAny : type ≠ .any) : Whole (value.withType type) := by
  cases value with
  | number info number =>
    refine ⟨notAny, fun integral => ?_⟩
    obtain source | isAny := isIntegral_of_canConvert converts integral
    · exact whole.2 source
    · exact absurd isAny whole.1
  | binary info operator left right =>
    cases operator with
    | sub =>
      rintro (integral | isAny)
      · exact whole (isIntegral_of_canConvert converts integral)
      · exact absurd isAny notAny
    | _ => trivial
  | _ => trivial

end

end Analysis

end GlyphCompiler
