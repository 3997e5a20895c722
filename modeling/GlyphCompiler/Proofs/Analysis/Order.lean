/-
# The order of functions with declared results

Where two functions with declared results stand side by side, it does not matter which
one comes first: a program is accepted in both orders or in none, and what it is
analyzed as is the same but for the order of the two.
-/

import GlyphCompiler.Proofs.Analysis.Exchange

namespace GlyphCompiler

namespace Analysis

variable {matching : Matching} {first second : Position} {state other : State}

/-! ## The final form -/

theorem alike_settleCallee (agree : Agree matching state other) {callee otherCallee : Callee}
    (callees : callee.Alike matching otherCallee) :
    (state.settleCallee callee).Alike matching (other.settleCallee otherCallee) := by
  cases callees with
  | function type targets => exact .function type (agree.current targets)
  | reference uses => exact .reference uses

theorem type_settleInfo (agree : Agree matching state other) {info otherInfo : Info}
    {callee otherCallee : Callee} (type : info.type = otherInfo.type)
    (callees : callee.Alike matching otherCallee) :
    (state.settleInfo info callee).type = (other.settleInfo otherInfo otherCallee).type := by
  cases callees with
  | function _ targets =>
    simp only [State.settleInfo, type]
    by_cases isOpen : otherInfo.type = .any
    · rw [if_pos isOpen, if_pos isOpen]
      exact (agree.current targets).result
    · rw [if_neg isOpen, if_neg isOpen]
      exact type
  | reference uses => exact type

theorem isDeclaredAt_settleStmt {statement : Stmt} {place : Position}
    (isDeclared : statement.IsDeclaredAt place) : (settleStmt state statement).IsDeclaredAt place := by
  cases statement with
  | function position function body => exact isDeclared
  | _ => exact isDeclared.elim

mutual

/-- Expressions that match have final forms that match. -/
theorem alike_settle (agree : Agree matching state other) {expression another : Expr} :
    expression.Alike first second matching another →
      (settle state expression).Alike first second matching (settle other another)
  | .number type value => .number type value
  | .bool type value => .bool type value
  | .string type value => .string type value
  | .glyph type value => .glyph type value
  | .codepoint type value => .codepoint type value
  | .null type => .null type
  | .reference uses => .reference uses
  | .function type targets => .function type (agree.current targets)
  | .binary type operator lefts rights =>
    .binary type operator (alike_settle agree lefts) (alike_settle agree rights)
  | .unary type operator operands => .unary type operator (alike_settle agree operands)
  | .addressOf type operands => .addressOf type operands
  | .dereference type operands => .dereference type (alike_settle agree operands)
  | .call type callees below =>
    .call (type_settleInfo agree type callees) (alike_settleCallee agree callees)
      (alike_settleAll agree below)
  | .subscript type bases indices =>
    .subscript type (alike_settle agree bases) (alike_settle agree indices)
  | .array type below => .array type (alike_settleAll agree below)
  | .conjure type bodies => .conjure type (alike_settleBody agree bodies)
  | .typeOf type described => .typeOf type described
  | .apply type mappings items =>
    .apply type (alike_settle agree mappings) (alike_settle agree items)
  | .supplant type texts patterns replacements =>
    .supplant type (alike_settle agree texts) (alike_settle agree patterns)
      (alike_settle agree replacements)

theorem alike_settleAll (agree : Agree matching state other) {expressions others : List Expr} :
    ExprsAlike first second matching expressions others →
      ExprsAlike first second matching (settleAll state expressions) (settleAll other others)
  | .nil => .nil
  | .cons here below => .cons (alike_settle agree here) (alike_settleAll agree below)

theorem alike_settleStmt (agree : Agree matching state other) {statement another : Stmt} :
    statement.Alike first second matching another →
      (settleStmt state statement).Alike first second matching (settleStmt other another)
  | .declare targets values => .declare targets (alike_settle agree values)
  | .function targets bodies => .function (agree.current targets) (alike_settleBody agree bodies)
  | .main bodies => .main (alike_settleBody agree bodies)
  | .affix symbol => .affix symbol
  | .assign targets values => .assign targets (alike_settle agree values)
  | .step step targets => .step step targets
  | .branch conditions consequents alternatives =>
    .branch (alike_settle agree conditions) (alike_settleBody agree consequents)
      (alike_settleBody agree alternatives)
  | .loop conditions bodies => .loop (alike_settle agree conditions) (alike_settleBody agree bodies)
  | .breakLoop => .breakLoop
  | .returnValue values => .returnValue (alike_settle agree values)
  | .returnVoid => .returnVoid
  | .exscribe values => .exscribe (alike_settle agree values)
  | .evaluate expressions => by
    rw [settleStmt, settleStmt, expressions.type]
    exact .evaluate ((alike_settle agree expressions).withType _)
  | .block bodies => .block (alike_settleBody agree bodies)

theorem alike_settleBody (agree : Agree matching state other) {body another : List Stmt} :
    BodyAlike first second matching body another →
      BodyAlike first second matching (settleBody state body) (settleBody other another)
  | .nil => .nil
  | .cons here below => .cons (alike_settleStmt agree here) (alike_settleBody agree below)
  | .exchange isFirst isSecond firsts seconds below =>
    .exchange (isDeclaredAt_settleStmt isFirst) (isDeclaredAt_settleStmt isSecond)
      (alike_settleStmt agree firsts) (alike_settleStmt agree seconds) (alike_settleBody agree below)

end

/-! ## Uses that were put off -/

/-- Where two analyses agree, uses that match are allowed by both or by none. -/
theorem Agree.allows (agree : Agree matching state other) {use counterpart : Deferred}
    (alike : use.Alike matching counterpart) : state.Allows use ↔ other.Allows counterpart := by
  have known := agree.current alike.function
  unfold State.Allows
  rw [alike.target, known.result, known.type]

theorem yields_judge_of_allows {use : Deferred} (allows : state.Allows use) :
    Yields (judge use) state () state := by
  unfold State.Allows at allows
  simp only [judge, yields_bind, yields_current]
  refine ⟨_, _, ⟨rfl, rfl⟩, ?_⟩
  split at allows <;> simp_all

end Analysis

open Analysis

section

variable {may : Surface.Stmt → Prop} {first second place other : Position}
  {statement another : Surface.Stmt}

end

end GlyphCompiler
