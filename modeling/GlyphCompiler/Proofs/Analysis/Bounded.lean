/-
# Numbers that have been handed out

What an analysis notes of results, constants and uses that it puts off concerns only
variables and functions that it has numbered: what is put off uses a function that can
be seen.
-/

import GlyphCompiler.Proofs.Analysis.Settled

namespace GlyphCompiler

namespace Analysis

/-- Everything that is noted concerns numbers that have been handed out. -/
structure State.Bounded (state : State) : Prop where
  results : ∀ id, state.nextId ≤ id → state.results.lookup id = none
  constants : ∀ entry ∈ state.constants, entry.1 < state.nextId
  deferred : ∀ use ∈ state.deferred, use.function.id < state.nextId

namespace State.Bounded

variable {state : State} {function : Function}

theorem beginning (bounded : state.Bounded) : Bounded { state with mainSeen := true } :=
  ⟨bounded.results, bounded.constants, bounded.deferred⟩

theorem numbering (bounded : state.Bounded) (count : Nat) : (state.numbering count).Bounded where
  results id above := bounded.results id ((Nat.le_add_right _ _).trans above)
  constants entry member := (bounded.constants entry member).trans_le (Nat.le_add_right _ _)
  deferred use member := (bounded.deferred use member).trans_le (Nat.le_add_right _ _)

theorem deferring {use : Deferred} (bounded : state.Bounded)
    (bound : use.function.id < state.nextId) :
    (state.deferring use).Bounded where
  results := bounded.results
  constants := bounded.constants
  deferred := List.forall_mem_cons.mpr ⟨bound, bounded.deferred⟩

theorem usingValue {expression : Expr} (bounded : state.Bounded)
    (bound : ∀ function, expression.directCall? = some function → function.id < state.nextId) :
    (state.usingValue expression).Bounded := by
  unfold State.usingValue
  split
  · split
    · exact bounded.deferring (bound _ rfl)
    · exact bounded
  · exact bounded

theorem converting {expression : Expr} (bounded : state.Bounded) (target : Ty)
    (bound : ∀ info function, expression = .function info function → function.id < state.nextId) :
    (state.converting target expression).Bounded := by
  unfold State.converting
  split
  · split
    · exact bounded.deferring (bound _ _ rfl)
    · exact bounded
  · exact bounded

theorem fixing (bounded : state.Bounded) (type : Ty) (bound : function.id < state.nextId) :
    (state.fixing function type).Bounded where
  results id above := by
    have differ : id ≠ function.id := (bound.trans_le above).ne'
    rw [lookup_fixing_of_ne differ, bounded.results id above]
  constants := bounded.constants
  deferred := bounded.deferred

theorem finishing (bounded : state.Bounded) (bound : function.id < state.nextId) :
    (state.finishing function).Bounded := by
  unfold State.finishing
  split
  · exact bounded.fixing .void bound
  · exact bounded

theorem declaring (bounded : state.Bounded) (changeable : Bool) (value : Expr) :
    (state.declaring changeable value).Bounded := by
  have numbered := bounded.numbering 1
  cases changeable with
  | true => exact numbered
  | false =>
    exact ⟨numbered.results,
      List.forall_mem_cons.mpr ⟨Nat.lt_succ_self _, numbered.constants⟩, numbered.deferred⟩

theorem opens {around scopes : Scopes} {written : List Surface.Stmt} {opened : List Function}
    {after : State} (bounded : state.Bounded)
    (opens : Opens around written state scopes opened after) : after.Bounded := by
  rw [opens.after]
  exact bounded.numbering _

end State.Bounded

section

variable {scopes : Scopes} {before after : State}

/-- What an expression calls by its name has been numbered. -/
theorem AnalyzesExpr.called_lt {written : Surface.Expr} {value : Expr}
    (analyzes : AnalyzesExpr scopes written before value after)
    (sound : Sound before (visible scopes)) (function : Function)
    (calls : value.directCall? = some function) : function.id < after.nextId := by
  obtain ⟨target, member, rfl, -⟩ := analyzes.directCall calls
  exact (sound.numbered target member).trans_le (analyzes.grows sound).nextId

/-- What an expression names has been numbered. -/
theorem AnalyzesExpr.named_lt {written : Surface.Expr} {value : Expr}
    (analyzes : AnalyzesExpr scopes written before value after)
    (sound : Sound before (visible scopes)) (info : Info) (function : Function)
    (names : value = .function info function) : function.id < after.nextId := by
  subst names
  cases analyzes with
  | literal isLiteral => cases isLiteral
  | function found =>
    have bound := sound.numbered _ (mem_visible_of_lookup found)
    exact bound
  | call calls => cases calls

theorem AnalyzesValue.named_lt {written : Surface.Expr} {value : Expr} :
    AnalyzesValue scopes written before value after → Sound before (visible scopes) →
      ∀ info function, value = .function info function → function.id < after.nextId
  | .value analyzes _, sound, info, function, names => by
    rw [State.nextId_usingValue]
    exact analyzes.named_lt sound info function names

end

/-! ## Every step -/

mutual

theorem AnalyzesExpr.bounded {scopes : Scopes} {written : Surface.Expr} {before after : State}
    {result : Expr} :
    AnalyzesExpr scopes written before result after → Sound before (visible scopes) →
      before.Bounded → after.Bounded
  | .literal _, _, bounded | .reference _, _, bounded | .function _, _, bounded
  | .addressOf _, _, bounded => bounded
  | .binary left right, sound, bounded =>
    right.bounded (sound.grow (left.grows sound) (by simp)) (left.bounded sound bounded)
  | .unary operand, sound, bounded => operand.bounded sound bounded
  | .dereference operand _, sound, bounded => operand.bounded sound bounded
  | .subscript base index _ _, sound, bounded =>
    index.bounded (sound.grow (base.grows sound) (by simp)) (base.bounded sound bounded)
  | .call analyzes, sound, bounded => analyzes.bounded sound bounded
  | .array elements _, sound, bounded => elements.bounded sound bounded
  | .conjure body _, sound, bounded => by
    have extended : Sound (before.numbering 1)
        (⟨before.nextId, "conjure", [], .any, true⟩ :: visible scopes) :=
      sound.cons rfl fun _ => rfl
    exact body.bounded (extended.subset fun other member =>
      List.mem_cons.mpr (mem_visible_functionBody.mp member)) (bounded.numbering 1)

theorem AnalyzesValue.bounded {scopes : Scopes} {written : Surface.Expr} {before after : State}
    {result : Expr} :
    AnalyzesValue scopes written before result after → Sound before (visible scopes) →
      before.Bounded → after.Bounded
  | .value analyzes _, sound, bounded =>
    (analyzes.bounded sound bounded).usingValue (analyzes.called_lt sound)

theorem AnalyzesExprs.bounded {scopes : Scopes} {passing : Passing} {written : List Surface.Expr}
    {before after : State} {result : List Expr} :
    AnalyzesExprs scopes passing written before result after → Sound before (visible scopes) →
      before.Bounded → after.Bounded
  | .nil, _, bounded => bounded
  | @AnalyzesExprs.into _ parameter _ _ _ _ _ _ argument _ first _ rest, sound, bounded => by
    have head := (first.grows sound).trans (.converting _ parameter argument)
    exact rest.bounded (sound.grow head (by simp))
      ((first.bounded sound bounded).converting parameter (first.named_lt sound))
  | .value first rest, sound, bounded =>
    rest.bounded (sound.grow (first.grows sound) (by simp)) (first.bounded sound bounded)
  | .plain first rest, sound, bounded =>
    rest.bounded (sound.grow (first.grows sound) (by simp)) (first.bounded sound bounded)

theorem AnalyzesDescribed.bounded {scopes : Scopes} {written : List Surface.Expr}
    {before after : State} :
    AnalyzesDescribed scopes written before after → Sound before (visible scopes) →
      before.Bounded → after.Bounded
  | .call analyzes, sound, bounded => analyzes.bounded sound bounded
  | .expression analyzes, sound, bounded => analyzes.bounded sound bounded

theorem AnalyzesCall.bounded {scopes : Scopes} {position : Position} {callee : Surface.Ident}
    {written : List Surface.Expr} {before after : State} {result : Outcome} :
    AnalyzesCall scopes position callee written before result after →
      Sound before (visible scopes) → before.Bounded → after.Bounded
  | .function _ _ analyzes, sound, bounded => analyzes.bounded sound bounded
  | .reference _ _ _ analyzes, sound, bounded => analyzes.bounded sound bounded
  | .typeOf analyzes, sound, bounded => analyzes.bounded sound bounded
  | .printed analyzes, sound, bounded => analyzes.bounded sound bounded
  | .apply analyzes, sound, bounded => analyzes.bounded sound bounded
  | .supplant analyzes, sound, bounded => analyzes.bounded sound bounded

theorem AnalyzesStmt.bounded {region next : Region} {written : Surface.Stmt}
    {before after : State} {result : Stmt} :
    AnalyzesStmt region written before result next after → Stands region before →
      before.Bounded → after.Bounded
  | .mainBlock _ body, stands, bounded => body.bounded stands.beginning.block bounded.beginning
  | .mainStatement _ opens inner, stands, bounded =>
    inner.bounded (stands.beginning.sound.opens opens) (bounded.beginning.opens opens)
  | .affix _, _, bounded | .step _ _, _, bounded | .breakLoop _, _, bounded => bounded
  | .function visible _ _ _ body _, stands, bounded => by
    have sound := stands.around visible
    have here := stands.sound.numbered _ (stands.ahead _ List.mem_cons_self)
    exact (body.bounded sound bounded).finishing (here.trans_le (body.grows sound).nextId)
  | .conjureBinding body _, stands, bounded => by
    have sound := stands.around fun _ => mem_visible_functionBody
    have here := stands.sound.numbered _ (stands.ahead _ List.mem_cons_self)
    exact (body.bounded sound bounded).finishing (here.trans_le (body.grows sound).nextId)
  | .declare value _ _ _ _ _, stands, bounded =>
    ((value.bounded stands.sound bounded).converting _ (value.named_lt stands.sound)).declaring _ _
  | .declareInferred value _ _ _ _ _, stands, bounded =>
    (value.bounded stands.sound bounded).declaring _ _
  | .assign _ _ value _, stands, bounded =>
    (value.bounded stands.sound bounded).converting _ (value.named_lt stands.sound)
  | .branch condition _ consequent alternative, stands, bounded => by
    have first : Grows (fixable region.scopes region.ahead) _ _ :=
      (condition.grows stands.sound).weaken
    have second := first.trans
      ((consequent.grows (stands.grow first).block).mono fun _ _ => fixable_of_owner rfl)
    exact alternative.bounded (stands.grow second).block
      (consequent.bounded (stands.grow first).block (condition.bounded stands.sound bounded))
  | .loop condition _ body, stands, bounded => by
    have first : Grows (fixable region.scopes region.ahead) _ _ :=
      (condition.grows stands.sound).weaken
    exact body.bounded (stands.grow first).loop (condition.bounded stands.sound bounded)
  | .returnVoid owner, stands, bounded =>
    bounded.finishing (stands.sound.numbered _ (mem_visible_of_owner owner))
  | .returnFirst owner value _, stands, bounded => by
    have here := stands.sound.numbered _ (mem_visible_of_owner owner)
    exact (value.bounded stands.sound bounded).fixing _
      (here.trans_le (value.grows stands.sound).nextId)
  | .returnAgain _ value _ _ _, stands, bounded =>
    (value.bounded stands.sound bounded).converting _ (value.named_lt stands.sound)
  | .exscribe value, stands, bounded => value.bounded stands.sound bounded
  | .evaluate analyzes, stands, bounded => analyzes.bounded stands.sound bounded
  | .printed analyzes, stands, bounded => analyzes.bounded stands.sound bounded
  | .block body, stands, bounded => body.bounded stands.block bounded

theorem AnalyzesStmts.bounded {region : Region} {written : List Surface.Stmt}
    {before after : State} {result : List Stmt} :
    AnalyzesStmts region written before result after → Stands region before →
      before.Bounded → after.Bounded
  | .nil, _, bounded => bounded
  | .cons first rest, stands, bounded =>
    rest.bounded (first.advances stands).stands (first.bounded stands bounded)

theorem AnalyzesBody.bounded {scopes : Scopes} {written : List Surface.Stmt}
    {before after : State} {result : List Stmt} :
    AnalyzesBody scopes written before result after → Sound before (visible scopes) →
      before.Bounded → after.Bounded
  | .body opens body, sound, bounded => body.bounded (sound.opens opens) (bounded.opens opens)

end

end Analysis

end GlyphCompiler
