/-
# Scoping of accepted programs

A name of an accepted program means something that has been declared where the name
can see it, and everything that is declared gets a number of its own. So an accepted
program is well scoped, and the optimizer keeps it so.
-/

import GlyphCompiler.Proofs.Analysis.TypeConsistency
import GlyphCompiler.Proofs.Optimizer.Scoping

namespace GlyphCompiler

namespace Analysis

/-! ## Numbers that are handed out -/

/-- Numbers that were handed out one after the other, from one on and before another. -/
structure Numbered (first next : Nat) (ids : List Nat) : Prop where
  le : first ≤ next
  distinct : ids.Nodup
  bounds : ∀ id ∈ ids, first ≤ id ∧ id < next

namespace Numbered

variable {first middle next : Nat} {ids others : List Nat}

theorem nil (le : first ≤ next) : Numbered first next [] := ⟨le, List.nodup_nil, nofun⟩

theorem append (left : Numbered first middle ids) (right : Numbered middle next others) :
    Numbered first next (ids ++ others) where
  le := left.le.trans right.le
  distinct := by
    refine List.nodup_append'.mpr ⟨left.distinct, right.distinct, ?_⟩
    intro id inLeft inRight
    exact absurd (left.bounds id inLeft).2 (Nat.not_lt.mpr (right.bounds id inRight).1)
  bounds id member := by
    have := left.le
    have := right.le
    obtain member | member := List.mem_append.mp member
    · have := left.bounds id member
      omega
    · have := right.bounds id member
      omega

/-- Numbers that were skipped do no harm. -/
theorem widen (numbered : Numbered first middle ids) {lower upper : Nat} (below : lower ≤ first)
    (above : middle ≤ upper) : Numbered lower upper ids where
  le := below.trans (numbered.le.trans above)
  distinct := numbered.distinct
  bounds id member :=
    ⟨below.trans (numbered.bounds id member).1, (numbered.bounds id member).2.trans_le above⟩

theorem perm (numbered : Numbered first next ids) (same : others.Perm ids) :
    Numbered first next others :=
  ⟨numbered.le, same.nodup_iff.mpr numbered.distinct, fun id member =>
    numbered.bounds id (same.mem_iff.mp member)⟩

theorem singleton (id : Nat) : Numbered id (id + 1) [id] :=
  ⟨Nat.le_succ id, List.nodup_singleton id, by simp⟩

end Numbered

/-- Numbers that were handed out, and those of some functions that were numbered before. -/
def NumberedBeside (functions : List Function) (first next : Nat) (ids : List Nat) : Prop :=
  ∃ others, ids.Perm (functions.flatMap idsOf ++ others) ∧ Numbered first next others

theorem Numbered.beside {first next : Nat} {ids : List Nat} (numbered : Numbered first next ids) :
    NumberedBeside [] first next ids :=
  ⟨ids, .refl _, numbered⟩

theorem NumberedBeside.append {first middle next : Nat} {functions others : List Function}
    {ids more : List Nat} (left : NumberedBeside functions first middle ids)
    (right : NumberedBeside others middle next more) :
    NumberedBeside (functions ++ others) first next (ids ++ more) := by
  obtain ⟨old, isOld, numberedOld⟩ := left
  obtain ⟨new, isNew, numberedNew⟩ := right
  refine ⟨old ++ new, (isOld.append isNew).trans ?_, numberedOld.append numberedNew⟩
  rw [List.flatMap_append, List.append_assoc, List.append_assoc]
  refine List.Perm.append_left _ ?_
  rw [← List.append_assoc, ← List.append_assoc]
  exact List.perm_append_comm.append_right _

/-- The functions that a list of statements declares are numbered before its statements
are. -/
theorem Opens.numbered {around scopes : Scopes} {written : List Surface.Stmt}
    {opened passed ahead : List Function} {before after : State}
    (opens : Opens around written before scopes opened after) (split : opened = passed ++ ahead) :
    Numbered before.nextId after.nextId (passed.flatMap idsOf) := by
  have listed : (passed.flatMap idsOf).Sublist
      (List.range' before.nextId (opened.flatMap idsOf).length) := by
    rw [← opens.ids, split, List.flatMap_append]
    exact List.sublist_append_left _ _
  rw [opens.after]
  refine ⟨Nat.le_add_right _ _, List.Nodup.sublist listed List.nodup_range', fun id member => ?_⟩
  exact List.mem_range'_1.mp (listed.subset member)

theorem Opens.numberedBeside {around scopes : Scopes} {written : List Surface.Stmt}
    {opened passed ahead : List Function} {before middle : State} {next : Nat} {ids : List Nat}
    (opens : Opens around written before scopes opened middle) (split : opened = passed ++ ahead)
    (numbered : NumberedBeside passed middle.nextId next ids) : Numbered before.nextId next ids := by
  obtain ⟨others, same, numbered⟩ := numbered
  exact ((opens.numbered split).append numbered).perm same

/-- The expression that the outcome of a call holds. -/
def Outcome.value : Outcome → Expr
  | .printed value => value
  | .expression result => result

@[simp]
theorem Outcome.value_printed (value : Expr) : (Outcome.printed value).value = value := rfl

@[simp]
theorem Outcome.value_expression (result : Expr) : (Outcome.expression result).value = result := rfl

section

variable {final : State}

@[simp]
theorem State.nextId_declaring (state : State) (changeable : Bool) (value : Expr) :
    (state.declaring changeable value).nextId = state.nextId + 1 := by
  cases changeable <;> rfl

@[simp]
theorem State.nextId_finishing (state : State) (function : Function) :
    (state.finishing function).nextId = state.nextId := by
  unfold State.finishing
  split <;> rfl

@[simp]
theorem declared_settle_withType (state : State) (type : Ty) (value : Expr) :
    declaredAmong (settle state (value.withType type)).walk =
      declaredAmong (settle state value).walk := by
  cases value <;>
    simp [Expr.withType, Expr.mapInfo, settle, Expr.walk, declaredAmong_cons, Node.declares]

@[simp]
theorem declared_withType (type : Ty) (value : Expr) :
    declaredAmong (value.withType type).walk = declaredAmong value.walk := by
  cases value <;> simp [Expr.withType, Expr.mapInfo, Expr.walk, declaredAmong_cons, Node.declares]

theorem inSight_withType (type : Ty) (value : Expr) (sight : Sight) :
    (value.withType type).InSight sight ↔ value.InSight sight := by
  cases value <;> rfl

theorem inSight_settle_withType (state : State) (type : Ty) (value : Expr) (sight : Sight) :
    (settle state (value.withType type)).InSight sight ↔ (settle state value).InSight sight := by
  cases value <;> rfl

/-- A function that was numbered ahead declares itself, its parameters, and what its body
declares. -/
theorem numberedBeside_function {function target : Function} {position : Position}
    {body : List Stmt} {first next : Nat} (id : target.id = function.id)
    (parameters : target.parameters = function.parameters)
    (numbered : Numbered first next (declaredAmong (walkStmts body))) :
    NumberedBeside [function] first next (declaredAmong (Stmt.function position target body).walk) := by
  refine ⟨_, List.Perm.of_eq ?_, numbered⟩
  simp [Stmt.walk, declaredAmong_cons, Node.declares, idsOf, id, parameters]

/-- A declared variable gets a number after its first value has been read. -/
theorem numbered_declare {target : Variable} {position : Position} {value : Expr} {first : Nat}
    (numbered : Numbered first target.id (declaredAmong value.walk)) :
    Numbered first (target.id + 1) (declaredAmong (Stmt.declare position target value).walk) := by
  refine (numbered.append (.singleton target.id)).perm ?_
  rw [Stmt.walk, declaredAmong_cons]
  exact List.perm_append_comm

include final

mutual

theorem AnalyzesExpr.numbered {scopes : Scopes} {written : Surface.Expr} {before after : State}
    {value : Expr} : AnalyzesExpr scopes written before value after →
      Numbered before.nextId after.nextId (declaredAmong (settle final value).walk)
  | .literal isLiteral => by cases isLiteral <;> exact .nil le_rfl
  | .reference _ => .nil le_rfl
  | .function _ => .nil le_rfl
  | .binary left right => by
    simp only [settle, Expr.walk, declaredAmong_cons, declaredAmong_append]
    exact left.numbered.append right.numbered
  | .unary operand => operand.numbered
  | .addressOf _ => .nil le_rfl
  | .dereference operand _ => operand.numbered
  | .subscript base index _ _ => by
    simp only [settle, Expr.walk, declaredAmong_cons, declaredAmong_append]
    exact base.numbered.append index.numbered
  | .call analyzes => analyzes.numbered
  | .array elements _ => elements.numbered
  | .conjure body _ => body.numbered.widen (Nat.le_succ _) le_rfl

theorem AnalyzesValue.numbered {scopes : Scopes} {written : Surface.Expr} {before after : State}
    {value : Expr} : AnalyzesValue scopes written before value after →
      Numbered before.nextId after.nextId (declaredAmong (settle final value).walk)
  | .value analyzes _ => by
    rw [State.nextId_usingValue]
    exact analyzes.numbered

theorem AnalyzesExprs.numbered {scopes : Scopes} {passing : Passing} {written : List Surface.Expr}
    {before after : State} {values : List Expr} :
    AnalyzesExprs scopes passing written before values after →
      Numbered before.nextId after.nextId (declaredAmong (walkExprs (settleAll final values)))
  | .nil => .nil le_rfl
  | @AnalyzesExprs.into _ parameter _ _ _ _ _ _ argument _ first _ rest => by
    have same : declaredAmong (settle final
        (if parameter = .any then argument else argument.withType parameter)).walk =
          declaredAmong (settle final argument).walk := by
      split
      · rfl
      · exact declared_settle_withType final parameter argument
    have others := rest.numbered
    rw [State.nextId_converting] at others
    rw [settleAll, walkExprs, declaredAmong_append, same]
    exact first.numbered.append others
  | .value first rest => by
    rw [settleAll, walkExprs, declaredAmong_append]
    exact first.numbered.append rest.numbered
  | .plain first rest => by
    rw [settleAll, walkExprs, declaredAmong_append]
    exact first.numbered.append rest.numbered

theorem AnalyzesDescribed.nextId_le {scopes : Scopes} {written : List Surface.Expr}
    {before after : State} : AnalyzesDescribed scopes written before after →
      before.nextId ≤ after.nextId
  | .call analyzes => analyzes.numbered.le
  | .expression analyzes => analyzes.numbered.le

theorem AnalyzesCall.numbered {scopes : Scopes} {position : Position} {callee : Surface.Ident}
    {written : List Surface.Expr} {before after : State} {outcome : Outcome} :
    AnalyzesCall scopes position callee written before outcome after →
      Numbered before.nextId after.nextId (declaredAmong (settle final outcome.value).walk)
  | .function _ _ analyzes => analyzes.numbered
  | .reference _ _ _ analyzes => analyzes.numbered
  | .typeOf analyzes => .nil analyzes.nextId_le
  | .printed analyzes => by
    have numbered := analyzes.numbered
    simpa [settle, settleAll, Expr.walk, walkExprs, declaredAmong_cons, Node.declares] using numbered
  | .apply analyzes => by
    have numbered := analyzes.numbered
    simpa [settle, settleAll, Expr.walk, walkExprs, declaredAmong_cons, Node.declares] using numbered
  | .supplant analyzes => by
    have numbered := analyzes.numbered
    simpa [settle, settleAll, Expr.walk, walkExprs, declaredAmong_cons, Node.declares] using numbered

theorem AnalyzesStmt.numbered {region next : Region} {written : Surface.Stmt}
    {before after : State} {statement : Stmt} :
    AnalyzesStmt region written before statement next after →
      ∃ passed, region.ahead = passed ++ next.ahead ∧
        NumberedBeside passed before.nextId after.nextId
          (declaredAmong (settleStmt final statement).walk)
  | .mainBlock _ body => ⟨[], rfl, body.numbered.beside⟩
  | .mainStatement _ opens inner => by
    obtain ⟨passed, split, numbered⟩ := inner.numbered
    refine ⟨[], rfl, (opens.numberedBeside split ?_).beside⟩
    simpa [settleStmt, settleBody, Stmt.walk, walkStmts, declaredAmong_cons, Node.declares] using
      numbered
  | .affix _ => ⟨[], rfl, (Numbered.nil le_rfl).beside⟩
  | .function _ _ _ _ body _ => by
    rw [State.nextId_finishing]
    exact ⟨[_], rfl, numberedBeside_function rfl rfl body.numbered⟩
  | .conjureBinding body _ => by
    rw [State.nextId_finishing]
    exact ⟨[_], rfl, numberedBeside_function rfl rfl body.numbered⟩
  | .declare value id _ _ _ _ => by
    rw [State.nextId_declaring, State.nextId_converting, ← id]
    exact ⟨[], rfl, (numbered_declare (id ▸ value.numbered)).beside⟩
  | .declareInferred value id _ _ _ _ => by
    rw [State.nextId_declaring, ← id]
    exact ⟨[], rfl, (numbered_declare (id ▸ value.numbered)).beside⟩
  | .assign _ _ value _ => by
    rw [State.nextId_converting]
    exact ⟨[], rfl, value.numbered.beside⟩
  | .step _ _ => ⟨[], rfl, (Numbered.nil le_rfl).beside⟩
  | .branch condition _ consequent alternative => by
    refine ⟨[], rfl, Numbered.beside ?_⟩
    simp only [settleStmt, Stmt.walk, declaredAmong_cons, declaredAmong_append]
    exact (condition.numbered.append consequent.numbered).append alternative.numbered
  | .loop condition _ body => by
    refine ⟨[], rfl, Numbered.beside ?_⟩
    simp only [settleStmt, Stmt.walk, declaredAmong_cons, declaredAmong_append]
    exact condition.numbered.append body.numbered
  | .breakLoop _ => ⟨[], rfl, (Numbered.nil le_rfl).beside⟩
  | .returnVoid _ => ⟨[], rfl, (Numbered.nil (by simp)).beside⟩
  | .returnFirst _ value _ => ⟨[], rfl, value.numbered.beside⟩
  | .returnAgain _ value _ _ _ => by
    rw [State.nextId_converting]
    exact ⟨[], rfl, value.numbered.beside⟩
  | .exscribe value => ⟨[], rfl, value.numbered.beside⟩
  | .evaluate analyzes => by
    refine ⟨[], rfl, Numbered.beside ?_⟩
    simpa [settleStmt, Stmt.walk, declaredAmong_cons, Node.declares] using analyzes.numbered
  | .printed analyzes => ⟨[], rfl, analyzes.numbered.beside⟩
  | .block body => ⟨[], rfl, body.numbered.beside⟩

theorem AnalyzesStmts.numbered {region : Region} {written : List Surface.Stmt}
    {before after : State} {body : List Stmt} :
    AnalyzesStmts region written before body after →
      ∃ passed ahead, region.ahead = passed ++ ahead ∧
        NumberedBeside passed before.nextId after.nextId
          (declaredAmong (walkStmts (settleBody final body)))
  | .nil => ⟨[], _, rfl, (Numbered.nil le_rfl).beside⟩
  | .cons first rest => by
    obtain ⟨passed, split, numbered⟩ := first.numbered
    obtain ⟨others, ahead, splitRest, numberedRest⟩ := rest.numbered
    refine ⟨passed ++ others, ahead, by rw [split, splitRest, List.append_assoc], ?_⟩
    rw [settleBody, walkStmts, declaredAmong_append]
    exact numbered.append numberedRest

theorem AnalyzesBody.numbered {scopes : Scopes} {written : List Surface.Stmt}
    {before after : State} {body : List Stmt} :
    AnalyzesBody scopes written before body after →
      Numbered before.nextId after.nextId (declaredAmong (walkStmts (settleBody final body)))
  | .body opens analyzes => by
    obtain ⟨passed, ahead, split, numbered⟩ := analyzes.numbered
    exact opens.numberedBeside split numbered

end

end

/-! ## Names -/

/-- Everything that has a name at a place is in sight, functions with the results that
are known in the end. -/
structure Covers (final : State) (scopes : Scopes) (sight : Sight) : Prop where
  values : ∀ target, .value target ∈ entities scopes → target ∈ sight.values
  functions : ∀ function, .function function ∈ entities scopes →
    final.current function ∈ sight.functions

section

variable {final before middle after : State} {scopes inner : Scopes} {sight other : Sight}

namespace Covers

theorem mono (covers : Covers final scopes sight) (within : sight.Within other) :
    Covers final scopes other where
  values target named := within.values (covers.values target named)
  functions function named := within.functions (covers.functions function named)

/-- The functions that a list of statements declares can be added. -/
theorem opens {written : List Surface.Stmt} {opened : List Function}
    (covers : Covers final scopes sight) (opens : Opens scopes written before inner opened after)
    (seen : ∀ function ∈ opened, final.current function ∈ sight.functions) :
    Covers final inner sight where
  values target named := by
    obtain ⟨function, -, ⟨⟩⟩ | outside := opens.named _ named
    exact covers.values target outside
  functions function named := by
    obtain ⟨function, isOpened, ⟨⟩⟩ | outside := opens.named _ named
    · exact seen function isOpened
    · exact covers.functions function outside

/-- In the body of a function its parameters are in sight. -/
theorem inside {function target : Function} (covers : Covers final scopes sight)
    (named : ∀ entity ∈ entities inner,
      (∃ parameter ∈ function.parameters, entity = .value parameter) ∨ entity ∈ entities scopes)
    (parameters : target.parameters = function.parameters) :
    Covers final inner (sight.inside target) where
  values variable_ isNamed := by
    rw [Sight.mem_values_inside, parameters]
    obtain ⟨parameter, isParameter, ⟨⟩⟩ | outside := named _ isNamed
    · exact .inl isParameter
    · exact .inr (covers.values variable_ outside)
  functions other isNamed := by
    obtain ⟨parameter, -, ⟨⟩⟩ | outside := named _ isNamed
    exact covers.functions other outside

/-- A variable is in sight after its declaration. -/
theorem declare {declared : Scopes} {cause : String → Cause} {name : String}
    {target : Variable} {position : Position} {value : Expr} (covers : Covers final scopes sight)
    (done : scopes.declare cause name (.value target) position = .ok declared) :
    Covers final declared (sight.after (.declare position target value)) where
  values variable_ named := by
    rw [Sight.mem_values_after]
    obtain same | outside := mem_entities_declare done named
    · cases same
      exact .inl (List.mem_singleton.mpr rfl)
    · exact .inr (covers.values variable_ outside)
  functions function named :=
    covers.functions function ((mem_entities_declare done named).resolve_left nofun)

/-- Library functions are no entities of the program. -/
theorem affix {declared : Scopes} {cause : String → Cause} {name : String}
    {symbol : LibraryFunction} {position : Position} (covers : Covers final scopes sight)
    (done : scopes.declare cause name (.library symbol) position = .ok declared) :
    Covers final declared sight where
  values target named :=
    covers.values target ((mem_entities_declare done named).resolve_left nofun)
  functions function named :=
    covers.functions function ((mem_entities_declare done named).resolve_left nofun)

/-- A function that is looked up is in sight with its final result. -/
theorem current {may : Nat → Prop} {name : String} {function : Function}
    (covers : Covers final scopes sight) (found : scopes.lookup name = some (.function function))
    (grows : Grows may before final) :
    final.current (before.current function) ∈ sight.functions := by
  rw [grows.current_current]
  exact covers.functions function (mem_entities_of_lookup found)

theorem value {name : String} {target : Variable} (covers : Covers final scopes sight)
    (found : scopes.lookup name = some (.value target)) : target ∈ sight.values :=
  covers.values target (mem_entities_of_lookup found)

end Covers

/-- A statement that declares a function declares the next one that is ahead. -/
theorem AnalyzesStmt.hoists {region next : Region} {written : Surface.Stmt} {statement : Stmt}
    (analyzes : AnalyzesStmt region written before statement next after)
    (later : Grows (inferredIn region.scopes) after final) :
    (declaresFunction written = false ∧ next.ahead = region.ahead) ∨
      declaresFunction written = true ∧ ∃ function, region.ahead = function :: next.ahead ∧
        final.current function ∈ (settleStmt final statement).hoisted := by
  cases analyzes with
  | function _ _ _ _ _ =>
    exact .inr ⟨rfl, _, rfl, List.mem_singleton.mpr (later.current_current _).symm⟩
  | conjureBinding _ _ => exact .inr ⟨rfl, _, rfl, List.mem_singleton.mpr rfl⟩
  | _ => exact .inl ⟨rfl, rfl⟩

/-- Every function that is ahead of some statements is declared by one of them. -/
theorem AnalyzesStmts.hoists {region : Region} {written : List Surface.Stmt} {before after : State}
    {body : List Stmt} (analyzes : AnalyzesStmts region written before body after)
    (stands : Stands region before) (later : Grows (inferredIn region.scopes) after final)
    (count : region.ahead.length = written.countP declaresFunction) (function : Function)
    (member : function ∈ region.ahead) :
    final.current function ∈ hoisted (settleBody final body) := by
  induction written generalizing region before body with
  | nil =>
    rw [List.length_eq_zero_iff.mp count] at member
    cases member
  | cons statement written ih =>
    obtain _ | ⟨first, rest⟩ := analyzes
    have advances := first.advances stands
    have middle := advances.later stands (rest.grows advances.stands) later
    have others := ih rest advances.stands (later.wider advances.seen)
    rw [settleBody, hoisted, List.mem_append]
    obtain ⟨noFunction, same⟩ | ⟨isFunction, opened, ahead, here⟩ := first.hoists middle
    · rw [List.countP_cons_of_neg (by simp [noFunction])] at count
      exact .inr (others (same ▸ count) (same ▸ member))
    · rw [List.countP_cons_of_pos isFunction, ahead, List.length_cons, Nat.add_right_cancel_iff] at count
      rw [ahead] at member
      obtain rfl | member := List.mem_cons.mp member
      · exact .inl here
      · exact .inr (others count member)

end

section

set_option linter.unusedSectionVars false

variable {final : State}

mutual

/-- What an expression names is in sight. -/
theorem AnalyzesExpr.inSight {scopes : Scopes} {written : Surface.Expr} {before after : State}
    {value : Expr} {sight : Sight} :
    AnalyzesExpr scopes written before value after → Sound before (visible scopes) →
      Grows (inferredIn scopes) after final → Covers final scopes sight →
        (settle final value).InSight sight
  | .literal isLiteral, _, _, _ => by cases isLiteral <;> trivial
  | .reference found, _, _, covers => covers.value found
  | .function found, _, later, covers => covers.current found later
  | .binary left right, sound, later, covers => by
    have first := left.grows sound
    have between := sound.grow first (by simp)
    have second := right.grows between
    exact ⟨left.inSight sound (second.weaken.trans later) covers,
      right.inSight between later covers⟩
  | .unary operand, sound, later, covers => operand.inSight sound later covers
  | .addressOf found, _, _, covers => covers.value found
  | .dereference operand _, sound, later, covers => operand.inSight sound later covers
  | .subscript base index _ _, sound, later, covers => by
    have first := base.grows sound
    have between := sound.grow first (by simp)
    have second := index.grows between
    exact ⟨base.inSight sound (second.weaken.trans later) covers,
      index.inSight between later covers⟩
  | .call analyzes, sound, later, covers => analyzes.inSight sound later covers
  | .array elements _, sound, later, covers => elements.inSight sound later covers
  | .conjure body _, sound, later, covers => by
    have extended : Sound (before.numbering 1)
        (⟨before.nextId, "conjure", [], .any, true⟩ :: visible scopes) :=
      sound.cons rfl fun _ => rfl
    exact body.inSight
      (extended.subset fun other member => List.mem_cons.mpr (mem_visible_functionBody.mp member))
      (later.wider fun function member => mem_visible_functionBody.mpr (.inr member))
      ⟨covers.values, covers.functions⟩

theorem AnalyzesValue.inSight {scopes : Scopes} {written : Surface.Expr} {before after : State}
    {value : Expr} {sight : Sight} :
    AnalyzesValue scopes written before value after → Sound before (visible scopes) →
      Grows (inferredIn scopes) after final → Covers final scopes sight →
        (settle final value).InSight sight
  | .value analyzes _, sound, later, covers =>
    analyzes.inSight sound ((Grows.usingValue _ _).trans later) covers

theorem AnalyzesExprs.inSight {scopes : Scopes} {passing : Passing} {written : List Surface.Expr}
    {before after : State} {values : List Expr} {sight : Sight} :
    AnalyzesExprs scopes passing written before values after → Sound before (visible scopes) →
      Grows (inferredIn scopes) after final → Covers final scopes sight →
        allInSight (settleAll final values) sight
  | .nil, _, _, _ => trivial
  | @AnalyzesExprs.into _ parameter _ _ _ _ _ _ argument _ analyzes _ analyzesRest, sound, later,
      covers => by
    have first := (analyzes.grows sound).trans (.converting _ parameter argument)
    have between := sound.grow first (by simp)
    have rest : Grows (inferredIn scopes) _ _ := (analyzesRest.grows between).weaken
    have value := analyzes.inSight sound ((Grows.converting _ _ _).trans (rest.trans later)) covers
    refine ⟨?_, analyzesRest.inSight between later covers⟩
    split
    · exact value
    · exact (inSight_settle_withType _ _ _ _).mpr value
  | .value analyzes analyzesRest, sound, later, covers => by
    have between := sound.grow (analyzes.grows sound) (by simp)
    have second := analyzesRest.grows between
    exact ⟨analyzes.inSight sound (second.weaken.trans later) covers,
      analyzesRest.inSight between later covers⟩
  | .plain analyzes analyzesRest, sound, later, covers => by
    have between := sound.grow (analyzes.grows sound) (by simp)
    have second := analyzesRest.grows between
    exact ⟨analyzes.inSight sound (second.weaken.trans later) covers,
      analyzesRest.inSight between later covers⟩

theorem AnalyzesCall.inSight {scopes : Scopes} {position : Position} {callee : Surface.Ident}
    {written : List Surface.Expr} {before after : State} {outcome : Outcome} {sight : Sight} :
    AnalyzesCall scopes position callee written before outcome after →
      Sound before (visible scopes) → Grows (inferredIn scopes) after final →
        Covers final scopes sight → (settle final outcome.value).InSight sight
  | .function found _ analyzes, sound, later, covers => by
    have whole := (analyzes.grows sound).weaken.trans later
    exact ⟨covers.current found whole, analyzes.inSight sound later covers⟩
  | .reference found _ _ analyzes, sound, later, covers =>
    ⟨covers.value found, analyzes.inSight sound later covers⟩
  | .typeOf _, _, _, _ => trivial
  | .printed analyzes, sound, later, covers => (analyzes.inSight sound later covers).1
  | .apply analyzes, sound, later, covers => by
    obtain ⟨mapping, items, -⟩ := analyzes.inSight sound later covers
    exact ⟨mapping, items⟩
  | .supplant analyzes, sound, later, covers => by
    obtain ⟨text, pattern, replacement, -⟩ := analyzes.inSight sound later covers
    exact ⟨text, pattern, replacement⟩

/-- What a statement names is in sight, if the functions of its list are; what it declares
is in sight after it. -/
theorem AnalyzesStmt.inSight {region next : Region} {written : Surface.Stmt}
    {before after : State} {statement : Stmt} {sight : Sight} :
    AnalyzesStmt region written before statement next after → Stands region before →
      Grows (inferredIn region.scopes) after final → Covers final region.scopes sight →
        (settleStmt final statement).hoisted ⊆ sight.functions →
          (settleStmt final statement).InSight sight ∧
            Covers final next.scopes (sight.after (settleStmt final statement))
  | .mainBlock _ body, stands, later, covers, seen => by
    have inside := body.inSight stands.beginning.block
      (later.wider fun _ member => mem_visible_block.mpr member) ⟨covers.values, covers.functions⟩
    have joined : (sight.opening (settleBody final _)).Within sight :=
      ⟨List.Subset.refl _, List.append_subset.mpr ⟨seen, List.Subset.refl _⟩⟩
    exact ⟨bodyInSight_mono _ inside joined, covers.mono (Sight.within_after _ _)⟩
  | .mainStatement _ opens inner, stands, later, covers, seen => by
    have opened := stands.beginning.sound.opens opens
    have innerLater := later.wider fun function member => (opens.visible function).mpr (.inl member)
    have declares := (AnalyzesStmts.cons inner .nil).hoists opened innerLater opens.count
    have covered := covers.opens opens fun function member => seen (declares function member)
    obtain ⟨inside, after⟩ := inner.inSight opened innerLater covered
      (List.Subset.trans (List.subset_append_left _ _) seen)
    refine ⟨⟨inside, trivial⟩, after.mono ⟨?_, List.Subset.refl _⟩⟩
    intro target member
    simpa [settleStmt, settleBody, Stmt.introduced, introduced] using member
  | .affix declared, _, _, covers, _ => ⟨trivial, covers.affix declared⟩
  | .function visible named _ _ body _, stands, later, covers, _ => by
    have sound := stands.around visible
    have inside := body.inSight sound (stands.inBody visible (body.grows sound) later)
      (covers.inside named rfl)
    exact ⟨inside, covers⟩
  | .conjureBinding body _, stands, later, covers, _ => by
    have sound := stands.around fun _ => mem_visible_functionBody
    have bodyLater := stands.inBody (fun _ => mem_visible_functionBody) (body.grows sound) later
    exact ⟨body.inSight sound bodyLater (covers.inside (fun _ => .inr) rfl), covers⟩
  | .declare value _ _ _ declared _, stands, later, covers, _ => by
    have direct := (Grows.converting _ _ _).trans ((Grows.declaring _ _ _).trans later)
    exact ⟨value.inSight stands.sound direct covers, covers.declare declared⟩
  | .declareInferred value _ _ _ declared _, stands, later, covers, _ => by
    have direct := (Grows.declaring _ _ _).trans later
    exact ⟨value.inSight stands.sound direct covers, covers.declare declared⟩
  | .assign found _ value _, stands, later, covers, _ => by
    have direct := (Grows.converting _ _ _).trans later
    exact ⟨⟨covers.value found, value.inSight stands.sound direct covers⟩, covers⟩
  | .step found _, _, _, covers, _ => ⟨covers.value found, covers⟩
  | .branch condition _ consequent alternative, stands, later, covers, _ => by
    have afterFirst := stands.grow (condition.grows stands.sound).weaken
    have second := consequent.grows afterFirst.block
    have afterSecond := afterFirst.grow (second.mono fun _ _ => fixable_of_owner rfl)
    have third := alternative.grows afterSecond.block
    have laterSecond := third.inside (owner_block _) later
    have laterFirst := second.inside (owner_block _) laterSecond
    exact ⟨⟨condition.inSight stands.sound laterFirst covers,
      consequent.inSight afterFirst.block
        (laterSecond.wider fun _ member => mem_visible_block.mpr member)
        ⟨covers.values, covers.functions⟩,
      alternative.inSight afterSecond.block
        (later.wider fun _ member => mem_visible_block.mpr member)
        ⟨covers.values, covers.functions⟩⟩, covers⟩
  | .loop condition _ body, stands, later, covers, _ => by
    have afterFirst := stands.grow (condition.grows stands.sound).weaken
    have second := body.grows afterFirst.loop
    have laterFirst := second.inside (owner_loop _) later
    exact ⟨⟨condition.inSight stands.sound laterFirst covers,
      body.inSight afterFirst.loop (later.wider fun _ member => mem_visible_loop.mpr member)
        ⟨covers.values, covers.functions⟩⟩, covers⟩
  | .breakLoop _, _, _, covers, _ => ⟨trivial, covers⟩
  | .returnVoid _, _, _, covers, _ => ⟨trivial, covers⟩
  | .returnFirst owner value pending, stands, later, covers, _ => by
    have inside := stands.grow (value.grows stands.sound).weaken
    have member := mem_visible_of_owner owner
    have inferred := (Bool.and_eq_true_iff.mp pending).1
    have direct := (Grows.fixing (inside.sound.numbered _ member) pending
      ⟨_, member, inferred, rfl⟩).trans later
    exact ⟨value.inSight stands.sound direct covers, covers⟩
  | .returnAgain _ value _ _ _, stands, later, covers, _ => by
    have direct := (Grows.converting _ _ _).trans later
    exact ⟨value.inSight stands.sound direct covers, covers⟩
  | .exscribe value, stands, later, covers, _ =>
    ⟨value.inSight stands.sound later covers, covers⟩
  | .evaluate analyzes, stands, later, covers, _ =>
    ⟨(inSight_withType _ _ _).mpr (analyzes.inSight stands.sound later covers), covers⟩
  | .printed analyzes, stands, later, covers, _ =>
    ⟨analyzes.inSight stands.sound later covers, covers⟩
  | .block body, stands, later, covers, _ =>
    ⟨body.inSight stands.block (later.wider fun _ member => mem_visible_block.mpr member)
      ⟨covers.values, covers.functions⟩, covers⟩

theorem AnalyzesStmts.inSight {region : Region} {written : List Surface.Stmt}
    {before after : State} {body : List Stmt} {sight : Sight} :
    AnalyzesStmts region written before body after → Stands region before →
      Grows (inferredIn region.scopes) after final → Covers final region.scopes sight →
        hoisted (settleBody final body) ⊆ sight.functions →
          bodyInSight (settleBody final body) sight
  | .nil, _, _, _, _ => trivial
  | .cons first rest, stands, later, covers, seen => by
    have advances := first.advances stands
    rw [settleBody, hoisted, List.append_subset] at seen
    obtain ⟨here, after⟩ := first.inSight stands (advances.later stands (rest.grows advances.stands) later) covers seen.1
    exact ⟨here, rest.inSight advances.stands (later.wider advances.seen) after seen.2⟩

/-- What a list of statements names is in sight. -/
theorem AnalyzesBody.inSight {scopes : Scopes} {written : List Surface.Stmt}
    {before after : State} {body : List Stmt} {sight : Sight} :
    AnalyzesBody scopes written before body after → Sound before (visible scopes) →
      Grows (inferredIn scopes) after final → Covers final scopes sight →
        bodyInSight (settleBody final body) (sight.opening (settleBody final body))
  | .body opens analyzes, sound, later, covers => by
    have stands := sound.opens opens
    have inner := later.wider fun function member => (opens.visible function).mpr (.inl member)
    have declares := analyzes.hoists stands inner opens.count
    have covered := (covers.mono (Sight.within_opening sight _)).opens opens fun function member =>
      Sight.mem_functions_opening.mpr (.inl (declares function member))
    exact analyzes.inSight stands inner covered (List.subset_append_left _ _)

end

end

/-- An accepted text is analyzed to a body, from the state of a new analyzer on. -/
theorem analyzesBody_of_analyzeFrom {source : String} {program : Program} {first next : Nat}
    (accepted : analyzeFrom first source = .ok (program, next)) :
    ∃ tree surface body final, parse source = .ok tree ∧ Surface.ofTree tree = .ok surface ∧
      AnalyzesBody [.root] surface.body { State.initial with nextId := first } body final ∧
      final.nextId = next ∧ program.body = settleBody final body := by
  unfold analyzeFrom at accepted
  split at accepted
  · next result final ran =>
    cases accepted
    obtain ⟨tree, surface, body, parsed, read, analyzes, -, isBody⟩ := analyzesBody_of_ofSource ran
    exact ⟨tree, surface, body, final, parsed, read, analyzes, rfl, isBody⟩
  · cases accepted

/-- An accepted program is scoped, and what it declares is numbered from the first number of
its analyzer on and before the next. -/
theorem scoped_of_analyzeFrom {source : String} {program : Program} {first next : Nat}
    (accepted : analyzeFrom first source = .ok (program, next)) :
    program.Scoped ∧ Numbered first next (declaredAmong (walkStmts program.body)) := by
  obtain ⟨tree, surface, body, final, -, -, analyzes, rfl, isBody⟩ :=
    analyzesBody_of_analyzeFrom accepted
  rw [isBody]
  refine ⟨⟨?_, ?_⟩, analyzes.numbered⟩
  · rw [isBody]
    exact analyzes.inSight (sound_numbering first) (.refl final) ⟨nofun, nofun⟩
  · rw [isBody]
    exact analyzes.numbered.distinct

/-- A new analyzer numbers from zero on. -/
theorem analyzeFrom_of_analyze {source : String} {program : Program}
    (accepted : analyze source = .ok program) :
    ∃ next, analyzeFrom 0 source = .ok (program, next) := by
  obtain ⟨final, ran⟩ := exists_run_of_analyze accepted
  refine ⟨final.nextId, ?_⟩
  have same : { State.initial with nextId := 0 } = State.initial := rfl
  rw [analyzeFrom, same, ran]

/-- An accepted program is scoped. -/
theorem scoped_of_analyze {source : String} {program : Program}
    (accepted : analyze source = .ok program) : program.Scoped := by
  obtain ⟨next, accepted⟩ := analyzeFrom_of_analyze accepted
  exact (scoped_of_analyzeFrom accepted).1

end Analysis

/-- Accepted programs are well scoped, and stay so in any number of passes of the
optimizer: every variable and function that is mentioned is declared once, and every
mention of it is where that declaration can be seen. -/
theorem wellScoped_optimizeTimes {source : String} {program optimized : Program} {passes : Nat}
    (accepted : analyze source = .ok program)
    (completes : optimizeTimes passes program = .ok optimized) : optimized.WellScoped :=
  (Optimizer.scoped_optimizeTimes (Analysis.scoped_of_analyze accepted) completes).wellScoped

/-- One pass over the program whose result comes late keeps it well scoped. -/
theorem wellScoped_optimizeTimes_lateProgram :
    analyze Analysis.lateSource = .ok Analysis.lateProgram ∧
      optimizeTimes 1 Analysis.lateProgram = .ok lateOptimized ∧ lateOptimized.WellScoped := by
  have completes : optimizeTimes 1 Analysis.lateProgram = .ok lateOptimized := by
    rw [optimizeTimes, optimize_lateProgram]
    rfl
  exact ⟨Analysis.analyze_lateSource, completes,
    wellScoped_optimizeTimes Analysis.analyze_lateSource completes⟩

end GlyphCompiler
