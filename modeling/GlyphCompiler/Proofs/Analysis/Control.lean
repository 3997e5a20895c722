/-
# Control in accepted programs

The scopes of a place know what is around it, and the rules of analysis that leave a
loop, return, or change a variable ask them. What is around a place stays the same
from statement to statement of a list. A `main` is counted when it begins, and no
other statement changes the count.
-/

import GlyphCompiler.Proofs.Analysis.Soundness
import GlyphCompiler.Proofs.Optimizer.Control
import GlyphCompiler.Proofs.Parser.Main
import GlyphCompiler.Proofs.Program.Paths
import GlyphCompiler.Proofs.Program.Samples

namespace GlyphCompiler

namespace Analysis

/-! ## What the rules leave of the count -/

@[simp]
theorem State.mainSeen_usingValue (state : State) (value : Expr) :
    (state.usingValue value).mainSeen = state.mainSeen := by
  unfold State.usingValue
  split
  · split <;> rfl
  · rfl

@[simp]
theorem State.mainSeen_converting (state : State) (target : Ty) (value : Expr) :
    (state.converting target value).mainSeen = state.mainSeen := by
  unfold State.converting
  split
  · split <;> rfl
  · rfl

@[simp]
theorem State.mainSeen_declaring (state : State) (changeable : Bool) (value : Expr) :
    (state.declaring changeable value).mainSeen = state.mainSeen := by
  cases changeable <;> rfl

@[simp]
theorem State.mainSeen_finishing (state : State) (function : Function) :
    (state.finishing function).mainSeen = state.mainSeen := by
  unfold State.finishing
  split <;> rfl

/-! ## What is around a place -/

/-- What the scopes of a place say is around it. -/
def surroundings (scopes : Scopes) : Surroundings :=
  .inside scopes.innermost.inLoop scopes.innermost.owner.isSome

theorem surroundings_eq {scopes other : Scopes}
    (inLoop : other.innermost.inLoop = scopes.innermost.inLoop)
    (owner : other.innermost.owner = scopes.innermost.owner) :
    surroundings other = surroundings scopes := by
  rw [surroundings, surroundings, inLoop, owner]

theorem surroundings_declare {scopes declared : Scopes} {cause : String → Cause} {name : String}
    {entity : Entity} {position : Position}
    (done : scopes.declare cause name entity position = .ok declared) :
    surroundings declared = surroundings scopes :=
  surroundings_eq (inLoop_declare done) (owner_declare done)

theorem Opens.surroundings {around scopes : Scopes} {written : List Surface.Stmt}
    {before after : State} {opened : List Function}
    (opens : Opens around written before scopes opened after) :
    surroundings scopes = Analysis.surroundings around :=
  surroundings_eq opens.inLoop opens.owner

theorem Opens.mainSeen {around scopes : Scopes} {written : List Surface.Stmt}
    {before after : State} {opened : List Function}
    (opens : Opens around written before scopes opened after) :
    after.mainSeen = before.mainSeen := by
  rw [opens.after]
  rfl

/-! ## Settled expressions -/

theorem controlled_settle_withType {state : State} {type : Ty} {value : Expr} :
    (settle state (value.withType type)).Controlled ↔ (settle state value).Controlled := by
  cases value <;> rfl

theorem controlled_withType {type : Ty} {value : Expr} :
    (value.withType type).Controlled ↔ value.Controlled := by
  cases value <;> rfl

/-- The expression of an outcome. -/
def Outcome.holds (outcome : Outcome) (property : Expr → Prop) : Prop :=
  match outcome with
  | .printed value | .expression value => property value

section

variable (final : State)

include final

mutual

/-- Without a `main` in it an expression leaves the count as it is, and it is controlled. -/
theorem AnalyzesExpr.controlled {scopes : Scopes} {written : Surface.Expr} {before after : State}
    {value : Expr} : AnalyzesExpr scopes written before value after → written.hasMain = false →
      after.mainSeen = before.mainSeen ∧ (settle final value).Controlled
  | .literal isLiteral, _ => by cases isLiteral <;> exact ⟨rfl, trivial⟩
  | .reference _, _ | .function _, _ | .addressOf _, _ => ⟨rfl, trivial⟩
  | .binary left right, without => by
    obtain ⟨noneLeft, noneRight⟩ := Bool.or_eq_false_iff.mp without
    obtain ⟨seenLeft, first⟩ := left.controlled noneLeft
    obtain ⟨seenRight, second⟩ := right.controlled noneRight
    exact ⟨seenRight.trans seenLeft, first, second⟩
  | .unary operand, without => operand.controlled without
  | .dereference operand _, without => operand.controlled without
  | .subscript base index _ _, without => by
    obtain ⟨noneBase, noneIndex⟩ := Bool.or_eq_false_iff.mp without
    obtain ⟨seenBase, first⟩ := base.controlled noneBase
    obtain ⟨seenIndex, second⟩ := index.controlled noneIndex
    exact ⟨seenIndex.trans seenBase, first, second⟩
  | .call analyzes, without => analyzes.controlled without
  | .array elements _, without => elements.controlled without
  | .conjure body _, without => body.controlled without

theorem AnalyzesValue.controlled {scopes : Scopes} {written : Surface.Expr} {before after : State}
    {value : Expr} : AnalyzesValue scopes written before value after → written.hasMain = false →
      after.mainSeen = before.mainSeen ∧ (settle final value).Controlled
  | .value analyzes _, without => by
    rw [State.mainSeen_usingValue]
    exact analyzes.controlled without

theorem AnalyzesExprs.controlled {scopes : Scopes} {passing : Passing} {written : List Surface.Expr}
    {before after : State} {values : List Expr} :
    AnalyzesExprs scopes passing written before values after →
      Surface.anyHasMain written = false →
        after.mainSeen = before.mainSeen ∧ allControlled (settleAll final values)
  | .nil, _ => ⟨rfl, trivial⟩
  | @AnalyzesExprs.into _ parameter _ _ _ _ _ _ argument _ first _ rest, without => by
    obtain ⟨noneFirst, noneRest⟩ := Bool.or_eq_false_iff.mp without
    obtain ⟨seenFirst, here⟩ := first.controlled noneFirst
    obtain ⟨seenRest, others⟩ := rest.controlled noneRest
    rw [State.mainSeen_converting] at seenRest
    refine ⟨seenRest.trans seenFirst, ?_, others⟩
    split
    · exact here
    · exact controlled_settle_withType.mpr here
  | .value first rest, without => by
    obtain ⟨noneFirst, noneRest⟩ := Bool.or_eq_false_iff.mp without
    obtain ⟨seenFirst, here⟩ := first.controlled noneFirst
    obtain ⟨seenRest, others⟩ := rest.controlled noneRest
    exact ⟨seenRest.trans seenFirst, here, others⟩
  | .plain first rest, without => by
    obtain ⟨noneFirst, noneRest⟩ := Bool.or_eq_false_iff.mp without
    obtain ⟨seenFirst, here⟩ := first.controlled noneFirst
    obtain ⟨seenRest, others⟩ := rest.controlled noneRest
    exact ⟨seenRest.trans seenFirst, here, others⟩

theorem AnalyzesDescribed.mainSeen {scopes : Scopes} {written : List Surface.Expr}
    {before after : State} : AnalyzesDescribed scopes written before after →
      Surface.anyHasMain written = false → after.mainSeen = before.mainSeen
  | .call analyzes, without =>
    (analyzes.controlled (Bool.or_eq_false_iff.mp without).1).1
  | .expression analyzes, without =>
    (analyzes.controlled (Bool.or_eq_false_iff.mp without).1).1

theorem AnalyzesCall.controlled {scopes : Scopes} {position : Position} {callee : Surface.Ident}
    {written : List Surface.Expr} {before after : State} {outcome : Outcome} :
    AnalyzesCall scopes position callee written before outcome after →
      Surface.anyHasMain written = false →
        after.mainSeen = before.mainSeen ∧
          outcome.holds fun value => (settle final value).Controlled
  | .function _ _ analyzes, without => analyzes.controlled without
  | .reference _ _ _ analyzes, without => analyzes.controlled without
  | .typeOf analyzes, without => ⟨analyzes.mainSeen without, trivial⟩
  | .printed analyzes, without => by
    obtain ⟨seen, value, -⟩ := analyzes.controlled without
    exact ⟨seen, value⟩
  | .apply analyzes, without => by
    obtain ⟨seen, mapping, items, -⟩ := analyzes.controlled without
    exact ⟨seen, mapping, items⟩
  | .supplant analyzes, without => by
    obtain ⟨seen, text, pattern, replacement, -⟩ := analyzes.controlled without
    exact ⟨seen, text, pattern, replacement⟩

/-- Without a `main` in it a statement leaves the count as it is, and it is controlled where
it stands. The next statement has the same around it. -/
theorem AnalyzesStmt.controlled {region next : Region} {written : Surface.Stmt}
    {before after : State} {statement : Stmt} :
    AnalyzesStmt region written before statement next after → written.hasMain = false →
      after.mainSeen = before.mainSeen ∧
        (settleStmt final statement).Controlled (surroundings region.scopes) ∧
        surroundings next.scopes = surroundings region.scopes
  | .affix declared, _ => ⟨rfl, trivial, surroundings_declare declared⟩
  | .function _ _ owner inLoop body _, without => by
    obtain ⟨seen, inside⟩ := body.controlled without
    rw [surroundings, owner, inLoop] at inside
    exact ⟨(State.mainSeen_finishing _ _).trans seen, inside, rfl⟩
  | .conjureBinding body _, without => by
    obtain ⟨seen, inside⟩ := body.controlled without
    exact ⟨(State.mainSeen_finishing _ _).trans seen, inside, rfl⟩
  | .declare value _ _ _ declared _, without => by
    obtain ⟨seen, controlled⟩ := value.controlled without
    exact ⟨by simpa using seen, controlled, surroundings_declare declared⟩
  | .declareInferred value _ _ _ declared _, without => by
    obtain ⟨seen, controlled⟩ := value.controlled without
    exact ⟨by simpa using seen, controlled, surroundings_declare declared⟩
  | .assign _ changeable value _, without => by
    obtain ⟨seen, controlled⟩ := value.controlled without
    exact ⟨by simpa using seen, ⟨changeable, controlled⟩, rfl⟩
  | .step _ changeable, _ => ⟨rfl, changeable, rfl⟩
  | .branch condition _ consequent alternative, without => by
    obtain ⟨noneCondition, without⟩ := Bool.or_eq_false_iff.mp without
    obtain ⟨noneConsequent, noneAlternative⟩ := Bool.or_eq_false_iff.mp without
    obtain ⟨seenCondition, decides⟩ := condition.controlled noneCondition
    obtain ⟨seenConsequent, first⟩ := consequent.controlled noneConsequent
    obtain ⟨seenAlternative, second⟩ := alternative.controlled noneAlternative
    exact ⟨seenAlternative.trans (seenConsequent.trans seenCondition), ⟨decides, first, second⟩, rfl⟩
  | .loop condition _ body, without => by
    obtain ⟨noneCondition, noneBody⟩ := Bool.or_eq_false_iff.mp without
    obtain ⟨seenCondition, decides⟩ := condition.controlled noneCondition
    obtain ⟨seenBody, inside⟩ := body.controlled noneBody
    exact ⟨seenBody.trans seenCondition, ⟨decides, inside⟩, rfl⟩
  | .breakLoop inLoop, _ => ⟨rfl, inLoop, rfl⟩
  | .returnVoid owner, _ => by
    refine ⟨State.mainSeen_finishing _ _, ?_, rfl⟩
    rw [surroundings, owner]
    rfl
  | .returnFirst owner value _, without => by
    obtain ⟨seen, controlled⟩ := value.controlled without
    rw [surroundings, owner]
    exact ⟨seen, ⟨rfl, controlled⟩, rfl⟩
  | .returnAgain owner value _ _ _, without => by
    obtain ⟨seen, controlled⟩ := value.controlled without
    rw [surroundings, owner]
    exact ⟨by simpa using seen, ⟨rfl, controlled⟩, rfl⟩
  | .exscribe value, without => by
    obtain ⟨seen, controlled⟩ := value.controlled without
    exact ⟨seen, controlled, rfl⟩
  | .evaluate analyzes, without => by
    obtain ⟨seen, controlled⟩ := analyzes.controlled without
    exact ⟨seen, controlled_withType.mpr controlled, rfl⟩
  | .printed analyzes, without => by
    obtain ⟨seen, controlled⟩ := analyzes.controlled without
    exact ⟨seen, controlled, rfl⟩
  | .block body, without => by
    obtain ⟨seen, inside⟩ := body.controlled without
    exact ⟨seen, inside, rfl⟩

theorem AnalyzesStmts.controlled {region : Region} {written : List Surface.Stmt}
    {before after : State} {body : List Stmt} :
    AnalyzesStmts region written before body after → Surface.bodyHasMain written = false →
      after.mainSeen = before.mainSeen ∧
        bodyControlled (settleBody final body) (surroundings region.scopes)
  | .nil, _ => ⟨rfl, trivial⟩
  | .cons first rest, without => by
    obtain ⟨noneFirst, noneRest⟩ := Bool.or_eq_false_iff.mp without
    obtain ⟨seenFirst, here, same⟩ := first.controlled noneFirst
    obtain ⟨seenRest, others⟩ := rest.controlled noneRest
    exact ⟨seenRest.trans seenFirst, here, same ▸ others⟩

theorem AnalyzesBody.controlled {scopes : Scopes} {written : List Surface.Stmt}
    {before after : State} {body : List Stmt} :
    AnalyzesBody scopes written before body after → Surface.bodyHasMain written = false →
      after.mainSeen = before.mainSeen ∧
        bodyControlled (settleBody final body) (surroundings scopes)
  | .body opens analyzes, without => by
    obtain ⟨seen, inside⟩ := analyzes.controlled without
    exact ⟨seen.trans opens.mainSeen, opens.surroundings ▸ inside⟩

end

/-! ## Whole programs -/

/-- A statement of the program itself is controlled, and each `main` is counted once. -/
theorem AnalyzesStmt.controlled_program {region next : Region} {written : Surface.Stmt}
    {before after : State} {statement : Stmt}
    (analyzes : AnalyzesStmt region written before statement next after)
    (outside : surroundings region.scopes = .main) (without : written.hasInnerMain = false) :
    (settleStmt final statement).Controlled .program ∧ surroundings next.scopes = .main ∧
      before.mainSeen.toNat + (if (settleStmt final statement).isMain then 1 else 0) =
        after.mainSeen.toNat := by
  cases isMain : written.hasMain with
  | false =>
    obtain ⟨seen, controlled, same⟩ := analyzes.controlled final isMain
    rw [outside] at controlled same
    have other : (settleStmt final statement).isMain = false := by
      cases isStatement : settleStmt final statement with
      | main position body =>
        rw [isStatement] at controlled
        cases controlled.1
      | _ => rfl
    exact ⟨controlled.unblock, same, by simp [other, seen]⟩
  | true =>
    cases analyzes with
    | mainBlock unseen body =>
      obtain ⟨seen, inside⟩ := body.controlled final without
      have around : surroundings region.scopes.block = .main := congrArg Surroundings.block outside
      exact ⟨⟨rfl, around ▸ inside⟩, outside, by simp [unseen, seen, settleStmt, Stmt.isMain]⟩
    | mainStatement unseen opens inner =>
      obtain ⟨seen, inside, same⟩ := inner.controlled final without
      rw [opens.surroundings, outside] at inside same
      have after := seen.trans opens.mainSeen
      exact ⟨⟨rfl, inside, trivial⟩, same, by simp [unseen, after, settleStmt, Stmt.isMain]⟩
    | _ =>
      exact absurd (without.symm.trans isMain) Bool.false_ne_true

/-- The statements of a program are controlled, and each `main` among them is counted once. -/
theorem AnalyzesStmts.controlled_program {region : Region} {written : List Surface.Stmt}
    {before after : State} {body : List Stmt}
    (analyzes : AnalyzesStmts region written before body after)
    (outside : surroundings region.scopes = .main)
    (without : ∀ statement ∈ written, statement.hasInnerMain = false) :
    bodyControlled (settleBody final body) .program ∧
      before.mainSeen.toNat + (settleBody final body).countP Stmt.isMain = after.mainSeen.toNat := by
  induction written generalizing region before body with
  | nil =>
    cases analyzes
    exact ⟨trivial, rfl⟩
  | cons statement written ih =>
    cases analyzes with
    | cons first rest =>
      obtain ⟨here, same, counted⟩ :=
        first.controlled_program final outside (without statement List.mem_cons_self)
      obtain ⟨others, countedRest⟩ :=
        ih rest same fun other member => without other (List.mem_cons_of_mem _ member)
      refine ⟨⟨here, others⟩, ?_⟩
      rw [settleBody, List.countP_cons]
      omega

end

/-- An accepted program is controlled. -/
theorem controlled_of_analyze {source : String} {program : Program}
    (accepted : analyze source = .ok program) : program.Controlled := by
  obtain ⟨final, ran⟩ := exists_run_of_analyze accepted
  obtain ⟨tree, surface, body, parsed, read, analyzes, -, isBody⟩ := analyzesBody_of_ofSource ran
  cases analyzes with
  | body opens analyzes =>
    obtain ⟨controlled, counted⟩ := analyzes.controlled_program final
      opens.surroundings (hasInnerMain_of_parse parsed read)
    rw [← isBody] at controlled counted
    refine ⟨controlled, ?_⟩
    rw [countP_walkStmts controlled]
    have atMost := Bool.toNat_le final.mainSeen
    omega

end Analysis

/-- Accepted programs are controlled, and stay so in any number of passes of the optimizer:
a `break` has a loop to leave, a `return` a body to return from, only variables that may
change are changed, and there is at most one `main`, in the list of the program itself. -/
theorem controlled_of_analyze_of_optimizeTimes {source : String} {program : Program}
    (accepted : analyze source = .ok program) :
    program.Controlled ∧ ∀ passes optimized, optimizeTimes passes program = .ok optimized →
      optimized.Controlled := by
  have controlled := Analysis.controlled_of_analyze accepted
  exact ⟨controlled, fun _ _ completes => Optimizer.controlled_optimizeTimes controlled completes⟩

/-- The program with two functions and a loop is controlled, before and after a pass. -/
theorem controlled_orderedProgram :
    analyze orderedSource = .ok orderedProgram ∧ orderedProgram.Controlled ∧
      ∃ optimized, optimizeTimes 1 orderedProgram = .ok optimized ∧ optimized.Controlled := by
  obtain ⟨before, after⟩ := controlled_of_analyze_of_optimizeTimes analyze_orderedSource
  exact ⟨analyze_orderedSource, before, _, rfl, after 1 _ rfl⟩

/-- In an accepted program the bodies of functions and of conjure expressions are seen to
return just where they do: on every path if no path completes them, and somewhere if a
`return` belongs to them. -/
theorem returns_iff_of_analyze {source : String} {program : Program}
    (accepted : analyze source = .ok program) {node : Node}
    (member : node ∈ walkStmts program.body) {body : List Stmt} (opens : node.body? = some body) :
    (alwaysReturns body = true ↔ ¬ BodyEnds body .completes) ∧
      (containsReturn body = true ↔ HoldsReturn body) := by
  have controlled := (Analysis.controlled_of_analyze accepted).ofBody member opens
  exact ⟨alwaysReturns_iff_of_controlled controlled, containsReturn_iff_of_controlled controlled⟩

/-- The body of the function that passes another one cannot be completed. -/
theorem returns_iff_of_analyze_passingProgram :
    ∃ node ∈ walkStmts passingProgram.body, node.body? = some passingBody ∧
      ¬ BodyEnds passingBody .completes ∧ HoldsReturn passingBody := by
  have member : Node.stmt (.function ⟨1, 1⟩ passingFunction passingBody) ∈
      walkStmts passingProgram.body := List.mem_cons_self
  obtain ⟨always, contains⟩ := returns_iff_of_analyze analyze_passingSource member rfl
  exact ⟨_, member, rfl, always.mp rfl, contains.mp rfl⟩

end GlyphCompiler
