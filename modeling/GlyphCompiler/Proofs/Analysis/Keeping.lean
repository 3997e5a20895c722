/-
# What an analysis leaves as it was

Whatever an analysis reads, it finds results only of functions that begin there, of the
function around it and of the functions ahead, and it gives no first value to a constant
that has been numbered before.
-/

import GlyphCompiler.Proofs.Analysis.Growth

namespace GlyphCompiler

namespace Analysis

/-- Constants of other variables say nothing of the extent of a variable. -/
theorem extentOfVariable_append {later constants : List (Nat × Expr)} {target : Variable}
    (apart : ∀ entry ∈ later, entry.1 ≠ target.id) (path : List Nat) :
    extentOfVariable (later ++ constants) target path = extentOfVariable constants target path := by
  induction later with
  | nil => rfl
  | cons entry later ih =>
    obtain ⟨differs, rest⟩ := List.forall_mem_cons.mp apart
    rw [List.cons_append, extentOfVariable, if_neg differs, ih rest]

/-- What is known of the numbers handed out before is kept, but for the results of
functions of certain numbers. New constants have new numbers, each its own. -/
structure Keeps (may : Nat → Prop) (before after : State) : Prop where
  nextId : before.nextId ≤ after.nextId
  results : ∀ id, id < before.nextId → ¬ may id →
    after.results.lookup id = before.results.lookup id
  constants : ∃ later, after.constants = later ++ before.constants ∧
    (later.map Prod.fst).Nodup ∧
      ∀ entry ∈ later, before.nextId ≤ entry.1 ∧ entry.1 < after.nextId

section

variable {may must : Nat → Prop} {before middle after : State} {function : Function}

namespace Keeps

theorem of_same (nextId : before.nextId ≤ after.nextId) (results : after.results = before.results)
    (constants : after.constants = before.constants) : Keeps may before after where
  nextId := nextId
  results id _ _ := by rw [results]
  constants := ⟨[], by rw [constants]; rfl, List.nodup_nil, nofun⟩

theorem refl (state : State) : Keeps may state state :=
  of_same le_rfl rfl rfl

theorem beginning (state : State) : Keeps may state { state with mainSeen := true } :=
  of_same le_rfl rfl rfl

theorem numbering (state : State) (count : Nat) : Keeps may state (state.numbering count) :=
  of_same (Nat.le_add_right _ _) rfl rfl

theorem trans (first : Keeps may before middle) (second : Keeps may middle after) :
    Keeps may before after where
  nextId := first.nextId.trans second.nextId
  results id bound outside := by
    rw [second.results id (bound.trans_le first.nextId) outside, first.results id bound outside]
  constants := by
    obtain ⟨early, isMiddle, earlyOnce, earlyNew⟩ := first.constants
    obtain ⟨late, isAfter, lateOnce, lateNew⟩ := second.constants
    refine ⟨late ++ early, by rw [isAfter, isMiddle, List.append_assoc], ?_, fun entry member => ?_⟩
    · rw [List.map_append]
      refine lateOnce.append earlyOnce fun id inLate inEarly => ?_
      obtain ⟨entry, listed, rfl⟩ := List.mem_map.mp inLate
      obtain ⟨other, otherListed, same⟩ := List.mem_map.mp inEarly
      exact absurd (earlyNew other otherListed).2 (Nat.not_lt.mpr (same ▸ (lateNew entry listed).1))
    · obtain inLate | inEarly := List.mem_append.mp member
      · exact ⟨first.nextId.trans (lateNew entry inLate).1, (lateNew entry inLate).2⟩
      · exact ⟨(earlyNew entry inEarly).1, (earlyNew entry inEarly).2.trans_le second.nextId⟩

/-- Numbers that have not been handed out yet do not count. -/
theorem mono (keeps : Keeps may before after)
    (within : ∀ id, id < before.nextId → may id → must id) : Keeps must before after where
  nextId := keeps.nextId
  results id bound outside := keeps.results id bound fun inside => outside (within id bound inside)
  constants := keeps.constants

theorem none (keeps : Keeps (fun _ => False) before after) : Keeps may before after :=
  keeps.mono fun _ _ => False.elim

theorem usingValue (state : State) (expression : Expr) :
    Keeps may state (state.usingValue expression) :=
  of_same (by simp) (by simp) (by simp)

theorem converting (state : State) (target : Ty) (value : Expr) :
    Keeps may state (state.converting target value) :=
  of_same (by simp) (by simp) (by simp)

theorem declaring (state : State) (changeable : Bool) (value : Expr) :
    Keeps may state (state.declaring changeable value) := by
  cases changeable with
  | true => exact .numbering state 1
  | false =>
    exact ⟨Nat.le_succ _, fun _ _ _ => rfl, [(state.nextId, value)], rfl, List.nodup_singleton _,
      List.forall_mem_singleton.mpr ⟨le_rfl, Nat.lt_succ_self _⟩⟩

theorem fixing {type : Ty} (allowed : may function.id) :
    Keeps may before (before.fixing function type) :=
  ⟨le_rfl, fun _ _ outside => lookup_fixing_of_ne fun same => outside (same ▸ allowed), [], rfl,
    List.nodup_nil, nofun⟩

theorem finishing (allowed : function.inferred = true → may function.id) :
    Keeps may before (before.finishing function) := by
  unfold State.finishing
  split
  · next pending => exact fixing (allowed (Bool.and_eq_true_iff.mp pending).1)
  · exact refl before

end Keeps

/-- Results of functions that are new do not count for what is around them. -/
theorem Opens.keeps {around scopes : Scopes} {written : List Surface.Stmt} {ahead : List Function}
    (opens : Opens around written before scopes ahead middle)
    (keeps : Keeps (fixable scopes ahead) middle after) : Keeps (fixable around []) before after := by
  have numbering : Keeps (fixable scopes ahead) before middle := by
    rw [opens.after]
    exact .numbering _ _
  refine (numbering.trans keeps).mono ?_
  rintro id bound ⟨function, owner | member, inferred, rfl⟩
  · exact ⟨function, .inl (opens.owner ▸ owner), inferred, rfl⟩
  · exact absurd bound (Nat.not_lt.mpr (opens.id_mem member).1)

end

/-- What a statement keeps, and how it leaves the region that it stands in. -/
structure Passes (region : Region) (before : State) (next : Region) (after : State) : Prop where
  keeps : Keeps (fixable region.scopes region.ahead) before after
  owner : next.scopes.innermost.owner = region.scopes.innermost.owner
  ahead : ∀ function ∈ next.ahead, function ∈ region.ahead

/-- A statement after which the same functions are ahead. -/
theorem Passes.stays {region : Region} {before after : State}
    (keeps : Keeps (fixable region.scopes region.ahead) before after) :
    Passes region before region after :=
  ⟨keeps, rfl, fun _ member => member⟩

theorem Passes.declare {region : Region} {before after : State} {scopes : Scopes}
    {cause : String → Cause} {name : String} {entity : Entity} {position : Position}
    (keeps : Keeps (fixable region.scopes region.ahead) before after)
    (declared : region.scopes.declare cause name entity position = .ok scopes) :
    Passes region before { region with scopes := scopes } after :=
  ⟨keeps, owner_declare declared, fun _ member => member⟩

/-- The body of a function that was ahead. -/
theorem Passes.passed {scopes inner : Scopes} {function : Function} {ahead : List Function}
    {before after : State} (owner : inner.innermost.owner = some function)
    (keeps : Keeps (fixable inner []) before after) :
    Passes ⟨scopes, function :: ahead⟩ before ⟨scopes, ahead⟩ (after.finishing function) := by
  refine ⟨?_, rfl, fun _ => List.mem_cons_of_mem function⟩
  have body : Keeps (fixable scopes (function :: ahead)) before after := by
    refine keeps.mono ?_
    rintro id - ⟨other, isOwner | member, inferred, rfl⟩
    · obtain rfl : function = other := Option.some.inj (owner.symm.trans isOwner)
      exact ⟨function, .inr List.mem_cons_self, inferred, rfl⟩
    · cases member
  exact body.trans (.finishing fun inferred => ⟨function, .inr List.mem_cons_self, inferred, rfl⟩)

mutual

theorem AnalyzesExpr.keeps {scopes : Scopes} {written : Surface.Expr} {before after : State}
    {result : Expr} :
    AnalyzesExpr scopes written before result after → Keeps (fun _ => False) before after
  | .literal _ | .reference _ | .function _ | .addressOf _ => .refl _
  | .binary left right => left.keeps.trans right.keeps
  | .unary operand => operand.keeps
  | .dereference operand _ => operand.keeps
  | .subscript base index _ _ => base.keeps.trans index.keeps
  | .call analyzes => analyzes.keeps
  | .array elements _ => elements.keeps
  | .conjure body _ => by
    refine ((Keeps.numbering before 1).trans body.keeps).mono ?_
    rintro id bound ⟨function, owner | ahead, -, rfl⟩
    · cases owner
      exact absurd bound (Nat.lt_irrefl _)
    · cases ahead

theorem AnalyzesValue.keeps {scopes : Scopes} {written : Surface.Expr} {before after : State}
    {result : Expr} :
    AnalyzesValue scopes written before result after → Keeps (fun _ => False) before after
  | .value analyzes _ => analyzes.keeps.trans (.usingValue _ _)

theorem AnalyzesExprs.keeps {scopes : Scopes} {passing : Passing} {written : List Surface.Expr}
    {before after : State} {result : List Expr} :
    AnalyzesExprs scopes passing written before result after → Keeps (fun _ => False) before after
  | .nil => .refl _
  | @AnalyzesExprs.into _ parameter _ _ _ _ _ _ argument _ first _ rest =>
    (first.keeps.trans (.converting _ parameter argument)).trans rest.keeps
  | .value first rest => first.keeps.trans rest.keeps
  | .plain first rest => first.keeps.trans rest.keeps

theorem AnalyzesDescribed.keeps {scopes : Scopes} {written : List Surface.Expr}
    {before after : State} :
    AnalyzesDescribed scopes written before after → Keeps (fun _ => False) before after
  | .call analyzes => analyzes.keeps
  | .expression analyzes => analyzes.keeps

theorem AnalyzesCall.keeps {scopes : Scopes} {position : Position} {callee : Surface.Ident}
    {written : List Surface.Expr} {before after : State} {result : Outcome} :
    AnalyzesCall scopes position callee written before result after →
      Keeps (fun _ => False) before after
  | .function _ _ analyzes | .reference _ _ _ analyzes | .printed analyzes | .apply analyzes
  | .supplant analyzes => analyzes.keeps
  | .typeOf analyzes => analyzes.keeps

theorem AnalyzesStmt.passes {region next : Region} {written : Surface.Stmt}
    {before after : State} {result : Stmt} :
    AnalyzesStmt region written before result next after → Passes region before next after
  | .mainBlock _ body =>
    .stays ((Keeps.beginning before).trans (body.keeps.mono fun _ _ => fixable_of_owner rfl))
  | .mainStatement _ opens inner =>
    ⟨(Keeps.beginning before).trans
        ((opens.keeps inner.passes.keeps).mono fun _ _ => fixable_of_owner rfl),
      inner.passes.owner.trans opens.owner, fun _ member => member⟩
  | .affix declared => .declare (.refl _) declared
  | .function _ _ owner _ body _ => .passed owner body.keeps
  | .conjureBinding body _ => .passed rfl body.keeps
  | .declare value _ _ _ declared _ =>
    .declare ((value.keeps.none.trans (.converting _ _ _)).trans (.declaring _ _ _)) declared
  | .declareInferred value _ _ _ declared _ =>
    .declare (value.keeps.none.trans (.declaring _ _ _)) declared
  | .assign _ _ value _ => .stays (value.keeps.none.trans (.converting _ _ _))
  | .step _ _ | .breakLoop _ => .stays (.refl _)
  | .branch condition _ consequent alternative =>
    .stays ((condition.keeps.none.trans
      (consequent.keeps.mono fun _ _ => fixable_of_owner rfl)).trans
        (alternative.keeps.mono fun _ _ => fixable_of_owner rfl))
  | .loop condition _ body =>
    .stays (condition.keeps.none.trans (body.keeps.mono fun _ _ => fixable_of_owner rfl))
  | .returnVoid owner => .stays (.finishing fun inferred => ⟨_, .inl owner, inferred, rfl⟩)
  | .returnFirst owner value pending =>
    .stays (value.keeps.none.trans
      (.fixing ⟨_, .inl owner, (Bool.and_eq_true_iff.mp pending).1, rfl⟩))
  | .returnAgain _ value _ _ _ => .stays (value.keeps.none.trans (.converting _ _ _))
  | .exscribe value => .stays value.keeps.none
  | .evaluate analyzes | .printed analyzes => .stays analyzes.keeps.none
  | .block body => .stays (body.keeps.mono fun _ _ => fixable_of_owner rfl)

theorem AnalyzesStmts.keeps {region : Region} {written : List Surface.Stmt}
    {before after : State} {result : List Stmt} :
    AnalyzesStmts region written before result after →
      Keeps (fixable region.scopes region.ahead) before after
  | .nil => .refl _
  | .cons first rest => by
    refine first.passes.keeps.trans (rest.keeps.mono ?_)
    rintro id - ⟨function, owner | member, inferred, same⟩
    · exact ⟨function, .inl (first.passes.owner ▸ owner), inferred, same⟩
    · exact ⟨function, .inr (first.passes.ahead function member), inferred, same⟩

theorem AnalyzesBody.keeps {scopes : Scopes} {written : List Surface.Stmt}
    {before after : State} {result : List Stmt} :
    AnalyzesBody scopes written before result after → Keeps (fixable scopes []) before after
  | .body opens body => opens.keeps body.keeps

end

end Analysis

end GlyphCompiler
