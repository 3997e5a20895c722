/-
# How the state of an analysis grows

Results that are known stay, and what has been put off stays put off. An expression
finds results only of functions that begin within it; a statement finds those of
the function around it, and of the functions ahead.
-/

import GlyphCompiler.Proofs.Analysis.Derivation
import GlyphCompiler.Proofs.Program.Nodes
import Mathlib.Data.List.Nodup
import Mathlib.Data.List.Range

namespace GlyphCompiler

namespace Analysis

/-- What holds of the functions that can be seen: their numbers have been handed out,
different functions have different numbers, and only inferred functions get results. -/
structure Sound (state : State) (functions : List Function) : Prop where
  numbered : ∀ function ∈ functions, function.id < state.nextId
  coherent : ∀ first ∈ functions, ∀ second ∈ functions, first.id = second.id → first = second
  inferred : ∀ function ∈ functions, function.inferred = true → function.result = .any
  declared : ∀ function ∈ functions, function.inferred = false →
    state.results.lookup function.id = none
  unnumbered : ∀ id, state.nextId ≤ id → state.results.lookup id = none

/-- How a state grows, if only functions of certain numbers may get results. -/
structure Grows (may : Nat → Prop) (before after : State) : Prop where
  nextId : before.nextId ≤ after.nextId
  deferred : ∀ use ∈ before.deferred, use ∈ after.deferred
  kept : ∀ id type, before.results.lookup id = some type → after.results.lookup id = some type
  confined : ∀ id, id < before.nextId → ¬ may id →
    after.results.lookup id = before.results.lookup id
  unnumbered : (∀ id, before.nextId ≤ id → before.results.lookup id = none) →
    ∀ id, after.nextId ≤ id → after.results.lookup id = none

section

variable {may must : Nat → Prop} {before middle after : State} {functions others : List Function}
  {function : Function}

theorem lookup_fixing_self (state : State) (function : Function) (type : Ty) :
    (state.fixing function type).results.lookup function.id = some type := by
  simp [State.fixing]

theorem lookup_fixing_of_ne {state : State} {type : Ty} {id : Nat} (differ : id ≠ function.id) :
    (state.fixing function type).results.lookup id = state.results.lookup id := by
  simp [State.fixing, List.lookup_cons, beq_false_of_ne differ]

namespace Grows

theorem of_results (nextId : before.nextId ≤ after.nextId)
    (deferred : ∀ use ∈ before.deferred, use ∈ after.deferred)
    (results : after.results = before.results) : Grows may before after where
  nextId := nextId
  deferred := deferred
  kept id type known := by rw [results, known]
  confined id _ _ := by rw [results]
  unnumbered none id bound := by rw [results, none id (nextId.trans bound)]

theorem refl (state : State) : Grows may state state :=
  of_results le_rfl (fun _ member => member) rfl

theorem beginning (state : State) : Grows may state { state with mainSeen := true } :=
  of_results le_rfl (fun _ member => member) rfl

theorem trans (first : Grows may before middle) (second : Grows may middle after) :
    Grows may before after where
  nextId := first.nextId.trans second.nextId
  deferred use member := second.deferred use (first.deferred use member)
  kept id type known := second.kept id type (first.kept id type known)
  confined id bound outside := by
    rw [second.confined id (bound.trans_le first.nextId) outside, first.confined id bound outside]
  unnumbered none := second.unnumbered (first.unnumbered none)

/-- Numbers that have not been handed out yet do not count. -/
theorem mono (grows : Grows may before after)
    (within : ∀ id, id < before.nextId → may id → must id) : Grows must before after where
  nextId := grows.nextId
  deferred := grows.deferred
  kept := grows.kept
  confined id bound outside := grows.confined id bound fun inside => outside (within id bound inside)
  unnumbered := grows.unnumbered

/-- Where no function gets a result, any may. -/
theorem weaken (grows : Grows (fun _ => False) before after) : Grows may before after :=
  grows.mono fun _ _ => False.elim

theorem numbering (state : State) (count : Nat) : Grows may state (state.numbering count) :=
  of_results (Nat.le_add_right _ _) (fun _ member => member) rfl

theorem usingValue (state : State) (expression : Expr) :
    Grows may state (state.usingValue expression) := by
  refine of_results (by simp) (fun use member => ?_) (by simp)
  unfold State.usingValue
  repeat' split
  · exact List.mem_cons_of_mem _ member
  · exact member
  · exact member

theorem converting (state : State) (target : Ty) (value : Expr) :
    Grows may state (state.converting target value) := by
  refine of_results (by simp) (fun use member => ?_) (by simp)
  unfold State.converting
  repeat' split
  · exact List.mem_cons_of_mem _ member
  · exact member
  · exact member

theorem declaring (state : State) (changeable : Bool) (value : Expr) :
    Grows may state (state.declaring changeable value) := by
  cases changeable <;> exact of_results (Nat.le_succ _) (fun _ member => member) rfl

theorem fixing {type : Ty} (bound : function.id < before.nextId)
    (pending : before.isPending function = true) (allowed : may function.id) :
    Grows may before (before.fixing function type) where
  nextId := le_rfl
  deferred _ member := member
  kept id other known := by
    have unknown : before.results.lookup function.id = none := by
      simpa [State.isPending] using (Bool.and_eq_true_iff.mp pending).2
    have differ : id ≠ function.id := by
      rintro rfl
      rw [unknown] at known
      cases known
    rw [lookup_fixing_of_ne differ, known]
  confined id _ outside := lookup_fixing_of_ne fun same => outside (same ▸ allowed)
  unnumbered none id above := by
    have differ : id ≠ function.id := by
      rintro rfl
      exact absurd bound (Nat.not_lt.mpr above)
    rw [lookup_fixing_of_ne differ, none id above]

theorem finishing (bound : function.id < before.nextId)
    (allowed : function.inferred = true → may function.id) :
    Grows may before (before.finishing function) := by
  unfold State.finishing
  split
  · next pending =>
    exact fixing bound pending (allowed (Bool.and_eq_true_iff.mp pending).1)
  · exact refl before

end Grows

namespace Sound

theorem subset (sound : Sound before functions) (within : ∀ other ∈ others, other ∈ functions) :
    Sound before others where
  numbered other member := sound.numbered other (within other member)
  coherent first firstMember second secondMember :=
    sound.coherent first (within first firstMember) second (within second secondMember)
  inferred other member := sound.inferred other (within other member)
  declared other member := sound.declared other (within other member)
  unnumbered := sound.unnumbered

theorem grow (sound : Sound before functions) (grows : Grows may before after)
    (allowed : ∀ function ∈ functions, may function.id → function.inferred = true) :
    Sound after functions where
  numbered other member := (sound.numbered other member).trans_le grows.nextId
  coherent := sound.coherent
  inferred := sound.inferred
  declared other member written := by
    have outside : ¬ may other.id := fun inside => by
      rw [allowed other member inside] at written
      cases written
    rw [grows.confined other.id (sound.numbered other member) outside,
      sound.declared other member written]
  unnumbered := grows.unnumbered sound.unnumbered

/-- A function that has just been given a number can be added. -/
theorem cons (sound : Sound before functions) (id : function.id = before.nextId)
    (inferred : function.inferred = true → function.result = .any) :
    Sound (before.numbering 1) (function :: functions) := by
  have differ : ∀ other ∈ functions, other.id ≠ function.id := by
    intro other member same
    exact absurd (sound.numbered other member) (by omega)
  refine ⟨?_, ?_, ?_, ?_, ?_⟩
  · rintro other (_ | ⟨_, member⟩)
    · exact id ▸ Nat.lt_succ_self _
    · exact (sound.numbered other member).trans (Nat.lt_succ_self _)
  · rintro first (_ | ⟨_, firstMember⟩) second (_ | ⟨_, secondMember⟩) same
    · rfl
    · exact absurd same.symm (differ second secondMember)
    · exact absurd same (differ first firstMember)
    · exact sound.coherent first firstMember second secondMember same
  · rintro other (_ | ⟨_, member⟩)
    · exact inferred
    · exact sound.inferred other member
  · rintro other (_ | ⟨_, member⟩)
    · exact fun _ => sound.unnumbered _ id.ge
    · exact sound.declared other member
  · exact fun id above => sound.unnumbered id ((Nat.le_succ _).trans above)

end Sound

end

/-- The numbers of the functions that a statement may find a result for: the function
around it, and those that are ahead. -/
def fixable (scopes : Scopes) (ahead : List Function) (id : Nat) : Prop :=
  ∃ function, (scopes.innermost.owner = some function ∨ function ∈ ahead) ∧
    function.inferred = true ∧ function.id = id

theorem fixable_of_owner {scopes inner : Scopes} {ahead : List Function} {id : Nat}
    (owner : inner.innermost.owner = scopes.innermost.owner) (inside : fixable inner [] id) :
    fixable scopes ahead id := by
  obtain ⟨function, isOwner | member, inferred, same⟩ := inside
  · exact ⟨function, .inl (owner ▸ isOwner), inferred, same⟩
  · cases member

/-- What holds of the functions that can be seen in a region, those ahead included. -/
structure Stands (region : Region) (state : State) : Prop where
  sound : Sound state (visible region.scopes)
  ahead : ∀ function ∈ region.ahead, function ∈ visible region.scopes

theorem Stands.grow {region : Region} {before after : State} (stands : Stands region before)
    (grows : Grows (fixable region.scopes region.ahead) before after) : Stands region after where
  sound := by
    refine stands.sound.grow grows ?_
    rintro function member ⟨other, place, inferred, same⟩
    have found : other ∈ visible region.scopes := place.elim mem_visible_of_owner (stands.ahead other)
    rw [← stands.sound.coherent other found function member same]
    exact inferred
  ahead := stands.ahead

theorem Stands.beginning {region : Region} {state : State} (stands : Stands region state) :
    Stands region { state with mainSeen := true } :=
  stands.grow (.beginning state)

/-- How a statement leaves the region that it stands in. -/
structure Advances (region : Region) (before : State) (next : Region) (after : State) : Prop where
  grows : Grows (fixable region.scopes region.ahead) before after
  owner : next.scopes.innermost.owner = region.scopes.innermost.owner
  ahead : ∀ function ∈ next.ahead, function ∈ region.ahead
  seen : ∀ function ∈ visible region.scopes, function ∈ visible next.scopes
  stands : Stands next after

/-- A statement that declares nothing leaves its region as it is. -/
theorem Stands.stays {region : Region} {before after : State} (stands : Stands region before)
    (grows : Grows (fixable region.scopes region.ahead) before after) :
    Advances region before region after where
  grows := grows
  owner := rfl
  ahead _ member := member
  seen _ member := member
  stands := stands.grow grows

/-- A statement that declares no function leaves the functions as they are. -/
theorem Advances.declare {region next : Region} {before after : State} {scopes : Scopes}
    {cause : String → Cause} {name : String} {entity : Entity} {position : Position}
    (advances : Advances region before next after) (isNoFunction : ∀ function, entity ≠ .function function)
    (declared : next.scopes.declare cause name entity position = .ok scopes) :
    Advances region before { next with scopes := scopes } after := by
  have same : ∀ function, function ∈ visible scopes ↔ function ∈ visible next.scopes := by
    intro function
    rw [mem_visible_declare declared]
    simp [isNoFunction function]
  refine ⟨advances.grows, (owner_declare declared).trans advances.owner, advances.ahead, ?_, ?_, ?_⟩
  · intro function member
    exact (same function).mpr (advances.seen function member)
  · exact advances.stands.sound.subset fun function member => (same function).mp member
  · intro function member
    exact (same function).mpr (advances.stands.ahead function member)

theorem Stands.block {region : Region} {state : State} (stands : Stands region state) :
    Sound state (visible region.scopes.block) :=
  stands.sound.subset fun _ member => mem_visible_block.mp member

theorem Stands.loop {region : Region} {state : State} (stands : Stands region state) :
    Sound state (visible region.scopes.loop) :=
  stands.sound.subset fun _ member => mem_visible_loop.mp member

/-- The numbers of functions that have just been declared. -/
theorem Opens.id_mem {around scopes : Scopes} {written : List Surface.Stmt} {opened : List Function} {before after : State}
    (opens : Opens around written before scopes opened after) {function : Function}
    (member : function ∈ opened) : before.nextId ≤ function.id ∧ function.id < after.nextId := by
  have listed : function.id ∈ opened.flatMap idsOf :=
    List.mem_flatMap.mpr ⟨function, member, by simp [idsOf]⟩
  rw [opens.ids, List.mem_range'_1] at listed
  rw [opens.after]
  exact listed

theorem Opens.coherent {around scopes : Scopes} {written : List Surface.Stmt}
    {opened : List Function} {before after : State}
    (opens : Opens around written before scopes opened after) :
    ∀ first ∈ opened, ∀ second ∈ opened, first.id = second.id → first = second := by
  have distinct : (opened.flatMap idsOf).Nodup := by
    rw [opens.ids]
    exact List.nodup_range'
  intro first firstMember second secondMember same
  have inFirst : first.id ∈ idsOf first := by simp [idsOf]
  have inSecond : first.id ∈ idsOf second := by simp [idsOf, same]
  exact eq_of_nodup_flatMap distinct firstMember secondMember inFirst inSecond

/-- The functions that a list of statements declares can be added. -/
theorem Sound.opens {around : Scopes} {written : List Surface.Stmt} {region : Region} {before after : State}
    (sound : Sound before (visible around))
    (opens : Opens around written before region.scopes region.ahead after) : Stands region after := by
  have results : after.results = before.results := by
    rw [opens.after]
    rfl
  have higher : before.nextId ≤ after.nextId := by
    rw [opens.after]
    exact Nat.le_add_right _ _
  refine ⟨⟨?_, ?_, ?_, ?_, ?_⟩, fun function member => (opens.visible function).mpr (.inr member)⟩
  · intro function member
    obtain old | new := (opens.visible function).mp member
    · exact (sound.numbered function old).trans_le higher
    · exact (opens.id_mem new).2
  · intro first firstMember second secondMember same
    obtain old | new := (opens.visible first).mp firstMember <;>
      obtain otherOld | otherNew := (opens.visible second).mp secondMember
    · exact sound.coherent first old second otherOld same
    · have := sound.numbered first old
      have := (opens.id_mem otherNew).1
      omega
    · have := sound.numbered second otherOld
      have := (opens.id_mem new).1
      omega
    · exact opens.coherent first new second otherNew same
  · intro function member
    obtain old | new := (opens.visible function).mp member
    · exact sound.inferred function old
    · exact opens.inferred function new
  · intro function member written
    rw [results]
    obtain old | new := (opens.visible function).mp member
    · exact sound.declared function old written
    · exact sound.unnumbered _ (opens.id_mem new).1
  · intro id above
    rw [results]
    exact sound.unnumbered id (higher.trans above)

/-- Results of functions that are new do not count for what is around them. -/
theorem Opens.grows {around : Scopes} {written : List Surface.Stmt} {region : Region} {before middle after : State}
    (opens : Opens around written before region.scopes region.ahead middle)
    (grows : Grows (fixable region.scopes region.ahead) middle after) :
    Grows (fixable around []) before after := by
  have numbering : Grows (fixable region.scopes region.ahead) before middle := by
    rw [opens.after]
    exact .numbering _ _
  refine (numbering.trans grows).mono ?_
  rintro id bound ⟨function, owner | member, inferred, rfl⟩
  · exact ⟨function, .inl (opens.owner ▸ owner), inferred, rfl⟩
  · exact absurd bound (Nat.not_lt.mpr (opens.id_mem member).1)

/-- In the body of a function that was ahead, the same functions can be seen. -/
theorem Stands.around {scopes inner : Scopes} {function : Function} {ahead : List Function}
    {state : State} (stands : Stands ⟨scopes, function :: ahead⟩ state)
    (seen : ∀ other, other ∈ visible inner ↔ other = function ∨ other ∈ visible scopes) :
    Sound state (visible inner) := by
  refine stands.sound.subset fun other member => ?_
  obtain rfl | outside := (seen other).mp member
  · exact stands.ahead other List.mem_cons_self
  · exact outside

/-- A function that was ahead is ahead no longer when its body has been read. -/
theorem Stands.passes {scopes inner : Scopes} {function : Function} {ahead : List Function}
    {before after : State} (stands : Stands ⟨scopes, function :: ahead⟩ before)
    (owner : inner.innermost.owner = some function)
    (grows : Grows (fixable inner []) before after) :
    Advances ⟨scopes, function :: ahead⟩ before ⟨scopes, ahead⟩ (after.finishing function) := by
  have body : Grows (fixable scopes (function :: ahead)) before after := by
    refine grows.mono ?_
    rintro id - ⟨other, isOwner | member, inferred, rfl⟩
    · obtain rfl : function = other := Option.some.inj (owner.symm.trans isOwner)
      exact ⟨function, .inr List.mem_cons_self, inferred, rfl⟩
    · cases member
  have here : function ∈ visible scopes := stands.ahead function List.mem_cons_self
  have bound := (stands.sound.numbered function here).trans_le body.nextId
  have passed := stands.stays (body.trans (.finishing bound fun inferred =>
    ⟨function, .inr List.mem_cons_self, inferred, rfl⟩))
  exact ⟨passed.grows, rfl, fun _ => List.mem_cons_of_mem function, passed.seen, passed.stands.sound,
    fun other member => stands.ahead other (List.mem_cons_of_mem function member)⟩

mutual

theorem AnalyzesExpr.grows {scopes : Scopes} {written : Surface.Expr} {before after : State}
    {result : Expr} :
    AnalyzesExpr scopes written before result after → Sound before (visible scopes) →
      Grows (fun _ => False) before after
  | .literal _, _ => .refl _
  | .reference _, _ => .refl _
  | .function _, _ => .refl _
  | .binary left right, sound => by
    have first := left.grows sound
    exact first.trans (right.grows (sound.grow first (by simp)))
  | .unary operand, sound => operand.grows sound
  | .addressOf _, _ => .refl _
  | .dereference operand _, sound => operand.grows sound
  | .subscript base index _ _, sound => by
    have first := base.grows sound
    exact first.trans (index.grows (sound.grow first (by simp)))
  | .call analyzes, sound => analyzes.grows sound
  | .array elements _, sound => elements.grows sound
  | .conjure body _, sound => by
    have extended : Sound (before.numbering 1)
        (⟨before.nextId, "conjure", [], .any, true⟩ :: visible scopes) :=
      sound.cons rfl fun _ => rfl
    have inside := body.grows (extended.subset fun other member =>
      List.mem_cons.mpr (mem_visible_functionBody.mp member))
    refine ((Grows.numbering before 1).trans inside).mono ?_
    rintro id bound ⟨function, owner | ahead, -, rfl⟩
    · cases owner
      exact absurd bound (Nat.lt_irrefl _)
    · cases ahead

theorem AnalyzesValue.grows {scopes : Scopes} {written : Surface.Expr} {before after : State}
    {result : Expr} :
    AnalyzesValue scopes written before result after → Sound before (visible scopes) →
      Grows (fun _ => False) before after
  | .value analyzes _, sound => (analyzes.grows sound).trans (.usingValue _ _)

theorem AnalyzesExprs.grows {scopes : Scopes} {passing : Passing} {written : List Surface.Expr}
    {before after : State} {result : List Expr} :
    AnalyzesExprs scopes passing written before result after → Sound before (visible scopes) →
      Grows (fun _ => False) before after
  | .nil, _ => .refl _
  | @AnalyzesExprs.into _ parameter _ _ _ _ _ _ argument _ first _ rest, sound => by
    have head := (first.grows sound).trans (.converting _ parameter argument)
    exact head.trans (rest.grows (sound.grow head (by simp)))
  | .value first rest, sound => by
    have head := first.grows sound
    exact head.trans (rest.grows (sound.grow head (by simp)))
  | .plain first rest, sound => by
    have head := first.grows sound
    exact head.trans (rest.grows (sound.grow head (by simp)))

theorem AnalyzesDescribed.grows {scopes : Scopes} {written : List Surface.Expr}
    {before after : State} :
    AnalyzesDescribed scopes written before after → Sound before (visible scopes) →
      Grows (fun _ => False) before after
  | .call analyzes, sound => analyzes.grows sound
  | .expression analyzes, sound => analyzes.grows sound

theorem AnalyzesCall.grows {scopes : Scopes} {position : Position} {callee : Surface.Ident}
    {written : List Surface.Expr} {before after : State} {result : Outcome} :
    AnalyzesCall scopes position callee written before result after → Sound before (visible scopes) →
      Grows (fun _ => False) before after
  | .function _ _ analyzes, sound => analyzes.grows sound
  | .reference _ _ _ analyzes, sound => analyzes.grows sound
  | .typeOf analyzes, sound => analyzes.grows sound
  | .printed analyzes, sound => analyzes.grows sound
  | .apply analyzes, sound => analyzes.grows sound
  | .supplant analyzes, sound => analyzes.grows sound

theorem AnalyzesStmt.advances {region next : Region} {written : Surface.Stmt}
    {before after : State} {result : Stmt} :
    AnalyzesStmt region written before result next after → Stands region before →
      Advances region before next after
  | .mainBlock _ body, stands => by
    have inside := body.grows stands.beginning.block
    exact stands.stays ((Grows.beginning before).trans (inside.mono fun _ _ => fixable_of_owner rfl))
  | .mainStatement _ opens inner, stands => by
    have inside := inner.advances (stands.beginning.sound.opens opens)
    refine ⟨(Grows.beginning before).trans ((opens.grows inside.grows).mono fun _ _ => fixable_of_owner rfl),
      inside.owner.trans opens.owner, fun _ member => member, ?_, inside.stands.sound, ?_⟩
    · intro function member
      exact inside.seen function ((opens.visible function).mpr (.inl member))
    · intro function member
      exact inside.seen function ((opens.visible function).mpr (.inl (stands.ahead function member)))
  | .affix declared, stands => (stands.stays (.refl _)).declare (by simp) declared
  | .function visible _ owner _ body _, stands =>
    stands.passes owner (body.grows (stands.around visible))
  | .conjureBinding body _, stands =>
    stands.passes rfl (body.grows (stands.around fun _ => mem_visible_functionBody))
  | .declare value _ _ _ declared _, stands =>
    (stands.stays (((value.grows stands.sound).trans (.converting _ _ _)).trans
      (.declaring _ _ _)).weaken).declare (by simp) declared
  | .declareInferred value _ _ _ declared _, stands =>
    (stands.stays ((value.grows stands.sound).trans (.declaring _ _ _)).weaken).declare
      (by simp) declared
  | .assign _ _ value _, stands =>
    stands.stays ((value.grows stands.sound).trans (.converting _ _ _)).weaken
  | .step _ _, stands => stands.stays (.refl _)
  | .branch condition _ consequent alternative, stands => by
    have first : Grows (fixable region.scopes region.ahead) _ _ :=
      (condition.grows stands.sound).weaken
    have second := first.trans
      ((consequent.grows (stands.grow first).block).mono fun _ _ => fixable_of_owner rfl)
    exact stands.stays (second.trans
      ((alternative.grows (stands.grow second).block).mono fun _ _ => fixable_of_owner rfl))
  | .loop condition _ body, stands => by
    have first : Grows (fixable region.scopes region.ahead) _ _ :=
      (condition.grows stands.sound).weaken
    exact stands.stays (first.trans
      ((body.grows (stands.grow first).loop).mono fun _ _ => fixable_of_owner rfl))
  | .breakLoop _, stands => stands.stays (.refl _)
  | .returnVoid owner, stands => by
    have bound := stands.sound.numbered _ (mem_visible_of_owner owner)
    exact stands.stays (.finishing bound fun inferred => ⟨_, .inl owner, inferred, rfl⟩)
  | .returnFirst owner value pending, stands => by
    have inside : Grows (fixable region.scopes region.ahead) _ _ :=
      (value.grows stands.sound).weaken
    have bound := (stands.grow inside).sound.numbered _ (mem_visible_of_owner owner)
    have inferred := (Bool.and_eq_true_iff.mp pending).1
    exact stands.stays (inside.trans (.fixing bound pending ⟨_, .inl owner, inferred, rfl⟩))
  | .returnAgain owner value _ _ _, stands =>
    stands.stays ((value.grows stands.sound).trans (.converting _ _ _)).weaken
  | .exscribe value, stands => stands.stays (value.grows stands.sound).weaken
  | .evaluate analyzes, stands => stands.stays (analyzes.grows stands.sound).weaken
  | .printed analyzes, stands => stands.stays (analyzes.grows stands.sound).weaken
  | .block body, stands =>
    stands.stays ((body.grows stands.block).mono fun _ _ => fixable_of_owner rfl)

theorem AnalyzesStmts.grows {region : Region} {written : List Surface.Stmt}
    {before after : State} {result : List Stmt} :
    AnalyzesStmts region written before result after → Stands region before →
      Grows (fixable region.scopes region.ahead) before after
  | .nil, _ => .refl _
  | .cons first rest, stands => by
    have head := first.advances stands
    have tail := rest.grows head.stands
    refine head.grows.trans (tail.mono ?_)
    rintro id - ⟨function, owner | member, inferred, same⟩
    · exact ⟨function, .inl (head.owner ▸ owner), inferred, same⟩
    · exact ⟨function, .inr (head.ahead function member), inferred, same⟩

theorem AnalyzesBody.grows {scopes : Scopes} {written : List Surface.Stmt}
    {before after : State} {result : List Stmt} :
    AnalyzesBody scopes written before result after → Sound before (visible scopes) →
      Grows (fixable scopes []) before after
  | .body opens body, sound => opens.grows (body.grows (sound.opens opens))

end

end Analysis

end GlyphCompiler
