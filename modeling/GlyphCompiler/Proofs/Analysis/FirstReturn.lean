/-
# The first value that a body returns

The first `return` of an inferred function fixes its result. Until then nothing is known of
the result, and only the statements of its own body can change that. So the result of a
function that returns values is the type of the first of them, in the order of the text.
-/

import GlyphCompiler.Proofs.Analysis.Settled
import GlyphCompiler.Proofs.Program.Control

namespace GlyphCompiler

namespace Analysis

variable {final before middle after : State} {scopes : Scopes}

/-- What is known of the result of a function when some values have been returned from it:
it has the type of the first of them, and without any it is void, if it is known. -/
def ResultAfter (function : Function) (state : State) : List Expr → Prop
  | [] => ∀ type, state.results.lookup function.id = some type → type = .void
  | first :: _ => state.results.lookup function.id = some first.type

namespace ResultAfter

variable {owner : Function} {earlier : List Expr}

/-- Nothing more is known where no result of the function can be found. -/
theorem grow {may : Nat → Prop} (known : ResultAfter owner before earlier)
    (bound : owner.id < before.nextId) (grows : Grows may before after) (outside : ¬ may owner.id) :
    ResultAfter owner after earlier := by
  have same := grows.confined owner.id bound outside
  cases earlier with
  | nil => simpa [ResultAfter, same] using known
  | cons first rest => simpa [ResultAfter, same] using known

theorem keep (known : ResultAfter owner before earlier) (bound : owner.id < before.nextId)
    (grows : Grows (fun _ => False) before after) : ResultAfter owner after earlier :=
  known.grow bound grows id

/-- What is read without a `return` returns nothing. -/
theorem silent (known : ResultAfter owner before earlier) (bound : owner.id < before.nextId)
    (grows : Grows (fun _ => False) before after) : ResultAfter owner after (earlier ++ []) := by
  rw [List.append_nil]
  exact known.keep bound grows

/-- As long as the result of a function is to be found it has returned no value. -/
theorem eq_nil_of_pending (known : ResultAfter owner before earlier)
    (pending : before.isPending owner = true) : earlier = [] := by
  have unknown := Option.isNone_iff_eq_none.mp (Bool.and_eq_true_iff.mp pending).2
  cases earlier with
  | nil => rfl
  | cons first rest => cases unknown.symm.trans known

theorem returnVoid (known : ResultAfter owner before earlier) :
    ResultAfter owner (before.finishing owner) (earlier ++ []) := by
  rw [List.append_nil]
  unfold State.finishing
  split
  · next pending =>
    obtain rfl := known.eq_nil_of_pending pending
    intro type found
    rw [lookup_fixing_self] at found
    exact (Option.some.inj found).symm
  · exact known

theorem returnFirst (known : ResultAfter owner before earlier)
    (pending : before.isPending owner = true) (value : Expr) :
    ResultAfter owner (before.fixing owner value.type) (earlier ++ [value]) := by
  obtain rfl := known.eq_nil_of_pending pending
  exact lookup_fixing_self _ _ _

/-- A value that is returned again is not the first, since a function that is known to be
void returns none. -/
theorem returnAgain (known : ResultAfter owner before earlier) (inferred : owner.inferred = true)
    (settled : before.isPending owner = false) (hasResult : (before.current owner).result ≠ .void)
    (value : Expr) : ResultAfter owner before (earlier ++ [value]) := by
  cases earlier with
  | cons first rest => exact known
  | nil =>
    cases found : before.results.lookup owner.id with
    | none => simp [State.isPending, inferred, found] at settled
    | some type =>
      rw [current_of_lookup found] at hasResult
      exact absurd (known type found) hasResult

end ResultAfter

/-- Statements in the body of an inferred function, which is not itself among the functions
that are declared ahead of them. -/
structure Within (function : Function) (region : Region) : Prop where
  owner : region.scopes.innermost.owner = some function
  inferred : function.inferred = true
  apart : ∀ other ∈ region.ahead, other.id ≠ function.id

namespace Within

variable {owner : Function} {region : Region}

theorem bound (within : Within owner region) (stands : Stands region before) :
    owner.id < before.nextId :=
  stands.sound.numbered owner (mem_visible_of_owner within.owner)

theorem advances {next : Region} (within : Within owner region)
    (advances : Advances region before next after) : Within owner next where
  owner := advances.owner.trans within.owner
  inferred := within.inferred
  apart function member := within.apart function (advances.ahead function member)

/-- The functions that a list of statements declares are newer than the one around them. -/
theorem opens {written : List Surface.Stmt} (sound : Sound before (visible scopes))
    (isOwner : scopes.innermost.owner = some owner) (inferred : owner.inferred = true)
    (opens : Opens scopes written before region.scopes region.ahead middle) :
    Within owner region where
  owner := opens.owner.trans isOwner
  inferred := inferred
  apart function member := by
    have old := sound.numbered owner (mem_visible_of_owner isOwner)
    have new := (opens.id_mem member).1
    omega

end Within

/-- A function that is declared in a body finds no result for the function around it. -/
theorem ResultAfter.declared {owner function : Function} {inner : Scopes} {ahead : List Function}
    {earlier : List Expr} (known : ResultAfter owner before earlier)
    (within : Within owner ⟨scopes, function :: ahead⟩)
    (stands : Stands ⟨scopes, function :: ahead⟩ before)
    (isOwner : inner.innermost.owner = some function) (grows : Grows (fixable inner []) before after) :
    ResultAfter owner (after.finishing function) (earlier ++ []) := by
  rw [List.append_nil]
  have differ : function.id ≠ owner.id := within.apart function List.mem_cons_self
  -- All that its body and its end may find a result for is the function itself.
  have here := stands.sound.numbered function (stands.ahead function List.mem_cons_self)
  have finished : Grows (fun id => id = function.id) before (after.finishing function) := by
    refine (grows.mono ?_).trans (.finishing (here.trans_le grows.nextId) fun _ => rfl)
    rintro id - ⟨other, same | member, -, rfl⟩
    · rw [Option.some.inj (isOwner.symm.trans same)]
    · cases member
  exact known.grow (within.bound stands) finished fun same => differ same.symm

mutual

/-- A statement of a body adds what it returns to the values that were returned before. -/
theorem AnalyzesStmt.resultAfter {region next : Region} {written : Surface.Stmt}
    {before after : State} {statement : Stmt} {owner : Function} {around : Surroundings}
    {earlier : List Expr} :
    AnalyzesStmt region written before statement next after → Stands region before →
      Within owner region → (settleStmt final statement).Controlled around → around ≠ .program →
        ResultAfter owner before earlier → ResultAfter owner after (earlier ++ statement.returned)
  -- A `return` in a `main` would not count for the body around it, but there is no `main`.
  | .mainBlock _ _, _, _, controlled, below, _ | .mainStatement _ _ _, _, _, controlled, below, _ =>
    absurd controlled.1 below
  | .affix _, stands, within, _, _, known | .step _ _, stands, within, _, _, known
  | .breakLoop _, stands, within, _, _, known => known.silent (within.bound stands) (.refl _)
  | .function visible _ isOwner _ analyzes _, stands, within, _, _, known =>
    known.declared within stands isOwner (analyzes.grows (stands.around visible))
  | .conjureBinding analyzes _, stands, within, _, _, known =>
    known.declared within stands rfl
      (analyzes.grows (stands.around fun _ => mem_visible_functionBody))
  | .declare analyzes _ _ _ _ _, stands, within, _, _, known =>
    known.silent (within.bound stands)
      ((analyzes.grows stands.sound).trans ((Grows.converting _ _ _).trans (.declaring _ _ _)))
  | .declareInferred analyzes _ _ _ _ _, stands, within, _, _, known =>
    known.silent (within.bound stands) ((analyzes.grows stands.sound).trans (.declaring _ _ _))
  | .assign _ _ analyzes _, stands, within, _, _, known =>
    known.silent (within.bound stands) ((analyzes.grows stands.sound).trans (.converting _ _ _))
  | .branch analyzes _ analyzesConsequent analyzesAlternative, stands, within, controlled, _,
      known => by
    have first := analyzes.grows stands.sound
    have afterFirst := stands.grow first.weaken
    have second := analyzesConsequent.grows afterFirst.block
    have afterSecond := afterFirst.grow (second.mono fun _ _ => fixable_of_owner rfl)
    have start := known.keep (within.bound stands) first
    have middle := analyzesConsequent.resultAfter afterFirst.block within.owner within.inferred
      controlled.2.1 (Surroundings.block_ne_program _) start
    have last := analyzesAlternative.resultAfter afterSecond.block within.owner within.inferred
      controlled.2.2 (Surroundings.block_ne_program _) middle
    simpa [Stmt.returned] using last
  | .loop analyzes _ analyzesBody, stands, within, controlled, _, known => by
    have first := analyzes.grows stands.sound
    have start := known.keep (within.bound stands) first
    exact analyzesBody.resultAfter (stands.grow first.weaken).loop within.owner
      within.inferred controlled.2 nofun start
  | .returnVoid isOwner, _, within, _, _, known => by
    obtain rfl := Option.some.inj (isOwner.symm.trans within.owner)
    exact known.returnVoid
  | .returnFirst isOwner analyzes pending, stands, within, _, _, known => by
    obtain rfl := Option.some.inj (isOwner.symm.trans within.owner)
    have start := known.keep (within.bound stands) (analyzes.grows stands.sound)
    exact start.returnFirst pending _
  | .returnAgain isOwner analyzes settled hasResult _, stands, within, _, _, known => by
    obtain rfl := Option.some.inj (isOwner.symm.trans within.owner)
    have first := analyzes.grows stands.sound
    have start := known.keep (within.bound stands) first
    have bound := within.bound (stands.grow first.weaken)
    exact (start.returnAgain within.inferred settled hasResult _).keep bound (.converting _ _ _)
  | .exscribe analyzes, stands, within, _, _, known
  | .evaluate analyzes, stands, within, _, _, known
  | .printed analyzes, stands, within, _, _, known =>
    known.silent (within.bound stands) (analyzes.grows stands.sound)
  | .block analyzes, stands, within, controlled, _, known =>
    analyzes.resultAfter stands.block within.owner within.inferred controlled
      (Surroundings.block_ne_program _) known

theorem AnalyzesStmts.resultAfter {region : Region} {written : List Surface.Stmt}
    {before after : State} {body : List Stmt} {owner : Function} {around : Surroundings}
    {earlier : List Expr} :
    AnalyzesStmts region written before body after → Stands region before → Within owner region →
      bodyControlled (settleBody final body) around → around ≠ .program →
        ResultAfter owner before earlier → ResultAfter owner after (earlier ++ returned body)
  | .nil, _, _, _, _, known => by simpa [returned] using known
  | .cons first rest, stands, within, controlled, below, known => by
    have advances := first.advances stands
    have here := first.resultAfter stands within controlled.1 below known
    have there := rest.resultAfter advances.stands (within.advances advances) controlled.2 below here
    rwa [List.append_assoc] at there

theorem AnalyzesBody.resultAfter {scopes : Scopes} {written : List Surface.Stmt}
    {before after : State} {body : List Stmt} {owner : Function} {around : Surroundings}
    {earlier : List Expr} :
    AnalyzesBody scopes written before body after → Sound before (visible scopes) →
      scopes.innermost.owner = some owner → owner.inferred = true →
        bodyControlled (settleBody final body) around → around ≠ .program →
          ResultAfter owner before earlier → ResultAfter owner after (earlier ++ returned body)
  | .body opens analyzes, sound, isOwner, inferred, controlled, below, known => by
    have start := known.keep (sound.numbered owner (mem_visible_of_owner isOwner))
      (opens.after ▸ Grows.numbering _ _)
    exact analyzes.resultAfter (sound.opens opens) (.opens sound isOwner inferred opens) controlled
      below start

end

end Analysis

end GlyphCompiler
