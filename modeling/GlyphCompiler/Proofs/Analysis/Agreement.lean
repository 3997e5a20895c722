/-
# Analyses that agree

Two analyses agree if they know the same of the variables and functions that are
matched. A step of one of them simulates a step of the other if, from states that agree,
both fail, or both come to results that match: what is new is matched as well, and what
one of them puts off the other one puts off too. Two steps that leave what was there as
it was can be done in either order.
-/

import GlyphCompiler.Proofs.Analysis.Bounded
import GlyphCompiler.Proofs.Analysis.Keeping
import GlyphCompiler.Proofs.Program.Matching

namespace GlyphCompiler

namespace Analysis

variable {narrow matching wide : Matching}

/-- Two uses that were put off match. -/
structure Deferred.Alike (matching : Matching) (use other : Deferred) : Prop where
  function : use.function.Alike matching other.function
  target : use.target = other.target

theorem Deferred.Alike.mono {use other : Deferred} (alike : use.Alike matching other)
    (within : matching ≤ wide) : use.Alike wide other :=
  ⟨alike.function.mono within, alike.target⟩

/-! ## States that agree -/

/-- Two analyses know the same of what is matched. -/
structure Agree (matching : Matching) (state other : State) : Prop where
  oneToOne : matching.OneToOne
  bound : ∀ {id otherId}, matching id otherId → id < state.nextId ∧ otherId < other.nextId
  results : ∀ {id otherId}, matching id otherId →
    state.results.lookup id = other.results.lookup otherId
  extents : ∀ {target otherTarget : Variable}, matching target.id otherTarget.id →
    ∀ path, extentOfVariable state.constants target path =
      extentOfVariable other.constants otherTarget path
  mainSeen : state.mainSeen = other.mainSeen
  bounded : state.Bounded
  otherBounded : other.Bounded

/-- A state in which what was known before is kept. -/
structure Undisturbed (before after : State) : Prop where
  keeps : Keeps (fun _ => False) before after
  mainSeen : after.mainSeen = before.mainSeen

/-- Nothing is known of the extent of a variable that has not been numbered yet. -/
theorem extentOfVariable_new {state : State} {target : Variable} (bounded : state.Bounded)
    (new : state.nextId ≤ target.id) (path : List Nat) :
    extentOfVariable state.constants target path = .ok none := by
  rw [← List.append_nil state.constants]
  refine extentOfVariable_append (fun entry member same => ?_) path
  have bound := bounded.constants entry member
  omega

namespace Undisturbed

variable {before after : State}

theorem results (undisturbed : Undisturbed before after) {id : Nat} (bound : id < before.nextId) :
    after.results.lookup id = before.results.lookup id :=
  undisturbed.keeps.results id bound not_false

theorem extents (undisturbed : Undisturbed before after) {target : Variable}
    (bound : target.id < before.nextId) (path : List Nat) :
    extentOfVariable after.constants target path =
      extentOfVariable before.constants target path := by
  obtain ⟨later, isAfter, -, new⟩ := undisturbed.keeps.constants
  rw [isAfter]
  refine extentOfVariable_append (fun entry member same => ?_) path
  have above := (new entry member).1
  omega

end Undisturbed

namespace Agree

variable {state other after : State}

/-- An analysis may go on with something else, as long as what is known is kept. -/
theorem left (agree : Agree matching state other) (undisturbed : Undisturbed state after)
    (bounded : after.Bounded) : Agree matching after other where
  oneToOne := agree.oneToOne
  bound matched :=
    ⟨(agree.bound matched).1.trans_le undisturbed.keeps.nextId, (agree.bound matched).2⟩
  results matched := by
    rw [undisturbed.results (agree.bound matched).1, agree.results matched]
  extents matched path := by
    rw [undisturbed.extents (agree.bound matched).1, agree.extents matched]
  mainSeen := undisturbed.mainSeen.trans agree.mainSeen
  bounded := bounded
  otherBounded := agree.otherBounded

theorem right (agree : Agree matching state other) (undisturbed : Undisturbed other after)
    (bounded : after.Bounded) : Agree matching state after where
  oneToOne := agree.oneToOne
  bound matched :=
    ⟨(agree.bound matched).1, (agree.bound matched).2.trans_le undisturbed.keeps.nextId⟩
  results matched := by
    rw [undisturbed.results (agree.bound matched).2, agree.results matched]
  extents matched path := by
    rw [undisturbed.extents (agree.bound matched).2, agree.extents matched]
  mainSeen := agree.mainSeen.trans undisturbed.mainSeen.symm
  bounded := agree.bounded
  otherBounded := bounded

theorem isPending (agree : Agree matching state other) {function otherFunction : Function}
    (alike : function.Alike matching otherFunction) :
    state.isPending function = other.isPending otherFunction := by
  rw [State.isPending, State.isPending, alike.inferred, agree.results alike.id]

theorem current (agree : Agree matching state other) {function otherFunction : Function}
    (alike : function.Alike matching otherFunction) :
    (state.current function).Alike matching (other.current otherFunction) :=
  { alike with
    result := by
      rw [State.current, State.current, agree.results alike.id, alike.result] }

theorem extent {first second : Position} (agree : Agree matching state other)
    {array otherArray : Expr} (alike : array.Alike first second matching otherArray) :
    extent state.constants array = extent other.constants otherArray :=
  extentBelow_alike agree.extents alike []

end Agree

/-! ## Steps that correspond -/

/-- From two states on, new things are matched only with new things, and what one analysis
puts off the other one puts off as well. -/
structure Advance (narrow wide : Matching) (before other after otherAfter : State) : Prop where
  within : narrow ≤ wide
  new : ∀ {id otherId}, wide id otherId →
    narrow id otherId ∨ before.nextId ≤ id ∧ other.nextId ≤ otherId
  nextId : before.nextId ≤ after.nextId
  otherNextId : other.nextId ≤ otherAfter.nextId
  kept : ∀ use ∈ before.deferred, use ∈ after.deferred
  otherKept : ∀ use ∈ other.deferred, use ∈ otherAfter.deferred
  deferred : ∀ use ∈ after.deferred, use ∈ before.deferred ∨
    ∃ counterpart ∈ otherAfter.deferred, use.Alike wide counterpart
  otherDeferred : ∀ use ∈ otherAfter.deferred, use ∈ other.deferred ∨
    ∃ counterpart ∈ after.deferred, counterpart.Alike wide use

namespace Advance

variable {before middle after other otherMiddle otherAfter : State}

theorem refl (before other : State) : Advance matching matching before other before other where
  within := le_rfl
  new := .inl
  nextId := le_rfl
  otherNextId := le_rfl
  kept _ := id
  otherKept _ := id
  deferred _ := .inl
  otherDeferred _ := .inl

/-- A step that puts nothing off. -/
theorem of_deferred (within : narrow ≤ wide)
    (new : ∀ {id otherId}, wide id otherId →
      narrow id otherId ∨ before.nextId ≤ id ∧ other.nextId ≤ otherId)
    (nextId : before.nextId ≤ after.nextId) (otherNextId : other.nextId ≤ otherAfter.nextId)
    (same : after.deferred = before.deferred) (otherSame : otherAfter.deferred = other.deferred) :
    Advance narrow wide before other after otherAfter where
  within := within
  new := new
  nextId := nextId
  otherNextId := otherNextId
  kept _ member := same ▸ member
  otherKept _ member := otherSame ▸ member
  deferred _ member := .inl (same ▸ member)
  otherDeferred _ member := .inl (otherSame ▸ member)

theorem trans (first : Advance narrow matching before other middle otherMiddle)
    (second : Advance matching wide middle otherMiddle after otherAfter) :
    Advance narrow wide before other after otherAfter where
  within := first.within.trans second.within
  new matched := by
    obtain early | ⟨late, otherLate⟩ := second.new matched
    · exact first.new early
    · exact .inr ⟨first.nextId.trans late, first.otherNextId.trans otherLate⟩
  nextId := first.nextId.trans second.nextId
  otherNextId := first.otherNextId.trans second.otherNextId
  kept use member := second.kept use (first.kept use member)
  otherKept use member := second.otherKept use (first.otherKept use member)
  deferred use member := by
    obtain early | late := second.deferred use member
    · obtain here | ⟨counterpart, found, alike⟩ := first.deferred use early
      · exact .inl here
      · exact .inr ⟨counterpart, second.otherKept _ found, alike.mono second.within⟩
    · exact .inr late
  otherDeferred use member := by
    obtain early | late := second.otherDeferred use member
    · obtain here | ⟨counterpart, found, alike⟩ := first.otherDeferred use early
      · exact .inl here
      · exact .inr ⟨counterpart, second.kept _ found, alike.mono second.within⟩
    · exact .inr late

end Advance

/-- What two steps come to corresponds: both fail, or both come to results that match. -/
inductive Corresponds {α β : Type} (matching : Matching) (alike : Matching → α → β → Prop)
    (before other : State) :
    EStateM.Result Failure State α → EStateM.Result Failure State β → Prop
  | ok {wide : Matching} {result : α} {otherResult : β} {after otherAfter : State}
      (advance : Advance matching wide before other after otherAfter)
      (agree : Agree wide after otherAfter) (results : alike wide result otherResult) :
    Corresponds matching alike before other (.ok result after) (.ok otherResult otherAfter)
  | error {failure otherFailure : Failure} {after otherAfter : State} :
    Corresponds matching alike before other (.error failure after) (.error otherFailure otherAfter)

/-- What two computations without state come to matches. -/
inductive Settles {α β ε : Type} (alike : α → β → Prop) : Except ε α → Except ε β → Prop
  | ok {value : α} {otherValue : β} (same : alike value otherValue) :
    Settles alike (.ok value) (.ok otherValue)
  | error {cause otherCause : ε} : Settles alike (.error cause) (.error otherCause)

theorem Settles.bind {α β γ δ ε : Type} {alike : α → β → Prop} {next : γ → δ → Prop}
    {outcome : Except ε α} {other : Except ε β} {rest : α → Except ε γ} {otherRest : β → Except ε δ}
    (first : Settles alike outcome other)
    (second : ∀ {value otherValue}, alike value otherValue →
      Settles next (rest value) (otherRest otherValue)) :
    Settles next (outcome >>= rest) (other >>= otherRest) := by
  cases first with
  | ok same => exact second same
  | error => exact .error

/-- From states that agree, one step does what another one does. -/
def Simulates {α β : Type} (matching : Matching) (alike : Matching → α → β → Prop)
    (step : Analyzer α) (other : Analyzer β) : Prop :=
  ∀ before otherBefore, Agree matching before otherBefore →
    Corresponds matching alike before otherBefore (step.run before) (other.run otherBefore)

namespace Simulates

variable {α β γ δ : Type} {alike : Matching → α → β → Prop} {next : Matching → γ → δ → Prop}
  {step : Analyzer α} {other : Analyzer β}

theorem pure {value : α} {otherValue : β} (same : alike matching value otherValue) :
    Simulates matching alike (Pure.pure value) (Pure.pure otherValue) :=
  fun before other agree => .ok (.refl before other) agree same

theorem bind {rest : α → Analyzer γ} {otherRest : β → Analyzer δ}
    (first : Simulates matching alike step other)
    (second : ∀ wide, matching ≤ wide → ∀ value otherValue, alike wide value otherValue →
      Simulates wide next (rest value) (otherRest otherValue)) :
    Simulates matching next (step >>= rest) (other >>= otherRest) := by
  intro before otherBefore agree
  have ran := first before otherBefore agree
  unfold EStateM.run at ran ⊢
  simp only [Bind.bind, EStateM.bind]
  generalize step before = outcome at ran ⊢
  generalize other otherBefore = otherOutcome at ran ⊢
  cases ran with
  | error => exact .error
  | ok advance middle results =>
    have rested := second _ advance.within _ _ results _ _ middle
    unfold EStateM.run at rested
    dsimp only
    generalize rest _ _ = outcome at rested ⊢
    generalize otherRest _ _ = otherOutcome at rested ⊢
    cases rested with
    | error => exact .error
    | ok later after results => exact .ok (advance.trans later) after results

/-- A step that comes to the same in both analyses comes first. -/
theorem bindSame {step other : Analyzer α} {rest : α → Analyzer γ} {otherRest : α → Analyzer δ}
    (first : Simulates matching (fun _ => Eq) step other)
    (second : ∀ wide, matching ≤ wide → ∀ value,
      Simulates wide next (rest value) (otherRest value)) :
    Simulates matching next (step >>= rest) (other >>= otherRest) :=
  first.bind fun wide within value _ same => same ▸ second wide within value

/-- Results that match in one way may match in another one too. -/
theorem imp {alike' : Matching → α → β → Prop} (simulates : Simulates matching alike step other)
    (implies : ∀ {wide value otherValue}, matching ≤ wide → alike wide value otherValue →
      alike' wide value otherValue) : Simulates matching alike' step other := by
  intro before otherBefore agree
  have ran := simulates before otherBefore agree
  generalize step.run before = outcome at ran ⊢
  generalize other.run otherBefore = otherOutcome at ran ⊢
  cases ran with
  | ok advance agree results => exact .ok advance agree (implies advance.within results)
  | error => exact .error

/-- Both steps fail. -/
theorem throw (failure otherFailure : Failure) :
    Simulates matching alike (MonadExcept.throw failure) (MonadExcept.throw otherFailure) :=
  fun _ _ _ => .error

theorem reject (cause otherCause : Cause) (position otherPosition : Position) :
    Simulates matching alike (Analysis.reject cause position)
      (Analysis.reject otherCause otherPosition) :=
  fun _ _ _ => .error

/-- Nothing is done after a failure. -/
theorem throwing {failure otherFailure : Failure} {rest : γ → Analyzer α}
    {otherRest : γ → Analyzer β} :
    Simulates matching alike (do rest (← MonadExcept.throw failure))
      (do otherRest (← MonadExcept.throw otherFailure)) :=
  fun _ _ _ => .error

theorem rejecting {cause otherCause : Cause} {position otherPosition : Position}
    {rest : γ → Analyzer α} {otherRest : γ → Analyzer β} :
    Simulates matching alike (do rest (← Analysis.reject cause position))
      (do otherRest (← Analysis.reject otherCause otherPosition)) :=
  fun _ _ _ => .error

theorem ite {condition : Prop} [Decidable condition] {step otherwise : Analyzer α}
    {other otherOtherwise : Analyzer β} (first : Simulates matching alike step other)
    (second : Simulates matching alike otherwise otherOtherwise) :
    Simulates matching alike (if condition then step else otherwise)
      (if condition then other else otherOtherwise) := by
  split
  · exact first
  · exact second

theorem orFault (outcome : Except Fault α) :
    Simulates matching (fun _ => Eq) (Analysis.orFault outcome) (Analysis.orFault outcome) := by
  cases outcome with
  | ok value => exact .pure rfl
  | error fault => exact .throw _ _

theorem orReject (outcome : Except Diagnostic α) :
    Simulates matching (fun _ => Eq) (Analysis.orReject outcome) (Analysis.orReject outcome) := by
  cases outcome with
  | ok value => exact .pure rfl
  | error fault => exact .throw _ _

theorem get : Simulates matching Agree get get :=
  fun before other agree => .ok (.refl before other) agree agree

theorem isPending {function otherFunction : Function}
    (functions : function.Alike matching otherFunction) :
    Simulates matching (fun _ => Eq) (Analysis.isPending function)
      (Analysis.isPending otherFunction) :=
  Simulates.get.bind fun _ within _ _ agree => .pure (agree.isPending (functions.mono within))

theorem current {function otherFunction : Function}
    (functions : function.Alike matching otherFunction) :
    Simulates matching Function.Alike (Analysis.current function)
      (Analysis.current otherFunction) :=
  Simulates.get.bind fun _ within _ _ agree => .pure (agree.current (functions.mono within))

theorem fixResult {function otherFunction : Function} (type : Ty)
    (functions : function.Alike matching otherFunction) :
    Simulates matching (fun _ => Eq) (Analysis.fixResult function type)
      (Analysis.fixResult otherFunction type) := by
  intro before other agree
  obtain ⟨bound, otherBound⟩ := agree.bound functions.id
  refine .ok (.of_deferred le_rfl .inl le_rfl le_rfl rfl rfl) ?_ rfl
  exact
    { agree with
      results := fun {id otherId} matched => by
        have same : (id == function.id) = (otherId == otherFunction.id) := by
          rw [Bool.eq_iff_iff, beq_iff_eq, beq_iff_eq]
          constructor
          · rintro rfl
            exact agree.oneToOne.right matched functions.id
          · rintro rfl
            exact agree.oneToOne.left matched functions.id
        rw [List.lookup_cons, List.lookup_cons, same, agree.results matched]
      bounded := agree.bounded.fixing type bound
      otherBounded := agree.otherBounded.fixing type otherBound }

theorem defer {position otherPosition : Position} {function otherFunction : Function}
    (target : Option Ty) (functions : function.Alike matching otherFunction) :
    Simulates matching (fun _ => Eq) (Analysis.defer position function target)
      (Analysis.defer otherPosition otherFunction target) := by
  intro before other agree
  obtain ⟨bound, otherBound⟩ := agree.bound functions.id
  have alike : Deferred.Alike matching ⟨position, function, target⟩
      ⟨otherPosition, otherFunction, target⟩ := ⟨functions, rfl⟩
  refine .ok
    { Advance.refl before other with
      kept := fun _ => List.mem_cons_of_mem _
      otherKept := fun _ => List.mem_cons_of_mem _
      deferred := fun use member => ?_
      otherDeferred := fun use member => ?_ }
    { agree with
      bounded := agree.bounded.deferring bound
      otherBounded := agree.otherBounded.deferring otherBound } rfl
  · obtain rfl | early := List.mem_cons.mp member
    · exact .inr ⟨_, List.mem_cons_self, alike⟩
    · exact .inl early
  · obtain rfl | early := List.mem_cons.mp member
    · exact .inr ⟨_, List.mem_cons_self, alike⟩
    · exact .inl early

/-- A matching with one more pair. -/
def withPair (matching : Matching) (id otherId : Nat) : Matching :=
  fun left right => matching left right ∨ left = id ∧ right = otherId

theorem freshId : Simulates matching (fun wide => wide) Analysis.freshId Analysis.freshId := by
  intro before other agree
  have pastLeft {id otherId : Nat} (matched : matching id otherId) : id ≠ before.nextId :=
    (agree.bound matched).1.ne
  have pastRight {id otherId : Nat} (matched : matching id otherId) : otherId ≠ other.nextId :=
    (agree.bound matched).2.ne
  refine @Corresponds.ok _ _ _ _ _ _ (withPair matching before.nextId other.nextId) _ _ _ _
    (.of_deferred (fun _ _ => .inl) ?_ (Nat.le_succ _) (Nat.le_succ _) rfl rfl) ?_ (.inr ⟨rfl, rfl⟩)
  · rintro id otherId (matched | ⟨rfl, rfl⟩)
    · exact .inl matched
    · exact .inr ⟨le_rfl, le_rfl⟩
  · refine ⟨⟨?_, ?_⟩, ?_, ?_, ?_, agree.mainSeen, agree.bounded.numbering 1,
      agree.otherBounded.numbering 1⟩
    · rintro id otherId another (matched | ⟨rfl, rfl⟩) (also | ⟨same, rfl⟩)
      · exact agree.oneToOne.right matched also
      · exact absurd same (pastLeft matched)
      · exact absurd rfl (pastLeft also)
      · rfl
    · rintro id another otherId (matched | ⟨rfl, rfl⟩) (also | ⟨rfl, same⟩)
      · exact agree.oneToOne.left matched also
      · exact absurd same (pastRight matched)
      · exact absurd rfl (pastRight also)
      · rfl
    · rintro id otherId (matched | ⟨rfl, rfl⟩)
      · exact ⟨(agree.bound matched).1.trans (Nat.lt_succ_self _),
          (agree.bound matched).2.trans (Nat.lt_succ_self _)⟩
      · exact ⟨Nat.lt_succ_self _, Nat.lt_succ_self _⟩
    · rintro id otherId (matched | ⟨rfl, rfl⟩)
      · exact agree.results matched
      · exact (agree.bounded.results _ le_rfl).trans (agree.otherBounded.results _ le_rfl).symm
    · rintro target otherTarget (matched | ⟨isNew, isOtherNew⟩) path
      · exact agree.extents matched path
      · have unknown := extentOfVariable_new agree.bounded isNew.ge path
        exact unknown.trans (extentOfVariable_new agree.otherBounded isOtherNew.ge path).symm

/-- Note that there is a `main`. -/
theorem beginning :
    Simulates matching (fun _ => Eq) (modify fun state => { state with mainSeen := true })
      (modify fun state => { state with mainSeen := true }) := by
  intro before other agree
  refine .ok (.of_deferred le_rfl .inl le_rfl le_rfl rfl rfl) ?_ rfl
  exact
    { agree with
      mainSeen := rfl
      bounded := agree.bounded.beginning
      otherBounded := agree.otherBounded.beginning }

/-- Note the first values of two constants. -/
theorem remember {first second : Position} {id otherId : Nat} {value otherValue : Expr}
    (matched : matching id otherId) (values : value.Alike first second matching otherValue) :
    Simulates matching (fun _ => Eq)
      (modify fun state => { state with constants := (id, value) :: state.constants })
      (modify fun state => { state with constants := (otherId, otherValue) :: state.constants }) := by
  intro before other agree
  obtain ⟨bound, otherBound⟩ := agree.bound matched
  refine .ok (.of_deferred le_rfl .inl le_rfl le_rfl rfl rfl) ?_ rfl
  exact
    { agree with
      extents := fun {target otherTarget} targets path => by
        have same : id = target.id ↔ otherId = otherTarget.id := by
          constructor
          · rintro rfl
            exact agree.oneToOne.right matched targets
          · rintro rfl
            exact agree.oneToOne.left matched targets
        simp only [extentOfVariable, same, agree.extents targets,
          extentBelow_alike agree.extents values]
      bounded := { agree.bounded with
        constants := List.forall_mem_cons.mpr ⟨bound, agree.bounded.constants⟩ }
      otherBounded := { agree.otherBounded with
        constants := List.forall_mem_cons.mpr ⟨otherBound, agree.otherBounded.constants⟩ } }

theorem orReject_of_settles {outcome : Except Diagnostic α} {otherOutcome : Except Diagnostic β}
    (settles : Settles (alike matching) outcome otherOutcome) :
    Simulates matching alike (Analysis.orReject outcome) (Analysis.orReject otherOutcome) := by
  cases settles with
  | ok same => exact .pure same
  | error => exact .throw _ _

/-- A check of each of some members, one after another. -/
theorem forIn {members : List α} {others : List β} {same : α → β → Prop}
    {check : α → Analyzer (ForInStep PUnit)} {otherCheck : β → Analyzer (ForInStep PUnit)}
    (each : ∀ {wide : Matching} {member counterpart}, same member counterpart →
      Simulates wide (fun _ => Eq) (check member) (otherCheck counterpart))
    (related : List.Forall₂ same members others) :
    Simulates matching (fun _ => Eq) (ForIn.forIn members PUnit.unit fun member _ => check member)
      (ForIn.forIn others PUnit.unit fun member _ => otherCheck member) := by
  induction related generalizing matching with
  | nil => exact .pure rfl
  | cons here _ ih =>
    simp only [List.forIn_cons]
    refine (each here).bind fun wide _ outcome otherOutcome sameOutcome => ?_
    subst sameOutcome
    cases outcome with
    | done value => exact .pure rfl
    | yield value => exact ih

end Simulates

/-! ## Two steps in either order -/

section

variable {earlier later : Matching} {before middle after other otherMiddle otherAfter : State}

/-- What is matched while one analysis does one of two steps, and then the other one the
other step, and the other way round. -/
theorem Agree.union (agreeEarlier : Agree earlier middle otherAfter)
    (agreeLater : Agree later after otherMiddle)
    (advanceEarlier : Advance matching earlier before otherMiddle middle otherAfter)
    (advanceLater : Advance matching later middle other after otherMiddle)
    (left : Undisturbed middle after) (right : Undisturbed otherMiddle otherAfter) :
    Agree (earlier.union later) after otherAfter where
  oneToOne := by
    constructor
    · rintro id otherId another (inEarlier | inLater) (alsoEarlier | alsoLater)
      · exact agreeEarlier.oneToOne.right inEarlier alsoEarlier
      · obtain old | ⟨new, -⟩ := advanceLater.new alsoLater
        · exact agreeEarlier.oneToOne.right inEarlier (advanceEarlier.within _ _ old)
        · exact absurd (agreeEarlier.bound inEarlier).1 (Nat.not_lt.mpr new)
      · obtain old | ⟨new, -⟩ := advanceLater.new inLater
        · exact agreeEarlier.oneToOne.right (advanceEarlier.within _ _ old) alsoEarlier
        · exact absurd (agreeEarlier.bound alsoEarlier).1 (Nat.not_lt.mpr new)
      · exact agreeLater.oneToOne.right inLater alsoLater
    · rintro id another otherId (inEarlier | inLater) (alsoEarlier | alsoLater)
      · exact agreeEarlier.oneToOne.left inEarlier alsoEarlier
      · obtain old | ⟨-, new⟩ := advanceEarlier.new inEarlier
        · exact agreeLater.oneToOne.left (advanceLater.within _ _ old) alsoLater
        · exact absurd (agreeLater.bound alsoLater).2 (Nat.not_lt.mpr new)
      · obtain old | ⟨-, new⟩ := advanceEarlier.new alsoEarlier
        · exact agreeLater.oneToOne.left inLater (advanceLater.within _ _ old)
        · exact absurd (agreeLater.bound inLater).2 (Nat.not_lt.mpr new)
      · exact agreeLater.oneToOne.left inLater alsoLater
  bound := by
    rintro id otherId (inEarlier | inLater)
    · exact ⟨(agreeEarlier.bound inEarlier).1.trans_le left.keeps.nextId,
        (agreeEarlier.bound inEarlier).2⟩
    · exact ⟨(agreeLater.bound inLater).1,
        (agreeLater.bound inLater).2.trans_le right.keeps.nextId⟩
  results := by
    rintro id otherId (inEarlier | inLater)
    · rw [left.results (agreeEarlier.bound inEarlier).1, agreeEarlier.results inEarlier]
    · rw [right.results (agreeLater.bound inLater).2, agreeLater.results inLater]
  extents := by
    rintro target otherTarget (inEarlier | inLater) path
    · rw [left.extents (agreeEarlier.bound inEarlier).1, agreeEarlier.extents inEarlier]
    · rw [right.extents (agreeLater.bound inLater).2, agreeLater.extents inLater]
  mainSeen := left.mainSeen.trans agreeEarlier.mainSeen
  bounded := agreeLater.bounded
  otherBounded := agreeEarlier.otherBounded

theorem Advance.union (first : Advance matching earlier before otherMiddle middle otherAfter)
    (second : Advance matching later middle other after otherMiddle) :
    Advance matching (earlier.union later) before other after otherAfter where
  within := first.within.trans Matching.le_union_left
  new := by
    rintro id otherId (inEarlier | inLater)
    · exact (first.new inEarlier).imp_right fun new => ⟨new.1, second.otherNextId.trans new.2⟩
    · exact (second.new inLater).imp_right fun new => ⟨first.nextId.trans new.1, new.2⟩
  nextId := first.nextId.trans second.nextId
  otherNextId := second.otherNextId.trans first.otherNextId
  kept use member := second.kept use (first.kept use member)
  otherKept use member := first.otherKept use (second.otherKept use member)
  deferred use member := by
    obtain early | ⟨counterpart, found, alike⟩ := second.deferred use member
    · exact (first.deferred use early).imp_right fun ⟨counterpart, found, alike⟩ =>
        ⟨counterpart, found, alike.mono Matching.le_union_left⟩
    · exact .inr ⟨counterpart, first.otherKept _ found, alike.mono Matching.le_union_right⟩
  otherDeferred use member := by
    obtain early | ⟨counterpart, found, alike⟩ := first.otherDeferred use member
    · exact (second.otherDeferred use early).imp_right fun ⟨counterpart, found, alike⟩ =>
        ⟨counterpart, found, alike.mono Matching.le_union_right⟩
    · exact .inr ⟨counterpart, second.kept _ found, alike.mono Matching.le_union_left⟩

end

/-- A step that keeps what was known before. -/
def Leaves {α : Type} (step : Analyzer α) : Prop :=
  ∀ before result after, Yields step before result after → Undisturbed before after

/-- Two steps, one after the other. -/
def both {α β : Type} (first : Analyzer α) (second : Analyzer β) : Analyzer (α × β) := do
  let one ← first
  let another ← second
  return (one, another)

theorem run_both {α β : Type} (first : Analyzer α) (second : Analyzer β) (state : State) :
    (both first second).run state =
      match first.run state with
      | .error failure after => .error failure after
      | .ok one middle =>
        match second.run middle with
        | .error failure after => .error failure after
        | .ok another after => .ok (one, another) after := by
  unfold both EStateM.run
  simp only [Bind.bind, EStateM.bind]
  cases first state with
  | error failure after => rfl
  | ok one middle =>
    dsimp only
    cases second middle <;> rfl

theorem Corresponds.left_bounded {α β : Type} {alike : Matching → α → β → Prop}
    {before other after : State} {result : α} {outcome : EStateM.Result Failure State β}
    (corresponds : Corresponds matching alike before other (.ok result after) outcome) :
    after.Bounded := by
  cases corresponds with
  | ok _ agree _ => exact agree.bounded

theorem Corresponds.right_bounded {α β : Type} {alike : Matching → α → β → Prop}
    {before other otherAfter : State} {otherResult : β} {outcome : EStateM.Result Failure State α}
    (corresponds : Corresponds matching alike before other outcome (.ok otherResult otherAfter)) :
    otherAfter.Bounded := by
  cases corresponds with
  | ok _ agree _ => exact agree.otherBounded

namespace Simulates

variable {α α' β β' : Type} {earlier : Analyzer α} {later : Analyzer β}
  {otherEarlier : Analyzer α'} {otherLater : Analyzer β'} {alikeEarlier : Matching → α → α' → Prop}
  {alikeLater : Matching → β → β' → Prop}

/-- Two steps and the same steps in the other order, where none of them disturbs what the
others know: what is new on either side is matched by both pairs of steps together. -/
theorem exchange (earliers : Simulates matching alikeEarlier earlier otherEarlier)
    (laters : Simulates matching alikeLater later otherLater)
    (monoEarlier : ∀ {narrow wide : Matching} {result otherResult}, narrow ≤ wide →
      alikeEarlier narrow result otherResult → alikeEarlier wide result otherResult)
    (monoLater : ∀ {narrow wide : Matching} {result otherResult}, narrow ≤ wide →
      alikeLater narrow result otherResult → alikeLater wide result otherResult)
    (leavesEarlier : Leaves earlier) (leavesLater : Leaves later)
    (leavesOtherEarlier : Leaves otherEarlier) (leavesOtherLater : Leaves otherLater) :
    Simulates matching
      (fun wide results otherResults => alikeEarlier wide results.1 otherResults.2 ∧
        alikeLater wide results.2 otherResults.1)
      (both earlier later) (both otherLater otherEarlier) := by
  intro before other agree
  rw [run_both, run_both]
  have startEarlier := earliers before other agree
  have startLater := laters before other agree
  cases ranEarlier : earlier.run before with
  | error failure middle =>
    cases ranOther : otherLater.run other with
    | error failure otherMiddle => exact .error
    | ok otherLaterResult otherMiddle =>
      have undisturbed := leavesOtherLater _ _ _ ranOther
      have bounded : otherMiddle.Bounded := by
        rw [ranOther] at startLater
        exact startLater.right_bounded
      have ran := earliers before otherMiddle (agree.right undisturbed bounded)
      rw [ranEarlier] at ran
      dsimp only
      generalize otherEarlier.run otherMiddle = outcome at ran ⊢
      cases ran
      exact .error
  | ok result middle =>
    have undisturbed := leavesEarlier _ _ _ ranEarlier
    have bounded : middle.Bounded := by
      rw [ranEarlier] at startEarlier
      exact startEarlier.left_bounded
    have ran := laters middle other (agree.left undisturbed bounded)
    dsimp only
    cases ranLater : later.run middle with
    | error failure after =>
      rw [ranLater] at ran
      generalize otherLater.run other = outcome at ran ⊢
      cases ran
      exact .error
    | ok laterResult after =>
      cases ranOther : otherLater.run other with
      | error failure otherMiddle =>
        rw [ranLater, ranOther] at ran
        cases ran
      | ok otherLaterResult otherMiddle =>
        rw [ranLater, ranOther] at ran
        cases ran with
        | ok advanceLater agreeLater laterAlike =>
          have otherUndisturbed := leavesOtherLater _ _ _ ranOther
          have ran := earliers before otherMiddle
            (agree.right otherUndisturbed agreeLater.otherBounded)
          rw [ranEarlier] at ran
          cases ranLast : otherEarlier.run otherMiddle with
          | error failure otherAfter =>
            rw [ranLast] at ran
            cases ran
          | ok otherResult otherAfter =>
            rw [ranLast] at ran
            cases ran with
            | ok advanceEarlier agreeEarlier earlierAlike =>
              simp only [ranLast]
              refine .ok (advanceEarlier.union advanceLater)
                (agreeEarlier.union agreeLater advanceEarlier advanceLater
                  (leavesLater _ _ _ ranLater) (leavesOtherEarlier _ _ _ ranLast)) ?_
              exact ⟨monoEarlier Matching.le_union_left earlierAlike,
                monoLater Matching.le_union_right laterAlike⟩

end Simulates

end Analysis

end GlyphCompiler
