/-
# Analysis with a past

An analyzer that has read programs before remembers them. It hands out higher numbers,
and what it has noted of earlier functions and variables stays beside what it notes now.
Step by step, its analysis of a program follows that of a new analyzer: the results are
the same under higher numbers, and so are the failures.
-/

import GlyphCompiler.Proofs.Analysis.Bounded
import GlyphCompiler.Proofs.Analysis.Renumbering

namespace GlyphCompiler

namespace Analysis

/-- What an analyzer remembers when it begins to read a program. All uses that it has put
off are allowed. What it notes of a `main` may be something else than is noted now. -/
structure Past where
  known : State
  bounded : known.Bounded
  allows : ∀ use ∈ known.deferred, known.Allows use
  main : Bool → Bool

namespace Past

section

variable (past : Past)

/-- The number that is handed out in place of another. -/
def number (id : Nat) : Nat := past.known.nextId + id

/-- What is remembered in all, if a new analyzer would remember a state. -/
def around (state : State) : State where
  mainSeen := past.main state.mainSeen
  nextId := past.number state.nextId
  results := state.results.map (fun entry => (past.number entry.1, entry.2)) ++ past.known.results
  constants :=
    state.constants.map (fun entry => (past.number entry.1, entry.2.renumber past.number)) ++
      past.known.constants
  deferred := state.deferred.map (Deferred.renumber past.number) ++ past.known.deferred

/-- What a step comes to, with a past. -/
def outcome {α β : Type} (change : α → β) :
    EStateM.Result Failure State α → EStateM.Result Failure State β
  | .ok result state => .ok (change result) (past.around state)
  | .error failure state => .error failure (past.around state)

/-- A step with a past follows a step without one. -/
def Follows {α β : Type} (change : α → β) (step : Analyzer α) (moved : Analyzer β) : Prop :=
  ∀ state, moved.run (past.around state) = past.outcome change (step.run state)

theorem number_injective : Function.Injective past.number := fun _ _ => Nat.add_left_cancel

/-- Earlier results are not those of functions that are met now. -/
theorem lookup_results (state : State) (id : Nat) :
    (past.around state).results.lookup (past.number id) = state.results.lookup id := by
  have earlier : past.known.results.lookup (past.number id) = none :=
    past.bounded.results _ (Nat.le_add_right _ _)
  rw [around, List.lookup_append, earlier, Option.or_none, lookup_renumber _ past.number_injective]

@[simp]
theorem isPending_around (state : State) (function : Function) :
    (past.around state).isPending (function.renumber past.number) = state.isPending function := by
  simp only [State.isPending, Function.renumber, lookup_results]

@[simp]
theorem current_around (state : State) (function : Function) :
    (past.around state).current (function.renumber past.number) =
      (state.current function).renumber past.number := by
  simp only [State.current, Function.renumber, lookup_results]

/-- Earlier functions get no other results than they had. -/
theorem current_earlier (state : State) {function : Function}
    (earlier : function.id < past.known.nextId) :
    (past.around state).current function = past.known.current function := by
  have later : (state.results.map fun entry => (past.number entry.1, entry.2)).lookup function.id =
      none := by
    rw [List.lookup_eq_none_iff]
    rintro entry member
    obtain ⟨original, -, rfl⟩ := List.mem_map.mp member
    simp only [number, bne_iff_ne, ne_eq]
    omega
  rw [State.current, State.current, around, List.lookup_append, later, Option.none_or]

theorem extentOfVariable_earlier {constants : List (Nat × Expr)} {target : Variable}
    (earlier : ∀ entry ∈ constants, entry.1 ≠ target.id) (path : List Nat) :
    extentOfVariable constants target path = .ok none := by
  induction constants with
  | nil => rfl
  | cons entry constants ih =>
    obtain ⟨differs, rest⟩ := List.forall_mem_cons.mp earlier
    rw [extentOfVariable, if_neg differs, ih rest]

theorem extentOfVariable_around (constants : List (Nat × Expr)) (target : Variable)
    (path : List Nat) :
    extentOfVariable
        (constants.map (fun entry => (past.number entry.1, entry.2.renumber past.number)) ++
          past.known.constants) (target.renumber past.number) path =
      extentOfVariable constants target path := by
  induction constants generalizing target path with
  | nil =>
    refine extentOfVariable_earlier (fun entry member same => ?_) path
    have bound := past.bounded.constants entry member
    rw [same] at bound
    exact absurd bound (Nat.not_lt.mpr (Nat.le_add_right _ _))
  | cons entry constants ih =>
    rw [List.map_cons, List.cons_append, extentOfVariable, extentOfVariable]
    have same : past.number entry.1 = (target.renumber past.number).id ↔ entry.1 = target.id :=
      past.number_injective.eq_iff
    simp only [same, ih, extentBelow_renumber ih]

theorem extent_around (state : State) (array : Expr) :
    extent (past.around state).constants (array.renumber past.number) =
      extent state.constants array :=
  extentBelow_renumber (past.extentOfVariable_around state.constants) array []

end

/-! ## Steps -/

section

variable {past : Past} {α β γ δ : Type} {change : α → β} {next : γ → δ} {step : Analyzer α}
  {moved : Analyzer β}

namespace Follows

theorem pure {value : α} {other : β} (same : other = change value) :
    past.Follows change (Pure.pure value) (Pure.pure other) := by
  intro state
  subst same
  rfl

theorem bind {rest : α → Analyzer γ} {restMoved : β → Analyzer δ}
    (first : past.Follows change step moved)
    (second : ∀ value, past.Follows next (rest value) (restMoved (change value))) :
    past.Follows next (step >>= rest) (moved >>= restMoved) := by
  intro state
  have ran := first state
  unfold EStateM.run at ran ⊢
  simp only [Bind.bind, EStateM.bind, ran]
  cases step state with
  | ok value after => exact second value after
  | error failure after => rfl

theorem throw (failure : Failure) : past.Follows change (throw failure) (throw failure) :=
  fun _ => rfl

theorem reject (cause : Cause) (position : Position) :
    past.Follows change (reject cause position) (reject cause position) :=
  fun _ => rfl

/-- Nothing is done after a failure. -/
theorem throwing {failure : Failure} {rest : γ → Analyzer α} {restMoved : γ → Analyzer β} :
    past.Follows change (do rest (← MonadExcept.throw failure))
      (do restMoved (← MonadExcept.throw failure)) :=
  fun _ => rfl

theorem rejecting {cause : Cause} {position : Position} {rest : γ → Analyzer α}
    {restMoved : γ → Analyzer β} :
    past.Follows change (do rest (← Analysis.reject cause position))
      (do restMoved (← Analysis.reject cause position)) :=
  fun _ => rfl

theorem ite {condition : Prop} [Decidable condition] {other : Analyzer α} {otherMoved : Analyzer β}
    (first : past.Follows change step moved) (second : past.Follows change other otherMoved) :
    past.Follows change (if condition then step else other)
      (if condition then moved else otherMoved) := by
  split
  · exact first
  · exact second

theorem lift (outcome : Except Failure α) : past.Follows id (lift outcome) (lift outcome) := by
  cases outcome <;> exact fun _ => rfl

theorem orFault (outcome : Except Fault α) :
    past.Follows id (orFault outcome) (orFault outcome) := by
  cases outcome <;> exact fun _ => rfl

theorem orReject (outcome : Except Diagnostic α) :
    past.Follows id (orReject outcome) (orReject outcome) := by
  cases outcome <;> exact fun _ => rfl

theorem orReject_map (outcome : Except Diagnostic α) :
    past.Follows change (Analysis.orReject outcome) (Analysis.orReject (outcome.map change)) := by
  cases outcome <;> exact fun _ => rfl

theorem get : past.Follows past.around get get := fun _ => rfl

/-- A check of each of some members, one after another. -/
theorem forIn {members : List α} {check : α → Analyzer (ForInStep PUnit)}
    {checkMoved : β → Analyzer (ForInStep PUnit)}
    (each : ∀ member, past.Follows id (check member) (checkMoved (change member))) :
    past.Follows id (forIn members PUnit.unit fun member _ => check member)
      (forIn (members.map change) PUnit.unit fun member _ => checkMoved member) := by
  induction members with
  | nil => exact .pure rfl
  | cons member members ih =>
    simp only [List.map_cons, List.forIn_cons]
    refine (each member).bind fun outcome => ?_
    cases outcome with
    | done value => exact .pure rfl
    | yield value => exact ih

theorem freshId : past.Follows past.number freshId freshId := fun _ => rfl

theorem fixResult (function : Function) (type : Ty) :
    past.Follows id (fixResult function type) (fixResult (function.renumber past.number) type) :=
  fun _ => rfl

theorem defer (position : Position) (function : Function) (target : Option Ty) :
    past.Follows id (defer position function target)
      (defer position (function.renumber past.number) target) :=
  fun _ => rfl

theorem isPending (function : Function) :
    past.Follows id (isPending function) (isPending (function.renumber past.number)) := by
  refine Follows.get.bind fun state => .pure ?_
  exact past.isPending_around state function

theorem current (function : Function) :
    past.Follows (Function.renumber past.number) (current function)
      (current (function.renumber past.number)) := by
  refine Follows.get.bind fun state => .pure ?_
  exact past.current_around state function

end Follows

end

end Past

end Analysis

end GlyphCompiler
