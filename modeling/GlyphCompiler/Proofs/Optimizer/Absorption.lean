/-
# What absorbing steps keeps

Absorbing the steps of a list keeps its other statements, except that the numbers
of some declarations change. Which variables are foldable depends on the kept
statements only, and not on those numbers. So a list whose steps have been absorbed
has no more steps to absorb.
-/

import GlyphCompiler.Optimizer.Absorb
import Mathlib.Data.List.Forall2

namespace GlyphCompiler

namespace Optimizer

/-- Is a statement a step that a foldable variable takes in? -/
def isAbsorbed (foldable : List (Nat × Nat)) : Stmt → Bool
  | .step _ _ target => (foldable.lookup target.id).isSome
  | _ => false

/-- What is foldable after a statement has been kept at a place. -/
def foldableAfter (foldable : List (Nat × Nat)) (place : Nat) (statement : Stmt) :
    List (Nat × Nat) :=
  match Absorption.opened? statement with
  | some id => (id, place) :: (untouched foldable statement).filter fun entry => entry.1 != id
  | none => untouched foldable statement

/-- What is foldable after some statements have been kept from a place on. -/
def foldableAfterAll (foldable : List (Nat × Nat)) (place : Nat) : List Stmt → List (Nat × Nat)
  | [] => foldable
  | statement :: rest => foldableAfterAll (foldableAfter foldable place statement) (place + 1) rest

/-- No statement is absorbed when some statements are kept from a place on. -/
def NoneAbsorbed (foldable : List (Nat × Nat)) (place : Nat) : List Stmt → Prop
  | [] => True
  | statement :: rest => isAbsorbed foldable statement = false ∧
      NoneAbsorbed (foldableAfter foldable place statement) (place + 1) rest

theorem keep_eq (absorption : Absorption) (statement : Stmt) :
    absorption.keep statement = ⟨absorption.kept.push statement,
      foldableAfter absorption.foldable absorption.kept.size statement⟩ := rfl

/-- The next statement is kept, or it is a step of a foldable variable. -/
theorem next_cases (absorption : Absorption) (statement : Stmt) :
    (isAbsorbed absorption.foldable statement = false ∧
      absorption.next statement = absorption.keep statement) ∨
    ∃ position step target place, statement = .step position step target ∧
      absorption.foldable.lookup target.id = some place ∧
      absorption.next statement = absorption.stepAt place step := by
  cases statement with
  | step position step target =>
    cases found : absorption.foldable.lookup target.id with
    | none => exact .inl ⟨by simp [isAbsorbed, found], by simp [Absorption.next, found]⟩
    | some place =>
      exact .inr ⟨position, step, target, place, rfl, found, by simp [Absorption.next, found]⟩
  | _ => exact .inl ⟨rfl, rfl⟩

theorem foldableAfterAll_append (foldable : List (Nat × Nat)) (place : Nat)
    (first second : List Stmt) :
    foldableAfterAll foldable place (first ++ second) =
      foldableAfterAll (foldableAfterAll foldable place first) (place + first.length) second := by
  induction first generalizing foldable place with
  | nil => rfl
  | cons statement first ih =>
    rw [List.cons_append, foldableAfterAll, ih, foldableAfterAll, List.length_cons]
    congr 1
    omega

theorem noneAbsorbed_append (foldable : List (Nat × Nat)) (place : Nat)
    (first second : List Stmt) :
    NoneAbsorbed foldable place (first ++ second) ↔ NoneAbsorbed foldable place first ∧
      NoneAbsorbed (foldableAfterAll foldable place first) (place + first.length) second := by
  induction first generalizing foldable place with
  | nil => simp [NoneAbsorbed, foldableAfterAll]
  | cons statement first ih =>
    rw [List.cons_append, NoneAbsorbed, ih, NoneAbsorbed, foldableAfterAll, and_assoc]
    have place_eq : place + 1 + first.length = place + (statement :: first).length := by
      rw [List.length_cons]
      omega
    rw [place_eq]

/-- Where nothing is absorbed, everything is kept. -/
theorem foldl_next_of_noneAbsorbed {kept : Array Stmt} {foldable : List (Nat × Nat)}
    {statements : List Stmt} (none : NoneAbsorbed foldable kept.size statements) :
    statements.foldl Absorption.next ⟨kept, foldable⟩ =
      ⟨kept ++ statements.toArray, foldableAfterAll foldable kept.size statements⟩ := by
  induction statements generalizing kept foldable with
  | nil => simp [foldableAfterAll]
  | cons statement statements ih =>
    obtain ⟨here, rest⟩ := none
    have step : Absorption.next ⟨kept, foldable⟩ statement =
        ⟨kept.push statement, foldableAfter foldable kept.size statement⟩ := by
      obtain ⟨-, kept⟩ | ⟨position, step, target, place, rfl, found, -⟩ :=
        next_cases ⟨kept, foldable⟩ statement
      · rw [kept, keep_eq]
      · simp [isAbsorbed, found] at here
    rw [List.foldl_cons, step, ih (by simpa using rest)]
    simp [foldableAfterAll]

/-! ## Declarations that differ in their numbers -/

/-- Statements that are the same, but for the number of a declaration. -/
inductive Alike : Stmt → Stmt → Prop
  | refl (statement : Stmt) : Alike statement statement
  | number (position : Position) (target : Variable) (info : Info) (value other : Number) :
    Alike (.declare position target (.number info value)) (.declare position target (.number info other))

theorem Alike.isAbsorbed {first second : Stmt} (alike : Alike first second)
    (foldable : List (Nat × Nat)) : isAbsorbed foldable first = isAbsorbed foldable second := by
  cases alike <;> rfl

theorem Alike.foldableAfter {first second : Stmt} (alike : Alike first second)
    (foldable : List (Nat × Nat)) (place : Nat) :
    foldableAfter foldable place first = foldableAfter foldable place second := by
  cases alike with
  | refl => rfl
  | number position target info value other => rfl

theorem foldableAfterAll_alike {first second : List Stmt} (alike : List.Forall₂ Alike first second)
    (foldable : List (Nat × Nat)) (place : Nat) :
    foldableAfterAll foldable place first = foldableAfterAll foldable place second := by
  induction alike generalizing foldable place with
  | nil => rfl
  | cons here _ ih => rw [foldableAfterAll, here.foldableAfter, ih, foldableAfterAll]

theorem noneAbsorbed_alike {first second : List Stmt} (alike : List.Forall₂ Alike first second)
    (foldable : List (Nat × Nat)) (place : Nat) :
    NoneAbsorbed foldable place first ↔ NoneAbsorbed foldable place second := by
  induction alike generalizing foldable place with
  | nil => rfl
  | cons here _ ih => rw [NoneAbsorbed, here.isAbsorbed, here.foldableAfter, ih, NoneAbsorbed]

/-- A list whose steps have been absorbed: nothing more is absorbed in it, and what is
foldable is what its statements leave. -/
structure Absorbed (absorption : Absorption) : Prop where
  none : NoneAbsorbed [] 0 absorption.kept.toList
  foldable : absorption.foldable = foldableAfterAll [] 0 absorption.kept.toList

theorem forall₂_modify {change : Stmt → Stmt} (alike : ∀ statement, Alike statement (change statement))
    (statements : List Stmt) (place : Nat) :
    List.Forall₂ Alike statements (statements.modify place change) := by
  induction statements generalizing place with
  | nil => simp
  | cons statement statements ih =>
    cases place with
    | zero => exact .cons (alike statement) (List.forall₂_same.mpr fun other _ => .refl other)
    | succ place => exact .cons (.refl statement) (ih place)

theorem stepAt_alike (absorption : Absorption) (place : Nat) (step : Step) :
    List.Forall₂ Alike absorption.kept.toList (absorption.stepAt place step).kept.toList := by
  unfold Absorption.stepAt
  rw [Array.toList_modify]
  refine forall₂_modify (fun statement => ?_) _ _
  split
  · exact .number _ _ _ _ _
  · exact .refl _

theorem Absorbed.next {absorption : Absorption} (absorbed : Absorbed absorption) (statement : Stmt) :
    Absorbed (absorption.next statement) := by
  obtain ⟨notAbsorbed, kept⟩ | ⟨position, step, target, place, rfl, -, stepped⟩ :=
    next_cases absorption statement
  · rw [kept, keep_eq]
    refine ⟨?_, ?_⟩
    · rw [Array.toList_push, noneAbsorbed_append]
      refine ⟨absorbed.none, ?_, trivial⟩
      rw [← absorbed.foldable]
      exact notAbsorbed
    · rw [Array.toList_push, foldableAfterAll_append, ← absorbed.foldable]
      simp [foldableAfterAll]
  · rw [stepped]
    have alike := stepAt_alike absorption place step
    refine ⟨(noneAbsorbed_alike alike [] 0).mp absorbed.none, ?_⟩
    rw [← foldableAfterAll_alike alike]
    exact absorbed.foldable

theorem absorbed_foldl (statements : List Stmt) :
    Absorbed (statements.foldl Absorption.next ⟨#[], []⟩) := by
  have all : ∀ absorption, Absorbed absorption → Absorbed (statements.foldl Absorption.next absorption) := by
    induction statements with
    | nil => exact fun _ absorbed => absorbed
    | cons statement statements ih => exact fun absorption absorbed => ih _ (absorbed.next statement)
  exact all _ ⟨trivial, rfl⟩

/-- Steps that have been absorbed leave no more to absorb. -/
theorem absorbSteps_absorbSteps (statements : List Stmt) :
    absorbSteps (absorbSteps statements) = absorbSteps statements := by
  have absorbed := absorbed_foldl statements
  have kept := @foldl_next_of_noneAbsorbed #[] [] _ absorbed.none
  unfold absorbSteps
  rw [kept]
  simp

/-! ## Tests that steps have no part in -/

/-- A test of statements that no step passes, and for which it does not matter what the
number of a declaration is. -/
structure Stepless (test : Stmt → Bool) : Prop where
  step (position : Position) (step : Step) (target : Variable) :
    test (.step position step target) = false
  number (position : Position) (target : Variable) (info : Info) (value other : Number) :
    test (.declare position target (.number info value)) =
      test (.declare position target (.number info other))

namespace Stepless

variable {test : Stmt → Bool} (stepless : Stepless test)

include stepless

theorem test_alike {first second : Stmt} (alike : Alike first second) :
    test second = test first := by
  cases alike with
  | refl => rfl
  | number position target info value other => exact stepless.number position target info other value

theorem countP_alike {first second : List Stmt} (alike : List.Forall₂ Alike first second) :
    second.countP test = first.countP test := by
  induction alike with
  | nil => rfl
  | cons here _ ih => rw [List.countP_cons, List.countP_cons, ih, stepless.test_alike here]

theorem countP_foldl (body : List Stmt) (absorption : Absorption) :
    (body.foldl Absorption.next absorption).kept.toList.countP test =
      absorption.kept.toList.countP test + body.countP test := by
  induction body generalizing absorption with
  | nil => rfl
  | cons statement body ih =>
    rw [List.foldl_cons, ih, List.countP_cons]
    obtain ⟨-, kept⟩ | ⟨position, step, target, place, rfl, -, stepped⟩ :=
      next_cases absorption statement
    · rw [kept, keep_eq, Array.toList_push, List.countP_append, List.countP_singleton]
      omega
    · rw [stepped, stepless.countP_alike (stepAt_alike absorption place step),
        stepless.step position step target]
      rfl

/-- As many statements pass the test when the steps have been absorbed. -/
theorem countP_absorbSteps (body : List Stmt) :
    (absorbSteps body).countP test = body.countP test :=
  (stepless.countP_foldl body ⟨#[], []⟩).trans (Nat.zero_add _)

theorem any_absorbSteps (body : List Stmt) : (absorbSteps body).any test = body.any test := by
  have same : 0 < (absorbSteps body).countP test ↔ 0 < body.countP test := by
    rw [stepless.countP_absorbSteps]
  rw [Bool.eq_iff_iff, List.any_eq_true, List.any_eq_true, ← List.countP_pos_iff,
    ← List.countP_pos_iff, same]

end Stepless

end Optimizer

end GlyphCompiler
