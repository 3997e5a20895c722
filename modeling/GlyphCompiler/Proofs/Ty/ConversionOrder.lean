/-
# The order of conversion

Where `any` is nowhere in a type, a type says all that conversion asks for. Between
such types, and with nothing known of the value, conversion is a partial order: each
type converts into itself, conversions compose, and two types that convert into each
other are one. Question marks are taken off first, the target's before the source's;
what is left is decided by the outermost shape of the two types.
-/

import Mathlib.Data.List.Forall2
import GlyphCompiler.Ty.Conversion

namespace GlyphCompiler

namespace Numeric

/-- With nothing known of the number, only a wider type of a compatible family will do. -/
theorem canConvert_unknown_iff (source target : Numeric) :
    source.canConvert target .unknown = true ↔
      source.familiesCompatible target = true ∧ source.width.bits < target.width.bits := by
  simp [canConvert, admits]

theorem familiesCompatible_trans {first second third : Numeric}
    (start : first.familiesCompatible second = true)
    (finish : second.familiesCompatible third = true) :
    first.familiesCompatible third = true := by
  simp only [familiesCompatible, isIntegral, Bool.or_eq_true, beq_iff_eq, Bool.not_eq_true',
    beq_eq_false_iff_ne] at *
  grind

theorem canConvert_trans {first second third : Numeric}
    (start : first.canConvert second .unknown = true)
    (finish : second.canConvert third .unknown = true) :
    first.canConvert third .unknown = true := by
  rw [canConvert_unknown_iff] at *
  exact ⟨familiesCompatible_trans start.1 finish.1, Nat.lt_trans start.2 finish.2⟩

end Numeric

namespace Ty

/-- A type in which `any` occurs nowhere. -/
inductive Definite : Ty → Prop
  | primitive {kind : Primitive} (known : kind ≠ .any) : Definite (.primitive kind)
  | numeric (kind : Numeric) : Definite (.numeric kind)
  | array {element : Ty} (inside : Definite element) : Definite (.array element)
  | pointer {target : Ty} (inside : Definite target) : Definite (.pointer target)
  | optional {inner : Ty} (inside : Definite inner) : Definite (.optional inner)
  | function {parameters : List Ty} {result : Ty}
      (taken : ∀ parameter ∈ parameters, Definite parameter) (given : Definite result) :
      Definite (.function parameters result)

namespace Definite

variable {type : Ty}

theorem ne_any (definite : type.Definite) : type ≠ any := by
  cases definite with
  | primitive known => simpa [any] using known
  | _ => exact nofun

theorem of_array {element : Ty} : (Ty.array element).Definite → element.Definite
  | .array inside => inside

theorem of_optional {inner : Ty} : (Ty.optional inner).Definite → inner.Definite
  | .optional inside => inside

theorem of_parameter {parameters : List Ty} {result parameter : Ty}
    (member : parameter ∈ parameters) :
    (Ty.function parameters result).Definite → parameter.Definite
  | .function taken _ => taken parameter member

theorem of_result {parameters : List Ty} {result : Ty} :
    (Ty.function parameters result).Definite → result.Definite
  | .function _ given => given

end Definite

/-! ## The shapes of a conversion -/

theorem canConvertAll_iff (sources targets : List Ty) :
    canConvertAll sources targets = true ↔
      List.Forall₂ (fun source target => source.canConvert target .unknown = true)
        sources targets := by
  induction sources generalizing targets with
  | nil => cases targets <;> simp [canConvertAll]
  | cons source sources rest =>
    cases targets with
    | nil => simp [canConvertAll]
    | cons target targets => simp [canConvertAll, rest]

/-- The ways in which one type converts into another that is not optional, `any` and
values aside. -/
inductive Conversion : Ty → Ty → Prop
  | same (type : Ty) : Conversion type type
  | text : Conversion glyph string
  | number {source target : Numeric} (widens : source.canConvert target .unknown = true) :
      Conversion (.numeric source) (.numeric target)
  | array {source target : Ty} (elements : source.canConvert target .unknown = true) :
      Conversion (.array source) (.array target)
  | function {accepted offered : List Ty} {source target : Ty}
      (parameters : List.Forall₂
        (fun source target => source.canConvert target .unknown = true) offered accepted)
      (result : source.canConvert target .unknown = true) :
      Conversion (.function accepted source) (.function offered target)

section Shapes

variable {source target : Ty}

/-- Into a type that is not optional, a conversion is one of the listed ways. -/
theorem conversion_of_canConvert (definite : source.Definite) (wanted : target.Definite)
    (plain : target.inner? = none) (converts : source.canConvert target .unknown = true) :
    Conversion source target := by
  by_cases same : source = target
  · exact same ▸ .same source
  rw [canConvert.eq_def, if_neg (by simp [same, definite.ne_any, wanted.ne_any])] at converts
  split at converts
  next => exact .text
  next => simp [inner?] at plain
  next => simp [inner?] at plain
  next => exact .array converts
  next =>
    rw [Bool.and_eq_true, canConvertAll_iff] at converts
    exact .function converts.1 converts.2
  next => exact .number converts
  next => simp at converts

theorem canConvert_of_conversion (conversion : Conversion source target) :
    source.canConvert target .unknown = true := by
  cases conversion with
  | same => exact canConvert_self source .unknown
  | text => simp [canConvert]
  | number widens => simp [canConvert, widens]
  | array elements => simp [canConvert, elements]
  | function parameters result =>
    rw [canConvert.eq_def]
    simp [(canConvertAll_iff _ _).mpr parameters, result]

/-- A type with its question mark taken off, if it has one. -/
def unmarked (type : Ty) : Ty :=
  type.inner?.getD type

/-- A conversion into an optional type asks what is inside to be reached, the source's own
question mark forgiven. -/
theorem canConvert_optional_iff (definite : source.Definite) (inner : Ty) :
    source.canConvert (.optional inner) .unknown = true ↔
      source.unmarked.canConvert inner .unknown = true := by
  by_cases same : source = .optional inner
  · simp [same, unmarked, inner?, canConvert_self]
  rw [canConvert.eq_def, if_neg (by simp [same, definite.ne_any, any])]
  cases source <;> simp [unmarked, inner?]

/-- Nothing takes the question mark off. -/
theorem inner?_eq_none_of_canConvert (definite : source.Definite) (wanted : target.Definite)
    (plain : target.inner? = none) (converts : source.canConvert target .unknown = true) :
    source.inner? = none := by
  cases conversion_of_canConvert definite wanted plain converts with
  | same => exact plain
  | _ => rfl

theorem unmarked_of_inner?_eq_none (plain : source.inner? = none) : source.unmarked = source := by
  rw [unmarked, plain, Option.getD_none]

theorem Definite.unmarked (definite : source.Definite) : source.unmarked.Definite := by
  cases definite with
  | optional inside => exact inside
  | primitive known => exact .primitive known
  | numeric kind => exact .numeric kind
  | array inside => exact .array inside
  | pointer inside => exact .pointer inside
  | function taken given => exact .function taken given

theorem sizeOf_unmarked_le (type : Ty) : sizeOf type.unmarked ≤ sizeOf type := by
  cases type <;> simp [Ty.unmarked, inner?]

end Shapes

/-! ## Conversions compose -/

/-- Conversion composes through some types of no more than a given size in all. -/
def ComposesUpTo (bound : Nat) : Prop :=
  ∀ first second third : Ty, sizeOf first + sizeOf second + sizeOf third ≤ bound →
    first.Definite → second.Definite → third.Definite →
    first.canConvert second .unknown = true → second.canConvert third .unknown = true →
    first.canConvert third .unknown = true

section Composition

variable {bound : Nat} {first second third : Ty}

/-- Into an optional type: the marks of all three come off together. -/
theorem canConvert_trans_optional (smaller : ComposesUpTo bound) {inner : Ty}
    (size : sizeOf first + sizeOf second + sizeOf (Ty.optional inner) ≤ bound + 1)
    (ofFirst : first.Definite) (ofSecond : second.Definite) (ofInner : inner.Definite)
    (start : first.canConvert second .unknown = true)
    (finish : second.canConvert (.optional inner) .unknown = true) :
    first.canConvert (.optional inner) .unknown = true := by
  rw [canConvert_optional_iff ofFirst]
  rw [canConvert_optional_iff ofSecond] at finish
  have unmarkedSize := sizeOf_unmarked_le first
  rw [Ty.optional.sizeOf_spec] at size
  cases marked : second.inner? with
  | none =>
    rw [unmarked_of_inner?_eq_none marked] at finish
    rw [unmarked_of_inner?_eq_none (inner?_eq_none_of_canConvert ofFirst ofSecond marked start)]
    exact smaller first second inner (by omega) ofFirst ofSecond ofInner start finish
  | some middle =>
    obtain ⟨rfl⟩ : second = .optional middle := by cases second <;> simp_all [inner?]
    rw [canConvert_optional_iff ofFirst] at start
    refine smaller first.unmarked middle inner ?_ ofFirst.unmarked ofSecond.of_optional ofInner
      start finish
    rw [Ty.optional.sizeOf_spec] at size
    omega

theorem forall₂_trans {firsts seconds thirds : List Ty}
    (compose : ∀ first ∈ firsts, ∀ second ∈ seconds, ∀ third ∈ thirds,
      first.canConvert second .unknown = true → second.canConvert third .unknown = true →
      first.canConvert third .unknown = true)
    (start : List.Forall₂ (fun source target => source.canConvert target .unknown = true)
      firsts seconds)
    (finish : List.Forall₂ (fun source target => source.canConvert target .unknown = true)
      seconds thirds) :
    List.Forall₂ (fun source target => source.canConvert target .unknown = true)
      firsts thirds := by
  induction start generalizing thirds with
  | nil => exact finish
  | @cons first second firsts seconds here _ rest =>
    cases finish with
    | @cons _ third _ thirds there following =>
      refine .cons (compose first (by simp) second (by simp) third (by simp) here there) ?_
      exact rest (fun x hx y hy z hz => compose x (by simp [hx]) y (by simp [hy]) z (by simp [hz]))
        following

/-- Into a type that is not optional: the three types have one shape. -/
theorem canConvert_trans_plain (smaller : ComposesUpTo bound)
    (size : sizeOf first + sizeOf second + sizeOf third ≤ bound + 1)
    (ofFirst : first.Definite) (ofSecond : second.Definite) (ofThird : third.Definite)
    (start : Conversion first second) (finish : Conversion second third) :
    first.canConvert third .unknown = true := by
  cases start with
  | same => exact canConvert_of_conversion finish
  | text =>
    cases finish with
    | same => exact canConvert_of_conversion .text
  | number widens =>
    cases finish with
    | same => exact canConvert_of_conversion (.number widens)
    | number wider =>
      exact canConvert_of_conversion (.number (Numeric.canConvert_trans widens wider))
  | @array first second elements =>
    cases finish with
    | same => exact canConvert_of_conversion (.array elements)
    | @array _ third following =>
      simp only [Ty.array.sizeOf_spec] at size
      exact canConvert_of_conversion <| .array <| smaller first second third (by omega)
        ofFirst.of_array ofSecond.of_array ofThird.of_array elements following
  | @function firsts seconds first second parameters result =>
    cases finish with
    | same => exact canConvert_of_conversion (.function parameters result)
    | @function _ thirds _ third offered given =>
      simp only [Ty.function.sizeOf_spec] at size
      -- The parameters are composed the other way round, from the last type to the first.
      have parametersCompose := forall₂_trans (fun last inLast middle inMiddle early inEarly =>
        smaller last middle early
          (by
            have := List.sizeOf_lt_of_mem inLast
            have := List.sizeOf_lt_of_mem inMiddle
            have := List.sizeOf_lt_of_mem inEarly
            omega)
          (ofThird.of_parameter inLast) (ofSecond.of_parameter inMiddle)
          (ofFirst.of_parameter inEarly)) offered parameters
      exact canConvert_of_conversion <| .function parametersCompose <|
        smaller first second third (by omega) ofFirst.of_result ofSecond.of_result
          ofThird.of_result result given

theorem composesUpTo (bound : Nat) : ComposesUpTo bound := by
  induction bound with
  | zero =>
    intro first second third size
    cases first <;> simp at size
  | succ bound smaller =>
    intro first second third size ofFirst ofSecond ofThird start finish
    cases marked : third.inner? with
    | some inner =>
      obtain ⟨rfl⟩ : third = .optional inner := by cases third <;> simp_all [inner?]
      exact canConvert_trans_optional smaller size ofFirst ofSecond ofThird.of_optional start finish
    | none =>
      have plain := inner?_eq_none_of_canConvert ofSecond ofThird marked finish
      exact canConvert_trans_plain smaller size ofFirst ofSecond ofThird
        (conversion_of_canConvert ofFirst ofSecond plain start)
        (conversion_of_canConvert ofSecond ofThird marked finish)

theorem canConvert_trans (ofFirst : first.Definite) (ofSecond : second.Definite)
    (ofThird : third.Definite) (start : first.canConvert second .unknown = true)
    (finish : second.canConvert third .unknown = true) :
    first.canConvert third .unknown = true :=
  composesUpTo _ first second third (Nat.le_refl _) ofFirst ofSecond ofThird start finish

end Composition

/-! ## Types that convert into each other -/

theorem forall₂_antisymm {firsts seconds : List Ty}
    (agree : ∀ first ∈ firsts, ∀ second, first.canConvert second .unknown = true →
      second.canConvert first .unknown = true → second ∈ seconds → first = second)
    (forward : List.Forall₂ (fun source target => source.canConvert target .unknown = true)
      firsts seconds)
    (backward : List.Forall₂ (fun source target => source.canConvert target .unknown = true)
      seconds firsts) : firsts = seconds := by
  induction forward with
  | nil => rfl
  | @cons first second firsts seconds here _ rest =>
    obtain ⟨there, following⟩ := List.forall₂_cons.mp backward
    rw [agree first (by simp) second here there (by simp),
      rest (fun x hx y xy yx hy => agree x (by simp [hx]) y xy yx (by simp [hy])) following]

/-- Types that convert into each other both have a question mark or neither has one. -/
theorem inner?_eq_none_iff {first second : Ty} (ofFirst : first.Definite)
    (ofSecond : second.Definite) (forward : first.canConvert second .unknown = true)
    (backward : second.canConvert first .unknown = true) :
    first.inner? = none ↔ second.inner? = none :=
  ⟨fun plain => inner?_eq_none_of_canConvert ofSecond ofFirst plain backward,
    fun plain => inner?_eq_none_of_canConvert ofFirst ofSecond plain forward⟩

/-- Types that convert into each other are equal if the first is no larger than a given size. -/
def AgreesUpTo (bound : Nat) : Prop :=
  ∀ first second : Ty, sizeOf first ≤ bound → first.Definite → second.Definite →
    first.canConvert second .unknown = true → second.canConvert first .unknown = true →
    first = second

section Agreement

variable {bound : Nat} {first second : Ty}

/-- What converts both ways has one shape, and its parts convert both ways again. -/
theorem eq_of_conversion (smaller : AgreesUpTo bound) (size : sizeOf first ≤ bound + 1)
    (ofFirst : first.Definite) (ofSecond : second.Definite) (forward : Conversion first second)
    (backward : Conversion second first) : first = second := by
  cases forward with
  | same => rfl
  | text => cases backward
  | number widens =>
    cases backward with
    | same => rfl
    | number narrows =>
      rw [Numeric.canConvert_unknown_iff] at widens narrows
      exact absurd widens.2 (Nat.lt_asymm narrows.2)
  | @array first second elements =>
    cases backward with
    | same => rfl
    | array returned =>
      rw [Ty.array.sizeOf_spec] at size
      exact congrArg Ty.array
        (smaller first second (by omega) ofFirst.of_array ofSecond.of_array elements returned)
  | @function firsts seconds first second parameters result =>
    cases backward with
    | same => rfl
    | function taken given =>
      rw [Ty.function.sizeOf_spec] at size
      have sameParameters : firsts = seconds :=
        forall₂_antisymm (fun early inEarly late forth returned inLate =>
          smaller early late (by have := List.sizeOf_lt_of_mem inEarly; omega)
            (ofFirst.of_parameter inEarly) (ofSecond.of_parameter inLate) forth returned)
          taken parameters
      rw [sameParameters, smaller first second (by omega) ofFirst.of_result ofSecond.of_result
        result given]

theorem agreesUpTo (bound : Nat) : AgreesUpTo bound := by
  induction bound with
  | zero =>
    intro first second size
    cases first <;> simp at size
  | succ bound smaller =>
    intro first second size ofFirst ofSecond forward backward
    have marks := inner?_eq_none_iff ofFirst ofSecond forward backward
    cases marked : second.inner? with
    | none =>
      exact eq_of_conversion smaller size ofFirst ofSecond
        (conversion_of_canConvert ofFirst ofSecond marked forward)
        (conversion_of_canConvert ofSecond ofFirst (marks.mpr marked) backward)
    | some inner =>
      obtain ⟨rfl⟩ : second = .optional inner := by cases second <;> simp_all [inner?]
      cases ofFirst with
      | @optional unmarked inside =>
        rw [canConvert_optional_iff (.optional inside)] at forward
        rw [canConvert_optional_iff ofSecond] at backward
        rw [Ty.optional.sizeOf_spec] at size
        exact congrArg Ty.optional
          (smaller unmarked inner (by omega) inside ofSecond.of_optional forward backward)
      | _ => simp [inner?] at marks

theorem canConvert_antisymm (ofFirst : first.Definite) (ofSecond : second.Definite)
    (forward : first.canConvert second .unknown = true)
    (backward : second.canConvert first .unknown = true) : first = second :=
  agreesUpTo _ first second (Nat.le_refl _) ofFirst ofSecond forward backward

end Agreement

/-- Among the types without `any`, and with nothing known of the value, conversion is a
partial order: reflexive, transitive and antisymmetric. -/
theorem canConvert_partialOrder (first second third : { type : Ty // type.Definite }) :
    first.val.canConvert first.val .unknown = true ∧
    (first.val.canConvert second.val .unknown = true →
      second.val.canConvert third.val .unknown = true →
      first.val.canConvert third.val .unknown = true) ∧
    (first.val.canConvert second.val .unknown = true →
      second.val.canConvert first.val .unknown = true → first = second) :=
  ⟨canConvert_self first.val .unknown,
    canConvert_trans first.property second.property third.property,
    fun forward backward =>
      Subtype.ext (canConvert_antisymm first.property second.property forward backward)⟩

/-- A function of optional integers yields ever wider results to ever narrower callers. -/
theorem canConvert_partialOrder_function :
    (function [optional (int .w32)] (int .w8)).canConvert
        (function [int .w32] (int .w16)) .unknown = true ∧
      (function [int .w32] (int .w16)).canConvert
        (function [int .w16] (optional (int .w32))) .unknown = true ∧
      (function [optional (int .w32)] (int .w8)).canConvert
        (function [int .w16] (optional (int .w32))) .unknown = true := by
  have start : (function [optional (int .w32)] (int .w8)).canConvert
      (function [int .w32] (int .w16)) .unknown = true := by
    simp [canConvert, canConvertAll, Numeric.canConvert_unknown_iff,
      Numeric.familiesCompatible, Width.bits]
  have finish : (function [int .w32] (int .w16)).canConvert
      (function [int .w16] (optional (int .w32))) .unknown = true := by
    simp [canConvert, canConvertAll, Numeric.canConvert_unknown_iff,
      Numeric.familiesCompatible, Width.bits]
  exact ⟨start, finish, (canConvert_partialOrder
    ⟨_, .function (by simpa using .optional (.numeric _)) (.numeric _)⟩
    ⟨_, .function (by simpa using .numeric _) (.numeric _)⟩
    ⟨_, .function (by simpa using .numeric _) (.optional (.numeric _))⟩).2.1 start finish⟩

end Ty

end GlyphCompiler
