/-
# Inhabitants of types

A value inhabits a numeric type that it fits into, an array type if it is a list of
inhabitants, and an optional type if it is null or inhabits what is inside. What
converts from one type into another inhabits that other type as well, unless a
negative number in it widens from a signed type into an unsigned one.
-/

import GlyphCompiler.Proofs.Number.Order
import GlyphCompiler.Ty.Conversion

namespace GlyphCompiler

namespace Numeric

theorem fits_iff (kind : Numeric) (number : Number) :
    kind.fits number = true ↔ (kind.isIntegral = true → number.isWhole = true) ∧
      ∃ exact : Rat, number.place? = some (0, exact) ∧ (kind.least : Rat) ≤ exact ∧
        exact ≤ (kind.greatest : Rat) := by
  rw [fits, Bool.and_assoc, Bool.and_eq_true, Number.between_iff]
  simp [-Bool.not_eq_true, or_iff_not_imp_left]

theorem greatest_lt (kind : Numeric) : kind.greatest < (2 ^ kind.width.bits : Nat) := by
  have half : 2 ^ (kind.width.bits - 1) ≤ 2 ^ kind.width.bits :=
    Nat.pow_le_pow_right Nat.two_pos (Nat.sub_le _ _)
  simp only [greatest, Nat.pow_eq]
  split <;> omega

theorem le_greatest (kind : Numeric) : (2 ^ (kind.width.bits - 1) : Nat) - 1 ≤ kind.greatest := by
  have half : 2 ^ (kind.width.bits - 1) ≤ 2 ^ kind.width.bits :=
    Nat.pow_le_pow_right Nat.two_pos (Nat.sub_le _ _)
  simp only [greatest, Nat.pow_eq]
  split <;> omega

/-- A wider range reaches further up. -/
theorem greatest_le {source target : Numeric}
    (narrower : source.width.bits < target.width.bits) : source.greatest ≤ target.greatest := by
  have below := source.greatest_lt
  have above := target.le_greatest
  have room : 2 ^ source.width.bits ≤ 2 ^ (target.width.bits - 1) :=
    Nat.pow_le_pow_right Nat.two_pos (Nat.le_sub_one_of_lt narrower)
  omega

theorem least_of_unsigned {kind : Numeric} (unsigned : kind.unsigned = true) : kind.least = 0 :=
  if_pos unsigned

theorem least_of_signed {kind : Numeric} (signed : kind.unsigned = false) :
    kind.least = -(2 ^ (kind.width.bits - 1) : Nat) :=
  if_neg (by simp [signed])

theorem neg_le_least (kind : Numeric) : -(2 ^ (kind.width.bits - 1) : Nat) ≤ kind.least := by
  cases sign : kind.unsigned with
  | true =>
    rw [least_of_unsigned sign]
    exact Int.neg_nonpos_of_nonneg (Int.natCast_nonneg _)
  | false => rw [least_of_signed sign]

/-- A wider range reaches further down, unless it gives up the sign. -/
theorem least_le {source target : Numeric} (narrower : source.width.bits < target.width.bits)
    (keepsSign : target.unsigned = true → source.unsigned = true) :
    target.least ≤ source.least := by
  cases sign : target.unsigned with
  | true => rw [least_of_unsigned sign, least_of_unsigned (keepsSign sign)]
  | false =>
    have below := source.neg_le_least
    have room : 2 ^ (source.width.bits - 1) ≤ 2 ^ (target.width.bits - 1) :=
      Nat.pow_le_pow_right Nat.two_pos (Nat.sub_le_sub_right narrower.le 1)
    rw [least_of_signed sign]
    omega

/-- Does a conversion between two numeric types widen a signed type into an unsigned one? -/
def dropsSign (source target : Numeric) : Bool :=
  !source.unsigned && target.unsigned && source.width.bits < target.width.bits

/-- Nothing negative fits into an unsigned type. -/
theorem not_isNegative_of_fits {kind : Numeric} {number : Number} (unsigned : kind.unsigned = true)
    (fits : kind.fits number = true) : ¬ number.isNegative = true := by
  obtain ⟨-, exact, place, low, -⟩ := (fits_iff kind number).mp fits
  rw [Number.isNegative_iff place, not_lt]
  simpa [least_of_unsigned unsigned] using low

theorem unsigned_of_dropsSign {source target : Numeric} (drops : source.dropsSign target = true) :
    target.unsigned = true := by
  simp_all [dropsSign]

/-- A number that fits into a type fits into a wider type of a compatible family, unless
it is negative and only the wider type is unsigned. -/
theorem fits_wider_iff {source target : Numeric} {number : Number}
    (compatible : source.familiesCompatible target = true)
    (narrower : source.width.bits < target.width.bits) (fits : source.fits number = true) :
    target.fits number = true ↔ ¬ (source.dropsSign target = true ∧ number.isNegative = true) := by
  obtain ⟨whole, exact, place, low, high⟩ := (fits_iff source number).mp fits
  have wholeThere : target.isIntegral = true → number.isWhole = true := by
    intro integral
    refine whole ?_
    simp_all [familiesCompatible, isIntegral]
  have highThere : exact ≤ (target.greatest : Rat) :=
    high.trans (Int.cast_le.mpr (greatest_le narrower))
  constructor
  · rintro fitsThere ⟨drops, negative⟩
    exact not_isNegative_of_fits (unsigned_of_dropsSign drops) fitsThere negative
  · intro keeps
    refine (fits_iff target number).mpr ⟨wholeThere, exact, place, ?_, highThere⟩
    by_cases keepsSign : target.unsigned = true → source.unsigned = true
    · exact (Int.cast_le.mpr (least_le narrower keepsSign)).trans low
    · have drops : source.dropsSign target = true := by simp_all [dropsSign]
      have nonnegative : ¬ exact < 0 := fun negative =>
        keeps ⟨drops, (Number.isNegative_iff place).mpr negative⟩
      simpa [least_of_unsigned (unsigned_of_dropsSign drops)] using nonnegative

end Numeric

namespace Value

/-- A value inhabits a type that is built from numeric types by arrays and options. -/
def Inhabits (value : Value) : Ty → Prop
  | .numeric kind => ∃ number, value = .number number ∧ kind.fits number = true
  | .array element => ∃ elements, value = .list elements ∧ ∀ member ∈ elements, member.Inhabits element
  | .optional inner => value = .null ∨ value.Inhabits inner
  | _ => False

/-- Somewhere in a value a negative number widens from a signed type into an unsigned one. -/
def LosesSign (value : Value) : (source target : Ty) → Prop
  | .numeric source, .numeric target =>
    ∃ number, value = .number number ∧ source.dropsSign target = true ∧ number.isNegative = true
  | .array source, .array target =>
    ∃ elements, value = .list elements ∧ ∃ member ∈ elements, member.LosesSign source target
  | .optional source, .optional target => value.LosesSign source target
  | source, .optional target => value.LosesSign source target
  | _, _ => False

@[simp]
theorem inhabits_numeric {value : Value} {kind : Numeric} :
    value.Inhabits (.numeric kind) ↔ ∃ number, value = .number number ∧ kind.fits number = true := by
  rw [Inhabits]

@[simp]
theorem inhabits_array {value : Value} {element : Ty} :
    value.Inhabits (.array element) ↔
      ∃ elements, value = .list elements ∧ ∀ member ∈ elements, member.Inhabits element := by
  rw [Inhabits]

@[simp]
theorem inhabits_optional {value : Value} {inner : Ty} :
    value.Inhabits (.optional inner) ↔ value = .null ∨ value.Inhabits inner := by
  rw [Inhabits]

end Value

/-- The types that are built from numeric types by arrays and options. -/
inductive Ty.Storable : Ty → Prop
  | numeric (kind : Numeric) : Storable (.numeric kind)
  | array {element : Ty} (storable : Storable element) : Storable (.array element)
  | optional {inner : Ty} (storable : Storable inner) : Storable (.optional inner)

/-- No sign is lost where the type stays the same. -/
theorem Value.not_losesSign_self {type : Ty} (storable : type.Storable) (value : Value) :
    ¬ value.LosesSign type type := by
  induction storable generalizing value with
  | numeric kind => simp [LosesSign, Numeric.dropsSign]
  | array _ ih =>
    rw [LosesSign]
    rintro ⟨elements, -, member, -, loses⟩
    exact ih member loses
  | optional _ ih =>
    rw [LosesSign]
    exact ih value

/-- Null has no sign to lose. -/
theorem Value.not_losesSign_null {source target : Ty} (storable : target.Storable) :
    ¬ Value.null.LosesSign source target := by
  induction storable generalizing source with
  | numeric kind => cases source <;> simp [LosesSign]
  | array _ _ => cases source <;> simp [LosesSign]
  | optional _ ih => cases source <;> simp [LosesSign, ih]

namespace Ty

/-- What is known of a value: nothing, or the value itself. -/
def Tells (known value : Value) : Prop :=
  known = .unknown ∨ known = value

theorem canConvert_numeric {source : Ty} {kind : Numeric} {known : Value} (storable : source.Storable)
    (different : source ≠ .numeric kind) (converts : source.canConvert (.numeric kind) known = true) :
    ∃ narrow, source = .numeric narrow ∧ narrow.canConvert kind known = true := by
  unfold canConvert at converts
  cases storable <;> simp_all

theorem canConvert_array {source element : Ty} {known : Value} (storable : source.Storable)
    (different : source ≠ .array element) (converts : source.canConvert (.array element) known = true) :
    ∃ member, source = .array member ∧ member.Storable ∧
      match known with
      | .list elements => ∀ part ∈ elements, member.canConvert element part = true
      | _ => member.canConvert element .unknown = true := by
  unfold canConvert at converts
  cases storable <;> cases known <;> simp_all

theorem canConvert_optional {source inner : Ty} {known : Value} (storable : source.Storable)
    (different : source ≠ .optional inner) (notNull : known ≠ .null)
    (converts : source.canConvert (.optional inner) known = true) :
    (source.inner?.getD source).Storable ∧
      (source.inner?.getD source).canConvert inner known = true := by
  unfold canConvert at converts
  cases storable <;> cases known <;> simp_all [inner?, Storable.numeric, Storable.array]

theorem losesSign_optional (value : Value) (source inner : Ty) :
    value.LosesSign source (.optional inner) ↔ value.LosesSign (source.inner?.getD source) inner := by
  cases source <;> simp [Value.LosesSign, inner?]

theorem inhabits_inner {value : Value} {source : Ty} (inhabits : value.Inhabits source)
    (notNull : value ≠ .null) : value.Inhabits (source.inner?.getD source) := by
  cases source <;> simp_all [inner?]

/-- What converts into a type inhabits that type as well, unless a negative number in it
widens from a signed type into an unsigned one. -/
theorem inhabits_iff_of_canConvert {source target : Ty} (fromStorable : source.Storable)
    (toStorable : target.Storable) {value known : Value} (inhabits : value.Inhabits source)
    (tells : Tells known value) (converts : source.canConvert target known = true) :
    value.Inhabits target ↔ ¬ value.LosesSign source target := by
  induction toStorable generalizing source value known with
  | numeric kind =>
    by_cases same : source = .numeric kind
    · subst same
      exact iff_of_true inhabits (Value.not_losesSign_self fromStorable value)
    obtain ⟨narrow, rfl, convert⟩ := canConvert_numeric fromStorable same converts
    obtain ⟨number, rfl, fits⟩ := Value.inhabits_numeric.mp inhabits
    obtain ⟨compatible, widens | admits⟩ :
        narrow.familiesCompatible kind = true ∧
          (narrow.width.bits < kind.width.bits ∨ kind.admits known = true) := by
      simpa [Numeric.canConvert] using convert
    · simp only [Value.inhabits_numeric, Value.LosesSign, Value.number.injEq, exists_eq_left']
      exact Numeric.fits_wider_iff compatible widens fits
    · obtain rfl | rfl := tells
      · cases admits
      · refine iff_of_true (Value.inhabits_numeric.mpr ⟨number, rfl, admits⟩) ?_
        rw [Value.LosesSign]
        rintro ⟨_, ⟨⟩, drops, negative⟩
        exact Numeric.not_isNegative_of_fits (Numeric.unsigned_of_dropsSign drops) admits negative
  | @array element storable ih =>
    by_cases same : source = .array element
    · subst same
      exact iff_of_true inhabits (Value.not_losesSign_self fromStorable value)
    obtain ⟨member, rfl, memberStorable, convert⟩ := canConvert_array fromStorable same converts
    obtain ⟨elements, rfl, all⟩ := Value.inhabits_array.mp inhabits
    have each : ∀ part ∈ elements, part.Inhabits element ↔ ¬ part.LosesSign member element := by
      intro part isPart
      obtain rfl | rfl := tells
      · exact ih memberStorable (all part isPart) (.inl rfl) convert
      · exact ih memberStorable (all part isPart) (.inr rfl) (convert part isPart)
    simp only [Value.inhabits_array, Value.LosesSign, Value.list.injEq, exists_eq_left', not_exists,
      not_and]
    exact forall₂_congr each
  | @optional inner storable ih =>
    by_cases same : source = .optional inner
    · subst same
      exact iff_of_true inhabits (Value.not_losesSign_self fromStorable value)
    by_cases isNull : value = .null
    · subst isNull
      exact iff_of_true (Value.inhabits_optional.mpr (.inl rfl))
        (Value.not_losesSign_null (.optional storable))
    have notNull : known ≠ .null := by
      rintro rfl
      exact tells.elim nofun fun same => isNull same.symm
    obtain ⟨innerStorable, convert⟩ := canConvert_optional fromStorable same notNull converts
    rw [Value.inhabits_optional, or_iff_right isNull, losesSign_optional]
    exact ih innerStorable (inhabits_inner inhabits isNull) tells convert

/-- A negative number widens into an unsigned type that it does not inhabit. -/
theorem inhabits_iff_of_canConvert_minusOne :
    ∃ source target value, Storable source ∧ Storable target ∧ value.Inhabits source ∧
      source.canConvert target .unknown = true ∧ source.canConvert target value = true ∧
      value.LosesSign source target ∧ ¬ value.Inhabits target := by
  let source : Numeric := ⟨.int, false, .w8⟩
  let target : Numeric := ⟨.int, true, .w16⟩
  have inhabits : Value.Inhabits (.number (.int (-1))) (.numeric source) :=
    Value.inhabits_numeric.mpr ⟨_, rfl, by decide⟩
  have converts : canConvert (.numeric source) (.numeric target) .unknown = true := by
    simp [canConvert, source, target]; decide
  have loses : Value.LosesSign (.number (.int (-1))) (.numeric source) (.numeric target) := by
    rw [Value.LosesSign]
    exact ⟨_, rfl, by decide, by decide⟩
  refine ⟨.numeric source, .numeric target, .number (.int (-1)), .numeric _, .numeric _, inhabits,
    converts, ?_, loses, fun there => ?_⟩
  · simp [canConvert, source, target]; decide
  · exact (inhabits_iff_of_canConvert (.numeric _) (.numeric _) inhabits (.inl rfl) converts).mp there loses

end Ty

end GlyphCompiler
