/-
# Negating and subtracting floating-point numbers

Taking a floating-point number from zero, like negating it, gives a finite number
just if the number is finite.
-/

import Mathlib
import GlyphCompiler.Number.Arithmetic

namespace GlyphCompiler

namespace Binary64

open Float.Model (Format UnpackedFloat)
open Float.Model.UnpackedFloat (unpackExponent unpackMantissa)

/-- The bits of a floating-point number. -/
def bits (number : Float) : BitVec Format.binary64.numBits := number.toModel.toBits.toBitVec

theorem exponent_eq (number : Float) :
    (unpackExponent (bits number)).toNat = number.toBits.toNat / Nat.pow 2 52 % 2048 := by
  simp [unpackExponent, bits, Float.toBits]
  rw [Nat.shiftRight_eq_div_pow]

theorem fraction_eq (number : Float) :
    (unpackMantissa (bits number)).toNat = number.toBits.toNat % Nat.pow 2 52 := by
  simp [unpackMantissa, bits, Float.toBits]

theorem isFinite_iff_scale (number : Float) :
    isFinite number = true ↔ number.toBits.toNat / Nat.pow 2 52 % 2048 ≠ 2047 := by
  unfold isFinite value? read
  dsimp only
  split
  · next negative mantissa exponent same =>
    split at same
    · split at same <;> cases same
    · next scale => simpa using scale
  · next other =>
    split at other
    · next scale => simpa using scale
    · split at other
      · exact absurd rfl (other _ _ _)
      · exact absurd rfl (other _ _ _)

/-- The exponent bits tell the finite numbers from the others. -/
theorem isFinite_iff (number : Float) :
    isFinite number = true ↔ unpackExponent (bits number) ≠ -1#_ := by
  rw [isFinite_iff_scale, ← exponent_eq, Ne, Ne, ← BitVec.toNat_inj]
  rfl

theorem bits_pack (unpacked : UnpackedFloat) :
    bits ⟨.pack unpacked⟩ = UnpackedFloat.pack Format.binary64 unpacked := rfl

/-- What a finite number is, with room for its exponent when it is packed again. -/
inductive Packs : UnpackedFloat → Prop
  | zero (sign : UnpackedFloat.Sign) : Packs (.zero sign)
  | finite (sign : UnpackedFloat.Sign) (mantissa : Nat) (exponent : Int) (positive : 0 < mantissa)
      (room : exponent + 1075 < 2047) : Packs (.finite sign mantissa exponent positive)

theorem isFinite_pack {unpacked : UnpackedFloat} (packs : Packs unpacked) :
    isFinite ⟨.pack unpacked⟩ = true := by
  rw [isFinite_iff, bits_pack]
  cases packs with
  | zero sign =>
    simp [UnpackedFloat.pack, Float.Model.UnpackedFloat.packedZero]
  | finite sign mantissa exponent positive room =>
    have bias : (Format.binary64.exponentBias : Int) = 1023 := rfl
    have small : ¬ 2 ^ Format.binary64.exponentBits ≤ (exponent + Format.binary64.exponentBias +
        Format.binary64.mantissaBitsWithoutImplicit).toNat + 1 := by
      rw [bias]
      norm_num
      omega
    rw [UnpackedFloat.pack]
    dsimp only
    rw [if_neg small]
    split
    · rw [Float.Model.UnpackedFloat.unpackExponent_packComponents, Ne,
        ← BitVec.toNat_inj, BitVec.toNat_ofNat]
      intro full
      rw [bias] at full small
      have width : Format.binary64.exponentBits = 11 := rfl
      have all : (-1#11 : BitVec 11).toNat = 2047 := rfl
      have same : ((exponent + 1023 + (52 : Nat)).toNat) % 2 ^ 11 = 2047 := full
      omega
    · rw [Float.Model.UnpackedFloat.unpackExponent_packComponents]
      decide

theorem packs_of_isFinite {number : Float} (finite : isFinite number = true) :
    Packs number.toModel.unpack := by
  rw [isFinite_iff] at finite
  have below : (unpackExponent (bits number)).toNat < 2048 := (unpackExponent (bits number)).isLt
  have notAll : (unpackExponent (bits number)).toNat ≠ 2047 := fun same =>
    finite (BitVec.toNat_inj.mp same)
  have unfolded : number.toModel.unpack = UnpackedFloat.unpack Format.binary64 (bits number) := rfl
  rw [unfolded, UnpackedFloat.unpack]
  simp only [finite, if_false]
  split
  · split
    · exact .zero _
    · next zero _ =>
      refine .finite _ _ _ _ ?_
      simp [zero, Format.exponentBias]
  · refine .finite _ _ _ _ ?_
    simp only [Format.exponentBias]
    norm_num
    omega

theorem not_isFinite_infinity (sign : UnpackedFloat.Sign) :
    isFinite ⟨.pack (.infinity sign)⟩ = false := by
  rw [← Bool.not_eq_true, isFinite_iff, bits_pack]
  simp [UnpackedFloat.pack, Float.Model.UnpackedFloat.packedInfinity]

theorem not_isFinite_notANumber : isFinite ⟨.pack .notANumber⟩ = false := by
  rw [← Bool.not_eq_true, isFinite_iff, bits_pack]
  simp [UnpackedFloat.pack, Float.Model.UnpackedFloat.packedNaN]

theorem unpack_of_not_isFinite {number : Float} (notFinite : isFinite number = false) :
    (∃ sign, number.toModel.unpack = .infinity sign) ∨ number.toModel.unpack = .notANumber := by
  rw [← Bool.not_eq_true, isFinite_iff, not_not] at notFinite
  have unfolded : number.toModel.unpack = UnpackedFloat.unpack Format.binary64 (bits number) := rfl
  rw [unfolded, UnpackedFloat.unpack]
  simp only [notFinite, if_true]
  split
  · exact .inl ⟨_, rfl⟩
  · exact .inr rfl

/-- The opposite of a number is finite just if the number is. -/
theorem isFinite_neg (number : Float) : isFinite (-number) = isFinite number := by
  have opposite : -number = ⟨.pack number.toModel.unpack.neg⟩ := rfl
  rw [opposite]
  cases finite : isFinite number with
  | true =>
    refine isFinite_pack ?_
    have packs := packs_of_isFinite finite
    generalize number.toModel.unpack = unpacked at packs
    cases packs with
    | zero sign => exact .zero _
    | finite sign mantissa exponent positive room => exact .finite _ _ _ _ room
  | false =>
    obtain ⟨sign, unpacked⟩ | unpacked := unpack_of_not_isFinite finite
    · rw [unpacked]
      exact not_isFinite_infinity _
    · rw [unpacked]
      exact not_isFinite_notANumber

/-- Zero less a number is finite just if the number is. -/
theorem isFinite_zero_sub {zero : Float} {sign : UnpackedFloat.Sign}
    (isZero : zero.toModel.unpack = .zero sign) (number : Float) :
    isFinite (zero - number) = isFinite number := by
  have difference : zero - number =
      ⟨.pack (.sub Format.binary64 (.zero sign) number.toModel.unpack)⟩ := by
    rw [← isZero]
    rfl
  rw [difference]
  cases finite : isFinite number with
  | true =>
    refine isFinite_pack ?_
    have packs := packs_of_isFinite finite
    generalize number.toModel.unpack = unpacked at packs
    cases packs with
    | zero other =>
      rw [UnpackedFloat.sub]
      split <;> exact .zero _
    | finite sign mantissa exponent positive room => exact .finite _ _ _ _ room
  | false =>
    obtain ⟨other, unpacked⟩ | unpacked := unpack_of_not_isFinite finite
    · rw [unpacked]
      exact not_isFinite_infinity _
    · rw [unpacked]
      exact not_isFinite_notANumber

theorem scaled_eq_zero {whole exponent : Int} (isZero : scaled whole exponent = 0) : whole = 0 := by
  unfold scaled at isZero
  split at isZero
  · next positive =>
    have product : whole * (Nat.pow 2 exponent.toNat : Nat) = 0 := by exact_mod_cast isZero
    have power : (Nat.pow 2 exponent.toNat : Int) ≠ 0 := by
      exact_mod_cast (Nat.two_pow_pos exponent.toNat).ne'
    exact (Int.mul_eq_zero.mp product).resolve_right power
  · have power : Nat.pow 2 (-exponent).toNat ≠ 0 := (Nat.two_pow_pos _).ne'
    exact (Rat.mkRat_eq_zero power).mp isZero

/-- A floating-point number that is zero is read as a zero of either sign. -/
theorem unpack_of_eq_zero {number : Float} (isZero : (Number.float number).eq (.int 0) = true) :
    ∃ sign, number.toModel.unpack = .zero sign := by
  have exact_ : ∃ negative mantissa exponent, read number = .finite negative mantissa exponent ∧
      mantissa = 0 := by
    unfold Number.eq Number.place? at isZero
    split at isZero
    · next place other here there =>
      cases there
      dsimp only at here
      split at here
      · cases here
      · next negative _ =>
        cases here
        cases negative <;> simp at isZero
      · next negative mantissa exponent isRead =>
        cases here
        refine ⟨negative, mantissa, exponent, isRead, ?_⟩
        have value : scaled (if negative = true then -mantissa else mantissa) exponent = 0 := by
          simpa using isZero
        have whole := scaled_eq_zero value
        split at whole <;> omega
    · cases isZero
  obtain ⟨negative, mantissa, exponent, isRead, none⟩ := exact_
  have scale : number.toBits.toNat / Nat.pow 2 52 % 2048 = 0 ∧
      number.toBits.toNat % Nat.pow 2 52 = 0 := by
    unfold read at isRead
    dsimp only at isRead
    split at isRead
    · split at isRead <;> cases isRead
    · split at isRead
      · next isSmall =>
        cases isRead
        exact ⟨isSmall, none⟩
      · cases isRead
        have leading : 0 < Nat.pow 2 52 := Nat.two_pow_pos 52
        omega
  have noExponent : unpackExponent (bits number) = 0#_ :=
    BitVec.toNat_inj.mp ((exponent_eq number).trans scale.1)
  have noMantissa : unpackMantissa (bits number) = 0#_ :=
    BitVec.toNat_inj.mp ((fraction_eq number).trans scale.2)
  have unfolded : number.toModel.unpack = UnpackedFloat.unpack Format.binary64 (bits number) := rfl
  rw [unfolded, UnpackedFloat.unpack]
  simp [noExponent, noMantissa]

/-- The whole number zero is rounded to a zero. -/
theorem unpack_toFloat_zero :
    ∃ zero, (Number.int 0).toFloat = .ok zero ∧ ∃ sign, zero.toModel.unpack = .zero sign :=
  ⟨Float.ofBits 0, by decide +kernel, unpack_of_eq_zero (by decide +kernel)⟩

end Binary64

/-- What a number is rounded to is finite, unless the number is not. -/
theorem Number.isFinite_of_toFloat {value : Int} {rounded : Float}
    (rounds : (Number.int value).toFloat = .ok rounded) : Binary64.isFinite rounded = true := by
  unfold Number.toFloat at rounds
  dsimp only at rounds
  split at rounds
  · next finite =>
    cases rounds
    exact finite
  · cases rounds

theorem Number.int_of_eq_zero {value : Int} (isZero : (Number.int value).eq (.int 0) = true) :
    value = 0 := by
  simpa [Number.eq, Number.place?] using isZero

end GlyphCompiler
