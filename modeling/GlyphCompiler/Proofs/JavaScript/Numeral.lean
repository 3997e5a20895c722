/-
# Numbers as they are written

The literal of a number is its sign and a numeral: digits, perhaps a point and more
digits, and perhaps an exponent. The sign is written like the operator, with
parentheses around both.
-/

import GlyphCompiler.Proofs.JavaScript.Tokens
import GlyphCompiler.Proofs.Number.Order
import GlyphCompiler.Proofs.Number.Shortest
import GlyphCompiler.Proofs.Analysis.Regular

namespace GlyphCompiler

namespace JavaScript

open Pattern (isNamePart)

/-- What is written of a number without its sign: the digits before and after the point,
which is left out with the latter, and the exponent with its sign. -/
structure Numeral where
  whole : List Char
  fraction : List Char
  exponent : Option (Char × List Char)
  deriving DecidableEq

namespace Numeral

/-- A numeral without a point or an exponent. -/
def plain (whole : List Char) : Numeral := ⟨whole, [], none⟩

/-- The digits of a whole number. -/
def ofNat (number : Nat) : Numeral := plain (Nat.toDigits 10 number)

/-- The text of the exponent of a numeral. -/
def exponentText (numeral : Numeral) : List Char :=
  match numeral.exponent with
  | none => []
  | some (sign, digits) => 'e' :: sign :: digits

/-- The text of a numeral. -/
def text (numeral : Numeral) : List Char :=
  numeral.whole ++ (if numeral.fraction.isEmpty then [] else '.' :: numeral.fraction) ++
    numeral.exponentText

/-- The numeral of a decimal. -/
def ofDecimal (value : Decimal) : Numeral :=
  let digits := Nat.toDigits 10 value.digits
  let leading := (digits.length : Int) - 1 + value.exponent
  if leading < -4 || 16 ≤ leading then
    ⟨digits.take 1, digits.drop 1, some (if leading < 0 then '-' else '+',
      (if leading.natAbs < 10 then ['0'] else []) ++ Nat.toDigits 10 leading.natAbs)⟩
  else if 0 ≤ value.exponent then
    ⟨digits ++ List.replicate value.exponent.toNat '0', ['0'], none⟩
  else if 0 ≤ leading then
    ⟨digits.take (leading.toNat + 1), digits.drop (leading.toNat + 1), none⟩
  else ⟨['0'], List.replicate (-leading - 1).toNat '0' ++ digits, none⟩

/-- The numeral of a floating-point number. -/
def ofFloat (value : Float) : Numeral :=
  match Binary64.read value with
  | .notANumber => plain ['n', 'a', 'n']
  | .infinite _ => plain ['i', 'n', 'f']
  | .finite _ mantissa exponent =>
    let exact := Binary64.scaled mantissa exponent
    if exact.den = 1 && (Number.float value).abs.lt wholeLimit then ofNat exact.num.natAbs
    else ofDecimal (shortestDecimal mantissa exponent)

/-- The numeral of a number. -/
def ofNumber : Number → Numeral
  | .int value => ofNat value.natAbs
  | .float value => ofFloat value

end Numeral

/-- The text of a number: its numeral, with the sign and parentheses if it is negative. -/
def signed (negative : Bool) (numeral : Numeral) : List Char :=
  if negative then '(' :: '-' :: numeral.text ++ [')'] else numeral.text

theorem toList_toString_nat (number : Nat) : (toString number).toList = Nat.toDigits 10 number := by
  rw [Nat.toString_eq_ofList_toDigits, String.toList_ofList]

theorem toList_toString_int (number : Int) :
    (toString number).toList = (if number < 0 then ['-'] else []) ++ Nat.toDigits 10 number.natAbs := by
  rw [Int.toString_eq_repr, Int.repr_eq_if]
  split
  · next positive =>
    rw [if_neg (by omega), Nat.repr_eq_ofList_toDigits, String.toList_ofList,
      show number.toNat = number.natAbs by omega]
    rfl
  · next negative =>
    rw [if_pos (by omega), String.toList_append, Nat.repr_eq_ofList_toDigits, String.toList_ofList,
      show (-number).toNat = number.natAbs by omega]
    simp

theorem toList_decimalText (value : Decimal) :
    (Number.decimalText value).toList = (Numeral.ofDecimal value).text := by
  unfold Number.decimalText Numeral.ofDecimal
  simp only
  split
  · simp only [String.toList_append, String.toList_ofList, Number.exponentText, Numeral.text,
      Numeral.exponentText, toList_toString_nat, apply_ite String.toList]
    split <;> split <;> simp
  · split
    · simp [Numeral.text, Numeral.exponentText]
    · split
      · next negative positive =>
        have more : (Nat.toDigits 10 value.digits).length > (((Nat.toDigits 10 value.digits).length : Int)
            - 1 + value.exponent).toNat + 1 := by omega
        simp [Numeral.text, Numeral.exponentText, Nat.not_le.mpr more]
      · simp [Numeral.text, Numeral.exponentText, Nat.toDigits_ne_nil]

/-! ## Signs -/

/-- A finite floating-point number is below zero if it has the sign, unless it is zero. -/
theorem isNegative_float {value : Float} {negative : Bool} {mantissa : Nat} {exponent : Int}
    (finite : Binary64.read value = .finite negative mantissa exponent) :
    (Number.float value).isNegative = (negative && mantissa ≠ 0) := by
  have unit : (0 : ℚ) < 2 ^ exponent := zpow_pos (by norm_num) _
  have positive : (0 : ℚ) < mantissa * 2 ^ exponent ↔ mantissa ≠ 0 := by
    rw [mul_pos_iff_of_pos_right unit, Nat.cast_pos, Nat.pos_iff_ne_zero]
  have notBelow : ¬ (mantissa * 2 ^ exponent : ℚ) < 0 := not_lt.mpr (by positivity)
  cases negative <;>
    simp [Number.isNegative, Number.lt, Number.place?, finite, Binary64.scaled_eq, positive, notBelow]

/-- Zero is written like a whole number. -/
theorem lt_wholeLimit_of_zero {value : Float} {negative : Bool} {exponent : Int}
    (zero : Binary64.read value = .finite negative 0 exponent) :
    (Number.float value).abs.lt wholeLimit = true := by
  have notNegative : (Number.float value).isNegative = false := by simp [isNegative_float zero]
  rw [Number.abs, if_neg (by simp [notNegative])]
  simp [Number.lt, Number.place?, zero, Binary64.scaled_eq, wholeLimit]

/-- The text of a finite floating-point number is its numeral, with the sign if it is
below zero. -/
theorem numberText_finite {value : Float} {negative : Bool} {mantissa : Nat} {exponent : Int}
    (finite : Binary64.read value = .finite negative mantissa exponent) :
    ∃ text, numberText (.float value) = .ok text ∧
      text.toList = (if (Number.float value).isNegative then ['-'] else []) ++
        (Numeral.ofFloat value).text := by
  have unit : (0 : ℚ) < 2 ^ exponent := zpow_pos (by norm_num) _
  have size : Binary64.scaled mantissa exponent = mantissa * 2 ^ exponent := Binary64.scaled_eq _ _
  have exact : Binary64.value? value = some (if negative then -Binary64.scaled mantissa exponent
      else Binary64.scaled mantissa exponent) := by
    cases negative <;> simp [Binary64.value?, finite, Binary64.scaled_eq]
  have denominator : (if negative then -Binary64.scaled mantissa exponent
      else Binary64.scaled mantissa exponent).den = (Binary64.scaled mantissa exponent).den := by
    cases negative <;> simp
  simp only [numberText, exact, denominator, Numeral.ofFloat, finite]
  split
  · next whole =>
    refine ⟨_, rfl, ?_⟩
    rw [toList_toString_int, isNegative_float finite]
    have sign : (if negative then -Binary64.scaled mantissa exponent
        else Binary64.scaled mantissa exponent).num < 0 ↔ (negative && mantissa ≠ 0) = true := by
      rw [Rat.num_neg, size]
      cases negative with
      | false =>
        have : ¬ (mantissa * 2 ^ exponent : ℚ) < 0 := not_lt.mpr (by positivity)
        simp [this]
      | true => simp [mul_pos_iff_of_pos_right unit, Nat.pos_iff_ne_zero]
    have digits : (if negative then -Binary64.scaled mantissa exponent
        else Binary64.scaled mantissa exponent).num.natAbs =
          (Binary64.scaled mantissa exponent).num.natAbs := by
      cases negative <;> simp
    simp only [sign, digits, Numeral.text, Numeral.ofNat, Numeral.plain, Numeral.exponentText,
      List.isEmpty_nil, if_true, List.append_nil]
  · next notWhole =>
    refine ⟨_, rfl, ?_⟩
    have nonzero : mantissa ≠ 0 := by
      rintro rfl
      refine notWhole ?_
      rw [lt_wholeLimit_of_zero finite, size]
      simp
    rw [Number.floatText, finite, isNegative_float finite]
    simp only [String.toList_append, toList_decimalText]
    cases negative <;> simp [nonzero]

/-- The literal of a floating-point number is its numeral with its sign. -/
theorem numberText_float (value : Float) : ∃ text, numberText (.float value) = .ok text ∧
    text.toList = (if (Number.float value).isNegative then ['-'] else []) ++
      (Numeral.ofFloat value).text := by
  cases known : Binary64.read value with
  | finite negative mantissa exponent => exact numberText_finite known
  | notANumber =>
    refine ⟨"nan", by simp [numberText, Binary64.value?, known, Number.floatText], ?_⟩
    simp [Number.isNegative, Number.lt, Number.place?, known, Numeral.ofFloat, Numeral.text,
      Numeral.plain, Numeral.exponentText]
  | infinite negative =>
    refine ⟨if negative then "-inf" else "inf",
      by simp [numberText, Binary64.value?, known, Number.floatText], ?_⟩
    cases negative <;>
      simp [Number.isNegative, Number.lt, Number.place?, known, Numeral.ofFloat, Numeral.text,
        Numeral.plain, Numeral.exponentText]

/-- A number that is not too long is written as its numeral with its sign. -/
theorem numberLiteral_of_short {info : Info} {value : Number}
    (short : (Node.expr (.number info value)).Short) : ∃ text, numberLiteral value = .ok text ∧
      text.toList = signed value.isNegative (Numeral.ofNumber value) := by
  have written : ∃ text, numberText value = .ok text ∧
      text.toList = (if value.isNegative then ['-'] else []) ++ (Numeral.ofNumber value).text := by
    cases value with
    | float value => exact numberText_float value
    | int value =>
      refine ⟨toString value, ?_, ?_⟩
      · unfold Node.Short at short
        simp only at short
        rw [numberText, Number.intText, if_neg (Nat.not_le.mpr short)]
      · rw [toList_toString_int, Number.isNegative_int]
        simp [Numeral.ofNumber, Numeral.ofNat, Numeral.plain, Numeral.text, Numeral.exponentText]
  obtain ⟨text, ran, spelled⟩ := written
  refine ⟨if value.isNegative then "(" ++ text ++ ")" else text, ?_, ?_⟩
  · simp [numberLiteral, ran, bind, Except.bind, pure, Except.pure]
  · unfold signed
    split <;> simp_all

theorem numberLiteral_of_not_short {info : Info} {value : Number}
    (long : ¬ (Node.expr (.number info value)).Short) :
    numberLiteral value = .error .tooManyDigits := by
  cases value with
  | float value => exact absurd trivial long
  | int value =>
    unfold Node.Short at long
    simp only at long
    rw [numberLiteral, numberText, Number.intText, if_pos (Nat.not_lt.mp long)]
    rfl

/-! ## Tokens of numerals -/

/-- Tokens between parentheses. -/
def parenthesized (tokens : List Token) : List Token :=
  .mark '(' :: tokens ++ [.mark ')']

namespace Numeral

/-- The letter that announces an exponent. -/
def marker (numeral : Numeral) : List Char :=
  if numeral.exponent.isSome then ['e'] else []

/-- The tokens of a numeral. A point and the sign of an exponent are tokens of their own. -/
def tokens (numeral : Numeral) : List Token :=
  (if numeral.fraction.isEmpty then [.word (numeral.whole ++ numeral.marker)]
    else [.word numeral.whole, .mark '.', .word (numeral.fraction ++ numeral.marker)]) ++
    match numeral.exponent with
    | none => []
    | some (sign, digits) => [.mark sign, .word digits]

/-- A numeral is made of digits where there are any. -/
structure Proper (numeral : Numeral) : Prop where
  whole_ne_nil : numeral.whole ≠ []
  whole : ∀ character ∈ numeral.whole, character.isDigit = true
  fraction : ∀ character ∈ numeral.fraction, character.isDigit = true
  exponent : ∀ pair ∈ numeral.exponent, (pair.1 = '+' ∨ pair.1 = '-') ∧ pair.2 ≠ [] ∧
    ∀ character ∈ pair.2, character.isDigit = true

/-- The numerals of what is not a finite number. -/
def unbounded : List Numeral := [plain ['n', 'a', 'n'], plain ['i', 'n', 'f']]

theorem proper_ofNat (number : Nat) : (ofNat number).Proper where
  whole_ne_nil := Nat.toDigits_ne_nil
  whole _ := Nat.isDigit_of_mem_toDigits (by decide) (by decide)
  fraction := by simp [ofNat, plain]
  exponent := by simp [ofNat, plain]

theorem isDigit_of_mem_replicate {count : Nat} {character : Char}
    (member : character ∈ List.replicate count '0') : character.isDigit = true := by
  rw [List.eq_of_mem_replicate member]
  rfl

theorem proper_ofDecimal (value : Decimal) : (ofDecimal value).Proper := by
  have digit {number : Nat} (character : Char) : character ∈ Nat.toDigits 10 number →
      character.isDigit = true := Nat.isDigit_of_mem_toDigits (by decide) (by decide)
  have nonempty : Nat.toDigits 10 value.digits ≠ [] := Nat.toDigits_ne_nil
  unfold ofDecimal
  simp only
  split
  · refine ⟨by simp [nonempty], fun character member => digit character (List.mem_of_mem_take member),
      fun character member => digit character (List.mem_of_mem_drop member), ?_⟩
    rintro pair ⟨⟩
    refine ⟨by split <;> simp, by simp [Nat.toDigits_ne_nil], fun character member => ?_⟩
    obtain zero | member := List.mem_append.mp member
    · split at zero
      · rw [List.mem_singleton.mp zero]
        rfl
      · cases zero
    · exact digit character member
  · split
    · refine ⟨by simp [nonempty], fun character member => ?_, by simp, by simp⟩
      obtain member | zero := List.mem_append.mp member
      · exact digit character member
      · exact isDigit_of_mem_replicate zero
    · split
      · exact ⟨by simp [nonempty], fun character member => digit character (List.mem_of_mem_take member),
          fun character member => digit character (List.mem_of_mem_drop member), by simp⟩
      · refine ⟨by simp, by simp, fun character member => ?_, by simp⟩
        obtain zero | member := List.mem_append.mp member
        · exact isDigit_of_mem_replicate zero
        · exact digit character member

/-- The numeral of a number is made of digits, or is one of two words. -/
theorem proper_ofNumber (value : Number) : (ofNumber value).Proper ∨ ofNumber value ∈ unbounded := by
  cases value with
  | int value => exact .inl (proper_ofNat _)
  | float value =>
    rw [ofNumber, ofFloat]
    cases Binary64.read value with
    | notANumber => exact .inr List.mem_cons_self
    | infinite negative => exact .inr (List.mem_cons_of_mem _ List.mem_cons_self)
    | finite negative mantissa exponent =>
      simp only
      split
      · exact .inl (proper_ofNat _)
      · exact .inl (proper_ofDecimal _)

theorem isNamePart_of_isDigit {character : Char} (digit : character.isDigit = true) :
    isNamePart character = true := by
  simp [isNamePart, Char.isAlphanum, digit]

theorem all_isNamePart {characters : List Char}
    (digits : ∀ character ∈ characters, character.isDigit = true) :
    characters.all isNamePart = true :=
  List.all_eq_true.mpr fun character member => isNamePart_of_isDigit (digits character member)

theorem all_isNamePart_marker (numeral : Numeral) : numeral.marker.all isNamePart = true := by
  unfold marker
  split <;> decide

/-- A numeral spells its tokens. -/
theorem spells_of_proper {numeral : Numeral} (proper : numeral.Proper) :
    Spells numeral.text numeral.tokens := by
  have whole : Spells (numeral.whole ++ numeral.marker) [.word (numeral.whole ++ numeral.marker)] :=
    spells_word (by simp only [List.all_append, all_isNamePart proper.whole,
      all_isNamePart_marker, Bool.and_self]) (by simp [proper.whole_ne_nil])
  have mantissa : Spells (numeral.whole ++ (if numeral.fraction.isEmpty then []
        else '.' :: numeral.fraction) ++ numeral.marker)
      (if numeral.fraction.isEmpty then [.word (numeral.whole ++ numeral.marker)]
        else [.word numeral.whole, .mark '.', .word (numeral.fraction ++ numeral.marker)]) := by
    split
    · simpa using whole
    · next nonempty =>
      have fraction : Spells (numeral.fraction ++ numeral.marker)
          [.word (numeral.fraction ++ numeral.marker)] :=
        spells_word (by simp only [List.all_append, all_isNamePart proper.fraction,
          all_isNamePart_marker, Bool.and_self]) (by simp_all)
      have integral : Spells numeral.whole [.word numeral.whole] :=
        spells_word (all_isNamePart proper.whole) proper.whole_ne_nil
      simpa using integral.append_mark (by decide : isMark '.' = true) fraction
  have proper := proper.exponent
  unfold marker at mantissa
  unfold text tokens marker exponentText
  cases known : numeral.exponent with
  | none => simpa [known] using mantissa
  | some pair =>
    obtain ⟨sign, nonempty, digits⟩ := proper pair known
    have isMark : isMark pair.1 = true := by
      obtain sign | sign := sign <;> rw [sign] <;> decide
    rw [known] at mantissa
    simpa using mantissa.append_mark isMark (spells_word (all_isNamePart digits) nonempty)

theorem spells_of_mem_unbounded {numeral : Numeral} (unbounded : numeral ∈ unbounded) :
    Spells numeral.text numeral.tokens := by
  rw [Numeral.unbounded, List.mem_cons, List.mem_singleton] at unbounded
  obtain rfl | rfl := unbounded <;> exact spells_word (by decide) (by decide)

/-- A numeral spells its tokens. -/
theorem spells_ofNumber (value : Number) : Spells (ofNumber value).text (ofNumber value).tokens :=
  (proper_ofNumber value).elim spells_of_proper spells_of_mem_unbounded

end Numeral

/-- The tokens of a number. -/
def numberTokens (value : Number) : List Token :=
  if value.isNegative then parenthesized (.mark '-' :: (Numeral.ofNumber value).tokens)
  else (Numeral.ofNumber value).tokens

theorem spells_signed (value : Number) :
    Spells (signed value.isNegative (Numeral.ofNumber value)) (numberTokens value) := by
  have numeral := Numeral.spells_ofNumber value
  unfold signed numberTokens
  split
  · have opened := ((closed_mark (by decide : isMark '(' = true)).append
      (closed_mark (by decide : isMark '-' = true))).append_spells numeral
    exact (opened.append_closed (closed_mark (by decide : isMark ')' = true)) (by decide)).spells
  · exact numeral

/-! ## Numbers with the same numeral -/

namespace Numeral

/-- The value of the exponent of a numeral. -/
def power (numeral : Numeral) : Int :=
  match numeral.exponent with
  | none => 0
  | some (sign, digits) =>
    if sign = '-' then -Nat.ofDigitChars 10 digits 0 else Nat.ofDigitChars 10 digits 0

/-- The value of a numeral. -/
def value (numeral : Numeral) : ℚ :=
  Nat.ofDigitChars 10 (numeral.whole ++ numeral.fraction) 0 *
    (10 : ℚ) ^ (numeral.power - numeral.fraction.length)

theorem ofDigitChars_padded (number : Nat) :
    Nat.ofDigitChars 10 ((if number < 10 then ['0'] else []) ++ Nat.toDigits 10 number) 0 = number := by
  split
  · exact (Nat.ofDigitChars_cons).trans Nat.ofDigitChars_ten_toDigits
  · exact Nat.ofDigitChars_ten_toDigits

/-- The exponent that is written of a decimal is read back. -/
theorem power_written (whole fraction : List Char) (leading : Int) :
    power ⟨whole, fraction, some (if leading < 0 then '-' else '+',
      (if leading.natAbs < 10 then ['0'] else []) ++ Nat.toDigits 10 leading.natAbs)⟩ = leading := by
  simp only [power, ofDigitChars_padded]
  by_cases negative : leading < 0
  · rw [if_pos negative, if_pos rfl]
    omega
  · rw [if_neg negative, if_neg (by decide)]
    omega

/-- The numeral of a decimal has its value. -/
theorem value_ofDecimal (decimal : Decimal) : (ofDecimal decimal).value = decimal.value := by
  have digits : Nat.ofDigitChars 10 (Nat.toDigits 10 decimal.digits) 0 = decimal.digits :=
    Nat.ofDigitChars_ten_toDigits
  have long : 0 < (Nat.toDigits 10 decimal.digits).length := Nat.length_toDigits_pos
  unfold ofDecimal
  simp only
  split
  · have places : ((Nat.toDigits 10 decimal.digits).length : Int) - 1 + decimal.exponent -
        ((Nat.toDigits 10 decimal.digits).drop 1).length = decimal.exponent := by
      rw [List.length_drop]
      omega
    rw [value, power_written, places]
    simp only [List.take_append_drop, digits, Decimal.value]
  · split
    · next positive =>
      obtain ⟨places, same⟩ := Int.eq_ofNat_of_zero_le positive
      simp only [value, power, same, Int.toNat_natCast, List.append_assoc, Nat.ofDigitChars_append,
        digits, Nat.ofDigitChars_replicate_zero, Decimal.value, zpow_natCast]
      simp [Nat.ofDigitChars_cons, Nat.ofDigitChars_nil]
      ring
    · split
      · next negative leading =>
        have places : (0 : Int) - ((Nat.toDigits 10 decimal.digits).drop
            ((((Nat.toDigits 10 decimal.digits).length : Int) - 1 + decimal.exponent).toNat + 1)).length =
              decimal.exponent := by
          rw [List.length_drop]
          omega
        simp only [value, power, places, List.take_append_drop, digits, Decimal.value]
      · next negative leading =>
        have places : (0 : Int) - (List.replicate (-(((Nat.toDigits 10 decimal.digits).length : Int) - 1 +
            decimal.exponent) - 1).toNat '0' ++ Nat.toDigits 10 decimal.digits).length =
              decimal.exponent := by
          rw [List.length_append, List.length_replicate]
          omega
        rw [value]
        simp only [power, places]
        simp [Nat.ofDigitChars_cons, Nat.ofDigitChars_append, Nat.ofDigitChars_replicate_zero, digits,
          Decimal.value]

end Numeral

/-- The size of a number on the extended line: the first part tells infinity from the finite
sizes. What is not a number has none. -/
def magnitude (number : Number) : Option (Int × ℚ) :=
  number.place?.map fun place => (|place.1|, |place.2|)

/-- What is written with a numeral: a whole number, a decimal that stands for the
floating-point number next to it, or what is not a finite number. -/
inductive Shows : Numeral → Option (Int × ℚ) → Prop
  | whole (number : Nat) : Shows (.ofNat number) (some (0, number))
  | decimal {mantissa : Nat} {exponent : Int} (canonical : Shortest.Canonical mantissa exponent) :
    Shows (.ofDecimal (shortestDecimal mantissa exponent)) (some (0, mantissa * 2 ^ exponent))
  | notANumber : Shows (.plain ['n', 'a', 'n']) none
  | infinite : Shows (.plain ['i', 'n', 'f']) (some (1, 0))

theorem shows_ofNumber (number : Number) : Shows (.ofNumber number) (magnitude number) := by
  cases number with
  | int value =>
    have size : magnitude (.int value) = some (0, (value.natAbs : ℚ)) := by
      simp [magnitude, Number.place?, Nat.cast_natAbs]
    rw [size]
    exact .whole _
  | float value =>
    rw [Numeral.ofNumber, Numeral.ofFloat, magnitude, Number.place?]
    cases known : Binary64.read value with
    | notANumber => exact .notANumber
    | infinite negative => cases negative <;> exact .infinite
    | finite negative mantissa exponent =>
      have size : |Binary64.scaled (if negative then -mantissa else mantissa) exponent| =
          mantissa * 2 ^ exponent := by
        have positive : (0 : ℚ) ≤ mantissa * 2 ^ exponent := by positivity
        cases negative <;> simp [Binary64.scaled_eq, abs_of_nonneg positive]
      simp only [Option.map_some, abs_zero, size]
      split
      · next isWhole =>
        simp only [Bool.and_eq_true, decide_eq_true_eq] at isWhole
        have value : Binary64.scaled mantissa exponent = mantissa * 2 ^ exponent :=
          Binary64.scaled_eq _ _
        have numerator : (mantissa * 2 ^ exponent : ℚ) =
            ((Binary64.scaled mantissa exponent).num.natAbs : ℚ) := by
          have positive : (0 : ℚ) ≤ mantissa * 2 ^ exponent := by positivity
          rw [← value] at positive ⊢
          rw [Nat.cast_natAbs, abs_of_nonneg (Rat.num_nonneg.mpr positive)]
          exact ((Rat.den_eq_one_iff _).mp isWhole.1).symm
        rw [numerator]
        exact .whole _
      · exact .decimal (canonical_of_read known)

theorem ofNat_inj {number other : Nat} (same : Numeral.ofNat number = Numeral.ofNat other) :
    number = other := by
  have digits : Nat.toDigits 10 number = Nat.toDigits 10 other := congrArg Numeral.whole same
  rw [← @Nat.ofDigitChars_ten_toDigits number, digits, Nat.ofDigitChars_ten_toDigits]

/-- The numeral of a decimal has a point or an exponent. -/
theorem ofDecimal_ne_plain (decimal : Decimal) (whole : List Char) :
    Numeral.ofDecimal decimal ≠ .plain whole := by
  have long : 0 < (Nat.toDigits 10 decimal.digits).length := Nat.length_toDigits_pos
  unfold Numeral.ofDecimal Numeral.plain
  simp only
  split
  · simp
  · split
    · simp
    · split
      · simp only [ne_eq, Numeral.mk.injEq, List.drop_eq_nil_iff, not_and]
        omega
      · simp [Nat.toDigits_ne_nil]

/-- What is not a finite number is not written with digits. -/
theorem ofNat_ne_plain (number : Nat) {first : Char} (letter : first.isDigit = false)
    (rest : List Char) : Numeral.ofNat number ≠ .plain (first :: rest) := by
  intro same
  have digit : first.isDigit = true := (Numeral.proper_ofNat number).whole first (by
    rw [same]
    exact List.mem_cons_self)
  rw [letter] at digit
  cases digit

/-- Numbers with the same numeral are of the same size. -/
theorem eq_of_shows {numeral other : Numeral} {first second : Option (Int × ℚ)}
    (shows_ : Shows numeral first) (showsOther : Shows other second) (same : numeral = other) :
    first = second := by
  cases shows_ with
  | whole number =>
    cases showsOther with
    | whole number' => rw [ofNat_inj same]
    | decimal _ => exact absurd same.symm (ofDecimal_ne_plain _ _)
    | notANumber => exact absurd same (ofNat_ne_plain _ (by decide) _)
    | infinite => exact absurd same (ofNat_ne_plain _ (by decide) _)
  | @decimal mantissa exponent canonical =>
    cases showsOther with
    | whole number => exact absurd same (ofDecimal_ne_plain _ _)
    | decimal canonicalOther =>
      have values := congrArg Numeral.value same
      rw [Numeral.value_ofDecimal, Numeral.value_ofDecimal] at values
      obtain ⟨rfl, rfl⟩ := eq_of_shortestDecimal canonical canonicalOther values
      rfl
    | notANumber => exact absurd same (ofDecimal_ne_plain _ _)
    | infinite => exact absurd same (ofDecimal_ne_plain _ _)
  | notANumber =>
    cases showsOther with
    | whole number => exact absurd same.symm (ofNat_ne_plain _ (by decide) _)
    | decimal _ => exact absurd same.symm (ofDecimal_ne_plain _ _)
    | notANumber => rfl
    | infinite => exact absurd same (by decide)
  | infinite =>
    cases showsOther with
    | whole number => exact absurd same.symm (ofNat_ne_plain _ (by decide) _)
    | decimal _ => exact absurd same.symm (ofDecimal_ne_plain _ _)
    | notANumber => exact absurd same (by decide)
    | infinite => rfl

/-- Numbers that are written alike are of the same size. -/
theorem magnitude_eq {number other : Number}
    (same : Numeral.ofNumber number = Numeral.ofNumber other) : magnitude number = magnitude other :=
  eq_of_shows (shows_ofNumber number) (shows_ofNumber other) same

end JavaScript

end GlyphCompiler
