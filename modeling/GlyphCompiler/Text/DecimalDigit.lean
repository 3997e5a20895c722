/-
# Decimal digits of every script

Number literals may be written with the decimal digits of any script. Unicode
keeps the ten digits of a script together and in order, so the table lists the
zeros alone, and the value of a digit is its distance from the zero below it.
-/

namespace GlyphCompiler

namespace DecimalDigit

/-- The code points of the zeros, in increasing order. -/
def zeros : List Nat :=
  [0x30, 0x660, 0x6F0, 0x7C0, 0x966, 0x9E6, 0xA66, 0xAE6, 0xB66, 0xBE6, 0xC66, 0xCE6,
    0xD66, 0xDE6, 0xE50, 0xED0, 0xF20, 0x1040, 0x1090, 0x17E0, 0x1810, 0x1946, 0x19D0,
    0x1A80, 0x1A90, 0x1B50, 0x1BB0, 0x1C40, 0x1C50, 0xA620, 0xA8D0, 0xA900, 0xA9D0,
    0xA9F0, 0xAA50, 0xABF0, 0xFF10, 0x104A0, 0x10D30, 0x11066, 0x110F0, 0x11136, 0x111D0,
    0x112F0, 0x11450, 0x114D0, 0x11650, 0x116C0, 0x11730, 0x118E0, 0x11950, 0x11C50,
    0x11D50, 0x11DA0, 0x16A60, 0x16AC0, 0x16B50, 0x1D7CE, 0x1D7D8, 0x1D7E2, 0x1D7EC,
    0x1D7F6, 0x1E140, 0x1E2F0, 0x1E950, 0x1FBF0]

/-- The value of a character as a decimal digit. -/
def value? (character : Char) : Option Nat :=
  (zeros.find? fun first => first ≤ character.toNat && character.toNat < first + 10).map
    fun first => character.toNat - first

end DecimalDigit

/-- Is a character a decimal digit of some script? -/
def isDecimalDigit (character : Char) : Bool :=
  (DecimalDigit.value? character).isSome

namespace DecimalDigit

/-- The digits of the basic alphabet have the values that they show. -/
theorem value?_of_isDigit {character : Char} (digit : character.isDigit) :
    value? character = some (character.toNat - '0'.toNat) := by
  have bounds : 48 ≤ character.toNat ∧ character.toNat < 58 := by
    simp only [Char.isDigit, Bool.and_eq_true, decide_eq_true_eq] at digit
    have lower : (48 : UInt32).toNat ≤ character.val.toNat := UInt32.le_iff_toNat_le.mp digit.1
    have upper : character.val.toNat ≤ (57 : UInt32).toNat := UInt32.le_iff_toNat_le.mp digit.2
    exact ⟨lower, Nat.lt_succ_of_le upper⟩
  simp [value?, zeros, bounds.1, bounds.2]

theorem value?_lt {character : Char} {value : Nat} (digit : value? character = some value) :
    value < 10 := by
  obtain ⟨first, found, rfl⟩ := Option.map_eq_some_iff.mp digit
  have inside := List.find?_some found
  simp only [Bool.and_eq_true, decide_eq_true_eq] at inside
  omega

/-- The number that a run of decimal digits spells, other characters aside. -/
def number (characters : List Char) : Nat :=
  characters.foldl (fun total character => 10 * total + (value? character).getD 0) 0

/-- A number has no more places than it is spelled with. -/
theorem number_lt (characters : List Char) : number characters < Nat.pow 10 characters.length := by
  suffices bound : ∀ total places, total < Nat.pow 10 places →
      characters.foldl (fun total character => 10 * total + (value? character).getD 0) total <
        Nat.pow 10 (places + characters.length) by
    simpa [number] using bound 0 0 (by decide)
  induction characters with
  | nil => exact fun total places below => below
  | cons character characters ih =>
    intro total places below
    have digit : (value? character).getD 0 < 10 := by
      cases known : value? character with
      | none => decide
      | some value => exact value?_lt known
    have more : 10 * total + (value? character).getD 0 < Nat.pow 10 (places + 1) := by
      have unfolded : Nat.pow 10 (places + 1) = Nat.pow 10 places * 10 := rfl
      omega
    have rest := ih _ _ more
    rwa [Nat.add_assoc, Nat.add_comm 1] at rest

end DecimalDigit

end GlyphCompiler
