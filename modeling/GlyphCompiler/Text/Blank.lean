/-
# Blank text

An input without a single visible character holds no program. White space here
is that of Unicode, together with the four separator control characters and the
next-line character; what the grammar itself skips between words is less.
-/

namespace GlyphCompiler

/-- Is a character white space? -/
def isBlank (character : Char) : Bool :=
  let code := character.toNat
  (9 ≤ code && code ≤ 13) || (0x1C ≤ code && code ≤ 0x20) || code == 0x85 || code == 0xA0 ||
    code == 0x1680 || (0x2000 ≤ code && code ≤ 0x200A) || code == 0x2028 || code == 0x2029 ||
    code == 0x202F || code == 0x205F || code == 0x3000

/-- Does a text hold white space only? -/
def isBlankText (text : String) : Bool :=
  text.toList.all isBlank

/-- Whatever the basic alphabet counts as white space is blank. -/
theorem isBlank_of_isWhitespace {character : Char} (white : character.isWhitespace) :
    isBlank character := by
  simp only [Char.isWhitespace, Bool.or_eq_true, decide_eq_true_eq] at white
  rcases white with ((rfl | rfl) | rfl) | rfl <;> decide

end GlyphCompiler
