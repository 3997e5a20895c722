/-
# Escapes in string literals

Two accounts of a string literal are compared with how it is written. Read by the rules
of the language, what stands between the quotes gives the text back: an escape names one
character, and neither a quote nor the end of a line may stand for itself. And the escapes
may be put in by replacing one character after another in the whole text, as long as no
replacement brings in a character that is replaced after it; the backslash comes first.
-/

import GlyphCompiler.Proofs.JavaScript.Tokens

namespace GlyphCompiler

namespace JavaScript

/-! ## Reading escapes -/

/-- The value of a hexadecimal digit. -/
def hexDigit? (digit : Char) : Option Nat :=
  if digit.isDigit then some (digit.toNat - '0'.toNat)
  else if 'a' ≤ digit ∧ digit ≤ 'f' then some (digit.toNat - 'a'.toNat + 10)
  else if 'A' ≤ digit ∧ digit ≤ 'F' then some (digit.toNat - 'A'.toNat + 10)
  else none

/-- The character whose code is written in hexadecimal digits. Half of a surrogate pair is none. -/
def character? (digits : List Char) : Option Char := do
  let values ← digits.mapM hexDigit?
  let code := values.foldl (fun total value => 16 * total + value) 0
  if code.isValidChar then some (Char.ofNat code) else none

/-- The character that a backslash and a single character name. -/
def named? : Char → Option Char
  | '\\' => some '\\'
  | '"' => some '"'
  | 'n' => some '\n'
  | 't' => some '\t'
  | 'r' => some '\r'
  | 'f' => some '\x0c'
  | 'v' => some '\x0b'
  | _ => none

/-- Does a character end a line? -/
def isLineEnd (character : Char) : Bool :=
  character ∈ ['\n', '\r', '\u2028', '\u2029']

/-- The text that is written between the quotes of a string literal, if it may stand there. -/
def decode? : List Char → Option (List Char)
  | [] => some []
  | '\\' :: 'x' :: first :: second :: rest =>
    (character? [first, second]).bind fun character => (decode? rest).map (character :: ·)
  | '\\' :: 'u' :: first :: second :: third :: fourth :: rest =>
    (character? [first, second, third, fourth]).bind fun character =>
      (decode? rest).map (character :: ·)
  | '\\' :: name :: rest =>
    (named? name).bind fun character => (decode? rest).map (character :: ·)
  | character :: rest =>
    if character = '\\' ∨ character = '"' ∨ isLineEnd character then none
    else (decode? rest).map (character :: ·)

/-- The characters between the quotes of a string literal that neither are the backslash of an
escape nor follow one. -/
def unescaped : List Char → List Char
  | '\\' :: _ :: rest => unescaped rest
  | character :: rest => character :: unescaped rest
  | [] => []

/-- What is written for a character is read as that character. -/
theorem decode?_escapeChar (character : Char) (rest : List Char) :
    decode? (escapeChar character ++ rest) = (decode? rest).map (character :: ·) := by
  unfold escapeChar
  split
  case h_11 backslash quote line _ carriage _ _ _ separator paragraph =>
    rw [List.singleton_append, decode?]
    · exact if_neg (by simp_all [isLineEnd])
    all_goals simp_all
  all_goals rfl

theorem decode?_flatMap (characters : List Char) :
    decode? (characters.flatMap escapeChar) = some characters := by
  induction characters with
  | nil => rfl
  | cons character characters ih =>
    rw [List.flatMap_cons, decode?_escapeChar, ih, Option.map_some]

/-- What is written for a character ends no line and brings no quote that is not escaped. -/
theorem safe_escapeChar (character : Char) (rest : List Char) :
    (∀ written ∈ escapeChar character, isLineEnd written = false) ∧
      ∀ other ∈ unescaped (escapeChar character ++ rest),
        (other ≠ '"' ∧ other ≠ '\\') ∨ other ∈ unescaped rest := by
  unfold escapeChar
  split
  case h_11 backslash quote line _ carriage _ _ _ separator paragraph =>
    constructor
    · simp_all [isLineEnd]
    · rw [List.singleton_append, unescaped]
      · simp_all
      · simp_all
  all_goals simp +contextual [unescaped, isLineEnd]

theorem safe_flatMap (characters : List Char) :
    (∀ written ∈ characters.flatMap escapeChar, isLineEnd written = false) ∧
      ∀ other ∈ unescaped (characters.flatMap escapeChar), other ≠ '"' ∧ other ≠ '\\' := by
  induction characters with
  | nil => simp [unescaped]
  | cons character characters ih =>
    obtain ⟨endless, guarded⟩ := safe_escapeChar character (characters.flatMap escapeChar)
    rw [List.flatMap_cons]
    refine ⟨fun written member => ?_, fun other member => ?_⟩
    · exact (List.mem_append.mp member).elim (endless written) (ih.1 written)
    · exact (guarded other member).elim id (ih.2 other)

theorem toList_escape (text : String) : (escape text).toList = text.toList.flatMap escapeChar :=
  String.toList_ofList

/-! ## Replacing one character after another -/

/-- A text with every occurrence of a character replaced. -/
def replaced (character : Char) (replacement text : List Char) : List Char :=
  text.flatMap fun other => if other = character then replacement else [other]

/-- Replace one character after another, each in what the replacements before it have made. -/
def replacedInTurn (replacements : List (Char × List Char)) (text : List Char) : List Char :=
  replacements.foldl (fun text entry => replaced entry.1 entry.2 text) text

/-- What stands for a character if all are replaced at once. -/
def replacement (replacements : List (Char × List Char)) (character : Char) : List Char :=
  (replacements.lookup character).getD [character]

theorem flatMap_replacement_of_not_mem {replacements : List (Char × List Char)} {text : List Char}
    (apart : ∀ entry ∈ replacements, entry.1 ∉ text) :
    text.flatMap (replacement replacements) = text := by
  induction text with
  | nil => rfl
  | cons character text ih =>
    have kept : replacements.lookup character = none := by
      rw [List.lookup_eq_none_iff]
      intro entry member
      have unlike := apart entry member
      simp only [List.mem_cons, not_or] at unlike
      exact bne_iff_ne.mpr (Ne.symm unlike.1)
    rw [List.flatMap_cons, ih fun entry member same => apart entry member
      (List.mem_cons_of_mem _ same), replacement, kept]
    rfl

/-- Characters may be replaced in turn if no replacement brings in one that is replaced later. -/
theorem replacedInTurn_eq {replacements : List (Char × List Char)}
    (apart : replacements.Pairwise fun earlier later => later.1 ∉ earlier.2) (text : List Char) :
    replacedInTurn replacements text = text.flatMap (replacement replacements) := by
  induction apart generalizing text with
  | nil => exact (flatMap_replacement_of_not_mem fun _ member => by cases member).symm
  | @cons entry replacements isApart _ ih =>
    obtain ⟨pattern, written⟩ := entry
    rw [replacedInTurn, List.foldl_cons, ← replacedInTurn, ih, replaced, List.flatMap_assoc]
    congr 1
    funext character
    by_cases same : character = pattern
    · rw [if_pos same, flatMap_replacement_of_not_mem isApart]
      simp [replacement, same]
    · rw [if_neg same, List.flatMap_singleton]
      simp [replacement, List.lookup_cons, beq_eq_false_iff_ne.mpr same]

/-- What is replaced in a string literal, in an order in which it may be replaced. -/
def escapes : List (Char × List Char) :=
  [('\\', ['\\', '\\']), ('"', ['\\', '"']), ('\n', ['\\', 'n']), ('\t', ['\\', 't']),
    ('\r', ['\\', 'r']), ('\x0c', ['\\', 'f']), ('\x0b', ['\\', 'v']),
    ('\x00', ['\\', 'x', '0', '0']), ('\u2028', ['\\', 'u', '2', '0', '2', '8']),
    ('\u2029', ['\\', 'u', '2', '0', '2', '9'])]

theorem replacement_escapes (character : Char) :
    replacement escapes character = escapeChar character := by
  unfold escapeChar
  split
  case h_11 =>
    rw [replacement, List.lookup_eq_none_iff.mpr]
    · rfl
    · simp_all [escapes]
  all_goals rfl

theorem replacedInTurn_escapes (text : List Char) :
    replacedInTurn escapes text = text.flatMap escapeChar := by
  rw [replacedInTurn_eq (by decide)]
  exact congrArg (List.flatMap · text) (funext replacement_escapes)

/-- An escaped text is read back as the text. It ends no line and holds no quote that is not
escaped, so its string literal is one token whatever stands after it. It is made by ten
replacements in turn as by replacing all characters at once. -/
theorem escape_exact (text : String) :
    decode? (escape text).toList = some text.toList ∧
      (∀ character ∈ (escape text).toList, isLineEnd character = false) ∧
      (∀ character ∈ unescaped (escape text).toList, character ≠ '"' ∧ character ≠ '\\') ∧
      Closed (stringLiteral text).toList [.text (escape text).toList] ∧
      escape text = String.ofList (replacedInTurn escapes text.toList) ∧
      (∀ other, escape other = escape text → other = text) ∧
      ∀ other, escape (text ++ other) = escape text ++ escape other := by
  have decoded (text : String) : decode? (escape text).toList = some text.toList := by
    rw [toList_escape, decode?_flatMap]
  obtain ⟨endless, guarded⟩ := safe_flatMap text.toList
  rw [← toList_escape] at endless guarded
  refine ⟨decoded text, endless, guarded, ?_, ?_, fun other same => ?_, fun other => ?_⟩
  · rw [toList_escape]
    exact closed_stringLiteral text
  · rw [replacedInTurn_escapes, escape]
  · have alike := decoded other
    rw [same, decoded text, Option.some.injEq] at alike
    exact (String.toList_inj.mp alike).symm
  · rw [escape, String.toList_append, List.flatMap_append, String.ofList_append]
    rfl

end JavaScript

end GlyphCompiler
