/-
# Tokens of written texts

A written text is read as words, string literals and marks, in one pass over its
characters. White space only separates. A piece of text spells some tokens if they
are read from it whatever stands after it, as long as its last word ends there: so
the tokens of a text are those of its pieces.
-/

import Mathlib
import GlyphCompiler.JavaScript.Emit
import GlyphCompiler.Token.Pattern

namespace GlyphCompiler

namespace JavaScript

open Pattern (isNamePart)

/-- A token of a written text. -/
inductive Token
  /-- A run of letters, digits and underscores: a name, a keyword or a part of a number. -/
  | word (letters : List Char)
  /-- What stands between the quotes of a string literal. -/
  | text (content : List Char)
  /-- Any other character. -/
  | mark (character : Char)
  deriving DecidableEq, Repr

namespace Token

/-- The word of a text. -/
def ofString (letters : String) : Token := .word letters.toList

end Token

/-- Where reading stands between two characters: inside a word or a string literal that
has begun, or outside. -/
inductive Phase
  | outside
  | word (letters : List Char)
  | text (content : List Char)
  | escape (content : List Char)

/-- Read one character outside words and string literals. -/
def Phase.begin (character : Char) : List Token × Phase :=
  if isNamePart character then ([], .word [character])
  else if character = '"' then ([], .text [])
  else if character = ' ' || character = '\n' then ([], .outside)
  else ([.mark character], .outside)

/-- Read one character: the tokens that end with it, and where reading stands after it. -/
def Phase.next : Phase → Char → List Token × Phase
  | .outside, character => begin character
  | .word letters, character =>
    if isNamePart character then ([], .word (letters ++ [character]))
    else (.word letters :: (begin character).1, (begin character).2)
  | .text content, character =>
    if character = '"' then ([.text content], .outside)
    else if character = '\\' then ([], .escape (content ++ [character]))
    else ([], .text (content ++ [character]))
  | .escape content, character => ([], .text (content ++ [character]))

/-- The tokens of what is left of a text. -/
def lexFrom : Phase → List Char → List Token
  | .word letters, [] => [.word letters]
  | _, [] => []
  | phase, character :: rest => (phase.next character).1 ++ lexFrom (phase.next character).2 rest

attribute [grind =] Phase.next lexFrom

/-- The tokens of a text. -/
def lex (text : List Char) : List Token :=
  lexFrom .outside text

/-- No word goes on at the front of a text. -/
def Breaks (text : List Char) : Prop :=
  ∀ character ∈ text.head?, isNamePart character = false

/-- A text spells some tokens, whatever breaks words after it. -/
def Spells (text : List Char) (tokens : List Token) : Prop :=
  ∀ rest, Breaks rest → lex (text ++ rest) = tokens ++ lex rest

/-- A text spells some tokens, whatever stands after it. -/
def Closed (text : List Char) (tokens : List Token) : Prop :=
  ∀ rest, lex (text ++ rest) = tokens ++ lex rest

section

variable {text other : List Char} {tokens more : List Token} {character : Char}

theorem breaks_nil : Breaks [] := by simp [Breaks]

theorem breaks_cons (ends : isNamePart character = false) (rest : List Char) :
    Breaks (character :: rest) := by
  simpa [Breaks] using ends

theorem Closed.spells (closed : Closed text tokens) : Spells text tokens :=
  fun rest _ => closed rest

theorem closed_nil : Closed [] [] := fun _ => rfl

theorem Closed.append (first : Closed text tokens) (second : Closed other more) :
    Closed (text ++ other) (tokens ++ more) := by
  intro rest
  rw [List.append_assoc, first, second, List.append_assoc]

theorem Closed.append_spells (first : Closed text tokens) (second : Spells other more) :
    Spells (text ++ other) (tokens ++ more) := by
  intro rest ends
  rw [List.append_assoc, first, second rest ends, List.append_assoc]

/-- A word ends before a mark or white space. -/
theorem Spells.append_closed (first : Spells text tokens) (second : Closed (character :: other) more)
    (ends : isNamePart character = false) :
    Closed (text ++ character :: other) (tokens ++ more) := by
  intro rest
  rw [List.append_assoc, first _ (by exact breaks_cons ends _), second, List.append_assoc]

/-- A text that spells tokens is read as them. -/
theorem Spells.lex_eq (spells : Spells text tokens) : lex text = tokens := by
  simpa [lex, lexFrom] using spells [] breaks_nil

/-- Is a character a mark by itself? -/
def isMark (character : Char) : Bool :=
  !isNamePart character && character ∉ ['"', ' ', '\n']

theorem closed_mark (isMark : isMark character = true) : Closed [character] [.mark character] := by
  intro rest
  simp only [JavaScript.isMark, Bool.and_eq_true, Bool.not_eq_true', decide_eq_true_eq,
    List.mem_cons, List.not_mem_nil, or_false, not_or] at isMark
  simp [lex, lexFrom, Phase.next, Phase.begin, isMark]

/-- A mark ends the word before it, and stands apart from the word after it. -/
theorem Spells.append_mark (first : Spells text tokens) (isMark : isMark character = true)
    (second : Spells other more) :
    Spells (text ++ character :: other) (tokens ++ .mark character :: more) := by
  have closed := first.append_closed (closed_mark isMark) (by
    simp only [JavaScript.isMark, Bool.and_eq_true, Bool.not_eq_true'] at isMark
    exact isMark.1)
  simpa using closed.append_spells second

/-- A word that has begun ends where no word goes on. -/
theorem lexFrom_word (letters : List Char) (ends : Breaks text) :
    lexFrom (.word letters) text = .word letters :: lex text := by
  cases text with
  | nil => rfl
  | cons character rest =>
    have other : isNamePart character = false := ends character rfl
    simp [lexFrom, lex, Phase.next, other]

theorem lexFrom_word_append (letters : List Char) (parts : text.all isNamePart = true)
    (ends : Breaks other) :
    lexFrom (.word letters) (text ++ other) = .word (letters ++ text) :: lex other := by
  induction text generalizing letters with
  | nil => simpa using lexFrom_word letters ends
  | cons character text ih =>
    simp only [List.all_cons, Bool.and_eq_true] at parts
    simp [lexFrom, Phase.next, parts.1, ih _ parts.2]

/-- A text that is a word by itself is read as that word. -/
theorem spells_word (parts : text.all isNamePart = true) (nonempty : text ≠ []) :
    Spells text [.word text] := by
  intro rest ends
  cases text with
  | nil => exact absurd rfl nonempty
  | cons character text =>
    simp only [List.all_cons, Bool.and_eq_true] at parts
    simp [lex, lexFrom, Phase.next, Phase.begin, parts.1, lexFrom_word_append _ parts.2 ends]

/-! ## Texts without quotes -/

/-- Reading goes on outside string literals where no quote begins one. -/
theorem unquoted_next {phase : Phase}
    (unquoted : phase = .outside ∨ ∃ letters, phase = .word letters) (plain : '"' ≠ character) :
    (phase.next character).2 = .outside ∨ ∃ letters, (phase.next character).2 = .word letters := by
  have begun : (Phase.begin character).2 = .outside ∨
      ∃ letters, (Phase.begin character).2 = .word letters := by
    unfold Phase.begin
    grind
  obtain rfl | ⟨letters, rfl⟩ := unquoted
  · exact begun
  · unfold Phase.next
    grind

/-- Reading a text without quotes stands outside string literals. -/
theorem lexFrom_append_of_plain {phase : Phase}
    (unquoted : phase = .outside ∨ ∃ letters, phase = .word letters) (plain : '"' ∉ text)
    (ends : Breaks other) : lexFrom phase (text ++ other) = lexFrom phase text ++ lex other := by
  induction text generalizing phase with
  | nil =>
    obtain rfl | ⟨letters, rfl⟩ := unquoted
    · rfl
    · exact lexFrom_word letters ends
  | cons character text ih =>
    simp only [List.mem_cons, not_or] at plain
    have goesOn := unquoted_next unquoted plain.1
    rw [List.cons_append, lexFrom, lexFrom, ih goesOn plain.2, List.append_assoc]

/-- A text without quotes spells its own tokens. -/
theorem spells_of_plain (plain : '"' ∉ text) : Spells text (lex text) :=
  fun _ ends => lexFrom_append_of_plain (.inl rfl) plain ends

/-- Does a text without quotes end outside of words? Then it always reads as the tokens. -/
def isFixed (text : String) (tokens : List Token) : Bool :=
  lex text.toList = tokens && '"' ∉ text.toList && !text.toList.getLast?.any isNamePart

/-- Does a text begin with a character that ends words? -/
def endsWords (text : String) : Bool :=
  text.toList.head?.any (!isNamePart ·)

theorem lexFrom_append_of_ends {phase : Phase}
    (unquoted : phase = .outside ∨ ∃ letters, phase = .word letters) (plain : '"' ∉ text)
    (nonempty : text ≠ []) (ends : ∀ character ∈ text.getLast?, isNamePart character = false)
    (rest : List Char) : lexFrom phase (text ++ rest) = lexFrom phase text ++ lex rest := by
  induction text generalizing phase with
  | nil => exact absurd rfl nonempty
  | cons character text ih =>
    simp only [List.mem_cons, not_or] at plain
    cases text with
    | nil =>
      have apart : isNamePart character = false := ends character rfl
      have closed : (phase.next character).2 = .outside := by
        have unlike : ¬ character = '"' := fun same => plain.1 same.symm
        obtain rfl | ⟨letters, rfl⟩ := unquoted <;>
          simp only [Phase.next, Phase.begin, apart, unlike] <;> grind
      simp [lexFrom, closed, lex]
    | cons second text =>
      have goesOn := unquoted_next unquoted plain.1
      rw [List.cons_append, lexFrom, lexFrom,
        ih goesOn (by simpa using plain.2) (List.cons_ne_nil _ _) (by simpa using ends),
        List.append_assoc]

theorem closed_of_isFixed {text : String} (fixed : isFixed text tokens = true) :
    Closed text.toList tokens := by
  simp only [isFixed, Bool.and_eq_true, decide_eq_true_eq, Bool.not_eq_true'] at fixed
  obtain ⟨⟨rfl, plain⟩, ends⟩ := fixed
  by_cases nonempty : text.toList = []
  · rw [nonempty]
    exact closed_nil
  · refine lexFrom_append_of_ends (.inl rfl) plain nonempty fun character last => ?_
    rw [Option.mem_def.mp last] at ends
    exact ends

/-- A word ends before a text that ends words. -/
theorem Spells.append_fixed {text : List Char} {other : String} (first : Spells text tokens)
    (fixed : isFixed other more = true) (ends : endsWords other = true) :
    Closed (text ++ other.toList) (tokens ++ more) := by
  have closed := closed_of_isFixed fixed
  unfold endsWords at ends
  cases shape : other.toList with
  | nil => simp [shape] at ends
  | cons character characters =>
    rw [shape] at closed ends
    exact first.append_closed closed (by simpa using ends)

/-! ## String literals -/

/-- A character as it stands in a string literal does not end it. -/
theorem lexFrom_escapeChar (content : List Char) (character : Char) (rest : List Char) :
    lexFrom (.text content) (escapeChar character ++ rest) =
      lexFrom (.text (content ++ escapeChar character)) rest := by
  unfold escapeChar
  split <;> simp_all [lexFrom, Phase.next]

theorem lexFrom_escape (content characters rest : List Char) :
    lexFrom (.text content) (characters.flatMap escapeChar ++ rest) =
      lexFrom (.text (content ++ characters.flatMap escapeChar)) rest := by
  induction characters generalizing content with
  | nil => simp
  | cons character characters ih =>
    rw [List.flatMap_cons, List.append_assoc, lexFrom_escapeChar, ih, List.append_assoc]

theorem closed_stringLiteral (value : String) :
    Closed (stringLiteral value).toList [.text (value.toList.flatMap escapeChar)] := by
  intro rest
  have quote : "\"".toList = ['"'] := by decide
  have part : isNamePart '"' = false := by decide
  simp [stringLiteral, escape, quote, lex, lexFrom, Phase.next, Phase.begin, part, lexFrom_escape]

/-! ## Putting texts together -/

theorem fixed (text : String) (tokens : List Token) (isFixed : isFixed text tokens = true) :
    Closed text.toList tokens :=
  closed_of_isFixed isFixed

section

variable {first second : String}

theorem Closed.andClosed (closed : Closed first.toList tokens) (next : Closed second.toList more) :
    Closed (first ++ second).toList (tokens ++ more) := by
  rw [String.toList_append]
  exact closed.append next

theorem Closed.andSpells (closed : Closed first.toList tokens) (next : Spells second.toList more) :
    Spells (first ++ second).toList (tokens ++ more) := by
  rw [String.toList_append]
  exact closed.append_spells next

theorem Spells.andFixed (spells : Spells first.toList tokens) (second : String) (more : List Token)
    (fixed : (isFixed second more && endsWords second) = true) :
    Closed (first ++ second).toList (tokens ++ more) := by
  rw [String.toList_append]
  obtain ⟨isFixed, ends⟩ := (Bool.and_eq_true _ _).mp fixed
  exact spells.append_fixed isFixed ends

/-- Texts with a separator between them spell what they spell, with what it spells between. -/
theorem spells_intercalate {separator : String} {between : List Token}
    (fixed : (isFixed separator between && endsWords separator) = true) {texts : List String}
    {parts : List (List Token)}
    (spell : List.Forall₂ (fun text part => Spells text.toList part) texts parts) :
    Spells (separator.intercalate texts).toList (between.intercalate parts) := by
  obtain ⟨isFixed, ends⟩ := (Bool.and_eq_true _ _).mp fixed
  rw [String.toList_intercalate]
  induction spell with
  | nil => exact closed_nil.spells
  | @cons text part texts parts first rest ih =>
    cases rest with
    | nil => simpa using first
    | cons second others =>
      rw [List.map_cons, List.map_cons, List.intercalate_cons_cons, List.intercalate_cons_cons]
      exact (first.append_fixed isFixed ends).append_spells ih

end

end

end JavaScript

end GlyphCompiler
