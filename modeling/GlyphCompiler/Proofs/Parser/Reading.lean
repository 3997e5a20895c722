/-
# Parsing written words

A text that is written word by word is parsed like the tokens of its words, as
long as the lexer reads each word where it stands. What the lexer reads depends
on the state of the parser, so this is said step by step: a word that is read
whole is shifted or refused just like its token.
-/

import GlyphCompiler.Proofs.Parser.Lexing
import GlyphCompiler.Proofs.Parser.Soundness

namespace GlyphCompiler

/-- A word of a text, with one space before it or none. -/
structure Word where
  spaced : Bool
  kind : Terminal
  text : String

namespace Word

/-- What is written for a word. -/
def characters (word : Word) : List Char :=
  if word.spaced then ' ' :: word.text.toList else word.text.toList

/-- Where the text of a word stands, if the word is written from a position on. -/
def position (word : Word) (start : Position) : Position :=
  if word.spaced then start.next ' ' else start

/-- The token of a word that is written from a position on. -/
def token (word : Word) (start : Position) : Token :=
  ⟨word.kind, word.text, word.position start⟩

/-- What is written for some words. -/
def spell (words : List Word) : List Char := words.flatMap characters

/-- The tokens of some words that are written from a position on. -/
def place : Position → List Word → List Token
  | _, [] => []
  | start, word :: rest => word.token start :: place (start.advance word.characters) rest

@[simp]
theorem spell_nil : spell [] = [] := rfl

@[simp]
theorem spell_cons (word : Word) (rest : List Word) :
    spell (word :: rest) = word.characters ++ spell rest := rfl

@[simp]
theorem spell_append (first second : List Word) :
    spell (first ++ second) = spell first ++ spell second :=
  List.flatMap_append

theorem place_append (start : Position) (first second : List Word) :
    place start (first ++ second) =
      place start first ++ place (start.advance (spell first)) second := by
  induction first generalizing start with
  | nil => rfl
  | cons word rest ih =>
    simp only [List.cons_append, place, ih, spell, List.flatMap_cons, Position.advance_append]

@[simp]
theorem kind_token (word : Word) (start : Position) : (word.token start).kind = word.kind := rfl

theorem kinds_place (start : Position) (words : List Word) :
    (place start words).map Token.kind = words.map kind := by
  induction words generalizing start with
  | nil => rfl
  | cons word rest ih => simp [place, ih]

/-- The tokens of some words are of the kinds of the words. -/
theorem exists_of_mem_place {start : Position} {words : List Word} {token : Token}
    (member : token ∈ place start words) : ∃ word ∈ words, word.kind = token.kind := by
  have listed : token.kind ∈ (place start words).map Token.kind := List.mem_map_of_mem member
  rw [kinds_place] at listed
  exact List.mem_map.mp listed

end Word

namespace Parser

variable {automaton : Automaton} {stack : List Frame} {last position : Position} {state : State}

/-! ## One step of the parser -/

/-- Where nothing is read, nothing is parsed. -/
theorem parseFrom_of_unread {input : List Char} (nonempty : input ≠ [])
    (here : stateOf automaton stack = some state)
    (unread : Lexer.next? (admitted state) input = none) :
    (parseFrom automaton stack last position input).toOption = none := by
  rw [parseFrom, if_neg (by simpa using nonempty), here]
  simp only
  split
  · rfl
  · rename_i found
    cases unread.symm.trans found

/-- What is read and ignored is passed over. -/
theorem parseFrom_of_ignored {input : List Char} {kind : Terminal} {length : Nat}
    (nonempty : input ≠ []) (here : stateOf automaton stack = some state)
    (found : Lexer.next? (admitted state) input = some (kind, length))
    (ignored : kind.isIgnored) :
    parseFrom automaton stack last position input =
      parseFrom automaton stack last (position.advance (input.take length))
        (input.drop length) := by
  rw [parseFrom, if_neg (by simpa using nonempty), here]
  simp only
  split
  · rename_i unread
    cases unread.symm.trans found
  · rename_i other
    obtain ⟨rfl, rfl⟩ := Prod.mk.inj (Option.some.inj (other.symm.trans found))
    rw [if_pos ignored]

/-- What is read as a token is parsed as the parser reads the token. -/
theorem parseFrom_of_found {input : List Char} {kind : Terminal} {length : Nat}
    (nonempty : input ≠ []) (here : stateOf automaton stack = some state)
    (found : Lexer.next? (admitted state) input = some (kind, length))
    (kept : kind.isIgnored = false) :
    (parseFrom automaton stack last position input).toOption =
      match read automaton stack ⟨kind, String.ofList (input.take length), position⟩ with
      | .shifted next => (parseFrom automaton next position
          (position.advance (input.take length)) (input.drop length)).toOption
      | _ => none := by
  rw [parseFrom, if_neg (by simpa using nonempty), here]
  simp only
  split
  · rename_i unread
    cases unread.symm.trans found
  · rename_i other
    obtain ⟨rfl, rfl⟩ := Prod.mk.inj (Option.some.inj (other.symm.trans found))
    rw [if_neg (by simp [kept])]
    split <;> simp_all [Except.toOption]

/-- A space before something else is passed over. -/
theorem parseFrom_space (here : stateOf automaton stack = some state) {first : Char}
    (visible : Pattern.isSkipped first = false) (rest : List Char) :
    parseFrom automaton stack last position (' ' :: first :: rest) =
      parseFrom automaton stack last (position.next ' ') (first :: rest) :=
  parseFrom_of_ignored (List.cons_ne_nil _ _) here (Lexer.next?_space _ visible rest) rfl

/-! ## Words that are read -/

/-- A text that begins with something else than white space. -/
def Visible (text : List Char) : Prop :=
  ∃ first more, text = first :: more ∧ Pattern.isSkipped first = false

theorem visible_of_match? {kind : Terminal} (visible : kind ≠ .blank) {text : List Char}
    (whole : kind.match? text = some text.length) : Visible text := by
  obtain ⟨first, more, rfl⟩ := Lexer.exists_cons_of_match? whole
  exact ⟨first, more, rfl, Lexer.not_isSkipped_of_begins visible
    (Terminal.begins_of_match? whole)⟩

variable {word : Word} {rest : List Char}

/-- The space before a word is passed over. -/
theorem parseFrom_characters (here : stateOf automaton stack = some state)
    (visible : Visible word.text.toList) :
    parseFrom automaton stack last position (word.characters ++ rest) =
      parseFrom automaton stack last (word.position position) (word.text.toList ++ rest) := by
  obtain ⟨first, more, shape, shown⟩ := visible
  rw [Word.characters, Word.position, shape]
  cases word.spaced with
  | true => exact parseFrom_space here shown _
  | false => rfl

/-- The position after a word. -/
theorem advance_characters (word : Word) (position : Position) :
    position.advance word.characters = (word.position position).advance word.text.toList := by
  rw [Word.characters, Word.position]
  cases word.spaced <;> rfl

/-- A word that is read whole is parsed like its token, if what comes after is. -/
theorem parseFrom_word (here : stateOf automaton stack = some state)
    (visible : Visible word.text.toList) (kept : word.kind.isIgnored = false)
    (found : Lexer.next? (admitted state) (word.text.toList ++ rest) =
      some (word.kind, word.text.toList.length)) {tokens : List Token}
    (goesOn : ∀ next, read automaton stack (word.token position) = .shifted next →
      (parseFrom automaton next (word.position position)
        (position.advance word.characters) rest).toOption =
        parseTokens automaton next (word.position position) tokens) :
    (parseFrom automaton stack last position (word.characters ++ rest)).toOption =
      parseTokens automaton stack last (word.token position :: tokens) := by
  obtain ⟨first, more, shape, shown⟩ := visible
  have nonempty : word.text.toList ++ rest ≠ [] := by simp [shape]
  rw [parseFrom_characters here ⟨first, more, shape, shown⟩,
    parseFrom_of_found nonempty here found kept, List.take_left, List.drop_left,
    String.ofList_toList, parseTokens, ← advance_characters]
  change (match read automaton stack (word.token position) with
    | .shifted next => _
    | _ => none) = _
  cases reads : read automaton stack (word.token position) with
  | shifted next => exact goesOn next reads
  | _ => rfl

/-- A word that is not read is not parsed. -/
theorem parseFrom_unread_word (here : stateOf automaton stack = some state)
    (visible : Visible word.text.toList)
    (unread : Lexer.next? (admitted state) (word.text.toList ++ rest) = none) :
    (parseFrom automaton stack last position (word.characters ++ rest)).toOption = none := by
  obtain ⟨first, more, shape, shown⟩ := visible
  rw [parseFrom_characters here ⟨first, more, shape, shown⟩]
  exact parseFrom_of_unread (by simp [shape]) here unread

/-- A token that is not admitted is refused. -/
theorem parseTokens_of_not_admitted (here : stateOf automaton stack = some state) {token : Token}
    (other : token.kind ∉ admitted state) (tokens : List Token) :
    parseTokens automaton stack last (token :: tokens) = none := by
  have missing : state.actions.lookup token.kind = none := by
    rw [List.lookup_eq_none_iff]
    rintro ⟨kind, action⟩ member
    rw [bne_iff_ne]
    rintro rfl
    exact other (List.mem_map.mpr ⟨_, member, rfl⟩)
  have refused : step automaton stack token = .refused state := by
    simp only [step, here, missing]
  rw [parseTokens, read_of_not_reduced (by simp [refused]), refused]

/-- Whatever is parsed is admitted where it is read. -/
theorem mem_admitted_of_parseTokens (here : stateOf automaton stack = some state) {token : Token}
    {tokens : List Token} {derivation : Derivation}
    (parsed : parseTokens automaton stack last (token :: tokens) = some derivation) :
    token.kind ∈ admitted state := by
  refine Decidable.byContradiction fun other => ?_
  rw [parseTokens_of_not_admitted here other] at parsed
  exact absurd parsed nofun

end Parser

end GlyphCompiler
