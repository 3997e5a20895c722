/-
# Reading expressions

An expression is written with one space before each of its words. How a word is
read depends on what is expected: where an operand is expected, a double star is
two dereferences and a double ampersand takes an address twice, since no operator
is admitted there. So the words are first told apart by what is expected before
them, and then the text is parsed exactly as the resulting tokens are.

A word that the parser does not admit may still be read as another one, but then
the parse fails all the same: no word is shifted where an operator is expected,
and where an operand is expected only `!=` is misread, as a `!` before an equal
sign that nothing admits.
-/

import GlyphCompiler.Proofs.Parser.Places
import GlyphCompiler.Proofs.Parser.Reading

namespace GlyphCompiler

namespace Expression

open Parser (Frame currentState stateOf admitted parseFrom parseTokens read Visible)
open Pattern (Delimited)
open Lexer (next? spots)

/-! ## Expressions as they are written -/

/-- The operators, brackets and commas of expressions. -/
def symbols : List Terminal :=
  [.or, .and, .comparison, .plus, .minus, .star, .power, .slash, .percent, .bang, .ampersand,
    .leftParen, .rightParen, .leftBracket, .rightBracket, .comma]

/-- A token of an expression as it is written. -/
structure Lexeme where
  kind : Terminal
  text : String

/-- A lexeme has a kind that expressions are made of, other than `conjure`, its text is
one of this kind from end to end, and a name is not spelled like a keyword of
expressions. -/
def Lexeme.IsToken (lexeme : Lexeme) : Prop :=
  lexeme.kind ∈ .name :: literals ++ symbols ∧
    lexeme.kind.match? lexeme.text.toList = some lexeme.text.toList.length ∧
    (lexeme.kind = .name → lexeme.text ∉ ["true", "false", "null", "conjure"])

instance (lexeme : Lexeme) : Decidable lexeme.IsToken :=
  inferInstanceAs (Decidable (_ ∧ _ ∧ _))

/-- The words that some lexemes are read as, by whether an operand is expected. -/
def readAs : Bool → List Lexeme → List Word
  | _, [] => []
  | expecting, lexeme :: rest =>
    if expecting && lexeme.kind = .power then
      ⟨true, .star, "*"⟩ :: ⟨false, .star, "*"⟩ :: readAs true rest
    else if expecting && lexeme.kind = .and then
      ⟨true, .ampersand, "&"⟩ :: ⟨false, .ampersand, "&"⟩ :: readAs true rest
    else ⟨true, lexeme.kind, lexeme.text⟩ :: readAs (openers.contains lexeme.kind) rest

/-- The text of some lexemes, each after one space, and a semicolon. -/
def written : List Lexeme → List Char
  | [] => [';']
  | lexeme :: rest => ' ' :: lexeme.text.toList ++ written rest

theorem delimited_written (lexemes : List Lexeme) : Delimited (written lexemes) := by
  cases lexemes with
  | nil => exact ⟨';', by decide, [], rfl⟩
  | cons lexeme rest => exact ⟨' ', by decide, _, rfl⟩

/-! ## What can be read in place of a symbol -/

/-- What else the text of a symbol can be read as, where the symbol is not admitted. -/
def Rivals (lexeme : Lexeme) (others : List (Terminal × Nat)) : Prop :=
  others = [] ∨ (lexeme.kind = .and ∧ others = [(.ampersand, 1)]) ∨
    (lexeme.kind = .power ∧ others = [(.star, 1)]) ∨
    (lexeme.kind = .comparison ∧ others = [(.equal, 1)]) ∨
    (lexeme.kind = .comparison ∧ lexeme.text = "!=" ∧ others = [(.bang, 1)])

theorem eq_of_fixed {text input : List Char} (whole : Pattern.fixed text input = some input.length) :
    input = text := by
  rw [Pattern.fixed] at whole
  split at whole
  · rename_i isStart
    have same := Option.some.inj whole
    exact ((List.isPrefixOf_iff_prefix.mp isStart).eq_of_length same).symm
  · cases whole

/-- The texts of comparisons. -/
theorem mem_of_comparison {input : List Char}
    (whole : Pattern.comparison input = some input.length) :
    input ∈ [['=', '='], ['!', '='], ['<', '='], ['>', '='], ['<'], ['>']] := by
  rw [Pattern.comparison.eq_def] at whole
  split at whole <;> simp_all [eq_comm]

/-- A symbol is the first thing that its text is tried as. -/
theorem exists_spots {lexeme : Lexeme} (symbol : lexeme.kind ∈ symbols)
    (whole : lexeme.kind.match? lexeme.text.toList = some lexeme.text.toList.length)
    {rest : List Char} (delimited : Delimited rest) :
    ∃ others, Rivals lexeme others ∧
      spots (lexeme.text.toList ++ rest) =
        (lexeme.kind, lexeme.text.toList.length) :: others := by
  obtain ⟨kind, text⟩ := lexeme
  simp only [symbols, List.mem_cons, List.not_mem_nil, or_false] at symbol
  simp only at whole ⊢
  rcases symbol with rfl | rfl | rfl | rfl | rfl | rfl | rfl | rfl | rfl | rfl | rfl | rfl | rfl |
    rfl | rfl | rfl <;>
    simp only [Terminal.match?, Terminal.fixedText?, Option.bind_some] at whole
  case inr.inl =>
    refine ⟨[(.ampersand, 1)], .inr (.inl ⟨rfl, rfl⟩), ?_⟩
    rw [eq_of_fixed whole]
    exact Lexer.spots_symbol (by decide) rest
  case inr.inr.inr.inr.inr.inr.inl =>
    refine ⟨[(.star, 1)], .inr (.inr (.inl ⟨rfl, rfl⟩)), ?_⟩
    rw [eq_of_fixed whole]
    exact Lexer.spots_symbol (by decide) rest
  case inr.inr.inl =>
    have listed := mem_of_comparison whole
    simp only [List.mem_cons, List.not_mem_nil, or_false] at listed
    rcases listed with same | same | same | same | same | same <;> rw [same]
    · exact ⟨[(.equal, 1)], .inr (.inr (.inr (.inl ⟨rfl, rfl⟩))),
        Lexer.spots_symbol (by decide) rest⟩
    · have text : text = "!=" := by rw [← String.ofList_toList (s := text), same]
      exact ⟨[(.bang, 1)], .inr (.inr (.inr (.inr ⟨rfl, text, rfl⟩))),
        Lexer.spots_symbol (by decide) rest⟩
    · exact ⟨[], .inl rfl, Lexer.spots_symbol (by decide) rest⟩
    · exact ⟨[], .inl rfl, Lexer.spots_symbol (by decide) rest⟩
    · exact ⟨[], .inl rfl, Lexer.spots_shortSymbol (by decide) delimited⟩
    · exact ⟨[], .inl rfl, Lexer.spots_shortSymbol (by decide) delimited⟩
  all_goals
    refine ⟨[], .inl rfl, ?_⟩
    rw [eq_of_fixed whole]
    first
    | exact Lexer.spots_symbol (by decide) rest
    | exact Lexer.spots_shortSymbol (by decide) delimited

/-! ## Where an operator is expected -/

theorem isPlain_of_mem_symbols : ∀ kind ∈ symbols, Lexer.isPlain kind := by decide

theorem isPlain_of_rivals {lexeme : Lexeme} {others : List (Terminal × Nat)}
    (rivals : Rivals lexeme others) : ∀ pair ∈ others, Lexer.isPlain pair.1 := by
  rcases rivals with rfl | ⟨-, rfl⟩ | ⟨-, rfl⟩ | ⟨-, rfl⟩ | ⟨-, -, rfl⟩ <;> decide

variable {lexeme : Lexeme} {rest : List Char} {available : List Terminal}

/-- A symbol is read where it is admitted. -/
theorem next?_symbol (symbol : lexeme.kind ∈ symbols)
    (whole : lexeme.kind.match? lexeme.text.toList = some lexeme.text.toList.length)
    (delimited : Delimited rest) (member : lexeme.kind ∈ available) :
    next? available (lexeme.text.toList ++ rest) =
      some (lexeme.kind, lexeme.text.toList.length) := by
  obtain ⟨others, -, found⟩ := exists_spots symbol whole delimited
  exact Lexer.next?_of_spots [] found nofun (isPlain_of_mem_symbols _ symbol) member

/-- A symbol that is not admitted is not read, unless it can be read as something else. -/
theorem next?_symbol_of_not_mem (symbol : lexeme.kind ∈ symbols)
    (whole : lexeme.kind.match? lexeme.text.toList = some lexeme.text.toList.length)
    (delimited : Delimited rest) (other : lexeme.kind ∉ available)
    (unrivalled : ∀ others, Rivals lexeme others → ∀ pair ∈ others, pair.1 ∉ available) :
    next? available (lexeme.text.toList ++ rest) = none := by
  obtain ⟨others, rivals, found⟩ := exists_spots symbol whole delimited
  refine Lexer.next?_of_not_admitted fun pair member => ?_
  rw [found] at member
  rcases List.mem_cons.mp member with rfl | later
  · exact ⟨isPlain_of_mem_symbols _ symbol, other⟩
  · exact ⟨isPlain_of_rivals rivals pair later, unrivalled others rivals pair later⟩

/-- Where an operator is expected, a symbol is not read as another one. -/
theorem unrivalled_of_expectsOperator {state : State} (expects : expectsOperator state)
    (other : lexeme.kind ∉ admitted state) {others : List (Terminal × Nat)}
    (rivals : Rivals lexeme others) : ∀ pair ∈ others, pair.1 ∉ admitted state := by
  obtain ⟨without, stars⟩ := admitted_of_expectsOperator expects
  rcases rivals with rfl | ⟨-, rfl⟩ | ⟨isPower, rfl⟩ | ⟨-, rfl⟩ | ⟨-, -, rfl⟩
  · exact nofun
  · simpa using without .ampersand (by decide)
  · simpa using fun star => other (isPower ▸ stars star)
  · simpa using without .equal (by decide)
  · simpa using without .bang (by decide)

/-- Where an operand is expected, only three symbols are read as other ones. -/
theorem unrivalled_of_expectsOperand {state : State} (expects : expectsOperand state)
    (notAnd : lexeme.kind ≠ .and) (notPower : lexeme.kind ≠ .power)
    (notUnequal : lexeme.text ≠ "!=") {others : List (Terminal × Nat)}
    (rivals : Rivals lexeme others) : ∀ pair ∈ others, pair.1 ∉ admitted state := by
  obtain ⟨-, most⟩ := admitted_of_expectsOperand expects
  rcases rivals with rfl | ⟨isAnd, rfl⟩ | ⟨isPower, rfl⟩ | ⟨-, rfl⟩ | ⟨-, isUnequal, rfl⟩
  · exact nofun
  · exact absurd isAnd notAnd
  · exact absurd isPower notPower
  · simpa using fun equal => absurd (most .equal equal) (by decide)
  · exact absurd isUnequal notUnequal

/-! ## Names and literals -/

/-- The text of a keyword. -/
theorem next?_keyword {kind : Terminal} (keyword : kind.isKeyword) {text : String}
    (spelled : kind.fixedText? = some text) (named : .name ∈ available)
    (member : kind ∈ available) (delimited : Delimited rest) :
    next? available (text.toList ++ rest) = some (kind, text.toList.length) := by
  obtain ⟨other, same, whole⟩ := (Terminal.isKeyword_iff kind).mp keyword
  obtain rfl := Option.some.inj (same.symm.trans spelled)
  rw [Lexer.next?_name named whole delimited,
    Lexer.classify_keyword member keyword (by rw [spelled, String.ofList_toList])]

/-- Where an operand is expected, a name or a literal is read. -/
theorem next?_operand {state : State} (expects : expectsOperand state) (token : lexeme.IsToken)
    (operand : lexeme.kind ∈ .name :: literals) (delimited : Delimited rest) :
    next? (admitted state) (lexeme.text.toList ++ rest) =
      some (lexeme.kind, lexeme.text.toList.length) := by
  obtain ⟨least, most⟩ := admitted_of_expectsOperand expects
  obtain ⟨-, whole, notKeyword⟩ := token
  obtain ⟨kind, text⟩ := lexeme
  simp only at whole notKeyword operand ⊢
  have member : kind ∈ admitted state :=
    least kind ((by decide : ∀ kind ∈ .name :: literals, kind ∈ beginners) kind operand)
  have named : .name ∈ admitted state := least .name (by decide)
  rcases List.mem_cons.mp operand with rfl | literal
  · rw [Lexer.next?_name named whole delimited, Lexer.classify_name]
    intro other listed keyword spelled
    rw [String.ofList_toList] at spelled
    have few : ∀ kind ∈ expected, kind.isKeyword →
        ∀ text ∈ kind.fixedText?, text ∈ ["true", "false", "null", "conjure"] := by
      decide
    exact notKeyword rfl (few other (most other listed) keyword text spelled)
  · have split : ∀ kind ∈ literals,
        kind ∈ Lexer.quotations ∨ kind = .trueWord ∨ kind = .falseWord ∨ kind = .nullWord := by
      decide
    rcases split kind literal with quoted | rfl | rfl | rfl
    · exact Lexer.next?_literal quoted member whole delimited
    all_goals
      simp only [Terminal.match?, Terminal.fixedText?, Option.bind_some] at whole
      rw [eq_of_fixed whole]
      exact next?_keyword rfl rfl named member delimited

theorem beginsWord_of_begins {kind : Terminal} (operand : kind ∈ .name :: literals) {first : Char}
    (begins : kind.begins first) : Lexer.beginsWord first := by
  have onlyOne (character : Char) (word : Lexer.beginsWord character = true)
      (same : character = first) : Lexer.beginsWord first = true := same ▸ word
  simp only [literals, List.mem_cons, List.not_mem_nil, or_false] at operand
  rcases operand with rfl | rfl | rfl | rfl | rfl | rfl | rfl | rfl | rfl
  · simp [Lexer.beginsWord, show Pattern.isNameStart first = true from begins]
  · simp [Lexer.beginsWord, show isDecimalDigit first = true from begins]
  · simp [Lexer.beginsWord, show isDecimalDigit first = true from begins]
  · exact onlyOne 'U' (by decide) (of_decide_eq_true begins).symm
  · exact onlyOne '"' (by decide) (of_decide_eq_true begins).symm
  · exact onlyOne '\'' (by decide) (of_decide_eq_true begins).symm
  · exact onlyOne 't' (by decide) (Option.some.inj (of_decide_eq_true begins))
  · exact onlyOne 'f' (by decide) (Option.some.inj (of_decide_eq_true begins))
  · exact onlyOne 'n' (by decide) (Option.some.inj (of_decide_eq_true begins))

/-- Where an operator is expected, a name or a literal is read as some word, if at all. -/
theorem isWord_of_next? (token : lexeme.IsToken) (operand : lexeme.kind ∈ .name :: literals)
    {kind : Terminal} {length : Nat}
    (found : next? available (lexeme.text.toList ++ rest) = some (kind, length)) :
    kind ∈ words := by
  obtain ⟨first, more, shape⟩ := Lexer.exists_cons_of_match? token.2.1
  have begins := Terminal.begins_of_match? (shape ▸ token.2.1)
  rw [shape, List.cons_append] at found
  have isWord := Lexer.isWord_of_next? (beginsWord_of_begins operand begins) found
  exact (by decide : ∀ kind ∈ Terminal.all, Lexer.isWord kind → kind ∈ words) kind
    (Terminal.mem_all kind) isWord

/-! ## Parsing what is written -/

/-- What a state expects. -/
def expects (operand : Bool) : State → Bool :=
  if operand then expectsOperand else expectsOperator

/-- The semicolon after an expression. -/
def semicolon : Word := ⟨false, .semicolon, ";"⟩

/-- The parser inside an expression makes the same of a text as of some words. -/
def Agrees (automaton : Automaton) (operand : Bool) (text : List Char) (words : List Word) : Prop :=
  ∀ stack last position, Holds automaton stack →
    Passes automaton (expects operand) (currentState stack) →
    (parseFrom automaton stack last position text).toOption =
      parseTokens automaton stack last (Word.place position words)

variable {automaton : Automaton}

/-- Shifting a token of an expression, the parser expects what comes after it. -/
theorem Holds.read_next (regular : isRegular automaton) {stack next : List Frame}
    (holds : Holds automaton stack) {token : Token} (known : token.kind ∈ openers ++ closers)
    (shifted : read automaton stack token = .shifted next) :
    Holds automaton next ∧
      Passes automaton (expects (openers.contains token.kind)) (currentState next) := by
  obtain ⟨opens, closes⟩ := holds.read_shifted regular shifted
  by_cases opener : token.kind ∈ openers
  · rw [List.contains_iff_mem.mpr opener]
    exact opens opener
  · rw [Bool.eq_false_iff.mpr fun contains => opener (List.contains_iff_mem.mp contains)]
    exact closes ((List.mem_append.mp known).resolve_left opener)

/-- A word that is read whole goes on like the rest of the text. -/
theorem parseFrom_characters_append (regular : isRegular automaton) {word : Word}
    (known : word.kind ∈ openers ++ closers) (visible : Visible word.text.toList)
    {words : List Word} (agrees : Agrees automaton (openers.contains word.kind) rest words)
    {stack : List Frame} {state : State} (holds : Holds automaton stack)
    (here : stateOf automaton stack = some state)
    (found : next? (admitted state) (word.text.toList ++ rest) =
      some (word.kind, word.text.toList.length)) (last position : Position) :
    (parseFrom automaton stack last position (word.characters ++ rest)).toOption =
      parseTokens automaton stack last (Word.place position (word :: words)) := by
  have kept : word.kind.isIgnored = false :=
    (by decide : ∀ kind ∈ openers ++ closers, kind.isIgnored = false) _ known
  refine Parser.parseFrom_word here visible kept found fun next shifted => ?_
  obtain ⟨holdsNext, passes⟩ := holds.read_next regular known shifted
  exact agrees next _ _ holdsNext passes

/-- A semicolon that nothing follows ends the text. -/
theorem agrees_semicolon (operand : Bool) : Agrees automaton operand [';'] [semicolon] := by
  intro stack last position holds passes
  obtain ⟨state, here, -⟩ := passes
  have listed : ([';'], [(.semicolon, 1)]) ∈ Lexer.symbols := by decide
  have found : spots [';'] = [(.semicolon, 1)] := Lexer.spots_symbol listed []
  have visible : Visible semicolon.text.toList := ⟨';', [], rfl, by decide⟩
  by_cases member : .semicolon ∈ admitted state
  · have read := Lexer.next?_of_spots [] found nofun rfl member
    change (parseFrom automaton stack last position (semicolon.characters ++ [])).toOption = _
    refine Parser.parseFrom_word here visible rfl read fun next shifted => ?_
    rw [parseFrom, Word.place, parseTokens]
    rfl
  · have unread : next? (admitted state) [';'] = none := by
      refine Lexer.next?_of_not_admitted fun pair listed => ?_
      rw [found, List.mem_singleton] at listed
      subst listed
      exact ⟨rfl, member⟩
    rw [Word.place, Parser.parseTokens_of_not_admitted here member]
    change (parseFrom automaton stack last position (semicolon.characters ++ [])).toOption = _
    exact Parser.parseFrom_unread_word here visible unread

/-- The word that a lexeme is read as where it is read as itself. -/
def Lexeme.word (lexeme : Lexeme) : Word := ⟨true, lexeme.kind, lexeme.text⟩

theorem Lexeme.IsToken.visible (token : lexeme.IsToken) : Visible lexeme.text.toList := by
  refine Parser.visible_of_match? ?_ token.2.1
  exact (by decide : ∀ kind ∈ .name :: literals ++ symbols, kind ≠ .blank) _ token.1

theorem Lexeme.IsToken.known (token : lexeme.IsToken) :
    lexeme.word.kind ∈ openers ++ closers :=
  (by decide : ∀ kind ∈ .name :: literals ++ symbols, kind ∈ openers ++ closers) _ token.1

/-- A name or a literal is an operand, and fails where an operator is expected. -/
theorem agrees_operand (regular : isRegular automaton) (token : lexeme.IsToken)
    (operand : lexeme.kind ∈ .name :: literals) (delimited : Delimited rest) {words : List Word}
    (agrees : Agrees automaton false rest words) (expecting : Bool) :
    Agrees automaton expecting (lexeme.word.characters ++ rest) (lexeme.word :: words) := by
  intro stack last position holds ⟨state, here, passed⟩
  cases expecting with
  | true =>
    have closes : openers.contains lexeme.word.kind = false :=
      (by decide : ∀ kind ∈ .name :: literals, openers.contains kind = false) _ operand
    exact parseFrom_characters_append regular token.known token.visible (closes ▸ agrees) holds
      here (next?_operand passed token operand delimited) last position
  | false =>
    have noWord : Passes automaton shiftsNoWord (currentState stack) := by
      refine ⟨state, here, ?_⟩
      exact (Bool.and_eq_true_iff.mp (Bool.and_eq_true_iff.mp passed).1).1
    have refused : parseTokens automaton stack last
        (Word.place position (lexeme.word :: words)) = none := by
      have word : lexeme.kind ∈ Expression.words :=
        (by decide : ∀ kind ∈ .name :: literals, kind ∈ Expression.words) _ operand
      rw [Word.place, parseTokens]
      split
      · rename_i shifted
        exact absurd shifted (holds.read_word regular word noWord)
      · rfl
    rw [refused]
    cases found : next? (admitted state) (lexeme.word.text.toList ++ rest) with
    | none => exact Parser.parseFrom_unread_word here token.visible found
    | some reading =>
      obtain ⟨kind, length⟩ := reading
      have word := isWord_of_next? token operand found
      have kept : kind.isIgnored = false :=
        (by decide : ∀ kind ∈ Expression.words, kind.isIgnored = false) kind word
      have nonempty : lexeme.word.text.toList ++ rest ≠ [] := by
        obtain ⟨first, more, shape, -⟩ := token.visible
        simp [Lexeme.word, shape]
      rw [Parser.parseFrom_characters here token.visible,
        Parser.parseFrom_of_found nonempty here found kept]
      split
      · rename_i shifted
        exact absurd shifted (holds.read_word regular word noWord)
      · rfl

/-- An unequal sign where an operand is expected does not parse. -/
theorem parseFrom_unequal (regular : isRegular automaton) (delimited : Delimited rest)
    {stack : List Frame} (holds : Holds automaton stack)
    (passes : Passes automaton expectsOperand (currentState stack)) (last position : Position) :
    (parseFrom automaton stack last position ('!' :: '=' :: rest)).toOption = none := by
  obtain ⟨state, here, passed⟩ := passes
  obtain ⟨least, most⟩ := admitted_of_expectsOperand passed
  have listed : (['!', '='], [(.comparison, 2), (.bang, 1)]) ∈ Lexer.symbols := by decide
  have noComparison : .comparison ∉ admitted state :=
    fun member => absurd (most .comparison member) (by decide)
  have found : next? (admitted state) ('!' :: '=' :: rest) = some (.bang, 1) :=
    Lexer.next?_of_spots [(.comparison, 2)] (Lexer.spots_symbol listed rest)
      (by simpa using ⟨rfl, noComparison⟩) rfl (least .bang (by decide))
  rw [Parser.parseFrom_of_found (List.cons_ne_nil _ _) here found rfl]
  split
  · rename_i next shifted
    have opens : Terminal.bang ∈ openers := by decide
    obtain ⟨-, state, here, passed⟩ := (holds.read_shifted regular shifted).1 opens
    refine Parser.parseFrom_of_unread (List.cons_ne_nil _ _) here ?_
    have equal : (['='], [(.equal, 1)]) ∈ Lexer.shortSymbols := by decide
    refine Lexer.next?_of_not_admitted fun pair member => ?_
    rw [show ('!' :: '=' :: rest).drop 1 = ['='] ++ rest from rfl,
      Lexer.spots_shortSymbol equal delimited, List.mem_singleton] at member
    subst member
    exact ⟨rfl, fun equal =>
      absurd ((admitted_of_expectsOperand passed).2 .equal equal) (by decide)⟩
  · rfl

/-- A symbol that is not one of the two doubled ones is read as itself or not at all. -/
theorem agrees_symbol (regular : isRegular automaton) (token : lexeme.IsToken)
    (symbol : lexeme.kind ∈ symbols) (delimited : Delimited rest) {words : List Word}
    (agrees : Agrees automaton (openers.contains lexeme.kind) rest words) {expecting : Bool}
    (single : expecting = true → lexeme.kind ≠ .and ∧ lexeme.kind ≠ .power) :
    Agrees automaton expecting (lexeme.word.characters ++ rest) (lexeme.word :: words) := by
  intro stack last position holds ⟨state, here, passed⟩
  by_cases member : lexeme.kind ∈ admitted state
  · exact parseFrom_characters_append regular token.known token.visible agrees holds here
      (next?_symbol symbol token.2.1 delimited member) last position
  · rw [Word.place, Parser.parseTokens_of_not_admitted here member]
    cases expecting with
    | false =>
      exact Parser.parseFrom_unread_word here token.visible
        (next?_symbol_of_not_mem symbol token.2.1 delimited member fun others rivals =>
          unrivalled_of_expectsOperator passed member rivals)
    | true =>
      obtain ⟨notAnd, notPower⟩ := single rfl
      by_cases unequal : lexeme.text = "!="
      · rw [Parser.parseFrom_characters here token.visible,
          show lexeme.word.text.toList = ['!', '='] by simp [Lexeme.word, unequal]]
        exact parseFrom_unequal regular delimited holds ⟨state, here, passed⟩ _ _
      · exact Parser.parseFrom_unread_word here token.visible
          (next?_symbol_of_not_mem symbol token.2.1 delimited member fun others rivals =>
            unrivalled_of_expectsOperand passed notAnd notPower unequal rivals)

/-- Where an operand is expected, a doubled symbol is read as two single ones. -/
theorem agrees_double (regular : isRegular automaton) {kind double : Terminal} {text : String}
    (begins : kind ∈ [Terminal.star, .ampersand]) (twice : double ∈ [Terminal.power, .and])
    (doubled : (text.toList ++ text.toList, [(double, 2), (kind, 1)]) ∈ Lexer.symbols)
    (single : (text.toList, [(kind, 1)]) ∈ Lexer.shortSymbols) (visible : Visible text.toList)
    (size : text.toList.length = 1) (delimited : Delimited rest) {words : List Word}
    (agrees : Agrees automaton true rest words) :
    Agrees automaton true ((⟨true, kind, text⟩ : Word).characters ++
        ((⟨false, kind, text⟩ : Word).characters ++ rest))
      (⟨true, kind, text⟩ :: ⟨false, kind, text⟩ :: words) := by
  obtain ⟨known, opens, beginner, plain⟩ := (by decide : ∀ kind ∈ [Terminal.star, .ampersand],
    kind ∈ openers ++ closers ∧ openers.contains kind = true ∧ kind ∈ beginners ∧
      Lexer.isPlain kind = true) kind begins
  obtain ⟨plainDouble, unexpected⟩ := (by decide : ∀ kind ∈ [Terminal.power, .and],
    Lexer.isPlain kind = true ∧ kind ∉ expected) double twice
  have second : Agrees automaton true ((⟨false, kind, text⟩ : Word).characters ++ rest)
      (⟨false, kind, text⟩ :: words) := by
    intro stack last position holds ⟨state, here, passed⟩
    have member := (admitted_of_expectsOperand passed).1 kind beginner
    have found := Lexer.next?_of_spots [] (Lexer.spots_shortSymbol single delimited) nofun
      plain member
    exact parseFrom_characters_append regular known visible (opens.symm ▸ agrees) holds here
      (size.symm ▸ found) last position
  intro stack last position holds ⟨state, here, passed⟩
  obtain ⟨least, most⟩ := admitted_of_expectsOperand passed
  have away : ∀ pair ∈ [(double, 2)], Lexer.isPlain pair.1 = true ∧ pair.1 ∉ admitted state := by
    simpa using ⟨plainDouble, fun member => unexpected (most double member)⟩
  have found := Lexer.next?_of_spots [(double, 2)] (Lexer.spots_symbol doubled rest) away plain
    (least kind beginner)
  rw [List.append_assoc] at found
  exact parseFrom_characters_append regular known visible (opens.symm ▸ second) holds here
    (size.symm ▸ found) last position

/-- What is written of an expression, from its place inside a text on, is parsed as the
words that it is read as. -/
theorem agrees_written (regular : isRegular automaton) {lexemes : List Lexeme}
    (tokens : ∀ lexeme ∈ lexemes, lexeme.IsToken) (expecting : Bool) :
    Agrees automaton expecting (written lexemes) (readAs expecting lexemes ++ [semicolon]) := by
  induction lexemes generalizing expecting with
  | nil => exact agrees_semicolon expecting
  | cons lexeme rest ih =>
    have token := tokens lexeme List.mem_cons_self
    have later (expecting : Bool) := ih (fun other member =>
      tokens other (List.mem_cons_of_mem _ member)) expecting
    have delimited := delimited_written rest
    rw [readAs]
    split
    · rename_i power
      obtain ⟨rfl, isPower⟩ : expecting = true ∧ lexeme.kind = .power := by simpa using power
      have whole := token.2.1
      rw [isPower] at whole
      have text : lexeme.text.toList = ['*', '*'] := eq_of_fixed whole
      rw [show written (lexeme :: rest) = (⟨true, .star, "*"⟩ : Word).characters ++
        ((⟨false, .star, "*"⟩ : Word).characters ++ written rest) by rw [written, text]; rfl]
      exact agrees_double regular (by decide) (List.mem_cons_self : Terminal.power ∈ _)
        (by decide) (by decide) ⟨'*', [], rfl, by decide⟩ rfl delimited
        (later true)
    · rename_i notPower
      split
      · rename_i and
        obtain ⟨rfl, isAnd⟩ : expecting = true ∧ lexeme.kind = .and := by simpa using and
        have whole := token.2.1
        rw [isAnd] at whole
        have text : lexeme.text.toList = ['&', '&'] := eq_of_fixed whole
        rw [show written (lexeme :: rest) = (⟨true, .ampersand, "&"⟩ : Word).characters ++
          ((⟨false, .ampersand, "&"⟩ : Word).characters ++ written rest) by
            rw [written, text]; rfl]
        have twice : Terminal.and ∈ [Terminal.power, .and] := by decide
        exact agrees_double regular (by decide) twice (by decide) (by decide)
          ⟨'&', [], rfl, by decide⟩ rfl delimited (later true)
      · rename_i notAnd
        change Agrees automaton expecting (lexeme.word.characters ++ written rest)
          (lexeme.word :: (readAs (openers.contains lexeme.kind) rest ++ [semicolon]))
        rcases List.mem_append.mp token.1 with operand | symbol
        · have closes : openers.contains lexeme.kind = false :=
            (by decide : ∀ kind ∈ .name :: literals, openers.contains kind = false) _ operand
          rw [closes]
          exact agrees_operand regular token operand delimited (later false) expecting
        · exact agrees_symbol regular token symbol delimited (later _) fun isTrue =>
            ⟨fun same => notAnd (by simp [isTrue, same]),
              fun same => notPower (by simp [isTrue, same])⟩

/-! ## The whole text -/

/-- The word before an expression. -/
def exscribe : Word := ⟨false, .exscribeWord, "exscribe"⟩

/-- An expression as it is written to be shown, after `exscribe` and closed by a semicolon. -/
def exscribed (lexemes : List Lexeme) : String :=
  "exscribe" ++ String.join (lexemes.map fun lexeme => " " ++ lexeme.text) ++ ";"

theorem toList_exscribed (lexemes : List Lexeme) :
    (exscribed lexemes).toList = exscribe.characters ++ written lexemes := by
  have inner : (String.join (lexemes.map fun lexeme => " " ++ lexeme.text)).toList ++ [';'] =
      written lexemes := by
    induction lexemes with
    | nil => rfl
    | cons lexeme rest ih =>
      rw [List.map_cons, String.join_cons, String.toList_append, String.toList_append, written,
        ← ih]
      simp
  rw [exscribed, String.toList_append, String.toList_append, List.append_assoc]
  exact congrArg ("exscribe".toList ++ ·) inner

/-- The words of an expression that is written to be shown. -/
def exscribedWords (lexemes : List Lexeme) : List Word :=
  exscribe :: (readAs true lexemes ++ [semicolon])

/-- An expression that is written to be shown is parsed as the words that it is read as. -/
theorem parseFrom_exscribed (regular : isRegular automaton) {lexemes : List Lexeme}
    (tokens : ∀ lexeme ∈ lexemes, lexeme.IsToken) :
    (parseFrom automaton [] .start .start (exscribed lexemes).toList).toOption =
      parseTokens automaton [] .start (Word.place .start (exscribedWords lexemes)) := by
  obtain ⟨entered, inside, passes⟩ := exists_firstPlace regular
  obtain ⟨state, here, named, member⟩ := admitted_start regular
  have reads : read automaton [] (exscribe.token .start) =
      .shifted [⟨firstPlace automaton, .leaf (exscribe.token .start)⟩] :=
    Parser.read_of_entered? entered
  have initial : stateOf automaton [] = some state := here
  rw [toList_exscribed]
  refine Parser.parseFrom_word initial ⟨'e', _, rfl, by decide⟩ rfl
    (next?_keyword rfl rfl named member (delimited_written lexemes)) fun next shifted => ?_
  rw [reads] at shifted
  obtain rfl := Parser.Step.shifted.inj shifted
  exact agrees_written regular tokens true _ _ _
    ⟨by simpa using inside, [], _, rfl, rfl⟩ passes

end Expression

end GlyphCompiler
