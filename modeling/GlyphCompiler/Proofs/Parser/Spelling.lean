/-
# Nothing of a text is lost

A source text is spelled by its tokens when it is their texts in order, each of the
kind that it was read as, with nothing but white space and complete comments before,
between and after them, and when every token stands where its first character does.
Whatever is parsed is spelled by the tokens of its derivation.
-/

import GlyphCompiler.Proofs.Parser.Exscribe
import GlyphCompiler.Proofs.Parser.Legible

namespace GlyphCompiler

open Pattern

/-! ## The texts of a terminal -/

namespace Pattern

/-- A run of at least one digit. -/
def Digits (text : List Char) : Prop :=
  text ≠ [] ∧ ∀ character ∈ text, isDecimalDigit character = true

/-- The rest of a quotation, up to and including the quote that closes it. -/
inductive Closes (quote : Char) : List Char → Prop
  | quote : Closes quote [quote]
  | escape {character : Char} {rest : List Char} (sameLine : character ≠ '\n')
      (later : Closes quote rest) : Closes quote ('\\' :: character :: rest)
  | plain {character : Char} {rest : List Char} (other : character ≠ quote)
      (unescaped : character ≠ '\\') (sameLine : character ≠ '\n') (later : Closes quote rest) :
      Closes quote (character :: rest)

theorem take_run (test : Char → Bool) (input : List Char) :
    input.take (run test input) = input.takeWhile test :=
  (List.prefix_iff_eq_take.mp (List.takeWhile_prefix test)).symm

theorem forall_mem_take_run (test : Char → Bool) (input : List Char) :
    ∀ character ∈ input.take (run test input), test character = true := by
  rw [take_run]
  exact List.all_eq_true.mp List.all_takeWhile

/-- A run is as long as its length says. -/
theorem length_take_run (test : Char → Bool) (input : List Char) :
    (input.take (run test input)).length = run test input := by
  rw [take_run, run]

section

variable {input : List Char} {length : Nat}

theorem digits_of_someRun (found : someRun isDecimalDigit input = some length) :
    Digits (input.take length) := by
  obtain ⟨rfl, nonempty⟩ := someRun_eq_some_iff.mp found
  refine ⟨fun empty => nonempty ?_, forall_mem_take_run isDecimalDigit input⟩
  rw [← length_take_run isDecimalDigit input, empty, List.length_nil]

theorem closes_of_closing {quote : Char} (found : closing quote input = some length) :
    Closes quote (input.take length) := by
  fun_induction closing quote input generalizing length with
  | case1 | case2 => cases found
  | case3 escaped rest other ih =>
    obtain ⟨count, inner, rfl⟩ := Option.map_eq_some_iff.mp found
    rw [Nat.add_comm]
    exact .escape (fun same => other same) (ih inner)
  | case4 rest _ =>
    cases found
    exact .quote
  | case5 => cases found
  | case6 character rest _ _ notQuote other ih =>
    obtain ⟨count, inner, rfl⟩ := Option.map_eq_some_iff.mp found
    simp only [Bool.or_eq_true, decide_eq_true_eq, not_or] at other
    rw [Nat.add_comm]
    exact .plain notQuote other.1 other.2 (ih inner)

end

end Pattern

namespace Terminal

/-- The texts of a terminal. Names begin with a letter or underscore; decimals have digits on both
sides of the point; code points have four to six hexadecimal digits; a quotation ends at the
first quote that no backslash takes along. All else has one text, or the few of a comparison. -/
def Matches (kind : Terminal) (text : List Char) : Prop :=
  match kind with
  | name => ∃ first rest, text = first :: rest ∧ isNameStart first = true ∧
      ∀ character ∈ rest, isNamePart character = true
  | integer => Digits text
  | decimal => ∃ whole places, text = whole ++ '.' :: places ∧ Digits whole ∧ Digits places
  | codepoint => ∃ digits, text = 'U' :: '+' :: digits ∧ 4 ≤ digits.length ∧ digits.length ≤ 6 ∧
      ∀ character ∈ digits, isHexDigit character = true
  | doubleQuoted => ∃ rest, text = '"' :: rest ∧ Closes '"' rest
  | singleQuoted => ∃ rest, text = '\'' :: rest ∧ Closes '\'' rest
  | comparison => text ∈ [['=', '='], ['!', '='], ['<', '='], ['>', '='], ['<'], ['>']]
  | comment | blank | endOfInput => False
  | fixed => fixed.fixedText? = some (String.ofList text)

section

variable {input : List Char} {length : Nat}

theorem matches_name (found : Pattern.name input = some length) :
    name.Matches (input.take length) := by
  cases input with
  | nil => cases found
  | cons first rest =>
    rw [Pattern.name] at found
    split at found
    · next starts =>
      cases found
      refine ⟨first, rest.take (run isNamePart rest), ?_, starts,
        forall_mem_take_run isNamePart rest⟩
      rw [Nat.add_comm, List.take_succ_cons]
    · cases found

theorem matches_decimal (found : Pattern.decimal input = some length) :
    decimal.Matches (input.take length) := by
  rw [Pattern.decimal] at found
  split at found
  · cases found
  · next whole isWhole =>
    split at found
    · next rest point =>
      obtain ⟨places, arePlaces, rfl⟩ := Option.map_eq_some_iff.mp found
      refine ⟨input.take whole, rest.take places, ?_, digits_of_someRun isWhole,
        digits_of_someRun arePlaces⟩
      rw [Nat.add_assoc, List.take_add, point, Nat.add_comm, List.take_succ_cons]
    · cases found

theorem matches_codepoint (found : Pattern.codepoint input = some length) :
    codepoint.Matches (input.take length) := by
  unfold Pattern.codepoint at found
  split at found
  · next rest =>
    simp only at found
    split at found
    · next enough =>
      cases found
      have runs : rest.take (min 6 (run isHexDigit rest)) =
          (rest.take (run isHexDigit rest)).take 6 := by
        rw [List.take_take]
      refine ⟨rest.take (min 6 (run isHexDigit rest)), ?_, ?_, ?_, ?_⟩
      · rw [Nat.add_comm, List.take_succ_cons, List.take_succ_cons]
      · rw [runs, List.length_take, length_take_run]
        exact enough
      · rw [runs, List.length_take]
        exact Nat.min_le_left _ _
      · rw [runs]
        exact fun character member =>
          forall_mem_take_run isHexDigit rest character (List.mem_of_mem_take member)
    · cases found
  · cases found

theorem exists_closes_of_quotedText {quote : Char}
    (found : quotedText quote input = some length) :
    ∃ rest, input.take length = quote :: rest ∧ Closes quote rest := by
  cases input with
  | nil => cases found
  | cons first rest =>
    rw [quotedText] at found
    split at found
    · next opens =>
      obtain ⟨count, closed, rfl⟩ := Option.map_eq_some_iff.mp found
      refine ⟨rest.take count, ?_, closes_of_closing closed⟩
      rw [Nat.add_comm, List.take_succ_cons, opens]
    · cases found

theorem matches_comparison (found : Pattern.comparison input = some length) :
    comparison.Matches (input.take length) := by
  unfold Pattern.comparison at found
  split at found <;> cases found <;> simp [Matches]

theorem matches_of_fixedText? {kind : Terminal} {text : String} (has : kind.fixedText? = some text)
    (found : Pattern.fixed text.toList input = some length) :
    kind.fixedText? = some (String.ofList (input.take length)) := by
  rw [Pattern.fixed] at found
  split at found
  · next begins =>
    cases found
    rw [← List.prefix_iff_eq_take.mp (List.isPrefixOf_iff_prefix.mp begins),
      String.ofList_toList, has]
  · cases found

/-- What a terminal matches is one of its texts. -/
theorem matches_of_match? {kind : Terminal} (kept : kind.isIgnored = false)
    (found : kind.match? input = some length) : kind.Matches (input.take length) := by
  cases kind
  case name => exact matches_name found
  case integer => exact digits_of_someRun found
  case decimal => exact matches_decimal found
  case codepoint => exact matches_codepoint found
  case doubleQuoted => exact exists_closes_of_quotedText found
  case singleQuoted => exact exists_closes_of_quotedText found
  case comparison => exact matches_comparison found
  case comment | blank => cases kept
  case endOfInput => cases found
  all_goals exact matches_of_fixedText? rfl found

end

end Terminal

namespace Lexer

/-- What is read is what a terminal matches, or the keyword of the same spelling as a name. -/
theorem matched_of_next? {admitted : List Terminal} {input : List Char} {kind : Terminal}
    {length : Nat} (found : next? admitted input = some (kind, length)) :
    kind.match? input = some length ∨
      kind.fixedText? = some (String.ofList (input.take length)) ∧ kind.isKeyword = true := by
  obtain ⟨⟨terminal, count⟩, matched, same⟩ := Option.map_eq_some_iff.mp found
  obtain ⟨tried, -, here⟩ := List.exists_of_findSome?_eq_some matched
  obtain ⟨size, fits, pair⟩ := Option.map_eq_some_iff.mp here
  obtain ⟨rfl, rfl⟩ := Prod.mk.inj pair
  dsimp only at same
  split at same
  · next isName =>
    obtain ⟨rfl, rfl⟩ := Prod.mk.inj same
    subst isName
    rw [classify]
    cases keyword : admitted.find? fun terminal =>
        terminal.isKeyword && terminal.fixedText? == some (String.ofList (input.take size)) with
    | none => exact .inl fits
    | some word =>
      have passed := List.find?_some keyword
      simp only [Bool.and_eq_true, beq_iff_eq] at passed
      exact .inr passed.symm
  · obtain ⟨rfl, rfl⟩ := Prod.mk.inj same
    exact .inl fits

theorem matches_of_next? {admitted : List Terminal} {input : List Char} {kind : Terminal}
    {length : Nat} (found : next? admitted input = some (kind, length))
    (kept : kind.isIgnored = false) : kind.Matches (input.take length) := by
  rcases matched_of_next? found with matched | ⟨spelled, keyword⟩
  · exact Terminal.matches_of_match? kept matched
  · cases kind <;> first | exact spelled | cases keyword

end Lexer

/-! ## What stands between tokens -/

/-- A text that is passed over: white space, and comments that end where they first can. -/
inductive Gap : List Char → Prop
  | nil : Gap []
  | space {character : Char} {rest : List Char}
      (white : character ∈ [' ', '\t', '\x0c', '\r', '\n']) (later : Gap rest) :
      Gap (character :: rest)
  | comment {inside rest : List Char} (unclosed : ¬ ['@', '/'] <:+: inside) (later : Gap rest) :
      Gap ('/' :: '@' :: inside ++ '@' :: '/' :: rest)

namespace Gap

theorem append {first second : List Char} (gap : Gap first) (later : Gap second) :
    Gap (first ++ second) := by
  induction gap with
  | nil => exact later
  | space white _ ih => exact .space white ih
  | @comment inside rest unclosed _ ih =>
    simpa using Gap.comment unclosed ih

theorem of_forall_isSkipped {text : List Char}
    (skipped : ∀ character ∈ text, isSkipped character = true) : Gap text := by
  induction text with
  | nil => exact .nil
  | cons character rest ih =>
    obtain ⟨here, later⟩ := List.forall_mem_cons.mp skipped
    exact .space (by simpa [isSkipped, or_assoc] using here) (ih later)

/-- A comment ends at the first place where it can. -/
theorem exists_of_commentEnd {input : List Char} {length : Nat}
    (found : commentEnd input = some length) :
    ∃ inside, input.take length = inside ++ ['@', '/'] ∧ ¬ ['@', '/'] <:+: inside := by
  fun_induction commentEnd input generalizing length with
  | case1 rest =>
    cases found
    exact ⟨[], rfl, by simp⟩
  | case2 character rest other ih =>
    obtain ⟨count, ends, rfl⟩ := Option.map_eq_some_iff.mp found
    obtain ⟨inside, split, unclosed⟩ := ih ends
    refine ⟨character :: inside, by rw [Nat.add_comm, List.take_succ_cons, split]; rfl, ?_⟩
    intro closed
    rcases List.infix_cons_iff.mp closed with here | later
    · obtain ⟨rfl, slash⟩ := List.cons_prefix_cons.mp here
      obtain ⟨more, rfl⟩ := slash
      cases rest with
      | nil => simp at split
      | cons first rest =>
        cases count with
        | zero => simp at split
        | succ count =>
          rw [List.take_succ_cons] at split
          exact other rest rfl (congrArg (· :: rest) (List.cons.inj split).1)
    · exact unclosed later
  | case3 => cases found

theorem of_next? {admitted : List Terminal} {input : List Char} {kind : Terminal}
    {length : Nat} (found : Lexer.next? admitted input = some (kind, length))
    (ignored : kind.isIgnored = true) : Gap (input.take length) := by
  have matched : kind.match? input = some length := by
    rcases Lexer.matched_of_next? found with matched | ⟨-, keyword⟩
    · exact matched
    · cases kind <;> cases ignored <;> cases keyword
  cases kind <;> cases ignored
  case comment =>
    replace matched : Pattern.comment input = some length := matched
    unfold Pattern.comment at matched
    split at matched
    · next rest =>
      obtain ⟨count, ends, rfl⟩ := Option.map_eq_some_iff.mp matched
      obtain ⟨inside, split, unclosed⟩ := exists_of_commentEnd ends
      rw [Nat.add_comm, List.take_succ_cons, List.take_succ_cons, split]
      exact .comment unclosed .nil
    · cases matched
  case blank =>
    obtain ⟨rfl, -⟩ := someRun_eq_some_iff.mp matched
    exact of_forall_isSkipped (forall_mem_take_run isSkipped input)

end Gap

/-! ## Tokens in a text -/

/-- The position after some text, from the start: one line more than it has line feeds, and one
column more than there are characters after the last of them. -/
def Position.after (text : List Char) : Position :=
  ⟨text.count '\n' + 1, (text.reverse.takeWhile (· ≠ '\n')).length + 1⟩

theorem Position.next_after (text : List Char) (character : Char) :
    (after text).next character = after (text ++ [character]) := by
  by_cases feed : character = '\n' <;> simp [next, after, feed]

theorem Position.advance_after (before text : List Char) :
    (after before).advance text = after (before ++ text) := by
  induction text generalizing before with
  | nil => simp
  | cons character rest ih =>
    rw [show (after before).advance (character :: rest) =
      ((after before).next character).advance rest from rfl, next_after, ih]
    simp

/-- A text after another one is spelled by tokens: their texts in order, each one of its
terminal and where it is said to be, with gaps before, between and after them. -/
inductive Spelled : List Char → List Char → List Token → Prop
  | nil {before gap : List Char} (passed : Gap gap) : Spelled before gap []
  | cons {before gap text rest : List Char} {kind : Terminal} {tokens : List Token}
      (passed : Gap gap) (isText : kind.Matches text)
      (later : Spelled (before ++ gap ++ text) rest tokens) :
      Spelled before (gap ++ text ++ rest)
        (⟨kind, String.ofList text, .after (before ++ gap)⟩ :: tokens)

theorem Spelled.gap_append {before gap rest : List Char} {tokens : List Token} (passed : Gap gap)
    (spelled : Spelled (before ++ gap) rest tokens) : Spelled before (gap ++ rest) tokens := by
  cases spelled with
  | nil later => exact .nil (passed.append later)
  | @cons _ later text rest kind tokens passedLater isText further =>
    simpa using Spelled.cons (passed.append passedLater) isText (by simpa using further)

/-- Every token has one of the texts of its terminal. -/
theorem Spelled.forall_matches {before text : List Char} {tokens : List Token}
    (spelled : Spelled before text tokens) :
    ∀ token ∈ tokens, token.kind.Matches token.text.toList := by
  induction spelled with
  | nil => exact fun token member => absurd member List.not_mem_nil
  | cons _ isText _ ih =>
    exact List.forall_mem_cons.mpr ⟨by simpa using isText, ih⟩

theorem eq_ok_of_toOption {Error Result : Type} {outcome : Except Error Result} {result : Result}
    (succeeds : outcome.toOption = some result) : outcome = .ok result := by
  cases outcome with
  | error failure => cases succeeds
  | ok other =>
    cases succeeds
    rfl

namespace Parser

/-- How a parse goes on: the input ends, something is passed over, or a token is shifted. -/
theorem parseFrom_cases {automaton : Automaton} {stack : List Frame} {last position : Position}
    {input : List Char} {derivation : Derivation}
    (parsed : parseFrom automaton stack last position input = .ok derivation) :
    (input = [] ∧ finish automaton stack last = .ok derivation) ∨
      ∃ state kind length, stateOf automaton stack = some state ∧
        Lexer.next? (admitted state) input = some (kind, length) ∧
        (input.drop length).length < input.length ∧
        (kind.isIgnored = true ∧
            parseFrom automaton stack last (position.advance (input.take length))
              (input.drop length) = .ok derivation ∨
          kind.isIgnored = false ∧ ∃ next,
            read automaton stack ⟨kind, String.ofList (input.take length), position⟩ =
              .shifted next ∧
            parseFrom automaton next position (position.advance (input.take length))
              (input.drop length) = .ok derivation) := by
  by_cases nonempty : input = []
  · subst nonempty
    rw [parseFrom] at parsed
    exact .inl ⟨rfl, parsed⟩
  refine .inr ?_
  cases here : stateOf automaton stack with
  | none =>
    rw [parseFrom, if_neg (by simpa using nonempty), here] at parsed
    cases parsed
  | some state =>
    cases found : Lexer.next? (admitted state) input with
    | none =>
      have nothing : (parseFrom automaton stack last position input).toOption = none :=
        parseFrom_of_unread nonempty here found
      rw [parsed] at nothing
      cases nothing
    | some pair =>
      obtain ⟨kind, length⟩ := pair
      have shorter : (input.drop length).length < input.length := by
        have positive := Lexer.next?_pos found
        have := List.length_pos_iff.mpr nonempty
        rw [List.length_drop]
        omega
      refine ⟨state, kind, length, rfl, found, shorter, ?_⟩
      cases ignored : kind.isIgnored with
      | true =>
        rw [parseFrom_of_ignored nonempty here found ignored] at parsed
        exact .inl ⟨rfl, parsed⟩
      | false =>
        have reads := @parseFrom_of_found automaton stack last position state input kind length
          nonempty here found ignored
        rw [parsed] at reads
        split at reads
        · next next shifted =>
          exact .inr ⟨rfl, next, shifted, eq_ok_of_toOption reads.symm⟩
        · cases reads

/-- What the parser accepts after some text is spelled by tokens that it accepts. -/
theorem exists_spelled_of_parseFrom {automaton : Automaton} {stack : List Frame}
    {last : Position} {before input : List Char} {derivation : Derivation}
    (parsed : parseFrom automaton stack last (.after before) input = .ok derivation) :
    ∃ tokens, Spelled before input tokens ∧
      parseTokens automaton stack last tokens = some derivation := by
  induction size : input.length using Nat.strongRecOn generalizing stack last before input with
  | _ size ih =>
    obtain ⟨rfl, finished⟩ | ⟨state, kind, length, -, found, shorter, step⟩ :=
      parseFrom_cases parsed
    · exact ⟨[], .nil .nil, by rw [parseTokens, finished]; rfl⟩
    rw [Position.advance_after] at step
    obtain ⟨ignored, passed⟩ | ⟨kept, next, shifted, later⟩ := step
    · obtain ⟨tokens, spelled, accepts⟩ := ih _ (size ▸ shorter) passed rfl
      refine ⟨tokens, ?_, accepts⟩
      rw [← List.take_append_drop length input]
      exact spelled.gap_append (.of_next? found ignored)
    · obtain ⟨tokens, spelled, accepts⟩ := ih _ (size ▸ shorter) later rfl
      refine ⟨⟨kind, String.ofList (input.take length), .after before⟩ :: tokens, ?_, ?_⟩
      · have whole : Spelled before ([] ++ input.take length ++ input.drop length)
            (⟨kind, String.ofList (input.take length), .after (before ++ [])⟩ :: tokens) :=
          .cons .nil (Lexer.matches_of_next? found kept) (by simpa using spelled)
        simpa using whole
      · rw [parseTokens, shifted]
        exact accepts

end Parser

/-- The derivation of an accepted text is one in the grammar, and its tokens spell the text. -/
theorem Grammar.spelled_of_parseDerivation {source : String} {derivation : Derivation}
    (parsed : parseDerivation source = .ok derivation) :
    derivation.Valid rules ∧ derivation.symbol = .nonterminal .start ∧
      Spelled [] source.toList derivation.tokens := by
  obtain ⟨tokens, spelled, accepts⟩ : ∃ tokens, Spelled [] source.toList tokens ∧
      Parser.parseTokens automaton [] .start tokens = some derivation :=
    Parser.exists_spelled_of_parseFrom parsed
  obtain ⟨valid, isStart, same⟩ :=
    Parser.valid_of_parseTokens reducesBy_rules (by simp [Parser.Sound]) accepts
  replace same : derivation.tokens = tokens := same
  exact ⟨valid, isStart, same ▸ spelled⟩

/-- Parsing is sound and loses nothing: the tree of an accepted text is that of a derivation from
the start symbol, and the text is spelled by the tokens of this derivation. -/
theorem exists_derivation_of_parse {source : String} {tree : Tree}
    (parsed : parse source = .ok tree) :
    ∃ derivation : Derivation, derivation.Valid Grammar.rules ∧
      derivation.symbol = .nonterminal .start ∧ derivation.tree? = some tree ∧
      Spelled [] source.toList derivation.tokens := by
  obtain ⟨derivation, found, isTree⟩ := (Grammar.parse_eq_ok_iff source tree).mp parsed
  obtain ⟨tokens, spelled, accepts⟩ : ∃ tokens, Spelled [] source.toList tokens ∧
      Parser.parseTokens Grammar.automaton [] .start tokens = some derivation :=
    Parser.exists_spelled_of_parseFrom found
  have sound : Parser.Sound Grammar.rules [] := fun frame member => absurd member List.not_mem_nil
  obtain ⟨valid, isStart, same⟩ :=
    Parser.valid_of_parseTokens Grammar.reducesBy_rules sound accepts
  replace same : derivation.tokens = tokens := same
  exact ⟨derivation, valid, isStart, isTree, same ▸ spelled⟩

/-- The words of a statement that shows a name. -/
def shownName : List Word :=
  [⟨false, .exscribeWord, "exscribe"⟩, ⟨true, .name, "a"⟩, ⟨false, .semicolon, ";"⟩]

theorem legible_shownName (automaton : Automaton) : Legible automaton none shownName := by
  have spots : Lexer.spots ("exscribe".toList ++ Word.spell shownName.tail) =
      [(.name, 8), (.exscribeWord, 8)] := by
    decide
  refine .keyword rfl rfl spots ⟨'e', _, rfl, by decide⟩ rfl ?_
  refine .name rfl rfl (by decide) ⟨';', by decide, [], rfl⟩ ?_
  exact .symbol ⟨';', _, rfl, by decide⟩
    (show ([';'], (Terminal.semicolon, 1) :: []) ∈ Lexer.symbols by decide) (by decide) rfl .nil

/-- A comment and a line feed before a statement are passed over. -/
theorem exists_parse_commented : ∃ tree, parse "/@ shown @/\nexscribe a;" = .ok tree := by
  obtain ⟨state, here, -⟩ := Expression.admitted_start Grammar.isRegular_automaton
  have atStart : Parser.stateOf Grammar.automaton [] = some state := here
  have comment : Lexer.next? (Parser.admitted state) "/@ shown @/\nexscribe a;".toList =
      some (.comment, 11) :=
    (Lexer.next?_of_split [.decimal, .codepoint] .comment rfl (by decide) rfl rfl).trans rfl
  have blank : Lexer.next? (Parser.admitted state) "\nexscribe a;".toList = some (.blank, 1) :=
    (Lexer.next?_of_split [.decimal, .codepoint, .comment, .doubleQuoted, .singleQuoted, .name,
      .integer] .blank rfl (by decide) rfl rfl).trans rfl
  have placed : Word.place ⟨2, 1⟩ shownName =
      ⟨.exscribeWord, "exscribe", ⟨2, 1⟩⟩ ::
        ([⟨.name, "a", ⟨2, 10⟩⟩] ++ [⟨.semicolon, ";", ⟨2, 11⟩⟩]) := by
    decide
  have operand : Expression.Reads .disjunction [⟨.name, "a", ⟨2, 10⟩⟩] [_] :=
    .tighter rfl (.tighter rfl (.tighter rfl (.tighter rfl (.tighter rfl (.tighter rfl
      (.tighter rfl (.tighter rfl (.token rfl))))))))
  obtain ⟨tree, derives⟩ : ∃ tree, Grammar.Derives (.nonterminal .start)
      (Word.place ⟨2, 1⟩ shownName) [some tree] := by
    have isOperand := Expression.derives_expression (Expression.derived_of_reads operand)
    rw [placed]
    exact ⟨_, (Grammar.derives_start_iff (by rfl) (by rfl) (by decide) _).mpr
      ⟨_, isOperand, rfl⟩⟩
  have plain : ∀ token ∈ Word.place ⟨2, 1⟩ shownName, token.kind ≠ .returnWord := by decide
  have ⟨derivation, valid, isStart, tokens, _⟩ := derives
  have accepted : Parser.parseTokens Grammar.automaton [] .start (Word.place ⟨2, 1⟩ shownName) =
      some derivation :=
    (Grammar.parseTokens_iff plain .start derivation).mpr ⟨valid, isStart, tokens⟩
  refine ⟨tree, (Grammar.parse_iff plain ?_ tree).mpr derives⟩
  have passed : Parser.parseFrom Grammar.automaton [] .start .start
      "/@ shown @/\nexscribe a;".toList =
      Parser.parseFrom Grammar.automaton [] .start ⟨2, 1⟩ (Word.spell shownName) := by
    rw [Parser.parseFrom_of_ignored (by decide) atStart comment rfl]
    exact Parser.parseFrom_of_ignored (by decide) atStart blank rfl
  rw [passed, (legible_shownName Grammar.automaton).parseFrom (fun _ _ => nofun) accepted, accepted]

theorem exists_derivation_of_parse_commented :
    ∃ tree, parse "/@ shown @/\nexscribe a;" = .ok tree ∧
      ∃ derivation : Derivation, derivation.Valid Grammar.rules ∧
        derivation.symbol = .nonterminal .start ∧ derivation.tree? = some tree ∧
        Spelled [] "/@ shown @/\nexscribe a;".toList derivation.tokens := by
  obtain ⟨tree, parsed⟩ := exists_parse_commented
  exact ⟨tree, parsed, exists_derivation_of_parse parsed⟩

end GlyphCompiler
