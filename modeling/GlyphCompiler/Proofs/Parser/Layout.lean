/-
# Layout

White space and complete comments can be put before the first token of a text, after the
last one and between any two: the text is parsed as before, with the same tree up to
positions. What is put there is passed over, and every token before it is read as it was.
-/

import GlyphCompiler.Proofs.Parser.Separation
import GlyphCompiler.Proofs.Parser.Unplaced
import Mathlib.Data.List.Chain

namespace GlyphCompiler

/-! ## Positions after a text -/

/-- A text that goes on ends at another position. -/
theorem Position.eq_nil_of_after_append {before text : List Char}
    (same : after (before ++ text) = after before) : text = [] := by
  have lines := congrArg Position.line same
  have columns := congrArg Position.column same
  simp only [after, List.count_append, Nat.add_right_cancel_iff] at lines columns
  have noFeed : '\n' ∉ text := List.count_eq_zero.mp (by omega)
  have passes : ∀ character ∈ text.reverse, decide (character ≠ '\n') = true := by
    intro character member
    rw [decide_eq_true_iff]
    rintro rfl
    exact noFeed (List.mem_reverse.mp member)
  rw [List.reverse_append, List.takeWhile_append_of_pos passes, List.length_append,
    List.length_reverse] at columns
  exact List.length_eq_zero_iff.mp (by omega)

/-! ## Gaps are passed over -/

namespace Pattern

/-- A comment that is not closed inside is read up to its end. -/
theorem commentEnd_append {inside : List Char} (unclosed : ¬ ['@', '/'] <:+: inside)
    (rest : List Char) :
    commentEnd (inside ++ '@' :: '/' :: rest) = some (inside.length + 2) := by
  induction inside with
  | nil => rfl
  | cons character inside ih =>
    have later := ih fun closed => unclosed (List.infix_cons closed)
    rw [List.cons_append, commentEnd, later, Option.map_some, List.length_cons]
    · congr 1
      omega
    · rintro others rfl same
      cases inside with
      | nil => cases same
      | cons second inside =>
        obtain ⟨rfl, -⟩ := List.cons.inj same
        exact unclosed ⟨[], inside, rfl⟩

end Pattern

namespace Lexer

open Pattern

theorem next?_blank {first : Char} (skipped : isSkipped first = true) (admitted : List Terminal)
    (rest : List Char) :
    next? admitted (first :: rest) = some (.blank, 1 + run isSkipped rest) := by
  have found : Terminal.blank.match? (first :: rest) = some (1 + run isSkipped rest) := by
    simp [Terminal.match?, someRun, run, skipped, Nat.add_comm]
  rw [next?_of_split [.decimal, .codepoint, .comment, .doubleQuoted, .singleQuoted,
    .name, .integer] .blank rfl ?_ rfl found, if_neg (by decide)]
  intro other member
  refine match?_eq_none ?_
  cases begins : other.begins first with
  | false => rfl
  | true =>
    have visible : other ≠ .blank := by
      rintro rfl
      simp at member
    cases skipped.symm.trans (not_isSkipped_of_begins visible begins)

theorem next?_comment {inside : List Char} (unclosed : ¬ ['@', '/'] <:+: inside)
    (admitted : List Terminal) (rest : List Char) :
    next? admitted ('/' :: '@' :: inside ++ '@' :: '/' :: rest) =
      some (.comment, inside.length + 4) := by
  have found : Terminal.comment.match? ('/' :: '@' :: inside ++ '@' :: '/' :: rest) =
      some (inside.length + 4) := by
    simp only [Terminal.match?, comment, List.cons_append, commentEnd_append unclosed,
      Option.map_some, Option.some.injEq]
    omega
  rw [next?_of_split [.decimal, .codepoint] .comment rfl ?_ rfl found, if_neg (by decide)]
  exact fun other member => match?_eq_none
    ((by decide : ∀ other ∈ [Terminal.decimal, .codepoint], other.begins '/' = false) other member)

end Lexer

namespace Parser

variable {automaton : Automaton} {stack : List Frame} {last position : Position} {state : State}

/-- One white space is passed over, with what follows it or without. -/
theorem parseFrom_blank (here : stateOf automaton stack = some state) {first : Char}
    (skipped : Pattern.isSkipped first = true) (rest : List Char) :
    parseFrom automaton stack last position (first :: rest) =
      parseFrom automaton stack last (position.next first) rest := by
  rw [parseFrom_of_ignored (List.cons_ne_nil _ _) here (Lexer.next?_blank skipped _ rest) rfl,
    Nat.add_comm, List.take_succ_cons, List.drop_succ_cons]
  cases rest with
  | nil => rfl
  | cons second rest =>
    cases also : Pattern.isSkipped second with
    | true =>
      rw [parseFrom_of_ignored (List.cons_ne_nil _ _) here (Lexer.next?_blank also _ rest) rfl]
      simp [Pattern.run, also, Position.advance, Nat.add_comm]
    | false => simp [Pattern.run, also, Position.advance]

/-- A gap is passed over. -/
theorem parseFrom_gap (here : stateOf automaton stack = some state) {gap : List Char}
    (passed : Gap gap) (rest : List Char) :
    parseFrom automaton stack last position (gap ++ rest) =
      parseFrom automaton stack last (position.advance gap) rest := by
  induction passed generalizing position with
  | nil => rfl
  | @space character gap white _ ih =>
    have skipped : Pattern.isSkipped character = true := by
      simpa [Pattern.isSkipped, or_assoc] using white
    rw [List.cons_append, parseFrom_blank here skipped, ih]
    rfl
  | @comment inside gap unclosed _ ih =>
    have comment := Lexer.next?_comment unclosed (admitted state) (gap ++ rest)
    have whole : '/' :: '@' :: inside ++ '@' :: '/' :: gap ++ rest =
        '/' :: '@' :: inside ++ '@' :: '/' :: (gap ++ rest) := by simp
    have front : ('/' :: '@' :: inside ++ '@' :: '/' :: (gap ++ rest)) =
        ('/' :: '@' :: inside ++ ['@', '/']) ++ (gap ++ rest) := by simp
    have size : ('/' :: '@' :: inside ++ ['@', '/']).length = inside.length + 4 := by simp
    rw [whole, parseFrom_of_ignored (by simp) here comment rfl, front, ← size, List.take_left,
      List.drop_left, ih, ← Position.advance_append]
    simp

/-- A stack from which a text is parsed has a state. -/
theorem exists_state_of_parseFrom {input : List Char} {derivation : Derivation}
    (parsed : parseFrom automaton stack last position input = .ok derivation) :
    ∃ state, stateOf automaton stack = some state := by
  obtain ⟨rfl, finished⟩ | ⟨state, _, _, here, -⟩ := parseFrom_cases parsed
  · cases here : stateOf automaton stack with
    | some state => exact ⟨state, rfl⟩
    | none =>
      have stuck : step automaton stack ⟨.endOfInput, "", last⟩ = .stuck := by rw [step, here]
      rw [finish_eq_ok_iff, read_of_not_reduced (by simp [stuck]), stuck] at finished
      cases finished
  · exact ⟨state, here⟩

end Parser

/-! ## At signs -/

/-- An at sign stands behind a name only. -/
def Linked (first second : Token) : Prop :=
  second.kind = .atSign → first.kind = .name

namespace Grammar

/-- What is known of the tokens of a symbol: at signs in them stand behind names, and they
do not begin with one unless the symbol is one. -/
structure AtSigns (symbol : Symbol) (tokens : List Token) : Prop where
  linked : tokens.IsChain Linked
  head : ∀ token ∈ tokens.head?, token.kind = .atSign → symbol = .terminal .atSign
  single : ∀ kind, symbol = .terminal kind → ∃ token, tokens = [token] ∧ token.kind = kind

/-- In the body of a rule an at sign stands behind a name. -/
def NamesBeforeAtSigns (body : List Symbol) : Prop :=
  body.IsChain fun first second => second = .terminal .atSign → first = .terminal .name

theorem atSigns_of_spells {body : List Symbol} {tokens : List Token}
    {kept : List (List (Option Tree))} (names : NamesBeforeAtSigns body)
    (spells : Spells (fun symbol tokens _ => AtSigns symbol tokens) body tokens kept) :
    tokens.IsChain Linked ∧
      ∀ token ∈ tokens.head?, token.kind = .atSign → body.head? = some (.terminal .atSign) := by
  induction spells with
  | nil => exact ⟨.nil, by simp⟩
  | @cons symbol rest tokens later kept others here _ ih =>
    obtain ⟨linkedLater, headLater⟩ := ih names.tail
    -- the first token of what follows is an at sign only behind a name
    have behind : ∀ token ∈ later.head?, token.kind = .atSign →
        ∃ name, tokens = [name] ∧ name.kind = .name := by
      intro token member isAtSign
      have next := headLater token member isAtSign
      cases rest with
      | nil => cases next
      | cons second rest =>
        obtain rfl : second = .terminal .atSign := Option.some.inj next
        exact here.single .name ((List.isChain_cons_cons.mp names).1 rfl)
    refine ⟨List.isChain_append.mpr ⟨here.linked, linkedLater, ?_⟩, ?_⟩
    · intro token isLast second isHead isAtSign
      obtain ⟨name, rfl, isName⟩ := behind second isHead isAtSign
      cases isLast
      exact isName
    · intro token member isAtSign
      rw [List.head?_append] at member
      cases tokens with
      | nil =>
        obtain ⟨name, none, -⟩ := behind token (by simpa using member) isAtSign
        cases none
      | cons first tokens =>
        rw [here.head token (by simpa using member) isAtSign, List.head?_cons]

theorem namesBeforeAtSigns_of_mem_rules :
    ∀ rule ∈ rules, NamesBeforeAtSigns rule.body ∧ rule.body.head? ≠ some (.terminal .atSign) := by
  unfold NamesBeforeAtSigns
  decide +kernel

/-- At signs stand behind names in whatever the grammar derives. -/
theorem Derives.atSigns {symbol : Symbol} {tokens : List Token} {kept : List (Option Tree)}
    (derives : Derives symbol tokens kept) : AtSigns symbol tokens := by
  refine Derives.induct (motive := fun symbol tokens _ => AtSigns symbol tokens) ?_ ?_ derives
  · intro token
    refine ⟨List.isChain_singleton _, fun other member isAtSign => ?_, fun kind same => ?_⟩
    · cases member
      rw [isAtSign]
    · exact ⟨token, rfl, Symbol.terminal.inj same⟩
  · intro rule member tokens kept _ spells
    obtain ⟨names, other⟩ := namesBeforeAtSigns_of_mem_rules rule member
    obtain ⟨linked, head⟩ := atSigns_of_spells names spells
    exact ⟨linked, fun token isHead isAtSign => absurd (head token isHead isAtSign) other, nofun⟩

end Grammar

/-! ## What stands behind a token -/

theorem Gap.head_mem {first : Char} {rest : List Char} (gap : Gap (first :: rest)) :
    first ∈ Pattern.separators := by
  cases gap with
  | space white _ => exact List.mem_append_left ['/'] white
  | comment => decide

namespace Terminal

theorem not_matches_nil (kind : Terminal) : ¬ kind.Matches [] := by
  cases kind <;> simp [Matches, fixedText?, Pattern.Digits]

/-- The texts of a terminal begin as it can. -/
theorem begins_of_matches {kind : Terminal} {first : Char} {rest : List Char}
    (isText : kind.Matches (first :: rest)) : kind.begins first = true := by
  cases kind
  case name =>
    obtain ⟨_, _, same, starts, -⟩ := isText
    cases same
    exact starts
  case integer => exact isText.2 first List.mem_cons_self
  case decimal =>
    obtain ⟨whole, places, same, ⟨nonempty, digits⟩, -⟩ := isText
    cases whole with
    | nil => exact absurd rfl nonempty
    | cons digit others =>
      cases same
      exact digits first List.mem_cons_self
  case codepoint =>
    obtain ⟨_, same, -⟩ := isText
    cases same
    rfl
  case doubleQuoted | singleQuoted =>
    obtain ⟨_, same, -⟩ := isText
    cases same
    rfl
  case comparison => revert isText; simp [Matches, begins]; grind
  case comment | blank | endOfInput => cases isText
  all_goals
    have same := congrArg (fun text => (text.map String.toList).bind List.head?) isText
    simpa [begins, fixedText?] using same

theorem eq_atSign_of_begins : ∀ kind : Terminal, kind.begins '@' = true → kind = .atSign := by
  have all : ∀ kind ∈ all, kind.begins '@' = true → kind = .atSign := by decide +kernel
  exact fun kind => all kind (mem_all kind)

end Terminal

/-- The first token stands behind a gap. -/
theorem Spelled.position_head {before rest : List Char} {token : Token} {tokens : List Token}
    (spelled : Spelled before rest (token :: tokens)) :
    ∃ gap, token.position = .after (before ++ gap) := by
  cases spelled with
  | @cons _ gap => exact ⟨gap, rfl⟩

/-- No at sign follows a slash at once. -/
theorem Spelled.head_ne_atSign {before rest : List Char} {token : Token} {tokens : List Token}
    (isText : token.kind.Matches ['/']) (spelled : Spelled before rest tokens)
    (linked : (token :: tokens).IsChain Linked) : rest.head? ≠ some '@' := by
  have notSeparator {more : List Char} : ¬ Gap ('@' :: more) := fun gap =>
    absurd gap.head_mem (by decide)
  intro isHead
  cases spelled with
  | nil passed =>
    obtain ⟨more, rfl⟩ := List.head?_eq_some_iff.mp isHead
    exact notSeparator passed
  | @cons _ gap text rest kind tokens passed isNext later =>
    cases gap with
    | cons first gap =>
      obtain rfl : first = '@' := Option.some.inj isHead
      exact notSeparator passed
    | nil =>
      cases text with
      | nil => exact kind.not_matches_nil isNext
      | cons first text =>
        obtain rfl : first = '@' := Option.some.inj isHead
        have isName := (List.isChain_cons_cons.mp linked).1
          (Terminal.eq_atSign_of_begins _ (Terminal.begins_of_matches isNext))
        rw [isName] at isText
        obtain ⟨start, others, single, starts, -⟩ := isText
        obtain ⟨rfl, -⟩ := List.cons.inj single
        cases starts

/-! ## The text with a gap put in -/

namespace Parser

open Lexer

variable {rules : List Production} {automaton : Automaton} {stack other : List Frame}
  {derivation : Derivation} {last : Position}

/-- What the parser accepts from a sound stack is derived from tokens that spell the input. -/
theorem exists_spelled_of_sound (reduces : ReducesBy rules automaton) (sound : Sound rules stack)
    {before input : List Char}
    (parsed : parseFrom automaton stack last (.after before) input = .ok derivation) :
    ∃ tokens, Spelled before input tokens ∧ derivation.tokens = consumed stack ++ tokens := by
  obtain ⟨tokens, spelled, accepts⟩ := exists_spelled_of_parseFrom parsed
  exact ⟨tokens, spelled, (valid_of_parseTokens reduces sound accepts).2.2⟩

/-- The next token of the derivation is what is read next, where it stands at the position. -/
theorem exists_shifted_of_tokens (reduces : ReducesBy rules automaton) (sound : Sound rules stack)
    {before text rest : List Char} {kind : Terminal} {tokens : List Token}
    (parsed : parseFrom automaton stack last (.after before) (text ++ rest) = .ok derivation)
    (same : derivation.tokens =
      consumed stack ++ ⟨kind, String.ofList text, .after before⟩ :: tokens) :
    ∃ state next, stateOf automaton stack = some state ∧
      next? (admitted state) (text ++ rest) = some (kind, text.length) ∧ kind.isIgnored = false ∧
      read automaton stack ⟨kind, String.ofList text, .after before⟩ = .shifted next ∧
      parseFrom automaton next (.after before) (.after (before ++ text)) rest = .ok derivation := by
  obtain ⟨_, finished⟩ | ⟨state, found, length, here, isNext, shorter, step⟩ :=
    parseFrom_cases parsed
  · have none := (valid_of_finish reduces sound finished).2.2
    simp [same] at none
  rw [Position.advance_after] at step
  obtain ⟨-, passed⟩ | ⟨kept, next, shifted, later⟩ := step
  · -- the token would stand behind what is passed over
    obtain ⟨others, spelled, whole⟩ := exists_spelled_of_sound reduces sound passed
    obtain rfl := List.append_cancel_left (whole.symm.trans same)
    obtain ⟨gap, place⟩ := spelled.position_head
    have none : (text ++ rest).take length ++ gap = [] :=
      Position.eq_nil_of_after_append (List.append_assoc .. ▸ place.symm)
    have whole := List.take_append_drop length (text ++ rest)
    rw [(List.append_eq_nil_iff.mp none).1, List.nil_append] at whole
    rw [whole] at shorter
    exact absurd shorter (Nat.lt_irrefl _)
  · obtain ⟨soundNext, taken⟩ := sound_of_read reduces sound shifted
    obtain ⟨others, -, whole⟩ := exists_spelled_of_sound reduces soundNext later
    rw [taken, List.append_assoc] at whole
    obtain ⟨sameToken, -⟩ := List.cons.inj (List.append_cancel_left (whole.symm.trans same))
    obtain ⟨rfl, sameText, -⟩ := Token.mk.inj sameToken
    have front : (text ++ rest).take length = text := String.ofList_injective sameText
    obtain rfl : length = text.length := by
      have least := length_le_of_next? isNext
      have size := congrArg List.length front
      rw [List.length_take] at size
      omega
    rw [List.take_left] at shifted later
    rw [List.drop_left] at later
    exact ⟨state, next, here, isNext, kept, shifted, later⟩

/-- A token is read as before when a gap is put somewhere behind it. -/
theorem next?_inserted {admitted : List Terminal} {before text front back gap : List Char}
    {kind : Terminal} {position : Position} {tokens : List Token} (passed : Gap gap)
    (found : next? admitted (text ++ (front ++ back)) = some (kind, text.length))
    (kept : kind.isIgnored = false) (isText : kind.Matches text)
    (spelled : Spelled before front tokens)
    (linked : (⟨kind, String.ofList text, position⟩ :: tokens : List Token).IsChain Linked) :
    next? admitted (text ++ (front ++ (gap ++ back))) = some (kind, text.length) := by
  cases gap with
  | nil => exact found
  | cons separator gap =>
    refine next?_kept found kept passed.head_mem fun isSlash => ?_
    subst isSlash
    exact spelled.head_ne_atSign isText linked

/-- A gap behind some tokens of a text changes nothing. The induction is on these tokens: each is
read as before, up to its position, and the gap is passed over behind the last of them. -/
theorem exists_parseFrom_inserted (reduces : ReducesBy rules automaton) {gap back : List Char}
    (passed : Gap gap) {before front : List Char} {first second : List Token}
    (spelled : Spelled before front first) (linked : first.IsChain Linked)
    (sound : Sound rules stack) (same : other.map Frame.unplaced = stack.map Frame.unplaced)
    (parsed : parseFrom automaton stack last (.after before) (front ++ back) = .ok derivation)
    (tokens : derivation.tokens = consumed stack ++ (first ++ second))
    (last' position' : Position) :
    ∃ moved, parseFrom automaton other last' position' (front ++ (gap ++ back)) = .ok moved ∧
      moved.unplaced = derivation.unplaced := by
  induction spelled generalizing stack other last last' position' with
  | nil passedFront =>
    obtain ⟨state, here⟩ := exists_state_of_parseFrom parsed
    have there := (stateOf_of_same automaton same).trans here
    rw [parseFrom_gap here passedFront] at parsed
    rw [parseFrom_gap there passedFront, parseFrom_gap there passed]
    exact exists_parseFrom_of_same same parsed _ _
  | @cons before skipped text front kind first passedFront isText spelled ih =>
    obtain ⟨state, here⟩ := exists_state_of_parseFrom parsed
    have there := (stateOf_of_same automaton same).trans here
    rw [List.append_assoc, List.append_assoc, parseFrom_gap here passedFront,
      Position.advance_after] at parsed
    rw [List.append_assoc, List.append_assoc, parseFrom_gap there passedFront]
    obtain ⟨state, next, here, found, kept, shifted, later⟩ :=
      exists_shifted_of_tokens reduces sound parsed tokens
    obtain ⟨soundNext, taken⟩ := sound_of_read reduces sound shifted
    replace found := next?_inserted passed found kept isText spelled linked
    obtain ⟨next', shifted', sameNext⟩ := exists_shifted_of_same same
      (show (Token.mk kind (String.ofList text) (position'.advance skipped)).unplaced =
        Token.unplaced ⟨_, _, .after (before ++ skipped)⟩ from rfl) shifted
    obtain ⟨moved, parsedMoved, alike⟩ := ih linked.tail soundNext sameNext later
      (by rw [tokens, taken]; simp) (position'.advance skipped)
      ((position'.advance skipped).advance text)
    have nonempty : text ++ (front ++ (gap ++ back)) ≠ [] := by
      intro none
      rw [(List.append_eq_nil_iff.mp none).1] at isText
      exact kind.not_matches_nil isText
    refine ⟨moved, eq_ok_of_toOption ?_, alike⟩
    rw [parseFrom_of_found nonempty ((stateOf_of_same automaton same).trans here) found kept,
      List.take_left, List.drop_left, shifted']
    show (parseFrom automaton next' _ _ _).toOption = _
    rw [parsedMoved]
    rfl

end Parser

/-! ## Boundaries -/

/-- A boundary of a text that some tokens spell: some of them are before it, with nothing but
gaps, and the others are behind it. -/
def Boundary (tokens : List Token) (front back : List Char) : Prop :=
  ∃ first second, tokens = first ++ second ∧ Spelled [] front first ∧ Spelled front back second

/-- There is a boundary between any two tokens, before the first and behind the last. -/
theorem Spelled.exists_split {before text : List Char} {first second : List Token}
    (spelled : Spelled before text (first ++ second)) :
    ∃ front back, text = front ++ back ∧ Spelled before front first ∧
      Spelled (before ++ front) back second := by
  induction first generalizing before text with
  | nil => exact ⟨[], text, rfl, .nil .nil, by simpa using spelled⟩
  | cons token first ih =>
    cases spelled with
    | @cons _ gap text rest kind _ passed isText later =>
      obtain ⟨front, back, rfl, here, there⟩ := ih later
      exact ⟨gap ++ text ++ front, back, by simp, .cons passed isText here, by simpa using there⟩

/-- Layout is immaterial: an accepted text is spelled by the tokens of its derivation, and with
white space or complete comments put in at any boundary of it, it is accepted with the same tree
up to positions. -/
theorem exists_parse_inserted {source : String} {tree : Tree} (parsed : parse source = .ok tree) :
    ∃ derivation, parseDerivation source = .ok derivation ∧
      derivation.tree? = some tree ∧ Spelled [] source.toList derivation.tokens ∧
      ∀ front back gap : List Char, source.toList = front ++ back →
        Boundary derivation.tokens front back → Gap gap →
          ∃ moved, parse (String.ofList (front ++ gap ++ back)) = .ok moved ∧
            moved.unplaced = tree.unplaced := by
  obtain ⟨derivation, found, isTree⟩ := (Grammar.parse_eq_ok_iff source tree).mp parsed
  obtain ⟨valid, isStart, spelled⟩ := Grammar.spelled_of_parseDerivation found
  have linked : derivation.tokens.IsChain Linked :=
    (Grammar.Derives.atSigns ⟨derivation, valid, isStart, rfl, rfl⟩).linked
  refine ⟨derivation, found, isTree, spelled, ?_⟩
  rintro front back gap split ⟨first, second, whole, spelledFront, -⟩ passed
  have parsedHere : Parser.parseFrom Grammar.automaton [] .start (.after []) (front ++ back) =
      .ok derivation := split ▸ found
  rw [whole] at linked
  obtain ⟨moved, parsedMoved, alike⟩ := Parser.exists_parseFrom_inserted Grammar.reducesBy_rules
    passed spelledFront (List.isChain_append.mp linked).1 (by simp [Parser.Sound]) rfl parsedHere
    whole .start .start
  have movedTree : moved.tree?.map Tree.unplaced = some tree.unplaced := by
    rw [← Derivation.tree?_unplaced, alike, Derivation.tree?_unplaced, isTree, Option.map_some]
  obtain ⟨other, isOther, sameTree⟩ := Option.map_eq_some_iff.mp movedTree
  refine ⟨other, (Grammar.parse_eq_ok_iff _ other).mpr ⟨moved, ?_, isOther⟩, sameTree⟩
  rw [parseDerivation, String.toList_ofList, List.append_assoc]
  exact parsedMoved

/-- Comments before and behind a program. -/
theorem exists_parse_inserted_commented :
    ∃ tree before behind, parse "/@ shown @/\nexscribe a;" = .ok tree ∧
      parse "/@ first @/ /@ shown @/\nexscribe a;" = .ok before ∧
      before.unplaced = tree.unplaced ∧
      parse "/@ shown @/\nexscribe a;\t/@ last @/" = .ok behind ∧
      behind.unplaced = tree.unplaced := by
  obtain ⟨tree, parsed⟩ := exists_parse_commented
  obtain ⟨derivation, -, -, spelled, inserted⟩ := exists_parse_inserted parsed
  have first : Gap ('/' :: '@' :: " first ".toList ++ ['@', '/', ' ']) :=
    .comment (by decide +kernel) (.space (by decide) .nil)
  have last : Gap ('\t' :: ('/' :: '@' :: " last ".toList ++ ['@', '/'])) :=
    .space (by decide) (.comment (by decide +kernel) .nil)
  obtain ⟨before, isBefore, sameBefore⟩ := inserted [] _ _ rfl
    ⟨[], _, rfl, .nil .nil, spelled⟩ first
  obtain ⟨behind, isBehind, sameBehind⟩ := inserted _ [] _ (List.append_nil _).symm
    ⟨_, [], (List.append_nil _).symm, spelled, .nil .nil⟩ last
  exact ⟨tree, before, behind, parsed, isBefore, sameBefore, isBehind, sameBehind⟩

end GlyphCompiler
