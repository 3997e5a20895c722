/-
# Words that are read as themselves

A text can be written so that each of its words is read as itself wherever the
parser admits it. Then the text is accepted whenever the tokens of its words are,
and nothing needs to be known about the states in between: what an accepting run
shifts is admitted where it is shifted.

Only a star needs more. After one of the words that stand before a type, no
double star is admitted, so there two stars in a row are read one by one.
-/

import GlyphCompiler.Proofs.Parser.Acceptance

namespace GlyphCompiler

open Parser (Frame currentState stateOf admitted read feed step parseTokens parseFrom Visible)
open Pattern (Delimited)
open Lexer (next? spots)

variable {automaton : Automaton} {state : State}

/-! ## States after a word -/

/-- A state that is entered by shifting a terminal, if one is given. -/
def Entered (automaton : Automaton) (before : Option Terminal) (state : State) : Prop :=
  ∀ kind ∈ before, ∃ place origin target, automaton.states.get? place = some origin ∧
    (kind, .shift target) ∈ origin.actions ∧ automaton.states.get? target = some state

/-- Whatever is reduced first, a token is shifted by an action for it. -/
theorem entered_of_feed {token : Token} {fuel : Nat} {stack next : List Frame}
    (shifted : feed automaton token fuel stack = .shifted next)
    (here : stateOf automaton next = some state) : Entered automaton (some token.kind) state := by
  induction fuel generalizing stack with
  | zero => cases shifted
  | succ fuel ih =>
    rw [feed] at shifted
    cases done : step automaton stack token with
    | reduced below =>
      rw [done] at shifted
      exact ih shifted
    | shifted last =>
      rw [done] at shifted
      obtain rfl := Parser.Step.shifted.inj shifted
      rw [step] at done
      split at done
      · cases done
      · rename_i origin there
        split at done
        · cases done
        · rename_i target asked
          obtain rfl := Parser.Step.shifted.inj done
          rintro _ ⟨⟩
          exact ⟨_, origin, target, there, Parser.mem_of_lookup_eq_some asked, here⟩
        · rename_i rule asked
          obtain stuck | ⟨_, rfl, -, ⟨-, -, done'⟩ | ⟨-, _, _, -, -, done'⟩⟩ :=
            Parser.reduce_cases automaton rule stack <;> simp_all
    | _ => simp [done] at shifted

theorem isSome_of_parseTokens {stack : List Frame} {last : Position} {token : Token}
    {rest : List Token} {derivation : Derivation}
    (parsed : parseTokens automaton stack last (token :: rest) = some derivation) :
    ∃ state, stateOf automaton stack = some state := by
  cases here : stateOf automaton stack with
  | some state => exact ⟨state, rfl⟩
  | none =>
    have stuck : step automaton stack token = .stuck := by simp only [step, here]
    rw [parseTokens, Parser.read_of_not_reduced (by simp [stuck]), stuck] at parsed
    cases parsed

/-! ## Legible texts -/

/-- Words that are each read as themselves, in every state that admits them and is entered
by the word before. -/
inductive Legible (automaton : Automaton) : Option Terminal → List Word → Prop
  | nil {before : Option Terminal} : Legible automaton before []
  | cons {before : Option Terminal} {word : Word} {rest : List Word}
      (visible : Visible word.text.toList) (kept : word.kind.isIgnored = false)
      (found : ∀ state, Entered automaton before state → word.kind ∈ admitted state →
        next? (admitted state) (word.text.toList ++ Word.spell rest) =
          some (word.kind, word.text.toList.length))
      (later : Legible automaton (some word.kind) rest) :
      Legible automaton before (word :: rest)

/-- A legible text is accepted whenever its tokens are. -/
theorem Legible.parseFrom {before : Option Terminal} {words : List Word}
    (legible : Legible automaton before words) {stack : List Frame} {last position : Position}
    {derivation : Derivation}
    (entered : ∀ state, stateOf automaton stack = some state → Entered automaton before state)
    (parsed : parseTokens automaton stack last (Word.place position words) = some derivation) :
    (parseFrom automaton stack last position (Word.spell words)).toOption = some derivation := by
  induction legible generalizing stack last position with
  | nil =>
    rw [Word.spell, List.flatMap_nil, Parser.parseFrom]
    exact parsed
  | @cons before word rest visible kept found later ih =>
    obtain ⟨state, here⟩ := isSome_of_parseTokens parsed
    have member := Parser.mem_admitted_of_parseTokens here parsed
    rw [Word.spell_cons, Parser.parseFrom_word here visible kept
      (found state (entered state here) member) fun next shifted => ?_]
    · exact parsed
    · rw [Word.place, parseTokens, shifted] at parsed
      exact (ih (fun state there => entered_of_feed shifted there) parsed).trans parsed.symm

/-- What the grammar derives from the tokens of a legible text is the tree that the text is
parsed as. -/
theorem Grammar.parse_of_legible {source : String} {words : List Word}
    (spelled : source.toList = Word.spell words) (legible : Legible Grammar.automaton none words)
    (plain : ∀ token ∈ Word.place .start words, token.kind ≠ .returnWord) {tree : Tree}
    (derives : Grammar.Derives (.nonterminal .start) (Word.place .start words) [some tree]) :
    parse source = .ok tree := by
  have ⟨derivation, valid, isStart, tokens, _⟩ := derives
  have parsed : parseTokens Grammar.automaton [] .start (Word.place .start words) =
      some derivation :=
    (parseTokens_iff plain .start derivation).mpr ⟨valid, isStart, tokens⟩
  refine (parse_iff plain ?_ tree).mpr derives
  rw [spelled, legible.parseFrom (fun _ _ => nofun) parsed, parsed]

/-! ## Words by their classes -/

namespace Legible

variable {before : Option Terminal} {word : Word} {rest : List Word}

/-- A symbol that no longer one begins with. -/
theorem symbol {others : List (Terminal × Nat)} (visible : Visible word.text.toList)
    (listed : (word.text.toList, (word.kind, word.text.toList.length) :: others) ∈ Lexer.symbols)
    (plain : Lexer.isPlain word.kind) (kept : word.kind.isIgnored = false)
    (later : Legible automaton (some word.kind) rest) :
    Legible automaton before (word :: rest) :=
  .cons visible kept (fun _ _ member => Lexer.next?_of_spots [] (Lexer.spots_symbol listed _)
    nofun plain member) later

/-- Any other symbol, before a delimiter. -/
theorem shortSymbol (visible : Visible word.text.toList)
    (listed : (word.text.toList, [(word.kind, word.text.toList.length)]) ∈ Lexer.shortSymbols)
    (plain : Lexer.isPlain word.kind) (kept : word.kind.isIgnored = false)
    (delimited : Delimited (Word.spell rest)) (later : Legible automaton (some word.kind) rest) :
    Legible automaton before (word :: rest) :=
  .cons visible kept (fun _ _ member => Lexer.next?_of_spots []
    (Lexer.spots_shortSymbol listed delimited) nofun plain member) later

/-- A name that no keyword is spelled like, before a delimiter. -/
theorem name (isName : word.kind = .name)
    (whole : Pattern.name word.text.toList = some word.text.toList.length)
    (other : ∀ kind ∈ Terminal.all, kind.isKeyword → kind.fixedText? ≠ some word.text)
    (delimited : Delimited (Word.spell rest)) (later : Legible automaton (some .name) rest) :
    Legible automaton before (word :: rest) := by
  obtain ⟨spaced, kind, text⟩ := word
  obtain rfl : kind = .name := isName
  have visible : Visible text.toList :=
    Parser.visible_of_match? (by decide : Terminal.name ≠ .blank) whole
  refine .cons visible rfl (fun state _ member => ?_) later
  have sorted : Lexer.classify (admitted state) text.toList = .name :=
    Lexer.classify_name fun kind _ keyword => by
      rw [String.ofList_toList]
      exact other kind (Terminal.mem_all kind) keyword
  rw [Lexer.next?_name member whole delimited, sorted]

/-- A keyword, whether names are admitted along with it or not. -/
theorem keyword (keyword : word.kind.isKeyword)
    (spelled : word.kind.fixedText? = some word.text)
    (spots : spots (word.text.toList ++ Word.spell rest) =
      [(.name, word.text.toList.length), (word.kind, word.text.toList.length)])
    (visible : Visible word.text.toList) (kept : word.kind.isIgnored = false)
    (later : Legible automaton (some word.kind) rest) :
    Legible automaton before (word :: rest) := by
  have notName : word.kind ≠ .name := by
    intro same
    rw [same] at keyword
    exact absurd keyword nofun
  refine .cons visible kept (fun state _ member => ?_) later
  rw [Lexer.next?_eq, spots]
  by_cases named : .name ∈ admitted state
  · have sorted : Lexer.classify (admitted state) word.text.toList = word.kind :=
      Lexer.classify_keyword member keyword (by rw [spelled, String.ofList_toList])
    simp [Lexer.isTried, named, sorted, Terminal.isKeyword]
  · simp [Lexer.isTried, named, member, notName, Terminal.isIgnored]

end Legible

/-! ## Stars before types -/

theorem Lexer.spots_star (rest : List Char) :
    ∃ others, spots ('*' :: rest) = others ++ [(.star, 1)] ∧
      ∀ pair ∈ others, pair.1 = .power := by
  rw [Lexer.spots_starter (by decide) rest]
  change ∃ others, [Terminal.power, .star].filterMap _ = _ ∧ _
  have star : Terminal.star.match? ('*' :: rest) = some 1 := rfl
  cases found : Terminal.power.match? ('*' :: rest) with
  | none => exact ⟨[], by simp [found, star], nofun⟩
  | some length => exact ⟨[(.power, length)], by simp [found, star], by simp⟩

/-- After a word that stands before a type, no double star is admitted. -/
theorem not_power_of_entered (splits : automaton.states.all automaton.splitsStars = true)
    {before : Terminal} (entered : Entered automaton (some before) state)
    (opens : before ∈ Automaton.typeOpeners) : .power ∉ admitted state := by
  obtain ⟨place, origin, target, there, member, here⟩ := entered before rfl
  have checked := Braun.test_of_all splits there
  rw [Automaton.splitsStars, List.all_eq_true] at checked
  have passed := checked _ member
  simp only [(Automaton.inTerminalSet_setOf before _).mpr opens, Bool.not_true, Bool.false_or]
    at passed
  obtain ⟨next, same, without⟩ := Expression.passes_of_passesAt passed
  obtain rfl := Option.some.inj (here.symm.trans same)
  intro power
  simp only [Expression.mem_admittedSet.mpr power] at without
  exact absurd without nofun

/-- A star before a type. -/
theorem Legible.star (splits : automaton.states.all automaton.splitsStars = true)
    {before : Terminal} (opens : before ∈ Automaton.typeOpeners) {spaced : Bool}
    {rest : List Word} (later : Legible automaton (some .star) rest) :
    Legible automaton (some before) (⟨spaced, .star, "*"⟩ :: rest) := by
  have text : "*".toList = ['*'] := by decide
  refine .cons ⟨'*', [], text, by decide⟩ rfl (fun state entered member => ?_) later
  obtain ⟨others, found, powers⟩ := Lexer.spots_star (Word.spell rest)
  change next? (admitted state) ("*".toList ++ Word.spell rest) = some (.star, "*".toList.length)
  rw [text]
  refine Lexer.next?_of_spots others found (fun pair listed => ?_) rfl member
  rw [powers pair listed]
  exact ⟨rfl, not_power_of_entered splits entered opens⟩

end GlyphCompiler
