/-
# Where parsing fails

A position lies in a text if its line is one of the lines that the line feeds of the text
part, and its column is that of a character of the line or the one behind its end. A parse
that is rejected points into the text: at what it cannot read, and at the end of the text
at the last token.
-/

import GlyphCompiler.Proofs.Parser.Spelling
import Mathlib.Data.List.Induction

namespace GlyphCompiler

/-! ## Positions in a text -/

namespace Position

/-- A position lies in a text: its line is one of those of the text, and its column at most
one behind the last character of that line. -/
def InText (position : Position) (text : List Char) : Prop :=
  1 ≤ position.line ∧ position.line ≤ (text.splitOn '\n').length ∧ 1 ≤ position.column ∧
    position.column ≤ ((text.splitOn '\n').getD (position.line - 1) []).length + 1

/-- The end of a text stands behind its last line, which goes on with what follows. -/
theorem exists_lines (front : List Char) : ∃ (early : List (List Char)) (late : List Char),
    after front = ⟨early.length + 1, late.length + 1⟩ ∧
      ∀ back, (front ++ back).splitOn '\n' =
        early ++ (back.splitOn '\n').modifyHead (late ++ ·) := by
  induction front using List.reverseRecOn with
  | nil => exact ⟨[], [], rfl, fun back => by cases split : back.splitOn '\n' <;> simp [split]⟩
  | append_singleton front character ih =>
    obtain ⟨early, late, ends, lines⟩ := ih
    rw [← next_after, ends]
    by_cases feed : character = '\n'
    · subst feed
      refine ⟨early ++ [late], [], by simp [next], fun back => ?_⟩
      rw [List.append_assoc, lines, List.singleton_append, List.splitOn_cons_eq_if_modifyHead]
      cases back.splitOn '\n' <;> simp
    · refine ⟨early, late ++ [character], by simp [next, feed], fun back => ?_⟩
      rw [List.append_assoc, lines, List.singleton_append, List.splitOn_cons_eq_if_modifyHead,
        if_neg (by simpa using feed)]
      cases back.splitOn '\n' <;> simp

/-- The end of a text lies in every text that it begins. -/
theorem inText_after (front back : List Char) : (after front).InText (front ++ back) := by
  obtain ⟨early, late, ends, lines⟩ := exists_lines front
  rw [ends, InText, lines back]
  cases split : back.splitOn '\n' with
  | nil => exact absurd split (List.splitOn_ne_nil '\n' back)
  | cons first rest => simp [List.getD]

end Position

/-- The tokens that spell a text stand in it. -/
theorem Spelled.exists_after {before text : List Char} {tokens : List Token}
    (spelled : Spelled before text tokens) :
    ∀ token ∈ tokens, ∃ front back, before ++ text = front ++ back ∧ token.position = .after front := by
  induction spelled with
  | nil => exact fun token member => absurd member List.not_mem_nil
  | @cons before gap text rest kind tokens _ _ _ ih =>
    refine List.forall_mem_cons.mpr ⟨⟨before ++ gap, text ++ rest, by simp, rfl⟩, ?_⟩
    intro token member
    obtain ⟨front, back, whole, place⟩ := ih token member
    exact ⟨front, back, by rw [← whole]; simp, place⟩

theorem Spelled.inText {text : List Char} {tokens : List Token} (spelled : Spelled [] text tokens) :
    ∀ token ∈ tokens, token.position.InText text := by
  intro token member
  obtain ⟨front, back, rfl, place⟩ := spelled.exists_after token member
  exact place ▸ Position.inText_after front back

/-! ## Rejections -/

namespace Parser

variable {automaton : Automaton} {stack : List Frame} {last position : Position}
  {diagnostic : Diagnostic}

/-- What is missing at the end of the input is reported at the last token. -/
theorem position_of_finish (rejected : finish automaton stack last = .error (.diagnostic diagnostic)) :
    diagnostic.position = last := by
  unfold finish at rejected
  split at rejected <;> cases rejected
  rfl

theorem position_of_unreadable {state : State} {input : List Char}
    (rejected : unreadable state position input = .diagnostic diagnostic) :
    diagnostic.position = position := by
  unfold unreadable at rejected
  split at rejected
  · cases rejected
    rfl
  · split at rejected <;> cases rejected
    rfl

/-- A parse that goes on inside a text is rejected inside it. -/
theorem inText_of_parseFrom {before input : List Char} (inside : last.InText (before ++ input))
    (rejected : parseFrom automaton stack last (.after before) input =
      .error (.diagnostic diagnostic)) : diagnostic.position.InText (before ++ input) := by
  induction size : input.length using Nat.strongRecOn generalizing stack last before input with
  | _ size ih =>
    have here := Position.inText_after before input
    rw [parseFrom] at rejected
    split at rejected
    · rw [position_of_finish rejected]
      exact inside
    next nonempty =>
    split at rejected
    · cases rejected
    next state _ =>
    split at rejected
    · rw [position_of_unreadable (Except.error.inj rejected)]
      exact here
    next kind length found =>
    have onward : before ++ input.take length ++ input.drop length = before ++ input := by simp
    have shorter : (input.drop length).length < input.length := by
      have positive := Lexer.next?_pos found
      have nonempty : input ≠ [] := by simpa using nonempty
      have := List.length_pos_iff.mpr nonempty
      rw [List.length_drop]
      omega
    rw [← onward] at inside here ⊢
    simp only [Position.advance_after] at rejected
    split at rejected
    · exact ih _ (size ▸ shorter) inside rejected rfl
    · split at rejected
      · exact ih _ (size ▸ shorter) here rejected rfl
      · cases rejected
        exact here
      · cases rejected

end Parser

end GlyphCompiler
