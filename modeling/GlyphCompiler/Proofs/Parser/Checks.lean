/-
# What holds of the table of the language

The automaton of the Glyph grammar is computed, and what the theorems about
parsing need to know of its table is checked here, all at once, since the
computation is most of the work.

One production is never reduced where another choice is left: a `return` without
a value and without a semicolon. A `return` takes what follows it for its value
whenever it can. All other productions are decided as the grammar has them.
-/

import GlyphCompiler.Proofs.Parser.Traces
import GlyphCompiler.Proofs.Parser.Places

namespace GlyphCompiler

namespace Grammar

/-- A `return` with neither a value nor a semicolon. -/
def bareReturn : Production :=
  ⟨.returnStatement, [.drop .returnWord, .absent], .node .returnStatement⟩

/-- The productions that the automaton decides as the grammar has them. -/
def decided : List Production := rules.filter (· ≠ bareReturn)

theorem mem_rules_of_mem_decided {rule : Production} (member : rule ∈ decided) : rule ∈ rules :=
  (List.mem_filter.mp member).1

/-- A bare `return` derives the word alone. -/
theorem mem_decided_of_mem_rules {rule : Production} (member : rule ∈ rules)
    (other : rule.body ≠ [.terminal .returnWord]) : rule ∈ decided := by
  refine List.mem_filter.mpr ⟨member, decide_eq_true ?_⟩
  rintro rfl
  exact other rfl

theorem ranked_rules : Parser.Ranked rules := by
  have checked : ∀ rule ∈ rules, (rule.body = [] → rule.head = .start) ∧
      ∀ symbol ∈ rule.body.head?, rule.body.length = 1 →
        Parser.rank symbol < Parser.rank (.nonterminal rule.head) := by
    decide +kernel
  intro rule member
  refine ⟨(checked rule member).1, fun symbol unit => (checked rule member).2 symbol ?_ ?_⟩
  · simp [unit]
  · simp [unit]

theorem reducesBy_rules : Parser.ReducesBy rules automaton :=
  fun _ _ here _ _ asked => Automaton.rule_of_reduce here asked

/-- The automaton of the language with everything that is checked of its table. -/
def checkedAutomaton :
    { table : Automaton // ((table.isComplete decided && Expression.isRegular table &&
      table.states.all table.splitsStars) && table.isConsistent rules) = true } :=
  ⟨automaton, by decide +kernel⟩

theorem checked_automaton : automaton.isComplete decided ∧ Expression.isRegular automaton ∧
    automaton.states.all automaton.splitsStars := by
  have checked := checkedAutomaton.property
  simp only [Bool.and_eq_true, and_assoc] at checked
  obtain ⟨complete, regular, splits, -⟩ := checked
  exact ⟨complete, regular, splits⟩

theorem isConsistent_automaton : automaton.isConsistent rules :=
  (Bool.and_eq_true_iff.mp checkedAutomaton.property).2

end Grammar

end GlyphCompiler
