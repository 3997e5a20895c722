/-
# What the table can ask for

The automaton of a grammar never asks for a reduction that the grammar does not
have. Its reductions are read off the spans, and a span belongs to a production
that was spelled out; grouping them by states, splitting them by lookaheads and
storing the states moves them around without making new ones.
-/

import GlyphCompiler.Grammar.Automaton

namespace GlyphCompiler

namespace Braun

variable {α : Type}

/-- After an element has been put somewhere, only that element is new. -/
theorem eq_or_get?_of_get?_put {sequence : Braun α} {place other : Nat} {element found : α}
    (here : (sequence.put place element).get? other = some found) :
    found = element ∨ sequence.get? other = some found := by
  induction sequence generalizing place other with
  | empty => cases other <;> simp_all [put, get?]
  | node first odd even ihOdd ihEven =>
    cases place with
    | zero => cases other <;> simp_all [put, get?]
    | succ place =>
      cases other with
      | zero =>
        refine .inr ?_
        by_cases half : place % 2 = 0 <;> simpa [put, get?, half] using here
      | succ other =>
        -- Only the tree that holds the place was changed.
        by_cases half : place % 2 = 0 <;> by_cases side : other % 2 = 0 <;>
          simp only [put, get?, half, side, if_true, if_false] at here ⊢
        · exact ihOdd here
        · exact .inr here
        · exact .inr here
        · exact ihEven here

/-- Extending a sequence by a list adds the elements of the list alone. -/
theorem mem_or_get?_of_get?_extend {elements : List α} {sequence : Braun α} {place other : Nat}
    {found : α} (here : (sequence.extend place elements).get? other = some found) :
    found ∈ elements ∨ sequence.get? other = some found := by
  induction elements generalizing sequence place with
  | nil => exact .inr here
  | cons element rest ih =>
    rcases ih here with later | earlier
    · exact .inl (List.mem_cons_of_mem _ later)
    · rcases eq_or_get?_of_get?_put earlier with rfl | before
      · exact .inl List.mem_cons_self
      · exact .inr before

/-- The elements of the sequence of a list are those of the list. -/
theorem mem_of_get?_ofList {elements : List α} {place : Nat} {found : α}
    (here : (ofList elements).get? place = some found) : found ∈ elements :=
  (mem_or_get?_of_get?_extend here).resolve_right nofun

end Braun

namespace Automaton

variable {rules : List Production}

theorem production_mem_of_mem_spansOf {rows : Braun (List Edge)} {state origin : Nat}
    {head : Nonterminal} {span : Span} (member : span ∈ spansOf rules rows state origin head) :
    span.production ∈ rules := by
  obtain ⟨production, listed, found⟩ := List.mem_filterMap.mp member
  cases isHead : production.head == head with
  | false => simp [isHead] at found
  | true =>
    simp only [isHead, cond_true] at found
    obtain ⟨stop, -, rfl⟩ := Option.map_eq_some_iff.mp found
    exact listed

theorem production_mem_of_mem_spansFrom {rows : Braun (List Edge)} {rowList : List (List Edge)}
    {state : Nat} {span : Span} (member : span ∈ spansFrom rules rows state rowList) :
    span.production ∈ rules := by
  induction rowList generalizing state with
  | nil => exact absurd member nofun
  | cons row rest ih =>
    rcases List.mem_append.mp member with here | later
    · obtain ⟨⟨symbol, target, number⟩, -, found⟩ := List.mem_flatMap.mp here
      cases symbol with
      | terminal kind => exact absurd found nofun
      | nonterminal head => exact production_mem_of_mem_spansOf found
    · exact ih later

/-- Every reduction of a table is by a rule. -/
def ReducesByRules (rules : List Production) (table : Braun (List (Production × Nat))) : Prop :=
  ∀ place listed, table.get? place = some listed → ∀ pair ∈ listed, pair.1 ∈ rules

theorem reducesByRules_reductions {follow : Braun Nat} {spans : List Span}
    {table : Braun (List (Production × Nat))}
    (known : ∀ span ∈ spans, span.production ∈ rules) (before : ReducesByRules rules table) :
    ReducesByRules rules (reductions follow spans table) := by
  induction spans generalizing table with
  | nil => exact before
  | cons span rest ih =>
    refine ih (fun other member => known other (List.mem_cons_of_mem _ member)) ?_
    intro place listed here pair member
    rcases Braun.eq_or_get?_of_get?_put here with rfl | old
    · rcases List.mem_cons.mp member with rfl | later
      · exact known span List.mem_cons_self
      · cases stored : table.get? span.finish with
        | none => simp [stored] at later
        | some earlier =>
          simp only [stored, Option.getD_some] at later
          exact before _ _ stored pair later
    · exact before _ _ old pair member

/-- The actions under the lookaheads of some reductions are these reductions. -/
theorem mem_of_mem_reduceActions {taken : Nat} {listed : List (Production × Nat)}
    {terminal : Terminal} {production : Production}
    (member : (terminal, .reduce production) ∈ reduceActions taken listed) :
    ∃ pair ∈ listed, pair.1 = production := by
  induction listed generalizing taken with
  | nil => exact absurd member nofun
  | cons pair rest ih =>
    have later {taken : Nat} (there : (terminal, .reduce production) ∈ reduceActions taken rest) :
        ∃ pair' ∈ pair :: rest, pair'.1 = production := by
      obtain ⟨other, listed, same⟩ := ih there
      exact ⟨other, List.mem_cons_of_mem _ listed, same⟩
    rw [reduceActions] at member
    cases covered : Nat.beq (taken ||| pair.2) taken with
    | true =>
      rw [covered, cond_true] at member
      exact later member
    | false =>
      rw [covered, cond_false, List.mem_append] at member
      rcases member with here | there
      · obtain ⟨kind, -, found⟩ := List.mem_filterMap.mp here
        cases fresh : inTerminalSet kind pair.2 && !inTerminalSet kind taken with
        | false => simp [fresh] at found
        | true =>
          simp only [fresh, cond_true, Option.some.injEq, Prod.mk.injEq, Action.reduce.injEq]
            at found
          exact ⟨pair, List.mem_cons_self, found.2⟩
      · exact later there

theorem mem_of_mem_stateOf {row : List Edge} {listed : List (Production × Nat)}
    {terminal : Terminal} {production : Production}
    (member : (terminal, .reduce production) ∈ (stateOf row listed).actions) :
    ∃ pair ∈ listed, pair.1 = production := by
  rcases List.mem_append.mp member with shift | reduced
  · obtain ⟨⟨symbol, target, number⟩, -, found⟩ := List.mem_filterMap.mp shift
    cases symbol <;> simp at found
  · exact mem_of_mem_reduceActions reduced

theorem rule_of_mem_statesOf {table : Braun (List (Production × Nat))}
    (known : ReducesByRules rules table) {rowList : List (List Edge)} {place : Nat}
    {state : State} (member : state ∈ statesOf table place rowList) {terminal : Terminal}
    {production : Production} (asked : (terminal, .reduce production) ∈ state.actions) :
    production ∈ rules := by
  induction rowList generalizing place with
  | nil => exact absurd member nofun
  | cons row rest ih =>
    rcases List.mem_cons.mp member with rfl | later
    · obtain ⟨pair, listed, rfl⟩ := mem_of_mem_stateOf asked
      cases stored : table.get? place with
      | none => simp [stored] at listed
      | some found =>
        simp only [stored, Option.getD_some] at listed
        exact known _ _ stored pair listed
    · exact ih later

/-- The automaton of a grammar reduces by productions of the grammar only. -/
theorem rule_of_reduce {place : Nat} {state : State}
    (here : (ofRules rules).states.get? place = some state) {terminal : Terminal}
    {production : Production} (asked : (terminal, .reduce production) ∈ state.actions) :
    production ∈ rules := by
  refine rule_of_mem_statesOf ?_ (Braun.mem_of_get?_ofList here) asked
  refine reducesByRules_reductions (fun span member => ?_) ?_
  · rcases List.mem_append.mp member with start | later
    · exact production_mem_of_mem_spansOf start
    · exact production_mem_of_mem_spansFrom later
  · intro place listed stored pair member
    obtain ⟨_, -, rfl⟩ := List.mem_map.mp (Braun.mem_of_get?_ofList stored)
    exact absurd member nofun

end Automaton

end GlyphCompiler
