/-
# Parsing without positions

The parser does not look at the positions of its tokens: it carries them into the tree,
and decides by their kinds. So the same text is parsed alike from stacks that are the
same up to positions, wherever it stands.
-/

import GlyphCompiler.Proofs.Parser.Spelling

namespace GlyphCompiler

/-! ## Without positions -/

/-- A token, without where it stands. -/
def Token.unplaced (token : Token) : Token :=
  { token with position := .start }

mutual

/-- A parse tree without positions. -/
def Tree.unplaced : Tree → Tree
  | .token leaf => .token leaf.unplaced
  | .node label _ children => .node label .start (unplacedSlots children)

/-- The children of a node without positions. -/
def unplacedSlots : List (Option Tree) → List (Option Tree)
  | [] => []
  | none :: rest => none :: unplacedSlots rest
  | some child :: rest => some child.unplaced :: unplacedSlots rest

end

mutual

/-- A derivation without positions. -/
def Derivation.unplaced : Derivation → Derivation
  | .leaf token => .leaf token.unplaced
  | .node production children => .node production (unplacedDerivations children)

/-- Some derivations without positions. -/
def unplacedDerivations : List Derivation → List Derivation
  | [] => []
  | child :: rest => child.unplaced :: unplacedDerivations rest

end

theorem unplacedDerivations_eq_map (derivations : List Derivation) :
    unplacedDerivations derivations = derivations.map Derivation.unplaced := by
  induction derivations with
  | nil => rfl
  | cons first rest ih => rw [unplacedDerivations, ih, List.map_cons]

@[simp]
theorem unplacedSlots_append (first second : List (Option Tree)) :
    unplacedSlots (first ++ second) = unplacedSlots first ++ unplacedSlots second := by
  induction first with
  | nil => rfl
  | cons slot rest ih => cases slot <;> simp [unplacedSlots, ih]

/-! ## Trees of derivations -/

namespace Derivation

@[simp]
theorem symbol_unplaced (derivation : Derivation) : derivation.unplaced.symbol = derivation.symbol := by
  cases derivation <;> rfl

@[simp]
theorem position_unplaced : ∀ derivation : Derivation, derivation.unplaced.position = .start
  | .leaf _ => rfl
  | .node _ [] => rfl
  | .node _ (first :: _) => position_unplaced first

theorem keep_unplaced (parts : List Part) (kept : List (List (Option Tree))) :
    keep parts (kept.map unplacedSlots) = unplacedSlots (keep parts kept) := by
  fun_induction keep parts kept with
  | case1 => simp [keep, unplacedSlots]
  | case2 parts kept ih => rw [keep, ih, unplacedSlots]
  | case3 symbol parts kept others ih => rw [List.map_cons, keep, ih, unplacedSlots_append]
  | case4 terminal parts kept others ih => rw [List.map_cons, keep, ih]
  | case5 part parts => cases part <;> simp_all [keep, unplacedSlots]

mutual

@[simp]
theorem contribution_unplaced :
    ∀ derivation : Derivation,
      derivation.unplaced.contribution = unplacedSlots derivation.contribution
  | .leaf token => rfl
  | .node production children => by
    have kept := keep_unplaced production.parts (contributions children)
    rw [← contributions_unplaced children] at kept
    have position : position (.node production (unplacedDerivations children)) = .start :=
      position_unplaced (.node production children)
    rw [unplaced, contribution, contribution, kept, position]
    cases production.build <;> rfl

theorem contributions_unplaced :
    ∀ derivations : List Derivation,
      contributions (unplacedDerivations derivations) = (contributions derivations).map unplacedSlots
  | [] => rfl
  | child :: rest => by
    rw [unplacedDerivations, contributions, contribution_unplaced child,
      contributions_unplaced rest, contributions, List.map_cons]

end

/-- The tree of a derivation without positions is its tree without them. -/
theorem tree?_unplaced (derivation : Derivation) :
    derivation.unplaced.tree? = derivation.tree?.map Tree.unplaced := by
  rw [tree?, tree?, contribution_unplaced]
  split
  · next tree single =>
    cases kept : derivation.contribution with
    | nil => simp [kept, unplacedSlots] at single
    | cons slot rest =>
      cases slot <;> cases rest with
      | nil => simp_all [unplacedSlots]
      | cons other others => cases other <;> simp [kept, unplacedSlots] at single
  · next several =>
    split
    · next tree single => exact absurd (by rw [single]; rfl) (several tree.unplaced)
    · rfl

end Derivation

namespace Parser

/-! ## Stacks -/

/-- A frame without positions. -/
def Frame.unplaced (frame : Frame) : Frame :=
  ⟨frame.state, frame.derivation.unplaced⟩

/-- What a token does to a stack, without positions. -/
def Step.unplaced : Step → Step
  | .shifted stack => .shifted (stack.map Frame.unplaced)
  | .reduced stack => .reduced (stack.map Frame.unplaced)
  | .accepted derivation => .accepted derivation.unplaced
  | .refused state => .refused state
  | .stuck => .stuck

variable (automaton : Automaton)

@[simp]
theorem stateOf_unplaced (stack : List Frame) :
    stateOf automaton (stack.map Frame.unplaced) = stateOf automaton stack := by
  cases stack <;> rfl

theorem reduce_unplaced (production : Production) (stack : List Frame) :
    reduce automaton production (stack.map Frame.unplaced) =
      (reduce automaton production stack).unplaced := by
  have children : (((stack.map Frame.unplaced).take production.body.length).map
      Frame.derivation).reverse = unplacedDerivations
        ((stack.take production.body.length).map Frame.derivation).reverse := by
    rw [unplacedDerivations_eq_map, ← List.map_take, List.map_map, List.map_reverse, List.map_map]
    rfl
  have symbols (derivations : List Derivation) :
      (unplacedDerivations derivations).map Derivation.symbol = derivations.map Derivation.symbol := by
    rw [unplacedDerivations_eq_map, List.map_map]
    exact List.map_congr_left fun derivation _ => derivation.symbol_unplaced
  simp only [reduce, children, symbols, ← List.map_drop, stateOf_unplaced, List.isEmpty_map]
  split
  · split
    · split <;> rfl
    · split <;> rfl
  · rfl

theorem step_unplaced (stack : List Frame) (token : Token) :
    step automaton (stack.map Frame.unplaced) token.unplaced =
      (step automaton stack token).unplaced := by
  simp only [step, stateOf_unplaced]
  split
  · rfl
  · next state _ =>
    have kind : token.unplaced.kind = token.kind := rfl
    rw [kind]
    split
    · rfl
    · rfl
    · exact reduce_unplaced automaton _ stack

theorem feed_unplaced (token : Token) (fuel : Nat) (stack : List Frame) :
    feed automaton token.unplaced fuel (stack.map Frame.unplaced) =
      (feed automaton token fuel stack).unplaced := by
  induction fuel generalizing stack with
  | zero => rfl
  | succ fuel ih =>
    rw [feed, feed, step_unplaced]
    cases step automaton stack token with
    | reduced next => exact ih next
    | _ => rfl

/-- Reading a token does not depend on positions. -/
theorem read_unplaced (stack : List Frame) (token : Token) :
    read automaton (stack.map Frame.unplaced) token.unplaced =
      (read automaton stack token).unplaced := by
  rw [read, read, feed_unplaced]
  simp [reductionLimit]

/-! ## Stacks that are the same up to positions -/

variable {stack other : List Frame}

theorem stateOf_of_same (same : other.map Frame.unplaced = stack.map Frame.unplaced) :
    stateOf automaton other = stateOf automaton stack := by
  rw [← stateOf_unplaced, same, stateOf_unplaced]

theorem read_of_same (same : other.map Frame.unplaced = stack.map Frame.unplaced)
    {token moved : Token} (alike : moved.unplaced = token.unplaced) :
    (read automaton other moved).unplaced = (read automaton stack token).unplaced := by
  rw [← read_unplaced, same, alike, read_unplaced]

variable {automaton}

/-- Where a token is shifted, it is shifted wherever it stands. -/
theorem exists_shifted_of_same (same : other.map Frame.unplaced = stack.map Frame.unplaced)
    {token moved : Token} (alike : moved.unplaced = token.unplaced) {next : List Frame}
    (shifted : read automaton stack token = .shifted next) :
    ∃ next', read automaton other moved = .shifted next' ∧
      next'.map Frame.unplaced = next.map Frame.unplaced := by
  have reads := read_of_same automaton same alike
  rw [shifted] at reads
  cases found : read automaton other moved with
  | shifted next' =>
    rw [found] at reads
    exact ⟨next', rfl, Step.shifted.inj reads⟩
  | _ => rw [found] at reads; cases reads

theorem finish_eq_ok_iff {last : Position} {derivation : Derivation} :
    finish automaton stack last = .ok derivation ↔
      read automaton stack ⟨.endOfInput, "", last⟩ = .accepted derivation := by
  unfold finish
  split <;> simp_all

/-- What is left of a text is parsed alike from stacks that are the same up to positions. -/
theorem exists_parseFrom_of_same (same : other.map Frame.unplaced = stack.map Frame.unplaced)
    {last position : Position} {input : List Char} {derivation : Derivation}
    (parsed : parseFrom automaton stack last position input = .ok derivation)
    (last' position' : Position) :
    ∃ moved, parseFrom automaton other last' position' input = .ok moved ∧
      moved.unplaced = derivation.unplaced := by
  induction size : input.length using Nat.strongRecOn generalizing
    stack other last position last' position' input with
  | _ size ih =>
    obtain ⟨rfl, finished⟩ | ⟨state, kind, length, here, found, shorter, step⟩ :=
      parseFrom_cases parsed
    · rw [finish_eq_ok_iff] at finished
      have reads := read_of_same automaton same
        (show (Token.mk .endOfInput "" last').unplaced = Token.unplaced ⟨_, _, last⟩ from rfl)
      rw [finished] at reads
      cases accepts : read automaton other ⟨.endOfInput, "", last'⟩ with
      | accepted moved =>
        rw [accepts] at reads
        exact ⟨moved, by rw [parseFrom]; exact finish_eq_ok_iff.mpr accepts,
          Step.accepted.inj reads⟩
      | _ => rw [accepts] at reads; cases reads
    · have nonempty : input ≠ [] := by
        rintro rfl
        simp at shorter
      have there := (stateOf_of_same automaton same).trans here
      obtain ⟨ignored, passed⟩ | ⟨kept, next, shifted, later⟩ := step
      · rw [parseFrom_of_ignored nonempty there found ignored]
        exact ih _ (size ▸ shorter) same passed _ _ rfl
      · obtain ⟨next', shifted', sameNext⟩ := exists_shifted_of_same same
          (show (Token.mk kind (String.ofList (input.take length)) position').unplaced =
            Token.unplaced ⟨_, _, position⟩ from rfl) shifted
        obtain ⟨moved, parsedMoved, alike⟩ := ih _ (size ▸ shorter) sameNext later position'
          (position'.advance (input.take length)) rfl
        refine ⟨moved, eq_ok_of_toOption ?_, alike⟩
        rw [parseFrom_of_found nonempty there found kept, shifted']
        show (parseFrom automaton next' _ _ _).toOption = _
        rw [parsedMoved]
        rfl

end Parser

end GlyphCompiler
