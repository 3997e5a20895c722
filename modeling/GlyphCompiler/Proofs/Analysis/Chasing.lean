/-
# The search for the elements of an array

The search goes from a constant to its first value, from a subscript to the array that it
is taken of, and on to the element that stands there. It ends if the first value of every
constant names only what was numbered before the constant: then each step of the search
leads to what names only earlier variables, or else to a part of what was searched before.
-/

import GlyphCompiler.Proofs.Analysis.Extents
import GlyphCompiler.Proofs.Program.Owners

namespace GlyphCompiler

/-! ## Numbers below a bound -/

/-- Every owner has a number below a bound. -/
def Under (bound : Nat) (owners : List Owner) : Prop :=
  ∀ owner ∈ owners, owner.id < bound

section

variable {bound : Nat} {owner : Owner} {owners others : List Owner}

@[simp]
theorem under_nil : Under bound [] := nofun

@[simp]
theorem under_cons : Under bound (owner :: owners) ↔ owner.id < bound ∧ Under bound owners :=
  List.forall_mem_cons

@[simp]
theorem under_append : Under bound (owners ++ others) ↔ Under bound owners ∧ Under bound others :=
  List.forall_mem_append

theorem Under.mono {higher : Nat} (under : Under bound owners) (le : bound ≤ higher) :
    Under higher owners :=
  fun owner member => (under owner member).trans_le le

theorem Under.subset (under : Under bound owners) (within : others ⊆ owners) : Under bound others :=
  fun owner member => under owner (within member)

/-- The least bound that the numbers of some owners have. -/
def ceiling : List Owner → Nat
  | [] => 0
  | owner :: rest => max (owner.id + 1) (ceiling rest)

theorem ceiling_le_iff : ceiling owners ≤ bound ↔ Under bound owners := by
  induction owners with
  | nil => simp [ceiling]
  | cons owner rest ih => rw [ceiling, Nat.max_le, ih, under_cons, Nat.succ_le_iff]

theorem under_ceiling (owners : List Owner) : Under (ceiling owners) owners :=
  ceiling_le_iff.mp le_rfl

end

namespace Analysis

/-! ## The search -/

/-- The element at a known place among elements that are known. -/
def elementAt : Option (List Expr) → Value → Option Expr
  | some elements, .number (.int (.ofNat place)) => elements[place]?
  | _, _ => none

/-- Is there something to search in an expression? -/
def isSearched : Expr → Bool
  | .array _ _ | .reference _ | .subscript _ _ _ => true
  | _ => false

section

variable (constants : List (Nat × Expr))

/-- What the search for the elements of an array finds, given the constants with their
first values. It works out what a subscript is taken of before its index, and either
may fault. -/
inductive Finds : Expr → Except Fault (Option (List Expr)) → Prop
  | array {info : Info} {elements : List Expr} : Finds (.array info elements) (.ok (some elements))
  | constant {use : Reference} {value : Expr} {outcome : Except Fault (Option (List Expr))}
      (noted : constants.lookup use.target.id = some value) (finds : Finds value outcome) :
    Finds (.reference use) outcome
  | unnoted {use : Reference} (unnoted : constants.lookup use.target.id = none) :
    Finds (.reference use) (.ok none)
  | baseFaults {info : Info} {base index : Expr} {fault : Fault}
      (findsBase : Finds base (.error fault)) :
    Finds (.subscript info base index) (.error fault)
  | indexFaults {info : Info} {base index : Expr} {outer : Option (List Expr)} {fault : Fault}
      (findsBase : Finds base (.ok outer)) (faults : index.staticValue = .error fault) :
    Finds (.subscript info base index) (.error fault)
  | noElement {info : Info} {base index : Expr} {outer : Option (List Expr)} {place : Value}
      (findsBase : Finds base (.ok outer)) (isIndex : index.staticValue = .ok place)
      (noElement : elementAt outer place = none) :
    Finds (.subscript info base index) (.ok none)
  | element {info : Info} {base index element : Expr} {outer : Option (List Expr)} {place : Value}
      {outcome : Except Fault (Option (List Expr))}
      (findsBase : Finds base (.ok outer)) (isIndex : index.staticValue = .ok place)
      (isElement : elementAt outer place = some element) (finds : Finds element outcome) :
    Finds (.subscript info base index) outcome
  | other {expression : Expr} (other : isSearched expression = false) : Finds expression (.ok none)

/-- The search in an expression goes on to search another: the first value of a constant,
what a subscript is taken of, or the element that stands there. -/
inductive Searches : Expr → Expr → Prop
  | constant {use : Reference} {value : Expr}
      (noted : constants.lookup use.target.id = some value) :
    Searches value (.reference use)
  | base {info : Info} {base index : Expr} : Searches base (.subscript info base index)
  | element {info : Info} {base index element : Expr} {outer : Option (List Expr)} {place : Value}
      (findsBase : Finds constants base (.ok outer)) (isIndex : index.staticValue = .ok place)
      (isElement : elementAt outer place = some element) :
    Searches element (.subscript info base index)

/-- The first value of every constant names only what was numbered before the constant, and
the constants stand in the order of their numbers, the latest first. -/
structure Grounded : Prop where
  descending : constants.Pairwise fun later earlier => earlier.1 < later.1
  named : ∀ entry ∈ constants, Under entry.1 entry.2.uses

end

variable {constants : List (Nat × Expr)} {next expression : Expr}

theorem elementAt_eq_some {outer : Option (List Expr)} {place : Value} {element : Expr}
    (isElement : elementAt outer place = some element) :
    ∃ elements index, outer = some elements ∧ place = .number (.int (.ofNat index)) ∧
      elements[index]? = some element := by
  unfold elementAt at isElement
  split at isElement
  · next elements index => exact ⟨elements, index, rfl, rfl, isElement⟩
  · cases isElement

theorem mem_of_lookup {id : Nat} {value : Expr} (noted : constants.lookup id = some value) :
    (id, value) ∈ constants := by
  obtain ⟨later, earlier, rfl, -⟩ := List.lookup_eq_some_iff.mp noted
  exact List.mem_append_right _ List.mem_cons_self

/-! ## Every step leads lower -/

/-- An expression is lower than another if all that it names was numbered before something
that the other names, or if it names nothing later and has fewer nodes. -/
def Lower (next expression : Expr) : Prop :=
  ceiling next.uses < ceiling expression.uses ∨
    ceiling next.uses ≤ ceiling expression.uses ∧ next.walk.length < expression.walk.length

theorem Lower.trans {last : Expr} (first : Lower last next) (second : Lower next expression) :
    Lower last expression := by
  unfold Lower at *
  omega

theorem wellFounded_lower : WellFounded Lower := by
  refine Subrelation.wf (fun {next expression} lower => ?_)
    (InvImage.wf (fun expression : Expr => (ceiling expression.uses, expression.walk.length))
      (Prod.lex Nat.lt_wfRel Nat.lt_wfRel).wf)
  show Prod.Lex (· < ·) (· < ·) _ _
  obtain earlier | ⟨within, smaller⟩ := lower
  · exact Prod.Lex.left _ _ earlier
  · obtain earlier | same := within.lt_or_eq
    · exact Prod.Lex.left _ _ earlier
    · simp only [same]
      exact Prod.Lex.right _ smaller

/-- A part of an expression names nothing else, and has fewer nodes. -/
theorem lower_of_child (listed : .expr next ∈ expression.children) : Lower next expression := by
  have isChild : .expr next ∈ (Node.expr expression).children := listed
  refine .inr ⟨ceiling_le_iff.mpr fun owner used => ?_, Node.length_walk_lt isChild⟩
  exact under_ceiling _ owner (Node.uses_of_child isChild used)

namespace Grounded

/-- The first value of a constant names only what was numbered before the constant. -/
theorem lower_constant (grounded : Grounded constants) {use : Reference} {value : Expr}
    (noted : constants.lookup use.target.id = some value) : Lower value (.reference use) := by
  have earlier := ceiling_le_iff.mpr (grounded.named _ (mem_of_lookup noted))
  have above : use.target.id < ceiling (Expr.reference use).uses :=
    under_ceiling (Expr.reference use).uses (.value use.target) List.mem_cons_self
  exact .inl (earlier.trans_lt above)

/-- The elements that are found of an array are lower than the array. -/
theorem lower_element (grounded : Grounded constants)
    {outcome : Except Fault (Option (List Expr))} (finds : Finds constants expression outcome) :
    ∀ elements, outcome = .ok (some elements) → ∀ element ∈ elements, Lower element expression := by
  -- The elements may be larger than a subscript that they are found of, but then they come
  -- from the first value of a constant, so the induction goes along the search.
  induction finds with
  | array =>
    rintro elements ⟨⟩ element member
    exact lower_of_child (List.mem_map_of_mem member)
  | constant noted finds ih =>
    intro elements isFound element member
    exact (ih elements isFound element member).trans (grounded.lower_constant noted)
  | @element info base index inner outer place outcome findsBase isIndex isElement finds ihBase ih =>
    intro elements isFound element member
    obtain ⟨others, position, rfl, -, stands⟩ := elementAt_eq_some isElement
    have below := ihBase others rfl inner (List.mem_of_getElem? stands)
    exact (ih elements isFound element member).trans
      (below.trans (lower_of_child List.mem_cons_self))
  | _ => nofun

theorem lower (grounded : Grounded constants) (searches : Searches constants next expression) :
    Lower next expression := by
  cases searches with
  | constant noted => exact grounded.lower_constant noted
  | base => exact lower_of_child List.mem_cons_self
  | element findsBase isIndex isElement =>
    obtain ⟨elements, position, rfl, -, stands⟩ := elementAt_eq_some isElement
    have below := grounded.lower_element findsBase elements rfl _ (List.mem_of_getElem? stands)
    exact below.trans (lower_of_child List.mem_cons_self)

theorem wellFounded_searches (grounded : Grounded constants) : WellFounded (Searches constants) :=
  Subrelation.wf grounded.lower wellFounded_lower

/-- The search finds something of every expression, or learns that nothing is known. -/
theorem exists_finds (grounded : Grounded constants) (expression : Expr) :
    ∃ outcome, Finds constants expression outcome := by
  induction expression using grounded.wellFounded_searches.induction with
  | _ expression ih =>
    cases expression with
    | array info elements => exact ⟨_, .array⟩
    | reference use =>
      cases noted : constants.lookup use.target.id with
      | none => exact ⟨_, .unnoted noted⟩
      | some value =>
        obtain ⟨outcome, finds⟩ := ih value (.constant noted)
        exact ⟨outcome, .constant noted finds⟩
    | subscript info base index =>
      obtain ⟨found, findsBase⟩ := ih base .base
      obtain fault | outer := found
      · exact ⟨_, .baseFaults findsBase⟩
      cases isIndex : index.staticValue with
      | error fault => exact ⟨_, .indexFaults findsBase isIndex⟩
      | ok place =>
        cases isElement : elementAt outer place with
        | none => exact ⟨_, .noElement findsBase isIndex isElement⟩
        | some element =>
          obtain ⟨outcome, finds⟩ := ih element (.element findsBase isIndex isElement)
          exact ⟨outcome, .element findsBase isIndex isElement finds⟩
    | _ => exact ⟨_, .other rfl⟩

end Grounded

/-- The search finds one thing only. -/
theorem Finds.unique {first second : Except Fault (Option (List Expr))}
    (finds : Finds constants expression first) (others : Finds constants expression second) :
    first = second := by
  induction finds generalizing second with
  | array =>
    cases others with
    | array => rfl
    | other other => cases other
  | constant noted finds ih =>
    cases others with
    | constant alsoNoted others =>
      obtain rfl := Option.some.inj (noted.symm.trans alsoNoted)
      exact ih others
    | unnoted unnoted => cases noted.symm.trans unnoted
    | other other => cases other
  | unnoted unnoted =>
    cases others with
    | constant noted => cases noted.symm.trans unnoted
    | unnoted => rfl
    | other other => cases other
  | baseFaults findsBase ih =>
    cases others with
    | baseFaults othersBase => exact ih othersBase
    | indexFaults othersBase | noElement othersBase | element othersBase =>
      cases ih othersBase
    | other other => cases other
  | indexFaults findsBase faults ih =>
    cases others with
    | baseFaults othersBase => cases ih othersBase
    | indexFaults othersBase alsoFaults =>
      cases faults.symm.trans alsoFaults
      rfl
    | noElement othersBase isIndex | element othersBase isIndex => cases faults.symm.trans isIndex
    | other other => cases other
  | noElement findsBase isIndex noElement ih =>
    cases others with
    | baseFaults othersBase => cases ih othersBase
    | indexFaults othersBase faults => cases isIndex.symm.trans faults
    | noElement => rfl
    | element othersBase alsoIndex isElement =>
      cases ih othersBase
      cases isIndex.symm.trans alsoIndex
      cases noElement.symm.trans isElement
    | other other => cases other
  | element findsBase isIndex isElement finds ihBase ih =>
    cases others with
    | baseFaults othersBase => cases ihBase othersBase
    | indexFaults othersBase faults => cases isIndex.symm.trans faults
    | noElement othersBase alsoIndex noElement =>
      cases ihBase othersBase
      cases isIndex.symm.trans alsoIndex
      cases noElement.symm.trans isElement
    | element othersBase alsoIndex alsoElement others =>
      cases ihBase othersBase
      cases isIndex.symm.trans alsoIndex
      cases isElement.symm.trans alsoElement
      exact ih others
    | other other => cases other
  | other other =>
    cases others with
    | other => rfl
    | _ => cases other

/-! ## Extents -/

mutual

/-- The extent below an expression depends only on the variables that are named there. -/
theorem extentBelow_congr {ofVariable others : Variable → List Nat → Except Fault (Option Nat)} :
    ∀ (expression : Expr) (path : List Nat),
      (∀ target, .value target ∈ expression.uses → ofVariable target = others target) →
        extentBelow ofVariable expression path = extentBelow others expression path
  | .array _ elements, [], _ => rfl
  | .array _ elements, place :: path, same => extentAt_congr elements place path same
  | .reference use, path, same => congrFun (same use.target List.mem_cons_self) path
  | .subscript _ base index, path, same => by
    unfold extentBelow
    cases index.staticValue with
    | error fault => rfl
    | ok known =>
      have below (path : List Nat) := extentBelow_congr base path fun target used =>
        same target (List.mem_append_left _ used)
      simp only [below]
  | .number _ _, _, _ | .bool _ _, _, _ | .string _ _, _, _ | .glyph _ _, _, _
  | .codepoint _ _, _, _ | .null _, _, _ | .function _ _, _, _ | .binary _ _ _ _, _, _
  | .unary _ _ _, _, _ | .addressOf _ _, _, _ | .dereference _ _, _, _ | .call _ _ _, _, _
  | .conjure _ _, _, _ | .typeOf _ _, _, _ | .apply _ _ _, _, _ | .supplant _ _ _ _, _, _ => rfl

theorem extentAt_congr {ofVariable others : Variable → List Nat → Except Fault (Option Nat)} :
    ∀ (elements : List Expr) (place : Nat) (path : List Nat),
      (∀ target, .value target ∈ usesOfExprs elements → ofVariable target = others target) →
        extentAt ofVariable elements place path = extentAt others elements place path
  | [], _, _, _ => rfl
  | element :: _, 0, path, same =>
    extentBelow_congr element path fun target used => same target (List.mem_append_left _ used)
  | _ :: rest, place + 1, path, same =>
    extentAt_congr rest place path fun target used => same target (List.mem_append_right _ used)

end

/-- The extent below a constant is that below its first value, whether or not constants
that come later are known. -/
theorem Grounded.extentOfVariable_eq (grounded : Grounded constants) {target : Variable}
    {value : Expr} (noted : constants.lookup target.id = some value) (path : List Nat) :
    extentOfVariable constants target path =
      extentBelow (extentOfVariable constants) value path := by
  obtain ⟨later, earlier, rfl, others⟩ := List.lookup_eq_some_iff.mp noted
  have apart : ∀ entry ∈ later, entry.1 ≠ target.id := fun entry member same => by
    have differs := others entry member
    simp [same] at differs
  rw [extentOfVariable_append apart, extentOfVariable, if_pos rfl]
  refine extentBelow_congr value path fun other used => ?_
  have before : other.id < target.id :=
    grounded.named _ (List.mem_append_right _ List.mem_cons_self) _ used
  -- Whatever the value names is earlier than the constant, so it is found among the earlier ones.
  have notLater : ∀ entry ∈ later ++ [(target.id, value)], entry.1 ≠ other.id := by
    intro entry member
    obtain member | member := List.mem_append.mp member
    · have above := (List.pairwise_append.mp grounded.descending).2.2 entry member _ List.mem_cons_self
      exact (before.trans above).ne'
    · rw [List.mem_singleton.mp member]
      exact before.ne'
  funext path
  rw [List.append_cons, extentOfVariable_append notLater]

/-- The extent at the end of a path from some elements, if they are known. -/
def extentAmong (constants : List (Nat × Expr)) (found : Option (List Expr)) :
    List Nat → Except Fault (Option Nat)
  | [] => .ok (found.map List.length)
  | place :: path =>
    match found.bind (·[place]?) with
    | none => .ok none
    | some element => extentBelow (extentOfVariable constants) element path

theorem extentAmong_none (path : List Nat) : extentAmong constants none path = .ok none := by
  cases path <;> rfl

theorem extentAt_eq_extentAmong (elements : List Expr) (place : Nat) (path : List Nat) :
    extentAt (extentOfVariable constants) elements place path =
      extentAmong constants (some elements) (place :: path) := by
  induction elements generalizing place with
  | nil => rfl
  | cons element rest ih =>
    cases place with
    | zero => rfl
    | succ place => exact ih place

/-- Nothing is known below a subscript if its index is no place, or nothing is known there. -/
theorem extentBelow_eq_none {ofVariable : Variable → List Nat → Except Fault (Option Nat)}
    {info : Info} {base index : Expr} {place : Value} {path : List Nat}
    (isIndex : index.staticValue = .ok place)
    (nothing : ∀ position : Nat, place = .number (.int position) →
      extentBelow ofVariable base (position :: path) = .ok none) :
    extentBelow ofVariable (.subscript info base index) path = .ok none := by
  rw [extentBelow, isIndex]
  cases place with
  | number number =>
    cases number with
    | int whole =>
      cases whole with
      | ofNat position => exact nothing position rfl
      | negSucc _ => rfl
    | float _ => rfl
  | _ => rfl

/-- Below an expression stand the elements that the search finds. -/
theorem Grounded.extentBelow_eq (grounded : Grounded constants)
    {outcome : Except Fault (Option (List Expr))} (finds : Finds constants expression outcome) :
    ∀ found, outcome = .ok found → ∀ path,
      extentBelow (extentOfVariable constants) expression path = extentAmong constants found path := by
  induction finds with
  | @array info elements =>
    rintro found ⟨⟩ path
    cases path with
    | nil => rfl
    | cons place path => exact extentAt_eq_extentAmong elements place path
  | constant noted finds ih =>
    intro found isFound path
    rw [extentBelow, grounded.extentOfVariable_eq noted, ih found isFound]
  | @unnoted use unnoted =>
    rintro found ⟨⟩ path
    rw [extentBelow, extentAmong_none]
    have apart : ∀ entry ∈ constants, entry.1 ≠ use.target.id := fun entry member same => by
      simpa [same] using List.lookup_eq_none_iff.mp unnoted entry member
    rw [← constants.append_nil, extentOfVariable_append apart, extentOfVariable]
  | @noElement info base index outer place findsBase isIndex noElement ih =>
    rintro found ⟨⟩ path
    rw [extentAmong_none]
    refine extentBelow_eq_none isIndex fun position isPosition => ?_
    have nothing : outer.bind (·[position]?) = none := by
      subst isPosition
      cases outer with
      | none => rfl
      | some elements => exact noElement
    rw [ih outer rfl, extentAmong, nothing]
  | @element info base index inner outer place outcome findsBase isIndex isElement finds ihBase ih =>
    intro found isFound path
    obtain ⟨elements, position, rfl, rfl, stands⟩ := elementAt_eq_some isElement
    rw [extentBelow_element info isIndex, ihBase _ rfl, extentAmong, Option.bind_some, stands]
    exact ih found isFound path
  | @other expression other =>
    rintro found ⟨⟩ path
    rw [extentAmong_none]
    cases expression with
    | array | reference | subscript => cases other
    | _ => rfl
  | _ => rintro found ⟨⟩

/-- The extent of an array is the number of the elements that the search finds. -/
theorem Grounded.extent_eq (grounded : Grounded constants) {found : Option (List Expr)}
    (finds : Finds constants expression (.ok found)) :
    extent constants expression = .ok (found.map List.length) :=
  grounded.extentBelow_eq finds found rfl []

end Analysis

end GlyphCompiler
