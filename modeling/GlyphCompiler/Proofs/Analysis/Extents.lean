/-
# Extents of arrays whose elements are known

The analysis notes the first value of every constant, and finds how long an array is by
going from a constant to the value that was noted of it. Where no constant is noted twice,
and each is noted with the value that it is declared with, it finds the number of the
elements of every array whose elements are known.
-/

import GlyphCompiler.Proofs.Analysis.Keeping
import GlyphCompiler.Proofs.Analysis.Settled
import GlyphCompiler.Proofs.Program.Elements

namespace GlyphCompiler

mutual

/-- The constants whose first values say which elements an expression has. -/
def Expr.sources : Expr → List Variable
  | .reference use => if use.target.mutable then [] else [use.target]
  | .array _ elements => sourcesOfExprs elements
  | .subscript _ base _ => base.sources
  | _ => []

/-- The constants whose first values say which elements some expressions have. -/
def sourcesOfExprs : List Expr → List Variable
  | [] => []
  | expression :: rest => expression.sources ++ sourcesOfExprs rest

end

namespace Analysis

/-- Every constant that an expression has its elements from is among some constants. -/
def Noted (constants : List (Nat × Expr)) (expression : Expr) : Prop :=
  ∀ target ∈ expression.sources, target.id ∈ constants.map Prod.fst

/-- What holds of each node, given the constants with their first values, the latest first. -/
def Placed (constants : List (Nat × Expr)) : Node → Prop
  | .expr (.subscript _ base index) =>
    ∃ earlier, earlier <:+ constants ∧ Noted earlier base ∧ InExtent earlier base index
  | .stmt (.declare _ target value) => target.mutable = false →
    ∃ earlier, (target.id, value) :: earlier <:+ constants ∧ Noted earlier value
  | .stmt (.assign _ target _) | .stmt (.step _ _ target) => target.mutable = true
  | _ => True

/-! ## Extents of arrays whose elements are known -/

theorem sources_of_mem {elements : List Expr} {element : Expr} (member : element ∈ elements) :
    element.sources ⊆ sourcesOfExprs elements := by
  induction elements with
  | nil => cases member
  | cons first rest ih =>
    obtain rfl | member := List.mem_cons.mp member
    · exact List.subset_append_left _ _
    · exact List.subset_append_of_subset_right _ (ih member)

theorem extentAt_eq {ofVariable : Variable → List Nat → Except Fault (Option Nat)}
    {elements : List Expr} {place : Nat} {element : Expr}
    (isElement : elements[place]? = some element) (path : List Nat) :
    extentAt ofVariable elements place path = extentBelow ofVariable element path := by
  induction elements generalizing place with
  | nil => cases isElement
  | cons first rest ih =>
    cases place with
    | zero =>
      cases isElement
      rfl
    | succ place => exact ih isElement

theorem extentBelow_element {ofVariable : Variable → List Nat → Except Fault (Option Nat)}
    {base index : Expr} {place : Nat} (info : Info)
    (isIndex : index.staticValue = .ok (.number (.int place))) (path : List Nat) :
    extentBelow ofVariable (.subscript info base index) path =
      extentBelow ofVariable base (place :: path) := by
  rw [extentBelow, isIndex]
  rfl

/-- The extent below a constant is that below its first value. -/
theorem extentOfVariable_eq {constants known earlier : List (Nat × Expr)} {target : Variable}
    {value : Expr} (once : (constants.map Prod.fst).Nodup)
    (declared : (target.id, value) :: earlier <:+ constants) (suffix : known <:+ constants)
    (isKnown : target.id ∈ known.map Prod.fst) :
    earlier <:+ known ∧ ∀ path, extentOfVariable known target path =
      extentBelow (extentOfVariable earlier) value path := by
  have within : (target.id, value) :: earlier <:+ known := by
    obtain within | beyond := List.suffix_or_suffix_of_suffix declared suffix
    · exact within
    obtain same | beyond := List.suffix_cons_iff.mp beyond
    · exact same ▸ List.suffix_rfl
    -- Otherwise the constant would stand twice among the constants.
    obtain ⟨before, rfl⟩ := declared
    have apart := (List.nodup_append.mp (List.map_append ▸ once)).2.1
    exact absurd ((beyond.sublist.map Prod.fst).subset isKnown) (List.nodup_cons.mp apart).1
  obtain ⟨later, rfl⟩ := within
  refine ⟨(List.suffix_cons _ _).trans (List.suffix_append _ _), fun path => ?_⟩
  have onceKnown := once.sublist (suffix.sublist.map Prod.fst)
  rw [List.map_append] at onceKnown
  have apart : ∀ entry ∈ later, entry.1 ≠ target.id := fun entry member same =>
    (List.nodup_append.mp onceKnown).2.2 _ (List.mem_map_of_mem member) _ List.mem_cons_self same
  rw [extentOfVariable_append apart, extentOfVariable, if_pos rfl]

/-- The extent that the analysis finds of an array whose elements are known is their number,
and below an element it finds what it finds below the element itself. -/
theorem extent_of_elements {program : Program} {constants : List (Nat × Expr)}
    (once : (constants.map Prod.fst).Nodup)
    (placed : ∀ node ∈ walkStmts program.body, Placed constants node)
    {expression : Expr} {elements : List Expr} (known : Elements program expression elements) :
    ∀ available, available <:+ constants → Noted available expression →
      extent available expression = .ok (some elements.length) ∧
        ∀ (place : Nat) element, elements[place]? = some element →
          ∃ earlier, earlier <:+ available ∧ Noted earlier element ∧
            ∀ path, extentBelow (extentOfVariable available) expression (place :: path) =
              extentBelow (extentOfVariable earlier) element path := by
  induction known with
  | @array info elements =>
    intro available suffix noted
    refine ⟨rfl, fun place element isElement => ⟨available, List.suffix_rfl,
      fun target member => ?_, fun path => extentAt_eq isElement path⟩⟩
    exact noted target (sources_of_mem (List.mem_of_getElem? isElement) member)
  | @constant info position target value elements declared constant known ih =>
    intro available suffix noted
    obtain ⟨earlier, isDeclared, notedValue⟩ := placed _ declared constant
    have isKnown := noted target (by simp [Expr.sources, constant])
    obtain ⟨before, same⟩ := extentOfVariable_eq once isDeclared suffix isKnown
    obtain ⟨length, inside⟩ := ih earlier (before.trans suffix) notedValue
    refine ⟨(same []).trans length, fun place element isElement => ?_⟩
    obtain ⟨inner, isSuffix, notedElement, below⟩ := inside place element isElement
    exact ⟨inner, isSuffix.trans before, notedElement, fun path => (same _).trans (below path)⟩
  | @element info base index element outer elements place known isIndex isElement inner ihBase
    ihElement =>
    intro available suffix noted
    obtain ⟨-, inside⟩ := ihBase available suffix noted
    obtain ⟨earlier, before, notedElement, below⟩ := inside place element isElement
    obtain ⟨length, further⟩ := ihElement earlier (before.trans suffix) notedElement
    have down (path : List Nat) := (extentBelow_element info isIndex path).trans (below path)
    refine ⟨(down []).trans length, fun deeper found isFound => ?_⟩
    obtain ⟨last, isSuffix, notedFound, same⟩ := further deeper found isFound
    exact ⟨last, isSuffix.trans before, notedFound, fun path => (down _).trans (same path)⟩

/-! ## Final forms -/

/-- Constants with the final forms of their first values. -/
def settled (final : State) (constants : List (Nat × Expr)) : List (Nat × Expr) :=
  constants.map fun entry => (entry.1, settle final entry.2)

section

variable {final before middle after : State} {scopes : Scopes} {may : Nat → Prop}

theorem ids_settled (constants : List (Nat × Expr)) :
    (settled final constants).map Prod.fst = constants.map Prod.fst := by
  simp [settled]

mutual

theorem sources_settle : ∀ expression : Expr, (settle final expression).sources = expression.sources
  | .array _ elements => sources_settleAll elements
  | .subscript _ base _ => sources_settle base
  | .number _ _ | .bool _ _ | .string _ _ | .glyph _ _ | .codepoint _ _ | .null _ | .reference _
  | .function _ _ | .binary _ _ _ _ | .unary _ _ _ | .addressOf _ _ | .dereference _ _
  | .call _ _ _ | .conjure _ _ | .typeOf _ _ | .apply _ _ _ | .supplant _ _ _ _ => rfl

theorem sources_settleAll : ∀ expressions : List Expr,
    sourcesOfExprs (settleAll final expressions) = sourcesOfExprs expressions
  | [] => rfl
  | expression :: rest => by
    rw [settleAll, sourcesOfExprs, sources_settle expression, sources_settleAll rest,
      sourcesOfExprs]

end

mutual

theorem extentBelow_settle {ofVariable moved : Variable → List Nat → Except Fault (Option Nat)}
    (same : ∀ target path, moved target path = ofVariable target path) :
    ∀ (expression : Expr) (path : List Nat),
      extentBelow moved (settle final expression) path = extentBelow ofVariable expression path
  | .array _ elements, [] => by
    rw [settle, extentBelow, extentBelow, settleAll_eq_map, List.length_map]
  | .array _ elements, place :: path => by
    rw [settle, extentBelow, extentBelow, extentAt_settle same elements place path]
  | .reference use, path => same use.target path
  | .subscript _ base index, path => by
    rw [settle, extentBelow, extentBelow, staticValue_settle]
    congr 1
    funext known
    split
    · exact extentBelow_settle same base _
    · rfl
  | .number _ _, _ | .bool _ _, _ | .string _ _, _ | .glyph _ _, _ | .codepoint _ _, _
  | .null _, _ | .function _ _, _ | .addressOf _ _, _ | .dereference _ _, _ | .call _ _ _, _
  | .unary _ _ _, _ | .binary _ _ _ _, _ | .conjure _ _, _ | .typeOf _ _, _ | .apply _ _ _, _
  | .supplant _ _ _ _, _ => by simp [settle, extentBelow]

theorem extentAt_settle {ofVariable moved : Variable → List Nat → Except Fault (Option Nat)}
    (same : ∀ target path, moved target path = ofVariable target path) :
    ∀ (expressions : List Expr) (place : Nat) (path : List Nat),
      extentAt moved (settleAll final expressions) place path =
        extentAt ofVariable expressions place path
  | [], _, _ => rfl
  | element :: _, 0, path => extentBelow_settle same element path
  | _ :: rest, place + 1, path => extentAt_settle same rest place path

end

theorem extentOfVariable_settled (constants : List (Nat × Expr)) (target : Variable)
    (path : List Nat) :
    extentOfVariable (settled final constants) target path =
      extentOfVariable constants target path := by
  induction constants generalizing target path with
  | nil => rfl
  | cons entry earlier ih =>
    rw [settled, List.map_cons, extentOfVariable, extentOfVariable, ← settled, ih,
      extentBelow_settle ih]

theorem noted_settle {constants : List (Nat × Expr)} {expression : Expr}
    (noted : Noted constants expression) :
    Noted (settled final constants) (settle final expression) := by
  intro target member
  rw [sources_settle] at member
  rw [ids_settled]
  exact noted target member

theorem inExtent_settle {constants : List (Nat × Expr)} {base index : Expr}
    (inExtent : InExtent constants base index) :
    InExtent (settled final constants) (settle final base) (settle final index) := by
  intro place isPlace
  rw [staticValue_settle] at isPlace
  obtain ⟨notNegative, within⟩ := inExtent place isPlace
  refine ⟨notNegative, fun length isLength => within length ?_⟩
  rwa [extent, extentBelow_settle (extentOfVariable_settled constants)] at isLength

end

end Analysis

end GlyphCompiler
