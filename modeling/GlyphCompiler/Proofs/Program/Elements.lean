/-
# Arrays whose elements are known

The elements of an array literal can be read off the program, and so can those of a constant
that is declared with one, and of an element of either at a known place. When the program
runs, a content fits such an expression if there are as many contents in it as there are
elements, and each of them fits its element.
-/

import GlyphCompiler.Proofs.Program.Running

namespace GlyphCompiler

section

variable (program : Program)

/-- The elements of an array that are known before the program runs. -/
inductive Elements : Expr → List Expr → Prop
  | array {info : Info} {elements : List Expr} : Elements (.array info elements) elements
  | constant {info : Info} {position : Position} {target : Variable} {value : Expr}
      {elements : List Expr}
      (declared : .stmt (.declare position target value) ∈ walkStmts program.body)
      (constant : target.mutable = false) (known : Elements value elements) :
    Elements (.reference ⟨info, target⟩) elements
  | element {info : Info} {base index element : Expr} {outer elements : List Expr} {place : Nat}
      (known : Elements base outer) (isIndex : index.staticValue = .ok (.number (.int place)))
      (isElement : outer[place]? = some element) (inner : Elements element elements) :
    Elements (.subscript info base index) elements

/-- What stands at the end of a path from an expression, which lists the places of the
elements to go down to. -/
inductive Below : Expr → List Nat → Expr → Prop
  | here {expression : Expr} : Below expression [] expression
  | inside {expression element inner : Expr} {elements : List Expr} {place : Nat}
      {path : List Nat} (known : Elements program expression elements)
      (isElement : elements[place]? = some element) (below : Below element path inner) :
    Below expression (place :: path) inner

/-- What is found at the end of a path from a content. -/
def Content.at? {Other : Type} : Content Other → List Nat → Option (Content Other)
  | content, [] => some content
  | .array elements, place :: path => elements[place]?.bind fun element => element.at? path
  | _, _ :: _ => none

/-- A content has as many contents at the end of each path as the expression that it comes
from has elements. -/
def Fits {Other : Type} (expression : Expr) (content : Content Other) : Prop :=
  ∀ path inner elements, Below program expression path inner → Elements program inner elements →
    ∃ contents, content.at? path = some (.array contents) ∧ contents.length = elements.length

end

variable {program : Program} {Other : Type} {content : Content Other} {expression : Expr}

theorem Fits.length (fits : Fits program expression content) {elements : List Expr}
    (known : Elements program expression elements) :
    ∃ contents, content = .array contents ∧ contents.length = elements.length := by
  obtain ⟨contents, found, length⟩ := fits [] expression elements .here known
  exact ⟨contents, Option.some.inj found, length⟩

/-- Each content of an array fits its element. -/
theorem Fits.inside {contents : List (Content Other)}
    (fits : Fits program expression (.array contents)) {elements : List Expr}
    (known : Elements program expression elements) {place : Nat} {element : Expr}
    (isElement : elements[place]? = some element) (isContent : contents[place]? = some content) :
    Fits program element content := by
  intro path inner others below knownInner
  obtain ⟨found, isFound, length⟩ :=
    fits (place :: path) inner others (.inside known isElement below) knownInner
  rw [Content.at?, isContent, Option.bind_some] at isFound
  exact ⟨found, isFound, length⟩

/-- A content fits if whatever elements are known are those of an expression that it fits. -/
theorem fits_of_known
    (alike : ∀ elements, Elements program expression elements →
      ∃ other, Elements program other elements ∧ Fits program other content) :
    Fits program expression content := by
  intro path inner others below knownInner
  cases below with
  | here =>
    obtain ⟨other, known, fits⟩ := alike others knownInner
    exact fits [] other others .here known
  | inside known isElement below =>
    obtain ⟨other, knownOther, fits⟩ := alike _ known
    exact fits _ inner others (.inside knownOther isElement below) knownInner

/-- Any content fits an expression of which no elements are known. -/
theorem fits_of_unknown (unknown : ∀ elements, ¬ Elements program expression elements) :
    Fits program expression content :=
  fits_of_known fun elements known => absurd known (unknown elements)

theorem fits_array {info : Info} {elements : List Expr} {contents : List (Content Other)}
    (fits : List.Forall₂ (Fits program) elements contents) :
    Fits program (.array info elements) (.array contents) := by
  intro path inner others below knownInner
  cases below with
  | here =>
    cases knownInner
    exact ⟨contents, rfl, fits.length_eq.symm⟩
  | inside known isElement below =>
    cases known
    obtain ⟨bound, rfl⟩ := List.getElem?_eq_some_iff.mp isElement
    have within : _ < contents.length := fits.length_eq ▸ bound
    rw [Content.at?, List.getElem?_eq_getElem within, Option.bind_some]
    exact fits.get bound within _ inner others below knownInner

/-- What fits the first value of a constant fits the constant. -/
theorem fits_constant {info : Info} {target : Variable}
    (fits : ∀ position value, .stmt (.declare position target value) ∈ walkStmts program.body →
      target.mutable = false → Fits program value content) :
    Fits program (.reference ⟨info, target⟩) content := by
  refine fits_of_known fun elements known => ?_
  cases known with
  | constant declared constant known => exact ⟨_, known, fits _ _ declared constant⟩

/-- What is found at a known place of a content that fits an array fits the element there. -/
theorem fits_element {info : Info} {base index : Expr} {array : Content Other}
    (fits : Fits program base array)
    (finds : ∀ contents (place : Nat) found, array = .array contents →
      index.staticValue = .ok (.number (.int place)) → contents[place]? = some found →
        content = found) :
    Fits program (.subscript info base index) content := by
  refine fits_of_known fun elements known => ?_
  cases known with
  | element known isIndex isElement inner =>
    obtain ⟨contents, rfl, length⟩ := fits.length known
    obtain ⟨bound, -⟩ := List.getElem?_eq_some_iff.mp isElement
    have isContent := List.getElem?_eq_getElem (length ▸ bound : _ < contents.length)
    rw [finds contents _ _ rfl isIndex isContent]
    exact ⟨_, inner, fits.inside known isElement isContent⟩

end GlyphCompiler
