/-
# Knowledge of values in conversion

The more is known of a value, the more conversions are open to it. Nothing is known of
an unknown value; of a list more may be known element by element. What converts with
less knowledge converts with more, through all the options and arrays around the value.
-/

import Mathlib.Data.List.Forall2
import GlyphCompiler.Ty.Conversion

namespace GlyphCompiler

namespace Value

/-- One value says no more than another: it is unknown, or the same, or a list whose
elements say no more than those of a list of the same length. -/
inductive Below : Value → Value → Prop
  | unknown (value : Value) : Below .unknown value
  | same (value : Value) : Below value value
  | list {less more : List Value} (elements : List.Forall₂ Below less more) :
      Below (.list less) (.list more)

/-- What an option accepts: null, and what is accepted inside. -/
def nullOr (inner : Value → Bool) (value : Value) : Bool :=
  match value with
  | .null => true
  | _ => inner value

/-- What an array accepts: lists whose elements are, and anything if any element is. -/
def elementwise (inner : Value → Bool) (value : Value) : Bool :=
  match value with
  | .list elements => elements.all inner
  | _ => inner .unknown

namespace Below

variable {less more : Value} {inner : Value → Bool}

theorem nullOr (below : less.Below more)
    (rises : ∀ {less more : Value}, less.Below more → inner less = true → inner more = true)
    (accepted : less.nullOr inner = true) : more.nullOr inner = true := by
  unfold Value.nullOr
  split
  next => rfl
  next notNull =>
    refine rises below ?_
    unfold Value.nullOr at accepted
    split at accepted
    next =>
      -- Nothing but null itself is above null.
      cases below
      exact absurd rfl notNull
    next => exact accepted

theorem elementwise (below : less.Below more)
    (rises : ∀ {less more : Value}, less.Below more → inner less = true → inner more = true)
    (accepted : less.elementwise inner = true) : more.elementwise inner = true := by
  cases below with
  | unknown =>
    unfold Value.elementwise
    split
    next elements =>
      rw [List.all_eq_true]
      intro element _
      exact rises (.unknown element) accepted
    next => exact accepted
  | same => exact accepted
  | list elements =>
    simp only [Value.elementwise] at accepted ⊢
    induction elements with
    | nil => rfl
    | cons first _ rest =>
      rw [List.all_cons, Bool.and_eq_true] at accepted ⊢
      exact ⟨rises first accepted.1, rest accepted.2⟩

end Below

end Value

/-- A number that fits with less knowledge fits with more. -/
theorem Numeric.canConvert_moreKnown {source target : Numeric} {less more : Value}
    (below : less.Below more) (converts : source.canConvert target less = true) :
    source.canConvert target more = true := by
  cases below with
  | unknown =>
    -- Without the number the target is wider, and then the number does not matter.
    simp only [canConvert, admits, Bool.or_false, Bool.and_eq_true, Bool.or_eq_true] at converts ⊢
    exact ⟨converts.1, .inl converts.2⟩
  | same => exact converts
  | list => exact converts

namespace Ty

/-- Knowing more about a value never forbids a conversion. -/
theorem canConvert_of_below {source target : Ty} {less more : Value} (below : less.Below more)
    (converts : source.canConvert target less = true) : source.canConvert target more = true := by
  by_cases settled : source = target ∨ source = any ∨ target = any
  · rw [canConvert.eq_def, if_pos (by simpa [or_assoc] using settled)]
  rw [canConvert.eq_def, if_neg (by simpa [or_assoc] using settled)] at converts ⊢
  -- Options and arrays hand the value on to the types inside them; the other types either
  -- ask for no value, or compare a number with a range.
  split at converts
  next => rfl
  next sourceInner targetInner =>
    change Value.nullOr (sourceInner.canConvert targetInner) _ = true at converts ⊢
    exact below.nullOr canConvert_of_below converts
  next targetInner _ =>
    change Value.nullOr (source.canConvert targetInner) _ = true at converts ⊢
    exact below.nullOr canConvert_of_below converts
  next sourceElement targetElement =>
    change Value.elementwise (sourceElement.canConvert targetElement) _ = true at converts ⊢
    exact below.elementwise canConvert_of_below converts
  next => exact converts
  next => exact Numeric.canConvert_moreKnown below converts
  next => exact converts
termination_by sizeOf source + sizeOf target

/-- A list whose first element becomes known still converts into wider elements. -/
theorem canConvert_of_below_list :
    let source : Ty := .array (.optional (.int .w8))
    let target : Ty := .optional (.array (.optional (.int .w16)))
    let less : Value := .list [.unknown, .null]
    let more : Value := .list [.number (.int 300), .null]
    less.Below more ∧ source.canConvert target less = true ∧ source.canConvert target more = true := by
  have below : Value.Below (.list [.unknown, .null]) (.list [.number (.int 300), .null]) :=
    .list (.cons (.unknown _) (.cons (.same _) .nil))
  have converts : canConvert (.array (.optional (.int .w8))) (.optional (.array (.optional (.int .w16))))
      (.list [.unknown, .null]) = true := by
    simp [canConvert, Numeric.canConvert, Numeric.familiesCompatible, Width.bits]
  exact ⟨below, converts, canConvert_of_below below converts⟩

end Ty

end GlyphCompiler
