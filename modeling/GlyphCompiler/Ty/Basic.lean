/-
# Types of the Glyph language

A type is a primitive, a sized numeric type, or composed from other types as an
array, a pointer, an optional value or a function. Types compare by structure.
An optional type is an annotation only: nothing at run time marks it.
-/

namespace GlyphCompiler

/-- The types that are neither numeric nor composed. -/
inductive Primitive
  | bool | string | glyph | codepoint | void | any
  deriving DecidableEq, Repr

namespace Primitive

/-- Every primitive type, once. -/
def all : List Primitive := [bool, string, glyph, codepoint, void, any]

/-- The name of a primitive type. -/
def name : Primitive → String
  | bool => "bool"
  | string => "string"
  | glyph => "glyph"
  | codepoint => "codepoint"
  | void => "void"
  | any => "any"

end Primitive

/-- The families of numeric types, signedness aside. -/
inductive Family
  | int | float | decim | slash | slog
  deriving DecidableEq, Repr

namespace Family

/-- Every family, once. -/
def all : List Family := [int, float, decim, slash, slog]

/-- The name of a family. -/
def name : Family → String
  | int => "int"
  | float => "float"
  | decim => "decim"
  | slash => "slash"
  | slog => "slog"

end Family

/-- The widths of numeric types. -/
inductive Width
  | w8 | w16 | w32 | w64 | w128
  deriving DecidableEq, Repr

namespace Width

/-- Every width, once, the narrowest first. -/
def all : List Width := [w8, w16, w32, w64, w128]

/-- The number of bits. -/
def bits : Width → Nat
  | w8 => 8
  | w16 => 16
  | w32 => 32
  | w64 => 64
  | w128 => 128

theorem bits_injective {first second : Width} (same : first.bits = second.bits) :
    first = second := by
  cases first <;> cases second <;> first | rfl | exact absurd same (by decide)

end Width

/-- A sized numeric type. -/
structure Numeric where
  family : Family
  unsigned : Bool
  width : Width
  deriving DecidableEq, Repr

namespace Numeric

/-- Every numeric type, once. -/
def all : List Numeric :=
  Family.all.flatMap fun family =>
    [false, true].flatMap fun unsigned =>
      Width.all.map fun width => ⟨family, unsigned, width⟩

/-- Integer types hold whole numbers only, and compute exactly. -/
def isIntegral (numeric : Numeric) : Bool :=
  numeric.family == .int

/-- The name of a numeric type: signedness, family and width. -/
def name (numeric : Numeric) : String :=
  (if numeric.unsigned then "u" else "") ++ numeric.family.name ++
    toString numeric.width.bits

/-- The least number of the range. -/
def least (numeric : Numeric) : Int :=
  if numeric.unsigned then 0 else -Nat.pow 2 (numeric.width.bits - 1)

/-- The greatest number of the range. -/
def greatest (numeric : Numeric) : Int :=
  if numeric.unsigned then Nat.pow 2 numeric.width.bits - 1
  else Nat.pow 2 (numeric.width.bits - 1) - 1

end Numeric

/-- A type of the Glyph language. -/
inductive Ty
  | primitive (kind : Primitive)
  | numeric (kind : Numeric)
  | array (element : Ty)
  | pointer (target : Ty)
  | optional (inner : Ty)
  | function (parameters : List Ty) (result : Ty)
  deriving Repr

namespace Ty

/-! ## Equality -/

mutual

/-- Decide whether two types are equal. -/
def decEq : (first second : Ty) → Decidable (first = second)
  | .primitive first, .primitive second =>
    if same : first = second then isTrue (by rw [same]) else isFalse (by simp [same])
  | .numeric first, .numeric second =>
    if same : first = second then isTrue (by rw [same]) else isFalse (by simp [same])
  | .array first, .array second =>
    match decEq first second with
    | isTrue same => isTrue (by rw [same])
    | isFalse differ => isFalse (by simp [differ])
  | .pointer first, .pointer second =>
    match decEq first second with
    | isTrue same => isTrue (by rw [same])
    | isFalse differ => isFalse (by simp [differ])
  | .optional first, .optional second =>
    match decEq first second with
    | isTrue same => isTrue (by rw [same])
    | isFalse differ => isFalse (by simp [differ])
  | .function firsts first, .function seconds second =>
    match decEqList firsts seconds, decEq first second with
    | isTrue sameParameters, isTrue same => isTrue (by rw [sameParameters, same])
    | isFalse differ, _ => isFalse (by simp [differ])
    | _, isFalse differ => isFalse (by simp [differ])
  | .primitive _, .numeric _ | .primitive _, .array _ | .primitive _, .pointer _
  | .primitive _, .optional _ | .primitive _, .function _ _
  | .numeric _, .primitive _ | .numeric _, .array _ | .numeric _, .pointer _
  | .numeric _, .optional _ | .numeric _, .function _ _
  | .array _, .primitive _ | .array _, .numeric _ | .array _, .pointer _
  | .array _, .optional _ | .array _, .function _ _
  | .pointer _, .primitive _ | .pointer _, .numeric _ | .pointer _, .array _
  | .pointer _, .optional _ | .pointer _, .function _ _
  | .optional _, .primitive _ | .optional _, .numeric _ | .optional _, .array _
  | .optional _, .pointer _ | .optional _, .function _ _
  | .function _ _, .primitive _ | .function _ _, .numeric _ | .function _ _, .array _
  | .function _ _, .pointer _ | .function _ _, .optional _ => isFalse nofun

/-- Decide whether two lists of types are equal. -/
def decEqList : (firsts seconds : List Ty) → Decidable (firsts = seconds)
  | [], [] => isTrue rfl
  | [], _ :: _ | _ :: _, [] => isFalse nofun
  | first :: firsts, second :: seconds =>
    match decEq first second, decEqList firsts seconds with
    | isTrue same, isTrue sameRest => isTrue (by rw [same, sameRest])
    | isFalse differ, _ => isFalse (by simp [differ])
    | _, isFalse differ => isFalse (by simp [differ])

end

instance : DecidableEq Ty := decEq

/-! ## Common types -/

/-- Truth values. -/
abbrev bool : Ty := .primitive .bool

/-- Texts of any length. -/
abbrev string : Ty := .primitive .string

/-- Texts of one character. -/
abbrev glyph : Ty := .primitive .glyph

/-- Unicode code points. -/
abbrev codepoint : Ty := .primitive .codepoint

/-- The type of what has no value. -/
abbrev void : Ty := .primitive .void

/-- The type that says nothing about a value. -/
abbrev any : Ty := .primitive .any

/-- Signed integers of a given width. -/
abbrev int (width : Width) : Ty := .numeric ⟨.int, false, width⟩

/-- The type of decimal literals. -/
abbrev float32 : Ty := .numeric ⟨.float, false, .w32⟩

/-! ## Questions about a type -/

/-- Is a type numeric? -/
def isNumeric : Ty → Bool
  | .numeric _ => true
  | _ => false

/-- Is a type one of the integer types? -/
def isIntegral : Ty → Bool
  | .numeric kind => kind.isIntegral
  | _ => false

/-- Is a type one of the unsigned types? -/
def isUnsigned : Ty → Bool
  | .numeric kind => kind.unsigned
  | _ => false

/-- Is a type one of the two text types? -/
def isText (type : Ty) : Bool :=
  type == string || type == glyph

/-- The element type of an array type. -/
def element? : Ty → Option Ty
  | .array element => some element
  | _ => none

/-- The type that a pointer type points to. -/
def target? : Ty → Option Ty
  | .pointer target => some target
  | _ => none

/-- The type inside an optional type. -/
def inner? : Ty → Option Ty
  | .optional inner => some inner
  | _ => none

/-- Is a type a function type? -/
def isFunction : Ty → Bool
  | .function _ _ => true
  | _ => false

/-! ## Names -/

mutual

/-- The name of a type, in the syntax of annotations. A pointer or function type
under a question mark is enclosed in parentheses. -/
def name : Ty → String
  | .primitive kind => kind.name
  | .numeric kind => kind.name
  | .array element => "[" ++ element.name ++ "]"
  | .pointer target => "*" ++ target.name
  | .optional inner =>
    match inner with
    | .pointer _ | .function _ _ => "(" ++ inner.name ++ ")?"
    | _ => inner.name ++ "?"
  | .function [] result => "conjure(" ++ result.name ++ ")"
  | .function (first :: rest) result =>
    "conjure(" ++ first.name ++ names rest ++ " -> " ++ result.name ++ ")"

/-- The names of some types, each after a comma. -/
def names : List Ty → String
  | [] => ""
  | type :: rest => ", " ++ type.name ++ names rest

end

/-- The type of a given name, composed types aside. One line feed may follow the
name of a numeric type. -/
def ofName? (text : String) : Option Ty :=
  match Primitive.all.find? fun kind => kind.name == text with
  | some kind => some (.primitive kind)
  | none =>
    (Numeric.all.find? fun kind => kind.name == text || kind.name ++ "\n" == text).map .numeric

end Ty

end GlyphCompiler
