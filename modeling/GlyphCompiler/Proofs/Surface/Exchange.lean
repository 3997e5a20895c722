/-
# Programs in which two functions are exchanged

Two programs are written alike if they differ in positions only, and in the order of
two functions with declared results, of which the second follows the first in one of
them and precedes it in the other. Where the functions stand in the first program says
which ones they are.
-/

import GlyphCompiler.Proofs.Surface.Main
import Mathlib.Data.List.Forall2
import Mathlib.Data.Option.Basic

namespace GlyphCompiler

namespace Surface

mutual

/-- Two types are written alike. -/
inductive TypeSyntax.Alike : TypeSyntax → TypeSyntax → Prop
  | named {ident other : Ident} (name : ident.name = other.name) :
    TypeSyntax.Alike (.named ident) (.named other)
  | pointer {target other : TypeSyntax} (below : TypeSyntax.Alike target other) :
    TypeSyntax.Alike (.pointer target) (.pointer other)
  | optional {inner other : TypeSyntax} (below : TypeSyntax.Alike inner other) :
    TypeSyntax.Alike (.optional inner) (.optional other)
  | array {element other : TypeSyntax} (below : TypeSyntax.Alike element other) :
    TypeSyntax.Alike (.array element) (.array other)
  | function {position otherPosition : Position} {listed others : List TypeSyntax}
      (below : TypesAlike listed others) :
    TypeSyntax.Alike (.function position listed none) (.function otherPosition others none)
  | functionTo {position otherPosition : Position} {listed others : List TypeSyntax}
      {result otherResult : TypeSyntax} (below : TypesAlike listed others)
      (results : TypeSyntax.Alike result otherResult) :
    TypeSyntax.Alike (.function position listed (some result))
      (.function otherPosition others (some otherResult))

/-- Two lists of types are written alike. -/
inductive TypesAlike : List TypeSyntax → List TypeSyntax → Prop
  | nil : TypesAlike [] []
  | cons {type other : TypeSyntax} {rest others : List TypeSyntax}
      (here : TypeSyntax.Alike type other) (below : TypesAlike rest others) :
    TypesAlike (type :: rest) (other :: others)

end

/-- Two parameters are written alike. -/
structure Parameter.Alike (parameter other : Parameter) : Prop where
  name : parameter.ident.name = other.ident.name
  type : parameter.type.Alike other.type

/-- Is a statement the declaration of a function with a declared result that stands at a
given position? -/
def Stmt.IsDeclaredAt (position : Position) : Stmt → Prop
  | .function place _ _ (some _) _ => place = position
  | _ => False

/-- How two lists of statements correspond: one by one, or two that are exchanged. -/
inductive Layout
  | done
  | one (rest : Layout)
  | two (rest : Layout)

section

variable (first second : Position) (may : Stmt → Prop)

mutual

/-- Two expressions are written alike. -/
inductive Expr.Alike : Expr → Expr → Prop
  | integer {position other : Position} (text : String) :
    Expr.Alike (.integer position text) (.integer other text)
  | decimal {position other : Position} (text : String) :
    Expr.Alike (.decimal position text) (.decimal other text)
  | string {position other : Position} (text : String) :
    Expr.Alike (.string position text) (.string other text)
  | quoted {position other : Position} (text : String) :
    Expr.Alike (.quoted position text) (.quoted other text)
  | codepoint {position other : Position} (text : String) :
    Expr.Alike (.codepoint position text) (.codepoint other text)
  | bool {position other : Position} (value : Bool) :
    Expr.Alike (.bool position value) (.bool other value)
  | null {position other : Position} : Expr.Alike (.null position) (.null other)
  | name {ident other : Ident} (name : ident.name = other.name) :
    Expr.Alike (.name ident) (.name other)
  | binary {position other : Position} (operator : BinaryOperator)
      {left right otherLeft otherRight : Expr} (lefts : Expr.Alike left otherLeft)
      (rights : Expr.Alike right otherRight) :
    Expr.Alike (.binary position operator left right) (.binary other operator otherLeft otherRight)
  | unary {position other : Position} (operator : UnaryOperator) {operand otherOperand : Expr}
      (operands : Expr.Alike operand otherOperand) :
    Expr.Alike (.unary position operator operand) (.unary other operator otherOperand)
  | addressOf {position other : Position} {operand otherOperand : Expr}
      (operands : Expr.Alike operand otherOperand) :
    Expr.Alike (.addressOf position operand) (.addressOf other otherOperand)
  | dereference {position other : Position} {operand otherOperand : Expr}
      (operands : Expr.Alike operand otherOperand) :
    Expr.Alike (.dereference position operand) (.dereference other otherOperand)
  | subscript {position other : Position} {base index otherBase otherIndex : Expr}
      (bases : Expr.Alike base otherBase) (indices : Expr.Alike index otherIndex) :
    Expr.Alike (.subscript position base index) (.subscript other otherBase otherIndex)
  | call {callee other : Ident} {arguments others : List Expr} (name : callee.name = other.name)
      (below : ExprsAlike arguments others) :
    Expr.Alike (.call callee arguments) (.call other others)
  | array {position other : Position} {elements others : List Expr}
      (below : ExprsAlike elements others) :
    Expr.Alike (.array position elements) (.array other others)
  | conjure {position other : Position} {layout : Layout} {body otherBody : List Stmt}
      (bodies : BodyAlike layout body otherBody) :
    Expr.Alike (.conjure position body) (.conjure other otherBody)

/-- Two lists of expressions are written alike. -/
inductive ExprsAlike : List Expr → List Expr → Prop
  | nil : ExprsAlike [] []
  | cons {expression other : Expr} {rest others : List Expr}
      (here : Expr.Alike expression other) (below : ExprsAlike rest others) :
    ExprsAlike (expression :: rest) (other :: others)

/-- Two statements are written alike. -/
inductive Stmt.Alike : Stmt → Stmt → Prop
  | main {position other : Position} {body otherBody : Stmt} (bodies : Stmt.Alike body otherBody) :
    Stmt.Alike (.main position body) (.main other otherBody)
  | affix {position other : Position} (module symbol : String) :
    Stmt.Alike (.affix position module symbol) (.affix other module symbol)
  | function {position other : Position} (name : String) {parameters others : List Parameter}
      {result otherResult : Option TypeSyntax} {layout : Layout} {body otherBody : List Stmt}
      (parametersAlike : List.Forall₂ Parameter.Alike parameters others)
      (results : Option.Rel TypeSyntax.Alike result otherResult)
      (bodies : BodyAlike layout body otherBody) :
    Stmt.Alike (.function position name parameters result body)
      (.function other name others otherResult otherBody)
  | conjureBinding {position other : Position} (name : String) {type otherType : TypeSyntax}
      {layout : Layout} {body otherBody : List Stmt} (types : type.Alike otherType)
      (bodies : BodyAlike layout body otherBody) :
    Stmt.Alike (.conjureBinding position name type body)
      (.conjureBinding other name otherType otherBody)
  | declare {position other : Position} (changeable : Bool) {ident otherIdent : Ident}
      {type otherType : Option TypeSyntax} {value otherValue : Expr}
      (name : ident.name = otherIdent.name) (types : Option.Rel TypeSyntax.Alike type otherType)
      (values : Expr.Alike value otherValue) :
    Stmt.Alike (.declare position changeable ident type value)
      (.declare other changeable otherIdent otherType otherValue)
  | assign {position other : Position} {target otherTarget : Ident} {value otherValue : Expr}
      (name : target.name = otherTarget.name) (values : Expr.Alike value otherValue) :
    Stmt.Alike (.assign position target value) (.assign other otherTarget otherValue)
  | step {position other : Position} (step : Step) {target otherTarget : Ident}
      (name : target.name = otherTarget.name) :
    Stmt.Alike (.step position step target) (.step other step otherTarget)
  | branch {position other : Position} {condition otherCondition : Expr}
      {layout otherLayout : Layout}
      {consequent alternative otherConsequent otherAlternative : List Stmt}
      (conditions : Expr.Alike condition otherCondition)
      (consequents : BodyAlike layout consequent otherConsequent)
      (alternatives : BodyAlike otherLayout alternative otherAlternative) :
    Stmt.Alike (.branch position condition consequent alternative)
      (.branch other otherCondition otherConsequent otherAlternative)
  | loop {position other : Position} {condition otherCondition : Expr} {layout : Layout}
      {body otherBody : List Stmt} (conditions : Expr.Alike condition otherCondition)
      (bodies : BodyAlike layout body otherBody) :
    Stmt.Alike (.loop position condition body) (.loop other otherCondition otherBody)
  | breakLoop {position other : Position} : Stmt.Alike (.breakLoop position) (.breakLoop other)
  | returnValue {position other : Position} {value otherValue : Expr}
      (values : Expr.Alike value otherValue) :
    Stmt.Alike (.returnValue position value) (.returnValue other otherValue)
  | returnVoid {position other : Position} : Stmt.Alike (.returnVoid position) (.returnVoid other)
  | exscribe {position other : Position} {value otherValue : Expr}
      (values : Expr.Alike value otherValue) :
    Stmt.Alike (.exscribe position value) (.exscribe other otherValue)
  | call {position other : Position} {callee otherCallee : Ident} {arguments others : List Expr}
      (name : callee.name = otherCallee.name) (below : ExprsAlike arguments others) :
    Stmt.Alike (.call position callee arguments) (.call other otherCallee others)
  | block {position other : Position} {layout : Layout} {body otherBody : List Stmt}
      (bodies : BodyAlike layout body otherBody) :
    Stmt.Alike (.block position body) (.block other otherBody)

/-- Two lists of statements are written alike: one statement like the other, or the two
functions exchanged, as long as they may be. -/
inductive BodyAlike : Layout → List Stmt → List Stmt → Prop
  | nil : BodyAlike .done [] []
  | cons {layout : Layout} {statement other : Stmt} {rest others : List Stmt}
      (here : Stmt.Alike statement other) (below : BodyAlike layout rest others) :
    BodyAlike (.one layout) (statement :: rest) (other :: others)
  | exchange {layout : Layout} {earlier later otherEarlier otherLater : Stmt}
      {rest others : List Stmt} (isFirst : earlier.IsDeclaredAt first)
      (isSecond : later.IsDeclaredAt second) (mayEarlier : may earlier) (mayLater : may later)
      (mayOtherEarlier : may otherEarlier) (mayOtherLater : may otherLater)
      (firsts : Stmt.Alike earlier otherEarlier) (seconds : Stmt.Alike later otherLater)
      (below : BodyAlike layout rest others) :
    BodyAlike (.two layout) (earlier :: later :: rest) (otherLater :: otherEarlier :: others)

end

end

/-- Is there no `main` in a statement? -/
def Stmt.Mainless (statement : Stmt) : Prop :=
  statement.hasMain = false

theorem ExprsAlike.length_eq {first second : Position} {may : Stmt → Prop}
    {expressions others : List Expr} :
    ExprsAlike first second may expressions others → expressions.length = others.length
  | .nil => rfl
  | .cons _ below => congrArg Nat.succ below.length_eq

/-! ## Programs without a `main` inside -/

section

variable {first second : Position} {may : Stmt → Prop}

mutual

theorem Expr.Alike.mainless {expression other : Expr} :
    expression.Alike first second may other → expression.hasMain = false →
      other.hasMain = false → expression.Alike first second Stmt.Mainless other
  | .integer text, _, _ => .integer text
  | .decimal text, _, _ => .decimal text
  | .string text, _, _ => .string text
  | .quoted text, _, _ => .quoted text
  | .codepoint text, _, _ => .codepoint text
  | .bool value, _, _ => .bool value
  | .null, _, _ => .null
  | .name name, _, _ => .name name
  | .binary operator lefts rights, without, otherWithout => by
    obtain ⟨left, right⟩ := Bool.or_eq_false_iff.mp without
    obtain ⟨otherLeft, otherRight⟩ := Bool.or_eq_false_iff.mp otherWithout
    exact .binary operator (lefts.mainless left otherLeft) (rights.mainless right otherRight)
  | .unary operator operands, without, otherWithout => .unary operator (operands.mainless without otherWithout)
  | .addressOf operands, without, otherWithout => .addressOf (operands.mainless without otherWithout)
  | .dereference operands, without, otherWithout => .dereference (operands.mainless without otherWithout)
  | .subscript bases indices, without, otherWithout => by
    obtain ⟨base, index⟩ := Bool.or_eq_false_iff.mp without
    obtain ⟨otherBase, otherIndex⟩ := Bool.or_eq_false_iff.mp otherWithout
    exact .subscript (bases.mainless base otherBase) (indices.mainless index otherIndex)
  | .call name below, without, otherWithout => .call name (below.mainless without otherWithout)
  | .array below, without, otherWithout => .array (below.mainless without otherWithout)
  | .conjure bodies, without, otherWithout => .conjure (bodies.mainless without otherWithout)

theorem ExprsAlike.mainless {expressions others : List Expr} :
    ExprsAlike first second may expressions others → anyHasMain expressions = false →
      anyHasMain others = false → ExprsAlike first second Stmt.Mainless expressions others
  | .nil, _, _ => .nil
  | .cons here below, without, otherWithout => by
    obtain ⟨head, rest⟩ := Bool.or_eq_false_iff.mp without
    obtain ⟨otherHead, otherRest⟩ := Bool.or_eq_false_iff.mp otherWithout
    exact .cons (here.mainless head otherHead) (below.mainless rest otherRest)

theorem Stmt.Alike.mainless {statement other : Stmt} :
    statement.Alike first second may other → statement.hasMain = false →
      other.hasMain = false → statement.Alike first second Stmt.Mainless other
  | .affix module symbol, _, _ => .affix module symbol
  | .function name parametersAlike results bodies, without, otherWithout =>
    .function name parametersAlike results (bodies.mainless without otherWithout)
  | .conjureBinding name types bodies, without, otherWithout =>
    .conjureBinding name types (bodies.mainless without otherWithout)
  | .declare changeable name types values, without, otherWithout =>
    .declare changeable name types (values.mainless without otherWithout)
  | .assign name values, without, otherWithout => .assign name (values.mainless without otherWithout)
  | .step step name, _, _ => .step step name
  | .branch conditions consequents alternatives, without, otherWithout => by
    obtain ⟨condition, inside⟩ := Bool.or_eq_false_iff.mp without
    obtain ⟨consequent, alternative⟩ := Bool.or_eq_false_iff.mp inside
    obtain ⟨otherCondition, otherInside⟩ := Bool.or_eq_false_iff.mp otherWithout
    obtain ⟨otherConsequent, otherAlternative⟩ := Bool.or_eq_false_iff.mp otherInside
    exact .branch (conditions.mainless condition otherCondition)
      (consequents.mainless consequent otherConsequent)
      (alternatives.mainless alternative otherAlternative)
  | .loop conditions bodies, without, otherWithout => by
    obtain ⟨condition, body⟩ := Bool.or_eq_false_iff.mp without
    obtain ⟨otherCondition, otherBody⟩ := Bool.or_eq_false_iff.mp otherWithout
    exact .loop (conditions.mainless condition otherCondition) (bodies.mainless body otherBody)
  | .breakLoop, _, _ => .breakLoop
  | .returnValue values, without, otherWithout => .returnValue (values.mainless without otherWithout)
  | .returnVoid, _, _ => .returnVoid
  | .exscribe values, without, otherWithout => .exscribe (values.mainless without otherWithout)
  | .call name below, without, otherWithout => .call name (below.mainless without otherWithout)
  | .block bodies, without, otherWithout => .block (bodies.mainless without otherWithout)

theorem BodyAlike.mainless {layout : Layout} {body other : List Stmt} :
    BodyAlike first second may layout body other → bodyHasMain body = false →
      bodyHasMain other = false → BodyAlike first second Stmt.Mainless layout body other
  | .nil, _, _ => .nil
  | .cons here below, without, otherWithout => by
    obtain ⟨head, rest⟩ := Bool.or_eq_false_iff.mp without
    obtain ⟨otherHead, otherRest⟩ := Bool.or_eq_false_iff.mp otherWithout
    exact .cons (here.mainless head otherHead) (below.mainless rest otherRest)
  | .exchange isFirst isSecond _ _ _ _ firsts seconds below, without, otherWithout => by
    obtain ⟨earlier, inside⟩ := Bool.or_eq_false_iff.mp without
    obtain ⟨later, rest⟩ := Bool.or_eq_false_iff.mp inside
    obtain ⟨otherLater, otherInside⟩ := Bool.or_eq_false_iff.mp otherWithout
    obtain ⟨otherEarlier, otherRest⟩ := Bool.or_eq_false_iff.mp otherInside
    exact .exchange isFirst isSecond earlier later otherEarlier otherLater
      (firsts.mainless earlier otherEarlier) (seconds.mainless later otherLater)
      (below.mainless rest otherRest)

end

end

end Surface

end GlyphCompiler
