/-
# Constants that an analysis notes

Whatever an expression has its elements from has a name where the expression is read, so it
has been declared before and is noted. That it is noted stays, as the analysis only adds to
its notes, so in the end every node has its place among the notes.
-/

import GlyphCompiler.Proofs.Analysis.Extents
import GlyphCompiler.Proofs.Analysis.Scoping

namespace GlyphCompiler

namespace Analysis

section

variable {may : Nat → Prop} {before after : State} {scopes : Scopes}
  {constants later : List (Nat × Expr)}

/-! ## Constants with names -/

/-- Every constant that has a name is noted with its first value. -/
def Named (scopes : Scopes) (constants : List (Nat × Expr)) : Prop :=
  ∀ target, .value target ∈ entities scopes → target.mutable = false →
    target.id ∈ constants.map Prod.fst

/-- What holds of the names and of the functions ahead in a region. -/
structure Informed (region : Region) (constants : List (Nat × Expr)) : Prop where
  named : Named region.scopes constants
  ahead : ∀ function ∈ region.ahead, ∀ parameter ∈ function.parameters, parameter.mutable = true

theorem Keeps.suffix (keeps : Keeps may before after) : before.constants <:+ after.constants := by
  obtain ⟨noted, isAfter, -⟩ := keeps.constants
  exact isAfter ▸ List.suffix_append _ _

theorem Named.keep (named : Named scopes constants) (suffix : constants <:+ later) :
    Named scopes later :=
  fun target member constant => (suffix.sublist.map Prod.fst).subset (named target member constant)

theorem Informed.keep {region : Region} (informed : Informed region constants)
    (suffix : constants <:+ later) : Informed region later :=
  ⟨informed.named.keep suffix, informed.ahead⟩

theorem Noted.keep {expression : Expr} (noted : Noted constants expression)
    (suffix : constants <:+ later) : Noted later expression :=
  fun target member => (suffix.sublist.map Prod.fst).subset (noted target member)

theorem Opens.informed {written : List Surface.Stmt} {region : Region}
    (opens : Opens scopes written before region.scopes region.ahead after)
    (named : Named scopes before.constants) : Informed region after.constants where
  named target member constant := by
    obtain ⟨function, -, absurd⟩ | outside := opens.named _ member
    · cases absurd
    · rw [opens.after]
      exact named target outside constant
  ahead := opens.changeable

/-- The parameters of a function have names in its body. -/
theorem Named.inside {inner : Scopes} {function : Function} (named : Named scopes constants)
    (changeable : ∀ parameter ∈ function.parameters, parameter.mutable = true)
    (isNamed : ∀ entity ∈ entities inner,
      (∃ parameter ∈ function.parameters, entity = .value parameter) ∨ entity ∈ entities scopes) :
    Named inner constants := by
  intro target member constant
  obtain ⟨parameter, listed, ⟨⟩⟩ | outside := isNamed _ member
  · exact absurd constant (changeable _ listed ▸ nofun)
  · exact named target outside constant

/-- A declaration notes what it names, if that is a constant. -/
theorem Informed.declare {region : Region} {declared : Scopes} {cause : String → Cause}
    {name : String} {entity : Entity} {position : Position} (informed : Informed region constants)
    (done : region.scopes.declare cause name entity position = .ok declared)
    (noted : ∀ target, entity = .value target → target.mutable = false →
      target.id ∈ constants.map Prod.fst) :
    Informed { region with scopes := declared } constants where
  named target member constant := by
    obtain same | outside := mem_entities_declare done member
    · exact noted target same.symm constant
    · exact informed.named target outside constant
  ahead := informed.ahead

theorem constants_declaring {state : State} {value : Expr} {changeable : Bool}
    (constant : changeable = false) :
    (state.declaring changeable value).constants = (state.nextId, value) :: state.constants := by
  subst constant
  rfl

theorem suffix_declaring (state : State) (changeable : Bool) (value : Expr) :
    state.constants <:+ (state.declaring changeable value).constants := by
  cases changeable with
  | true => exact List.suffix_rfl
  | false => exact List.suffix_cons _ _

@[simp]
theorem State.constants_finishing (state : State) (function : Function) :
    (state.finishing function).constants = state.constants := by
  unfold State.finishing
  split <;> rfl

theorem Informed.declareValue {region : Region} {declared : Scopes} {cause : String → Cause}
    {name : String} {target : Variable} {value : Expr} {position : Position}
    (informed : Informed region before.constants) (id : target.id = before.nextId)
    (done : region.scopes.declare cause name (.value target) position = .ok declared) :
    Informed { region with scopes := declared }
      (before.declaring target.mutable value).constants := by
  refine (informed.keep (suffix_declaring _ _ _)).declare done fun other isTarget constant => ?_
  cases isTarget
  rw [constants_declaring constant, List.map_cons, id]
  exact List.mem_cons_self

end

/-- What is noted of the names in a region and of the functions ahead stays noted. -/
theorem AnalyzesStmt.informed {region next : Region} {written : Surface.Stmt}
    {before after : State} {statement : Stmt} :
    AnalyzesStmt region written before statement next after → Informed region before.constants →
      Informed next after.constants
  | .mainStatement _ opens inner, informed =>
    ⟨(inner.informed (opens.informed informed.named)).named, informed.ahead⟩
  | .affix declared, informed => informed.declare declared nofun
  | analyzes@(.function _ _ _ _ _ _), informed | analyzes@(.conjureBinding _ _), informed =>
    ⟨informed.named.keep analyzes.passes.keeps.suffix, (List.forall_mem_cons.mp informed.ahead).2⟩
  | .declare analyzes id _ _ declared kind, informed => by
    rw [← kind]
    refine Informed.declareValue ?_ (id.trans (by simp)) declared
    rw [State.constants_converting]
    exact informed.keep analyzes.keeps.suffix
  | .declareInferred analyzes id _ _ declared kind, informed => by
    rw [← kind]
    exact (informed.keep analyzes.keeps.suffix).declareValue id declared
  | analyzes@(.mainBlock _ _), informed | analyzes@(.assign _ _ _ _), informed
  | analyzes@(.step _ _), informed | analyzes@(.branch _ _ _ _), informed
  | analyzes@(.loop _ _ _), informed | analyzes@(.breakLoop _), informed
  | analyzes@(.returnVoid _), informed | analyzes@(.returnFirst _ _ _), informed
  | analyzes@(.returnAgain _ _ _ _ _), informed | analyzes@(.exscribe _), informed
  | analyzes@(.evaluate _), informed | analyzes@(.printed _), informed
  | analyzes@(.block _), informed => informed.keep analyzes.passes.keeps.suffix

/-! ## Expressions with their elements -/

theorem sources_withType (type : Ty) (expression : Expr) :
    (expression.withType type).sources = expression.sources := by
  cases expression <;> rfl

theorem noted_array {constants : List (Nat × Expr)} {info : Info} {elements : List Expr}
    (noted : ∀ element ∈ elements, Noted constants element) :
    Noted constants (.array info elements) := by
  induction elements with
  | nil => nofun
  | cons first rest ih =>
    obtain ⟨here, others⟩ := List.forall_mem_cons.mp noted
    exact fun target member => (List.mem_append.mp member).elim (here target) (ih others target)

theorem noted_reference {scopes : Scopes} {state : State} {name : String} {info : Info}
    {target : Variable} (named : Named scopes state.constants)
    (found : scopes.lookup name = some (.value target)) :
    Noted state.constants (.reference ⟨info, target⟩) := by
  intro other member
  rw [Expr.sources] at member
  split at member
  · cases member
  · next constant =>
    rw [List.mem_singleton.mp member]
    exact named target (mem_entities_of_lookup found) (Bool.eq_false_iff.mpr constant)

/-- A call has no elements that are known. -/
theorem AnalyzesCall.noted {scopes : Scopes} {position : Position} {callee : Surface.Ident}
    {written : List Surface.Expr} {before after : State} {result : Expr}
    {constants : List (Nat × Expr)} :
    AnalyzesCall scopes position callee written before (.expression result) after →
      Noted constants result
  | .function _ _ _ | .reference _ _ _ _ | .typeOf _ | .apply _ | .supplant _ => nofun

mutual

theorem AnalyzesExpr.noted {scopes : Scopes} {written : Surface.Expr} {before after : State}
    {result : Expr} :
    AnalyzesExpr scopes written before result after → Named scopes before.constants →
      Noted after.constants result
  | .reference found, named => noted_reference named found
  | .subscript base index _ _, named => (base.noted named).keep index.keeps.suffix
  | .array elements _, named => noted_array (elements.noted named)
  | .call analyzes, _ => analyzes.noted
  | .literal isLiteral, _ => by cases isLiteral <;> nofun
  | .function _, _ | .addressOf _, _ | .binary _ _, _ | .unary _, _ | .dereference _ _, _
  | .conjure _ _, _ => nofun

theorem AnalyzesValue.noted {scopes : Scopes} {written : Surface.Expr} {before after : State}
    {result : Expr} :
    AnalyzesValue scopes written before result after → Named scopes before.constants →
      Noted after.constants result
  | .value analyzes _, named => by
    rw [State.constants_usingValue]
    exact analyzes.noted named

theorem AnalyzesExprs.noted {scopes : Scopes} {passing : Passing} {written : List Surface.Expr}
    {before after : State} {result : List Expr} :
    AnalyzesExprs scopes passing written before result after → Named scopes before.constants →
      ∀ argument ∈ result, Noted after.constants argument
  | .nil, _ => nofun
  | .into first _ rest, named => by
    have suffix := rest.keeps.suffix
    rw [State.constants_converting] at suffix
    have noted := (first.noted named).keep suffix
    have later := named.keep first.keeps.suffix
    refine List.forall_mem_cons.mpr ⟨?_, rest.noted (by rwa [State.constants_converting])⟩
    split
    · exact noted
    · rwa [Noted, sources_withType]
  | .value first rest, named =>
    List.forall_mem_cons.mpr ⟨(first.noted named).keep rest.keeps.suffix,
      rest.noted (named.keep first.keeps.suffix)⟩
  | .plain first rest, named =>
    List.forall_mem_cons.mpr ⟨(first.noted named).keep rest.keeps.suffix,
      rest.noted (named.keep first.keeps.suffix)⟩

end

/-! ## Every step -/

section

variable {final before after : State}

theorem settled_suffix {constants others : List (Nat × Expr)} (suffix : constants <:+ others) :
    settled final constants <:+ settled final others :=
  suffix.map _

/-- What holds of each node of a final form. -/
abbrev PlacedAll (final : State) (node : Node) : Prop :=
  node.All (Placed (settled final final.constants))

theorem placed_withType {constants : List (Nat × Expr)} (type : Ty) {value : Expr} :
    Placed constants (.expr (value.withType type)) ↔ Placed constants (.expr value) := by
  cases value <;> rfl

theorem placedAll_withType (type : Ty) {value : Expr} (placed : PlacedAll final (.expr value)) :
    PlacedAll final (.expr (value.withType type)) := by
  obtain ⟨here, below⟩ := Node.all_iff.mp placed
  refine Node.all_iff.mpr ⟨(placed_withType type).mpr here, ?_⟩
  simpa [Node.children] using below

/-- An expression has its place if its parts do. -/
theorem placedAll_of_parts {value : Expr} (parts : List Expr)
    (children : value.children = parts.map fun part => .expr (settle final part))
    (here : Placed (settled final final.constants) (.expr value))
    (placed : ∀ part ∈ parts, PlacedAll final (.expr (settle final part))) :
    PlacedAll final (.expr value) := by
  refine Node.all_iff.mpr ⟨here, ?_⟩
  rw [Node.children, children]
  simpa using placed

theorem placedAll_call {info : Info} {callee : Callee} {arguments : List Expr}
    (placed : ∀ argument ∈ arguments, PlacedAll final (.expr (settle final argument))) :
    PlacedAll final (.expr (settle final (.call info callee arguments))) := by
  refine Node.all_iff.mpr ⟨trivial, ?_⟩
  rw [settle, settleAll_eq_map, Node.children, Expr.children, List.map_map]
  refine List.forall_mem_cons.mpr ⟨?_, by simpa using placed⟩
  cases callee <;> exact Node.all_iff.mpr ⟨trivial, nofun⟩

/-- The statements of a body have their places. -/
def PlacedBody (final : State) (body : List Stmt) : Prop :=
  ∀ statement ∈ body, PlacedAll final (.stmt (settleStmt final statement))

theorem PlacedBody.children {body : List Stmt} (placed : PlacedBody final body) :
    ∀ child ∈ (settleBody final body).map Node.stmt, PlacedAll final child := by
  rw [settleBody_eq_map]
  simpa using fun statement member => placed statement member

/-- A statement that holds one value has its place if the value does. -/
theorem placedAll_of_value {statement : Stmt} {value : Expr}
    (children : (settleStmt final statement).children = [.expr value])
    (here : Placed (settled final final.constants) (.stmt (settleStmt final statement)))
    (placed : PlacedAll final (.expr value)) :
    PlacedAll final (.stmt (settleStmt final statement)) := by
  refine Node.all_iff.mpr ⟨here, ?_⟩
  rw [Node.children, children]
  exact List.forall_mem_singleton.mpr placed

/-- A constant is declared with the value that is noted of it. -/
theorem placed_declare {position : Position} {target : Variable} {value : Expr}
    (noted : Noted before.constants value) (id : target.id = before.nextId)
    (ends : (before.declaring target.mutable value).constants <:+ final.constants) :
    Placed (settled final final.constants)
      (.stmt (.declare position target (settle final value))) := by
  intro constant
  rw [constants_declaring constant, ← id] at ends
  exact ⟨settled final before.constants, settled_suffix ends, noted_settle noted⟩

end

mutual

theorem AnalyzesExpr.placed {final : State} {scopes : Scopes} {written : Surface.Expr}
    {before after : State} {result : Expr} :
    AnalyzesExpr scopes written before result after → Named scopes before.constants →
      after.constants <:+ final.constants → PlacedAll final (.expr (settle final result))
  | .literal isLiteral, _, _ => by
    cases isLiteral <;> exact placedAll_of_parts [] rfl trivial nofun
  | .reference _, _, _ | .function _, _, _ => placedAll_of_parts [] rfl trivial nofun
  | @AnalyzesExpr.addressOf _ _ ident _ target _, _, _ =>
    placedAll_of_parts [.reference ⟨⟨target.type, ident.position⟩, target⟩] rfl trivial
      (List.forall_mem_singleton.mpr (placedAll_of_parts [] rfl trivial nofun))
  | .binary left right, named, ends => by
    have first := left.placed named (right.keeps.suffix.trans ends)
    have second := right.placed (named.keep left.keeps.suffix) ends
    exact placedAll_of_parts [_, _] rfl trivial (by simpa using ⟨first, second⟩)
  | .unary operand, named, ends =>
    placedAll_of_parts [_] rfl trivial (by simpa using operand.placed named ends)
  | .dereference operand _, named, ends =>
    placedAll_of_parts [_] rfl trivial (by simpa using operand.placed named ends)
  | .subscript base index _ inExtent, named, ends => by
    have first := base.placed named (index.keeps.suffix.trans ends)
    have second := index.placed (named.keep base.keeps.suffix) ends
    have noted := (base.noted named).keep index.keeps.suffix
    exact placedAll_of_parts [_, _] rfl
      ⟨_, settled_suffix ends, noted_settle noted, inExtent_settle inExtent⟩
        (by simpa using ⟨first, second⟩)
  | .call analyzes, named, ends => analyzes.placed named ends
  | .array elements _, named, ends =>
    placedAll_of_parts _ (by rw [settle, settleAll_eq_map, Expr.children, List.map_map]; rfl)
      trivial (elements.placed named ends)
  | .conjure body _, named, ends =>
    Node.all_iff.mpr ⟨trivial, (body.placed named ends).children⟩

theorem AnalyzesValue.placed {final : State} {scopes : Scopes} {written : Surface.Expr}
    {before after : State} {result : Expr} :
    AnalyzesValue scopes written before result after → Named scopes before.constants →
      after.constants <:+ final.constants → PlacedAll final (.expr (settle final result))
  | .value analyzes _, named, ends => by
    rw [State.constants_usingValue] at ends
    exact analyzes.placed named ends

theorem AnalyzesExprs.placed {final : State} {scopes : Scopes} {passing : Passing}
    {written : List Surface.Expr} {before after : State} {result : List Expr} :
    AnalyzesExprs scopes passing written before result after → Named scopes before.constants →
      after.constants <:+ final.constants →
        ∀ argument ∈ result, PlacedAll final (.expr (settle final argument))
  | .nil, _, _ => nofun
  | @AnalyzesExprs.into _ parameter _ _ _ _ _ _ _ _ first _ rest, named, ends => by
    have suffix := rest.keeps.suffix
    rw [State.constants_converting] at suffix
    have here := first.placed named (suffix.trans ends)
    have later := named.keep first.keeps.suffix
    refine List.forall_mem_cons.mpr ⟨?_, rest.placed (by rwa [State.constants_converting]) ends⟩
    split
    · exact here
    · next notAny =>
      rw [settle_withType notAny]
      exact placedAll_withType parameter here
  | .value first rest, named, ends =>
    List.forall_mem_cons.mpr ⟨first.placed named (rest.keeps.suffix.trans ends),
      rest.placed (named.keep first.keeps.suffix) ends⟩
  | .plain first rest, named, ends =>
    List.forall_mem_cons.mpr ⟨first.placed named (rest.keeps.suffix.trans ends),
      rest.placed (named.keep first.keeps.suffix) ends⟩

theorem AnalyzesCall.placed {final : State} {scopes : Scopes} {position : Position}
    {callee : Surface.Ident} {written : List Surface.Expr} {before after : State}
    {outcome : Outcome} :
    AnalyzesCall scopes position callee written before outcome after →
      Named scopes before.constants → after.constants <:+ final.constants →
        PlacedAll final (.expr (settle final outcome.value))
  | .function _ _ arguments, named, ends => placedAll_call (arguments.placed named ends)
  | .reference _ _ _ arguments, named, ends => placedAll_call (arguments.placed named ends)
  | .typeOf _, _, _ => placedAll_of_parts [] rfl trivial nofun
  | .printed arguments, named, ends => arguments.placed named ends _ List.mem_cons_self
  | .apply arguments, named, ends =>
    placedAll_of_parts [_, _] rfl trivial (arguments.placed named ends)
  | .supplant arguments, named, ends =>
    placedAll_of_parts [_, _, _] rfl trivial (arguments.placed named ends)

theorem AnalyzesStmt.placed {final : State} {region next : Region} {written : Surface.Stmt}
    {before after : State} {statement : Stmt} :
    AnalyzesStmt region written before statement next after → Informed region before.constants →
      after.constants <:+ final.constants → PlacedAll final (.stmt (settleStmt final statement))
  | .mainBlock _ body, informed, ends =>
    Node.all_iff.mpr ⟨trivial, (body.placed informed.named ends).children⟩
  | .mainStatement _ opens inner, informed, ends => by
    have body : PlacedBody final [_] :=
      List.forall_mem_singleton.mpr (inner.placed (opens.informed informed.named) ends)
    exact Node.all_iff.mpr ⟨trivial, body.children⟩
  | .affix _, _, _ | .breakLoop _, _, _ | .returnVoid _, _, _ =>
    Node.all_iff.mpr ⟨trivial, nofun⟩
  | .step _ changeable, _, _ => Node.all_iff.mpr ⟨changeable, nofun⟩
  | .function _ isNamed _ _ body _, informed, ends => by
    rw [State.constants_finishing] at ends
    have opened := informed.named.inside (informed.ahead _ List.mem_cons_self) isNamed
    exact Node.all_iff.mpr ⟨trivial, (body.placed opened ends).children⟩
  | .conjureBinding body _, informed, ends => by
    rw [State.constants_finishing] at ends
    exact Node.all_iff.mpr ⟨trivial, (body.placed informed.named ends).children⟩
  | .declare analyzes id _ _ _ kind, informed, ends => by
    rw [← kind] at ends
    have here := (suffix_declaring _ _ _).trans ends
    rw [State.constants_converting] at here
    refine placedAll_of_value rfl (placed_declare ?_ (id.trans (by simp)) ends)
      (analyzes.placed informed.named here)
    rw [State.constants_converting]
    exact analyzes.noted informed.named
  | .declareInferred analyzes id _ _ _ kind, informed, ends => by
    rw [← kind] at ends
    have here := (suffix_declaring _ _ _).trans ends
    exact placedAll_of_value rfl (placed_declare (analyzes.noted informed.named) id ends)
      (analyzes.placed informed.named here)
  | .assign _ changeable analyzes _, informed, ends => by
    rw [State.constants_converting] at ends
    exact placedAll_of_value rfl changeable (analyzes.placed informed.named ends)
  | .returnFirst _ analyzes _, informed, ends =>
    placedAll_of_value rfl trivial (analyzes.placed informed.named ends)
  | .returnAgain _ analyzes _ _ _, informed, ends => by
    rw [State.constants_converting] at ends
    exact placedAll_of_value rfl trivial (analyzes.placed informed.named ends)
  | .exscribe analyzes, informed, ends =>
    placedAll_of_value rfl trivial (analyzes.placed informed.named ends)
  | .branch condition _ consequent alternative, informed, ends => by
    have second := alternative.keeps.suffix.trans ends
    have tests := condition.placed informed.named (consequent.keeps.suffix.trans second)
    have entered := informed.named.keep condition.keeps.suffix
    have first := consequent.placed entered second
    have other := alternative.placed (entered.keep consequent.keeps.suffix) ends
    exact Node.all_iff.mpr ⟨trivial, List.forall_mem_cons.mpr
      ⟨tests, List.forall_mem_append.mpr ⟨first.children, other.children⟩⟩⟩
  | .loop condition _ body, informed, ends => by
    have tests := condition.placed informed.named (body.keeps.suffix.trans ends)
    have repeated := body.placed (informed.named.keep condition.keeps.suffix) ends
    exact Node.all_iff.mpr ⟨trivial, List.forall_mem_cons.mpr ⟨tests, repeated.children⟩⟩
  | .evaluate call, informed, ends => by
    refine placedAll_of_value rfl trivial (placedAll_withType _ ?_)
    exact call.placed informed.named ends
  | .printed call, informed, ends =>
    placedAll_of_value rfl trivial (call.placed informed.named ends)
  | .block body, informed, ends =>
    Node.all_iff.mpr ⟨trivial, (body.placed informed.named ends).children⟩

theorem AnalyzesStmts.placed {final : State} {region : Region} {written : List Surface.Stmt}
    {before after : State} {body : List Stmt} :
    AnalyzesStmts region written before body after → Informed region before.constants →
      after.constants <:+ final.constants → PlacedBody final body
  | .nil, _, _ => nofun
  | .cons first rest, informed, ends =>
    List.forall_mem_cons.mpr ⟨first.placed informed (rest.keeps.suffix.trans ends),
      rest.placed (first.informed informed) ends⟩

theorem AnalyzesBody.placed {final : State} {scopes : Scopes} {written : List Surface.Stmt}
    {before after : State} {body : List Stmt} :
    AnalyzesBody scopes written before body after → Named scopes before.constants →
      after.constants <:+ final.constants → PlacedBody final body
  | .body opens analyzes, named, ends => analyzes.placed (opens.informed named) ends

end

end Analysis

end GlyphCompiler
