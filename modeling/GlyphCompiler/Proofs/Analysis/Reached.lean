/-
# The states that an analysis reaches

The analysis of a piece of a program comes to the analysis of its parts, in states that
the parts before them have left. In every state that is reached so the constants are
grounded, so a search for the elements of an array ends there.
-/

import GlyphCompiler.Proofs.Analysis.Bounds
import GlyphCompiler.Proofs.Analysis.Grounding

namespace GlyphCompiler

namespace Analysis

/-! ## Pieces -/

/-- Analyze an expression in the place of a value. -/
def usedValue (scopes : Scopes) (written : Surface.Expr) : Analyzer Expr := do
  useValue (← expression scopes written)

/-- Analyze an expression in the place of a condition. -/
def checkedCondition (scopes : Scopes) (written : Surface.Expr) : Analyzer Expr := do
  checkCondition (← expression scopes written)

/-- Begin a list of statements and analyze them. -/
def enteredBody (scopes : Scopes) (written : List Surface.Stmt) : Analyzer (List Stmt) := do
  statements (← enter scopes written) written

/-- What an analysis comes to, with the scopes or the region around it. -/
inductive Piece
  | expression (scopes : Scopes) (written : Surface.Expr)
  | value (scopes : Scopes) (written : Surface.Expr)
  | arguments (scopes : Scopes) (passing : Passing) (written : List Surface.Expr)
  | described (scopes : Scopes) (written : List Surface.Expr)
  | call (scopes : Scopes) (position : Position) (callee : Surface.Ident)
      (written : List Surface.Expr)
  | body (scopes : Scopes) (written : List Surface.Stmt)
  | statement (region : Region) (written : Surface.Stmt)
  | statements (region : Region) (written : List Surface.Stmt)

/-- The analysis of a piece that begins in one state comes to the analysis of a part, in
the state that has been reached by then. -/
inductive Enters : Piece → State → Piece → State → Prop
  | value {scopes : Scopes} {written : Surface.Expr} {before : State} :
    Enters (.value scopes written) before (.expression scopes written) before
  | binaryLeft {scopes : Scopes} {position : Position} {operator : BinaryOperator}
      {left right : Surface.Expr} {before : State} :
    Enters (.expression scopes (.binary position operator left right)) before
      (.value scopes left) before
  | binaryRight {scopes : Scopes} {position : Position} {operator : BinaryOperator}
      {left right : Surface.Expr} {before middle : State} {value : Expr}
      (first : Yields (usedValue scopes left) before value middle) :
    Enters (.expression scopes (.binary position operator left right)) before
      (.value scopes right) middle
  | unary {scopes : Scopes} {position : Position} {operator : UnaryOperator}
      {operand : Surface.Expr} {before : State} :
    Enters (.expression scopes (.unary position operator operand)) before
      (.value scopes operand) before
  | dereference {scopes : Scopes} {position : Position} {operand : Surface.Expr}
      {before : State} :
    Enters (.expression scopes (.dereference position operand)) before
      (.expression scopes operand) before
  | subscriptBase {scopes : Scopes} {position : Position} {base index : Surface.Expr}
      {before : State} :
    Enters (.expression scopes (.subscript position base index)) before
      (.value scopes base) before
  | subscriptIndex {scopes : Scopes} {position : Position} {base index : Surface.Expr}
      {before middle : State} {value : Expr}
      (first : Yields (usedValue scopes base) before value middle) :
    Enters (.expression scopes (.subscript position base index)) before
      (.value scopes index) middle
  | call {scopes : Scopes} {callee : Surface.Ident} {written : List Surface.Expr}
      {before : State} :
    Enters (.expression scopes (.call callee written)) before
      (.call scopes callee.position callee written) before
  | array {scopes : Scopes} {position : Position} {written : List Surface.Expr}
      {before : State} :
    Enters (.expression scopes (.array position written)) before
      (.arguments scopes .values written) before
  | conjure {scopes : Scopes} {position : Position} {written : List Surface.Stmt}
      {before middle : State} {id : Nat} (numbers : Yields freshId before id middle) :
    Enters (.expression scopes (.conjure position written)) before
      (.body (scopes.functionBody ⟨id, "conjure", [], .any, true⟩) written) middle
  | argument {scopes : Scopes} {passing : Passing} {written : Surface.Expr}
      {rest : List Surface.Expr} {before : State} :
    Enters (.arguments scopes passing (written :: rest)) before (.expression scopes written) before
  | furtherArguments {scopes : Scopes} {passing : Passing} {written : Surface.Expr}
      {rest : List Surface.Expr} {before middle after : State} {argument passed : Expr}
      (first : Yields (expression scopes written) before argument middle)
      (passes : Yields (pass passing argument) middle passed after) :
    Enters (.arguments scopes passing (written :: rest)) before
      (.arguments scopes passing.rest rest) after
  | describedCall {scopes : Scopes} {callee : Surface.Ident} {written : List Surface.Expr}
      {before middle : State} {type : Ty}
      (finds : Yields (describedCallee scopes callee) before type middle) :
    Enters (.described scopes [.call callee written]) before
      (.arguments scopes .plain written) middle
  | describedExpression {scopes : Scopes} {written : Surface.Expr} {before : State}
      (notCall : ∀ callee arguments, written ≠ .call callee arguments) :
    Enters (.described scopes [written]) before (.expression scopes written) before
  | callArguments {scopes : Scopes} {position : Position} {callee : Surface.Ident}
      {written : List Surface.Expr} {before middle : State} {target : Callee}
      {parameters : List Ty} {type : Ty}
      (finds : Yields (findCalled scopes position callee written.length) before
        (.callee target parameters type) middle) :
    Enters (.call scopes position callee written) before
      (.arguments scopes (.into parameters) written) middle
  | callDescribed {scopes : Scopes} {position : Position} {callee : Surface.Ident}
      {written : List Surface.Expr} {before middle : State} {symbol : LibraryFunction}
      (finds : Yields (findCalled scopes position callee written.length) before
        (.library symbol) middle) (describes : symbol.intrinsic = .typeOf) :
    Enters (.call scopes position callee written) before (.described scopes written) middle
  | callLibrary {scopes : Scopes} {position : Position} {callee : Surface.Ident}
      {written : List Surface.Expr} {before middle : State} {symbol : LibraryFunction}
      (finds : Yields (findCalled scopes position callee written.length) before
        (.library symbol) middle) (evaluates : symbol.intrinsic ≠ .typeOf) :
    Enters (.call scopes position callee written) before
      (.arguments scopes .values written) middle
  | body {scopes : Scopes} {region : Region} {written : List Surface.Stmt}
      {before middle : State} (opens : Yields (enter scopes written) before region middle) :
    Enters (.body scopes written) before (.statements region written) middle
  | firstStatement {region : Region} {written : Surface.Stmt} {rest : List Surface.Stmt}
      {before : State} :
    Enters (.statements region (written :: rest)) before (.statement region written) before
  | furtherStatements {region inner : Region} {written : Surface.Stmt}
      {rest : List Surface.Stmt} {before middle : State} {statement : Stmt}
      (first : Yields (Analysis.statement region written) before (statement, inner) middle) :
    Enters (.statements region (written :: rest)) before (.statements inner rest) middle
  | mainBlock {region : Region} {position blockPosition : Position}
      {written : List Surface.Stmt} {before middle : State}
      (begins : Yields (beginMain position) before () middle) :
    Enters (.statement region (.main position (.block blockPosition written))) before
      (.body region.scopes.block written) middle
  | mainStatement {region opened : Region} {position : Position} {written : Surface.Stmt}
      {before middle after : State}
      (notBlock : ∀ blockPosition body, written ≠ .block blockPosition body)
      (begins : Yields (beginMain position) before () middle)
      (opens : Yields (enter region.scopes [written]) middle opened after) :
    Enters (.statement region (.main position written)) before (.statement opened written) after
  | function {scopes inner : Scopes} {function : Function} {ahead : List Function}
      {position : Position} {name : String} {parameters : List Surface.Parameter}
      {result : Option Surface.TypeSyntax} {written : List Surface.Stmt} {before middle : State}
      (declares : Yields (declareParameters (scopes.functionBody function)
        (parameters.zip function.parameters)) before inner middle) :
    Enters (.statement ⟨scopes, function :: ahead⟩
      (.function position name parameters result written)) before (.body inner written) middle
  | conjureBinding {scopes : Scopes} {function : Function} {ahead : List Function}
      {position : Position} {name : String} {type : Surface.TypeSyntax}
      {written : List Surface.Stmt} {before : State} :
    Enters (.statement ⟨scopes, function :: ahead⟩
      (.conjureBinding position name type written)) before
      (.body (scopes.functionBody function) written) before
  | declare {region : Region} {position : Position} {changeable : Bool} {ident : Surface.Ident}
      {type : Option Surface.TypeSyntax} {written : Surface.Expr} {before : State} :
    Enters (.statement region (.declare position changeable ident type written)) before
      (.value region.scopes written) before
  | assign {region : Region} {position : Position} {ident : Surface.Ident}
      {written : Surface.Expr} {before middle : State} {target : Variable}
      (finds : Yields (assignable region.scopes ident) before target middle) :
    Enters (.statement region (.assign position ident written)) before
      (.value region.scopes written) middle
  | branchCondition {region : Region} {position : Position} {condition : Surface.Expr}
      {consequent alternative : List Surface.Stmt} {before : State} :
    Enters (.statement region (.branch position condition consequent alternative)) before
      (.expression region.scopes condition) before
  | branchConsequent {region : Region} {position : Position} {condition : Surface.Expr}
      {consequent alternative : List Surface.Stmt} {before middle : State} {checked : Expr}
      (checks : Yields (checkedCondition region.scopes condition) before checked middle) :
    Enters (.statement region (.branch position condition consequent alternative)) before
      (.body region.scopes.block consequent) middle
  | branchAlternative {region : Region} {position : Position} {condition : Surface.Expr}
      {consequent alternative : List Surface.Stmt} {before middle after : State} {checked : Expr}
      {body : List Stmt}
      (checks : Yields (checkedCondition region.scopes condition) before checked middle)
      (first : Yields (enteredBody region.scopes.block consequent) middle body after) :
    Enters (.statement region (.branch position condition consequent alternative)) before
      (.body region.scopes.block alternative) after
  | loopCondition {region : Region} {position : Position} {condition : Surface.Expr}
      {written : List Surface.Stmt} {before : State} :
    Enters (.statement region (.loop position condition written)) before
      (.expression region.scopes condition) before
  | loopBody {region : Region} {position : Position} {condition : Surface.Expr}
      {written : List Surface.Stmt} {before middle : State} {checked : Expr}
      (checks : Yields (checkedCondition region.scopes condition) before checked middle) :
    Enters (.statement region (.loop position condition written)) before
      (.body region.scopes.loop written) middle
  | returnValue {region : Region} {position : Position} {written : Surface.Expr}
      {before middle : State} {function : Function}
      (finds : Yields (returningFunction region.scopes position) before function middle) :
    Enters (.statement region (.returnValue position written)) before
      (.value region.scopes written) middle
  | exscribe {region : Region} {position : Position} {written : Surface.Expr} {before : State} :
    Enters (.statement region (.exscribe position written)) before
      (.value region.scopes written) before
  | callStatement {region : Region} {position : Position} {callee : Surface.Ident}
      {written : List Surface.Expr} {before : State} :
    Enters (.statement region (.call position callee written)) before
      (.call region.scopes position callee written) before
  | block {region : Region} {position : Position} {written : List Surface.Stmt}
      {before : State} :
    Enters (.statement region (.block position written)) before
      (.body region.scopes.block written) before

/-- The state that a step leaves behind, also where it fails. -/
def leave {α : Type} (step : Analyzer α) (before : State) : State :=
  match step.run before with
  | .ok _ after => after
  | .error _ after => after

/-- The state that the analysis of a piece leaves behind. -/
def Piece.leave (before : State) : Piece → State
  | .expression scopes written => Analysis.leave (Analysis.expression scopes written) before
  | .value scopes written => Analysis.leave (usedValue scopes written) before
  | .arguments scopes passing written =>
    Analysis.leave (Analysis.arguments scopes passing written) before
  | .described scopes written => Analysis.leave (Analysis.described scopes written) before
  | .call scopes position callee written =>
    Analysis.leave (Analysis.call scopes position callee written.length
      (Analysis.described scopes written) fun passing => Analysis.arguments scopes passing written)
      before
  | .body scopes written => Analysis.leave (enteredBody scopes written) before
  | .statement region written => Analysis.leave (Analysis.statement region written) before
  | .statements region written => Analysis.leave (Analysis.statements region written) before

/-- What an analyzer remembers when it begins to read a text, after it has read others. -/
inductive Remembers : State → Prop
  | nothing : Remembers .initial
  | text {before : State} (remembers : Remembers before) (source : String) :
    Remembers (leave (ofSource source) before)

/-- The analysis of a text, by an analyzer that may have read others, comes to a piece. -/
inductive Comes (source : String) : Piece → State → Prop
  | program {tree : Tree} {written : Surface.Program} {start : State} (remembers : Remembers start)
      (parsed : parse source = .ok tree) (read : Surface.ofTree tree = .ok written) :
    Comes source (.body [.root] written.body) start
  | part {piece part : Piece} {before middle : State} (comes : Comes source piece before)
      (enters : Enters piece before part middle) :
    Comes source part middle

/-- A state that is reached while a text is analyzed: one in which the analysis of a piece
begins, or one that it leaves behind. What happens in between changes no constants. -/
inductive Reached (source : String) : State → Prop
  | begins {piece : Piece} {state : State} (comes : Comes source piece state) :
    Reached source state
  | ends {piece : Piece} {before : State} (comes : Comes source piece before) :
    Reached source (piece.leave before)
  | remembered {before : State} (remembers : Remembers before) :
    Reached source (leave (ofSource source) before)

/-! ## What is reached is grounded -/

/-- What has a name where a piece stands. -/
def Piece.owners : Piece → List Owner
  | .expression scopes _ | .value scopes _ | .arguments scopes _ _ | .described scopes _
  | .call scopes _ _ _ | .body scopes _ => scopeOwners scopes
  | .statement region _ | .statements region _ => region.owners

attribute [grind =] Piece.owners

section

variable {α : Type} {known : List Owner} {names : α → List Owner} {step : Analyzer α}
  {before after : State}

theorem Grounds.leads (grounds : Grounds known names step) (grounded : before.Grounded)
    (numbered : Under before.nextId known) : Leads before (leave step before) := by
  have ran := grounds before grounded numbered
  unfold leave
  split
  · next result after done =>
    rw [done] at ran
    exact ran.1
  · next failure after failed =>
    rw [failed] at ran
    exact ran

/-- What is known after a step has been numbered. -/
theorem Grounds.yields {result : α} {others : List Owner} (grounds : Grounds known names step)
    (grounded : before.Grounded) (numbered : Under before.nextId known)
    (yields : Yields step before result after) (within : others ⊆ names result ++ known) :
    after.Grounded ∧ Under after.nextId others := by
  have ran := grounds before grounded numbered
  rw [show step.run before = _ from yields] at ran
  have named := under_append.mpr ⟨ran.2, numbered.mono ran.1.nextId⟩
  exact ⟨ran.1.grounded, named.subset within⟩

theorem grounds_usedValue {scopes : Scopes} (within : scopeOwners scopes ⊆ known)
    (written : Surface.Expr) : Grounds known Expr.uses (usedValue scopes written) :=
  (grounds_expression written within).bind fun _ => grounds_useValue (by grind)

theorem grounds_checkedCondition {scopes : Scopes} (within : scopeOwners scopes ⊆ known)
    (written : Surface.Expr) : Grounds known Expr.uses (checkedCondition scopes written) :=
  (grounds_expression written within).bind fun _ => grounds_checkCondition (by grind)

theorem grounds_enteredBody {scopes : Scopes} (within : scopeOwners scopes ⊆ known)
    (written : List Surface.Stmt) : Grounds known usesOfBody (enteredBody scopes written) :=
  (grounds_enter within written).bind fun _ => grounds_statements written (by grind)

/-- The analysis of a piece leads to a grounded state. -/
theorem Piece.leads {piece : Piece} (grounded : before.Grounded)
    (numbered : Under before.nextId piece.owners) : Leads before (piece.leave before) := by
  cases piece with
  | expression scopes written =>
    exact (grounds_expression written (List.Subset.refl _)).leads grounded numbered
  | value scopes written =>
    exact (grounds_usedValue (List.Subset.refl _) written).leads grounded numbered
  | arguments scopes passing written =>
    exact (grounds_arguments written passing (List.Subset.refl _)).leads grounded numbered
  | described scopes written =>
    exact (grounds_described written (List.Subset.refl _)).leads grounded numbered
  | call scopes position callee written =>
    exact (grounds_call (List.Subset.refl _) position callee written.length
      (grounds_described written)
      (fun within passing => grounds_arguments written passing within)).leads grounded numbered
  | body scopes written =>
    exact (grounds_enteredBody (List.Subset.refl _) written).leads grounded numbered
  | statement region written =>
    exact (grounds_statement written (List.Subset.refl _)).leads grounded numbered
  | statements region written =>
    exact (grounds_statements written (List.Subset.refl _)).leads grounded numbered

/-- A part begins in a grounded state, in which all that has a name there has been numbered. -/
theorem Enters.grounded {piece part : Piece} {middle : State}
    (enters : Enters piece before part middle) (grounded : before.Grounded)
    (numbered : Under before.nextId piece.owners) :
    middle.Grounded ∧ Under middle.nextId part.owners := by
  have whole := List.Subset.refl piece.owners
  cases enters with
  | value | binaryLeft | unary | dereference | subscriptBase | call | array | argument
  | describedExpression | firstStatement => exact ⟨grounded, numbered⟩
  | conjureBinding | declare | branchCondition | loopCondition | exscribe | callStatement
  | block => exact ⟨grounded, numbered.subset (by grind)⟩
  | binaryRight first | subscriptIndex first =>
    exact (grounds_usedValue whole _).yields grounded numbered first (by grind)
  | conjure numbers =>
    exact (Grounds.freshId nothing (by simp)).yields grounded numbered numbers (by grind)
  | furtherArguments first passes =>
    obtain ⟨middle, named⟩ := (grounds_expression _ whole).yields grounded numbered first
      (List.Subset.refl _)
    exact (grounds_pass (List.subset_append_left _ _) _).yields middle named passes (by grind)
  | describedCall finds =>
    exact (grounds_describedCallee whole _).yields grounded numbered finds (by grind)
  | callArguments finds | callDescribed finds | callLibrary finds =>
    exact (grounds_findCalled whole _ _ _).yields grounded numbered finds (by grind)
  | body opens => exact (grounds_enter whole _).yields grounded numbered opens (by grind)
  | furtherStatements first =>
    exact (grounds_statement _ whole).yields grounded numbered first (by grind)
  | mainBlock begins =>
    exact (grounds_beginMain _).yields grounded numbered begins (by grind)
  | mainStatement notBlock begins opens =>
    obtain ⟨middle, named⟩ := (grounds_beginMain _).yields grounded numbered begins
      (List.Subset.refl _)
    exact (grounds_enter (by grind) _).yields middle named opens (by grind)
  | function declares =>
    exact (grounds_declareParameters (by grind) _ (by grind)).yields grounded numbered declares
      (by grind)
  | assign finds =>
    exact (grounds_assignable (by grind) _).yields grounded numbered finds (by grind)
  | branchConsequent checks | loopBody checks =>
    exact (grounds_checkedCondition (by grind) _).yields grounded numbered checks (by grind)
  | branchAlternative checks first =>
    obtain ⟨middle, named⟩ := (grounds_checkedCondition (by grind) _).yields grounded numbered checks
      (List.Subset.refl _)
    exact (grounds_enteredBody (by grind) _).yields middle named first (by grind)
  | returnValue finds =>
    exact (grounds_returningFunction _ _).yields grounded numbered finds (by grind)

theorem Remembers.grounded (remembers : Remembers before) : before.Grounded := by
  induction remembers with
  | nothing => exact grounded_initial
  | text _ source ih => exact ((grounds_ofSource source).leads ih under_nil).grounded

theorem Comes.grounded {source : String} {piece : Piece} (comes : Comes source piece before) :
    before.Grounded ∧ Under before.nextId piece.owners := by
  induction comes with
  | program remembers => exact ⟨remembers.grounded, under_nil⟩
  | part _ enters ih => exact enters.grounded ih.1 ih.2

theorem Reached.grounded {source : String} (reached : Reached source before) : before.Grounded := by
  cases reached with
  | begins comes => exact comes.grounded.1
  | ends comes => exact (Piece.leads comes.grounded.1 comes.grounded.2).grounded
  | remembered remembers =>
    exact ((grounds_ofSource source).leads remembers.grounded under_nil).grounded

end

end Analysis

/-- In every state that is reached while a text is analyzed the search for the elements of
an array ends, whatever expression it begins with. The first value of a constant names only
what was numbered before the constant. Each step of a search leads lower: to an expression
that names only what was numbered earlier, or to a smaller one that names nothing later. So
no search goes on for ever; every search finds exactly one thing, and the extent of an array
is the number of the elements that are found. -/
theorem search_ends_of_reached {source : String} {state : Analysis.State}
    (reached : Analysis.Reached source state) :
    (∀ target value, state.constants.lookup target = some value →
      target < state.nextId ∧ ∀ owner ∈ value.uses, owner.id < target) ∧
    (∀ next expression, Analysis.Searches state.constants next expression →
      Analysis.Lower next expression) ∧
    WellFounded (Analysis.Searches state.constants) ∧
    ∀ expression, ∃ outcome, Analysis.Finds state.constants expression outcome ∧
      (∀ other, Analysis.Finds state.constants expression other → other = outcome) ∧
      ∀ found, outcome = .ok found →
        Analysis.extent state.constants expression = .ok (found.map List.length) := by
  have grounded := reached.grounded
  refine ⟨fun target value noted => ?_, fun next expression => grounded.constants.lower,
    grounded.constants.wellFounded_searches, fun expression => ?_⟩
  · have member := Analysis.mem_of_lookup noted
    exact ⟨grounded.numbered _ member, grounded.constants.named _ member⟩
  · obtain ⟨outcome, finds⟩ := grounded.constants.exists_finds expression
    refine ⟨outcome, finds, fun other others => others.unique finds, fun found isFound => ?_⟩
    exact grounded.constants.extent_eq (isFound ▸ finds)

/-- When the program with a constant array has been read, the constant is noted, and a search
from its first value ends. -/
theorem search_ends_of_reached_accessingSource :
    ∃ state, Analysis.Reached accessingSource state ∧ ∃ value,
      state.constants.lookup constantArray.id = some value ∧ constantArray.id < state.nextId ∧
        ∃ outcome, Analysis.Finds state.constants value outcome := by
  obtain ⟨final, ran, -, placed⟩ := Analysis.exists_placed_run analyze_accessingSource
  have left : Analysis.leave (Analysis.ofSource accessingSource) .initial = final := by
    rw [Analysis.leave, ran]
  have reached : Analysis.Reached accessingSource final := left ▸ .remembered .nothing
  obtain ⟨numbered, -, -, ends⟩ := search_ends_of_reached reached
  have declared := map_subset_walkStmts accessingProgram.body List.mem_cons_self
  obtain ⟨earlier, noted, -⟩ := placed _ declared rfl
  have isKey : constantArray.id ∈ (Analysis.settled final final.constants).map Prod.fst :=
    List.mem_map_of_mem (noted.subset List.mem_cons_self)
  rw [Analysis.ids_settled] at isKey
  cases found : final.constants.lookup constantArray.id with
  | none =>
    obtain ⟨entry, listed, same⟩ := List.mem_map.mp isKey
    simpa [same] using List.lookup_eq_none_iff.mp found entry listed
  | some value =>
    obtain ⟨outcome, finds, -⟩ := ends value
    exact ⟨final, reached, value, found, (numbered _ _ found).1, outcome, finds⟩

end GlyphCompiler
