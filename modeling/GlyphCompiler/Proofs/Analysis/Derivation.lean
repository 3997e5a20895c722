/-
# The rules of analysis as a derivation

An analysis that succeeds is a derivation: one rule for each construct, which says
what its parts come to, what the construct itself becomes, and what is left behind
in the state. What holds of all accepted programs is proved over derivations.
-/

import GlyphCompiler.Proofs.Analysis.Visible

namespace GlyphCompiler

namespace Analysis

/-- The literal that a written literal becomes. A whole number that can be read can also be
written. -/
inductive IsLiteral : Expr → Prop
  | integer (position : Position) (value : Int)
      (short : value.natAbs < Nat.pow 10 Number.digitLimit) :
    IsLiteral (.number ⟨.ofInt value, position⟩ (.int value))
  | decimal (position : Position) (value : Float) :
    IsLiteral (.number ⟨.float32, position⟩ (.float value))
  | bool (position : Position) (value : Bool) : IsLiteral (.bool ⟨.bool, position⟩ value)
  | string (position : Position) (value : String) : IsLiteral (.string ⟨.string, position⟩ value)
  | glyph (position : Position) (value : Char) : IsLiteral (.glyph ⟨.glyph, position⟩ value)
  | codepoint (position : Position) (value : Nat) :
    IsLiteral (.codepoint ⟨.codepoint, position⟩ value)
  | null (position : Position) : IsLiteral (.null ⟨.optional .any, position⟩)

/-- The type that a value flows into can take it, as far as the value is known. -/
def Converts (value : Expr) (target : Ty) : Prop :=
  ∃ known, value.staticValue = .ok known ∧ value.type.canConvert target known = true

mutual

/-- How an expression is analyzed. -/
inductive AnalyzesExpr : Scopes → Surface.Expr → State → Expr → State → Prop
  | literal {scopes : Scopes} {written : Surface.Expr} {state : State} {literal : Expr}
      (isLiteral : IsLiteral literal) :
    AnalyzesExpr scopes written state literal state
  | reference {scopes : Scopes} {ident : Surface.Ident} {state : State} {target : Variable}
      (found : scopes.lookup ident.name = some (.value target)) :
    AnalyzesExpr scopes (.name ident) state
      (.reference ⟨⟨target.type, ident.position⟩, target⟩) state
  | function {scopes : Scopes} {ident : Surface.Ident} {state : State} {function : Function}
      (found : scopes.lookup ident.name = some (.function function)) :
    AnalyzesExpr scopes (.name ident) state
      (.function ⟨(state.current function).type, ident.position⟩ (state.current function)) state
  | binary {scopes : Scopes} {position : Position} {operator : BinaryOperator}
      {writtenLeft writtenRight : Surface.Expr} {before middle after : State} {left right : Expr}
      (analyzesLeft : AnalyzesValue scopes writtenLeft before left middle)
      (analyzesRight : AnalyzesValue scopes writtenRight middle right after) :
    AnalyzesExpr scopes (.binary position operator writtenLeft writtenRight) before
      (.binary ⟨resultType operator left.type right.type, position⟩ operator left right) after
  | unary {scopes : Scopes} {position : Position} {operator : UnaryOperator}
      {written : Surface.Expr} {before after : State} {operand : Expr}
      (analyzes : AnalyzesValue scopes written before operand after) :
    AnalyzesExpr scopes (.unary position operator written) before
      (.unary ⟨unaryType operator operand.type, position⟩ operator operand) after
  | addressOf {scopes : Scopes} {position : Position} {ident : Surface.Ident} {state : State}
      {target : Variable} (found : scopes.lookup ident.name = some (.value target)) :
    AnalyzesExpr scopes (.addressOf position (.name ident)) state
      (.addressOf ⟨.pointer target.type, position⟩ ⟨⟨target.type, ident.position⟩, target⟩) state
  | dereference {scopes : Scopes} {position : Position} {written : Surface.Expr}
      {before after : State} {operand : Expr} {target : Ty}
      (analyzes : AnalyzesExpr scopes written before operand after)
      (pointer : operand.type = .pointer target) :
    AnalyzesExpr scopes (.dereference position written) before
      (.dereference ⟨target, position⟩ operand) after
  | subscript {scopes : Scopes} {position : Position} {writtenBase writtenIndex : Surface.Expr}
      {before middle after : State} {base index : Expr} {element : Ty}
      (analyzesBase : AnalyzesValue scopes writtenBase before base middle)
      (analyzesIndex : AnalyzesValue scopes writtenIndex middle index after)
      (isArray : base.type = .array element)
      (inExtent : InExtent after.constants base index) :
    AnalyzesExpr scopes (.subscript position writtenBase writtenIndex) before
      (.subscript ⟨element, position⟩ base index) after
  | call {scopes : Scopes} {callee : Surface.Ident} {written : List Surface.Expr}
      {before after : State} {result : Expr}
      (analyzes : AnalyzesCall scopes callee.position callee written before (.expression result) after) :
    AnalyzesExpr scopes (.call callee written) before result after
  | array {scopes : Scopes} {position : Position} {written : List Surface.Expr}
      {before after : State} {elements : List Expr} {element : Ty}
      (analyzes : AnalyzesExprs scopes .values written before elements after)
      (same : ∀ member ∈ elements, member.type = element) :
    AnalyzesExpr scopes (.array position written) before
      (.array ⟨.array element, position⟩ elements) after
  | conjure {scopes : Scopes} {position : Position} {written : List Surface.Stmt}
      {before after : State} {body : List Stmt}
      (analyzes : AnalyzesBody (scopes.functionBody ⟨before.nextId, "conjure", [], .any, true⟩)
        written (before.numbering 1) body after)
      (returns : containsReturn body = true) :
    AnalyzesExpr scopes (.conjure position written) before
      (.conjure ⟨(after.current ⟨before.nextId, "conjure", [], .any, true⟩).result, position⟩ body)
      after

/-- How an expression in the place of a value is analyzed. -/
inductive AnalyzesValue : Scopes → Surface.Expr → State → Expr → State → Prop
  | value {scopes : Scopes} {written : Surface.Expr} {before after : State} {result : Expr}
      (analyzes : AnalyzesExpr scopes written before result after)
      (isValue : result.type ≠ .void) :
    AnalyzesValue scopes written before result (after.usingValue result)

/-- How arguments that are passed in a given way are analyzed. -/
inductive AnalyzesExprs : Scopes → Passing → List Surface.Expr → State → List Expr → State → Prop
  | nil {scopes : Scopes} {passing : Passing} {state : State} :
    AnalyzesExprs scopes passing [] state [] state
  | into {scopes : Scopes} {parameter : Ty} {parameters : List Ty} {first : Surface.Expr}
      {written : List Surface.Expr} {before middle after : State} {argument : Expr}
      {arguments : List Expr}
      (analyzes : AnalyzesValue scopes first before argument middle)
      (converts : Converts argument parameter)
      (analyzesRest : AnalyzesExprs scopes (.into parameters) written
        (middle.converting parameter argument) arguments after) :
    AnalyzesExprs scopes (.into (parameter :: parameters)) (first :: written) before
      ((if parameter = .any then argument else argument.withType parameter) :: arguments) after
  | value {scopes : Scopes} {first : Surface.Expr} {written : List Surface.Expr}
      {before middle after : State} {argument : Expr} {arguments : List Expr}
      (analyzes : AnalyzesValue scopes first before argument middle)
      (analyzesRest : AnalyzesExprs scopes .values written middle arguments after) :
    AnalyzesExprs scopes .values (first :: written) before (argument :: arguments) after
  | plain {scopes : Scopes} {first : Surface.Expr} {written : List Surface.Expr}
      {before middle after : State} {argument : Expr} {arguments : List Expr}
      (analyzes : AnalyzesExpr scopes first before argument middle)
      (analyzesRest : AnalyzesExprs scopes .plain written middle arguments after) :
    AnalyzesExprs scopes .plain (first :: written) before (argument :: arguments) after

/-- How what is only described is analyzed. -/
inductive AnalyzesDescribed : Scopes → List Surface.Expr → State → State → Prop
  | call {scopes : Scopes} {callee : Surface.Ident} {written : List Surface.Expr}
      {before after : State} {arguments : List Expr}
      (analyzes : AnalyzesExprs scopes .plain written before arguments after) :
    AnalyzesDescribed scopes [.call callee written] before after
  | expression {scopes : Scopes} {written : Surface.Expr} {before after : State} {result : Expr}
      (analyzes : AnalyzesExpr scopes written before result after) :
    AnalyzesDescribed scopes [written] before after

/-- How a call is analyzed. -/
inductive AnalyzesCall :
    Scopes → Position → Surface.Ident → List Surface.Expr → State → Outcome → State → Prop
  | function {scopes : Scopes} {position : Position} {callee : Surface.Ident} {written : List Surface.Expr}
      {before after : State} {function : Function} {arguments : List Expr}
      (found : scopes.lookup callee.name = some (.function function))
      (arity : function.parameters.length = written.length)
      (analyzes : AnalyzesExprs scopes (.into (function.parameters.map Variable.type)) written
        before arguments after) :
    AnalyzesCall scopes position callee written before
      (.expression (.call ⟨(before.current function).result, position⟩
        (.function ⟨(before.current function).type, callee.position⟩ (before.current function))
        arguments)) after
  | reference {scopes : Scopes} {position : Position} {callee : Surface.Ident} {written : List Surface.Expr}
      {before after : State} {target : Variable} {parameters : List Ty} {type : Ty}
      {arguments : List Expr}
      (found : scopes.lookup callee.name = some (.value target))
      (isFunction : target.type = .function parameters type)
      (arity : parameters.length = written.length)
      (analyzes : AnalyzesExprs scopes (.into parameters) written before arguments after) :
    AnalyzesCall scopes position callee written before
      (.expression (.call ⟨type, position⟩
        (.reference ⟨⟨target.type, callee.position⟩, target⟩) arguments)) after
  | typeOf {scopes : Scopes} {position : Position} {callee : Surface.Ident} {written : List Surface.Expr}
      {before after : State} {type : Ty}
      (analyzes : AnalyzesDescribed scopes written before after) :
    AnalyzesCall scopes position callee written before
      (.expression (.typeOf ⟨.string, position⟩ type)) after
  | printed {scopes : Scopes} {position : Position} {callee : Surface.Ident} {written : List Surface.Expr}
      {before after : State} {value : Expr}
      (analyzes : AnalyzesExprs scopes .values written before [value] after) :
    AnalyzesCall scopes position callee written before (.printed value) after
  | apply {scopes : Scopes} {position : Position} {callee : Surface.Ident} {written : List Surface.Expr}
      {before after : State} {mapping items : Expr} {type : Ty}
      (analyzes : AnalyzesExprs scopes .values written before [mapping, items] after) :
    AnalyzesCall scopes position callee written before
      (.expression (.apply ⟨.array type, position⟩ mapping items)) after
  | supplant {scopes : Scopes} {position : Position} {callee : Surface.Ident} {written : List Surface.Expr}
      {before after : State} {text pattern replacement : Expr}
      (analyzes : AnalyzesExprs scopes .values written before [text, pattern, replacement] after) :
    AnalyzesCall scopes position callee written before
      (.expression (.supplant ⟨.string, position⟩ text pattern replacement)) after

/-- How a statement is analyzed. -/
inductive AnalyzesStmt : Region → Surface.Stmt → State → Stmt → Region → State → Prop
  | mainBlock {region : Region} {position blockPosition : Position} {written : List Surface.Stmt}
      {before after : State} {body : List Stmt} (unseen : before.mainSeen = false)
      (analyzes : AnalyzesBody region.scopes.block written { before with mainSeen := true } body after) :
    AnalyzesStmt region (.main position (.block blockPosition written)) before
      (.main position body) region after
  | mainStatement {region opened inner : Region} {position : Position} {written : Surface.Stmt}
      {before middle after : State} {body : Stmt} (unseen : before.mainSeen = false)
      (opens : Opens region.scopes [written] { before with mainSeen := true } opened.scopes
        opened.ahead middle)
      (analyzes : AnalyzesStmt opened written middle body inner after) :
    AnalyzesStmt region (.main position written) before
      (.main position [body]) { region with scopes := inner.scopes } after
  | affix {region : Region} {position : Position} {module symbol : String} {state : State}
      {function : LibraryFunction} {scopes : Scopes}
      (declared : region.scopes.declare .alreadyBound function.name (.library function) position =
        .ok scopes) :
    AnalyzesStmt region (.affix position module symbol) state
      (.affix position function) { region with scopes := scopes } state
  | function {scopes inner : Scopes} {function : Function} {ahead : List Function}
      {position : Position} {name : String} {parameters : List Surface.Parameter}
      {result : Option Surface.TypeSyntax} {written : List Surface.Stmt} {before after : State}
      {body : List Stmt}
      (visible : ∀ other, other ∈ visible inner ↔ other = function ∨ other ∈ visible scopes)
      (named : ∀ entity ∈ entities inner,
        (∃ parameter ∈ function.parameters, entity = .value parameter) ∨ entity ∈ entities scopes)
      (owner : inner.innermost.owner = some function)
      (inLoop : inner.innermost.inLoop = false)
      (analyzes : AnalyzesBody inner written before body after)
      (returns : function.inferred = false → function.result = .void ∨ alwaysReturns body = true) :
    AnalyzesStmt ⟨scopes, function :: ahead⟩ (.function position name parameters result written)
      before
      (.function position ((after.finishing function).current function) body) ⟨scopes, ahead⟩
      (after.finishing function)
  | conjureBinding {scopes : Scopes} {function : Function} {ahead : List Function}
      {position : Position} {name : String} {type : Surface.TypeSyntax}
      {written : List Surface.Stmt} {before after : State} {body : List Stmt}
      (analyzes : AnalyzesBody (scopes.functionBody function) written before body after)
      (returns : function.inferred = false → function.result = .void ∨ containsReturn body = true) :
    AnalyzesStmt ⟨scopes, function :: ahead⟩ (.conjureBinding position name type written) before
      (.function position function body) ⟨scopes, ahead⟩ (after.finishing function)
  | declare {region : Region} {position : Position} {changeable : Bool} {ident : Surface.Ident}
      {type : Option Surface.TypeSyntax} {written : Surface.Expr} {before middle : State}
      {value : Expr} {target : Variable} {scopes : Scopes}
      (analyzes : AnalyzesValue region.scopes written before value middle)
      (id : target.id = middle.nextId)
      (name : target.name = ident.name)
      (converts : Converts value target.type)
      (declared : region.scopes.declare .alreadyDeclared ident.name (.value target) position =
        .ok scopes)
      (kind : target.mutable = changeable) :
    AnalyzesStmt region (.declare position changeable ident type written) before
      (.declare position target value) { region with scopes := scopes }
      ((middle.converting target.type value).declaring changeable value)
  | declareInferred {region : Region} {position : Position} {changeable : Bool}
      {ident : Surface.Ident} {type : Option Surface.TypeSyntax} {written : Surface.Expr}
      {before middle : State} {value : Expr} {target : Variable} {scopes : Scopes}
      (analyzes : AnalyzesValue region.scopes written before value middle)
      (id : target.id = middle.nextId)
      (name : target.name = ident.name)
      (sameType : target.type = value.type)
      (declared : region.scopes.declare .alreadyDeclared ident.name (.value target) position =
        .ok scopes)
      (kind : target.mutable = changeable) :
    AnalyzesStmt region (.declare position changeable ident type written) before
      (.declare position target value) { region with scopes := scopes }
      (middle.declaring changeable value)
  | assign {region : Region} {position : Position} {ident : Surface.Ident}
      {written : Surface.Expr} {before middle : State} {value : Expr} {target : Variable}
      (found : region.scopes.lookup ident.name = some (.value target))
      (changeable : target.mutable = true)
      (analyzes : AnalyzesValue region.scopes written before value middle)
      (converts : Converts value target.type) :
    AnalyzesStmt region (.assign position ident written) before
      (.assign position target value) region (middle.converting target.type value)
  | step {region : Region} {position : Position} {step : Step} {ident : Surface.Ident}
      {state : State} {target : Variable}
      (found : region.scopes.lookup ident.name = some (.value target))
      (changeable : target.mutable = true) :
    AnalyzesStmt region (.step position step ident) state (.step position step target) region state
  | branch {region : Region} {position : Position} {written : Surface.Expr}
      {writtenConsequent writtenAlternative : List Surface.Stmt} {before first second after : State}
      {condition : Expr} {consequent alternative : List Stmt}
      (analyzes : AnalyzesExpr region.scopes written before condition first)
      (isBool : condition.type = .bool)
      (analyzesConsequent : AnalyzesBody region.scopes.block writtenConsequent first consequent second)
      (analyzesAlternative :
        AnalyzesBody region.scopes.block writtenAlternative second alternative after) :
    AnalyzesStmt region (.branch position written writtenConsequent writtenAlternative) before
      (.branch position condition consequent alternative) region after
  | loop {region : Region} {position : Position} {written : Surface.Expr}
      {writtenBody : List Surface.Stmt} {before middle after : State} {condition : Expr}
      {body : List Stmt}
      (analyzes : AnalyzesExpr region.scopes written before condition middle)
      (isBool : condition.type = .bool)
      (analyzesBody : AnalyzesBody region.scopes.loop writtenBody middle body after) :
    AnalyzesStmt region (.loop position written writtenBody) before
      (.loop position condition body) region after
  | breakLoop {region : Region} {position : Position} {state : State}
      (inLoop : region.scopes.innermost.inLoop = true) :
    AnalyzesStmt region (.breakLoop position) state (.breakLoop position) region state
  | returnVoid {region : Region} {position : Position} {state : State} {function : Function}
      (owner : region.scopes.innermost.owner = some function) :
    AnalyzesStmt region (.returnVoid position) state (.returnVoid position) region
      (state.finishing function)
  | returnFirst {region : Region} {position : Position} {written : Surface.Expr}
      {before middle : State} {value : Expr} {function : Function}
      (owner : region.scopes.innermost.owner = some function)
      (analyzes : AnalyzesValue region.scopes written before value middle)
      (pending : middle.isPending function = true) :
    AnalyzesStmt region (.returnValue position written) before (.returnValue position value) region
      (middle.fixing function value.type)
  | returnAgain {region : Region} {position : Position} {written : Surface.Expr}
      {before middle : State} {value : Expr} {function : Function}
      (owner : region.scopes.innermost.owner = some function)
      (analyzes : AnalyzesValue region.scopes written before value middle)
      (known : middle.isPending function = false)
      (hasResult : (middle.current function).result ≠ .void)
      (converts : Converts value (middle.current function).result) :
    AnalyzesStmt region (.returnValue position written) before (.returnValue position value) region
      (middle.converting (middle.current function).result value)
  | exscribe {region : Region} {position : Position} {written : Surface.Expr}
      {before after : State} {value : Expr}
      (analyzes : AnalyzesValue region.scopes written before value after) :
    AnalyzesStmt region (.exscribe position written) before (.exscribe position value) region after
  | evaluate {region : Region} {position : Position} {callee : Surface.Ident}
      {written : List Surface.Expr} {before after : State} {result : Expr}
      (analyzes : AnalyzesCall region.scopes position callee written before (.expression result) after) :
    AnalyzesStmt region (.call position callee written) before (.evaluate position result) region
      after
  | printed {region : Region} {position : Position} {callee : Surface.Ident}
      {written : List Surface.Expr} {before after : State} {value : Expr}
      (analyzes : AnalyzesCall region.scopes position callee written before (.printed value) after) :
    AnalyzesStmt region (.call position callee written) before (.exscribe position value) region
      after
  | block {region : Region} {position : Position} {written : List Surface.Stmt}
      {before after : State} {body : List Stmt}
      (analyzes : AnalyzesBody region.scopes.block written before body after) :
    AnalyzesStmt region (.block position written) before (.block position body) region after

/-- How the statements of a region are analyzed. -/
inductive AnalyzesStmts : Region → List Surface.Stmt → State → List Stmt → State → Prop
  | nil {region : Region} {state : State} : AnalyzesStmts region [] state [] state
  | cons {region inner : Region} {first : Surface.Stmt} {written : List Surface.Stmt}
      {before middle after : State} {statement : Stmt} {rest : List Stmt}
      (analyzes : AnalyzesStmt region first before statement inner middle)
      (analyzesRest : AnalyzesStmts inner written middle rest after) :
    AnalyzesStmts region (first :: written) before (statement :: rest) after

/-- How a list of statements is analyzed. -/
inductive AnalyzesBody : Scopes → List Surface.Stmt → State → List Stmt → State → Prop
  | body {scopes : Scopes} {region : Region} {written : List Surface.Stmt}
      {before middle after : State} {body : List Stmt}
      (opens : Opens scopes written before region.scopes region.ahead middle)
      (analyzes : AnalyzesStmts region written middle body after) :
    AnalyzesBody scopes written before body after

end

theorem AnalyzesExprs.length {scopes : Scopes} {passing : Passing} {written : List Surface.Expr}
    {before after : State} {arguments : List Expr} :
    AnalyzesExprs scopes passing written before arguments after → arguments.length = written.length
  | .nil => rfl
  | .into _ _ rest => by rw [List.length_cons, rest.length, List.length_cons]
  | .value _ rest => by rw [List.length_cons, rest.length, List.length_cons]
  | .plain _ rest => by rw [List.length_cons, rest.length, List.length_cons]

end Analysis

end GlyphCompiler
