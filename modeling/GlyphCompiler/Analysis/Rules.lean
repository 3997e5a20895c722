/-
# The rules of analysis

Each rule judges one construct whose parts have been analyzed, and gives it a
type. The order of the checks within a rule is the order in which a program
with several faults learns of them.
-/

import GlyphCompiler.Analysis.Extent
import GlyphCompiler.Analysis.State
import GlyphCompiler.Analysis.Types
import GlyphCompiler.Text.DecimalDigit
import GlyphCompiler.Text.Escape

namespace GlyphCompiler

namespace Analysis

open Surface (Ident)

/-! ## Values and conversion -/

/-- Is a type numeric, or does it leave that open? -/
def numericOrAny (type : Ty) : Bool := type == .any || type.isNumeric

/-- Is a type `bool`, or does it leave that open? -/
def boolOrAny (type : Ty) : Bool := type == .any || type == .bool

/-- Is a type one of the text types, or does it leave that open? -/
def textOrAny (type : Ty) : Bool := type == .any || type.isText

/-- An expression in the place of a value. What calls a function whose result is not
known yet is judged later; what is known to have no value is refused. -/
def useValue (expression : Expr) : Analyzer Expr := do
  match expression with
  | .call info (.function _ function) _ =>
    if ← isPending function then defer info.position function none
  | _ => pure ()
  if expression.type = .void then reject .voidValue expression.position
  return expression

/-- Let a value flow into a type. The conversion of a function whose result is not
known yet is judged again later. -/
def checkConvert (value : Expr) (target : Ty) (position : Position) : Analyzer Unit := do
  match value with
  | .function info function =>
    if ← isPending function then defer info.position function (some target)
  | _ => pure ()
  let known ← orFault value.staticValue
  unless value.type.canConvert target known do
    reject (.cannotConvert value.type target) position

/-- An expression in the place of a condition. -/
def checkCondition (condition : Expr) : Analyzer Expr := do
  unless condition.type = .bool do
    reject (.conditionNotBool condition.type) condition.position
  return condition

/-! ## Literals and names -/

/-- A whole literal, of the narrowest type that holds it. -/
def integerLiteral (position : Position) (text : String) : Analyzer Expr := do
  if Number.digitLimit < text.length then throw (.fault .tooManyDigits)
  let value : Int := DecimalDigit.number text.toList
  return .number ⟨.ofInt value, position⟩ (.int value)

/-- The floating-point number nearest to a decimal with a point. -/
def decimalValue (text : String) : Float :=
  let whole := text.toList.takeWhile (· != '.')
  let places := text.toList.drop (whole.length + 1)
  Binary64.nearest false (DecimalDigit.number (whole ++ places)) (Nat.pow 10 places.length)

/-- The number that a run of hexadecimal digits spells. -/
def hexNumber (digits : List Char) : Nat :=
  digits.foldl (fun total digit =>
    16 * total +
      if digit.isDigit then digit.toNat - '0'.toNat
      else if digit.isUpper then digit.toNat - 'A'.toNat + 10
      else digit.toNat - 'a'.toNat + 10) 0

/-- The greatest code point. -/
def greatestCodePoint : Nat := 0x10FFFF

/-- A code point literal. -/
def codepointLiteral (position : Position) (text : String) : Analyzer Expr := do
  let value := hexNumber (text.toList.drop 2)
  if greatestCodePoint < value then reject (.notACodePoint text) position
  return .codepoint ⟨.codepoint, position⟩ value

/-- A literal in single quotes: a glyph if it is one character, otherwise a string. -/
def quotedLiteral (position : Position) (text : String) : Expr :=
  match (literalText text).toList with
  | [character] => .glyph ⟨.glyph, position⟩ character
  | _ => .string ⟨.string, position⟩ (literalText text)

/-- What a name means. -/
def lookup (scopes : Scopes) (name : String) (position : Position) : Analyzer Entity :=
  match scopes.lookup name with
  | some entity => return entity
  | none => reject (.undeclared name) position

/-- A name in an expression. -/
def reference (scopes : Scopes) (ident : Ident) : Analyzer Expr := do
  match ← lookup scopes ident.name ident.position with
  | .value target => return .reference ⟨⟨target.type, ident.position⟩, target⟩
  | .function function =>
    let function ← current function
    return .function ⟨function.type, ident.position⟩ function
  | .library _ => reject (.libraryFunctionAsValue ident.name) ident.position

/-- A name that is assigned to. -/
def assignable (scopes : Scopes) (ident : Ident) : Analyzer Variable := do
  match ← lookup scopes ident.name ident.position with
  | .value target =>
    unless target.mutable do reject (.assignToConstant ident.name) ident.position
    return target
  | _ => reject (.assignToFunction ident.name) ident.position

/-! ## Operators -/

/-- Two operands and an operator between them. -/
def binary (position : Position) (operator : BinaryOperator) (left right : Expr) :
    Analyzer Expr := do
  let leftValue ← orFault left.staticValue
  let rightValue ← orFault right.staticValue
  let compatible := left.type.areCompatible right.type leftValue rightValue
  let numeric := numericOrAny left.type && numericOrAny right.type
  let (accepted, result) :=
    if operator.isLogical then (boolOrAny left.type && boolOrAny right.type, Ty.bool)
    else if operator.isEquality then (compatible, .bool)
    else if operator.isOrder then (numeric && compatible, .bool)
    else if operator = .add && (left.type.isText || right.type.isText) then
      (textOrAny left.type && textOrAny right.type, .string)
    else (numeric && compatible, if left.type = .any then right.type else left.type)
  if operator = .div || operator = .rem then
    if rightValue.number?.any Number.isZero then reject .divisionByZero position
  unless accepted do reject (.cannotCombine operator left.type right.type) position
  return .binary ⟨result, position⟩ operator left right

/-- An operand and an operator before it. -/
def unary (position : Position) (operator : UnaryOperator) (operand : Expr) : Analyzer Expr := do
  let (accepted, result) := match operator with
    | .neg => (numericOrAny operand.type, operand.type)
    | .not => (boolOrAny operand.type, Ty.bool)
  unless accepted do reject (.cannotApplyOperator operator operand.type) position
  return .unary ⟨result, position⟩ operator operand

/-- The address of an operand, which must be the name of a variable. -/
def addressOf (scopes : Scopes) (position : Position) (operand : Surface.Expr) :
    Analyzer Expr := do
  match operand with
  | .name ident =>
    match ← reference scopes ident with
    | .reference use => return .addressOf ⟨.pointer use.info.type, position⟩ use
    | _ => reject .addressNeedsVariable position
  | _ => reject .addressNeedsVariable position

/-- What a pointer points to. -/
def dereference (position : Position) (operand : Expr) : Analyzer Expr :=
  match operand.type with
  | .pointer target => return .dereference ⟨target, position⟩ operand
  | type => reject (.cannotDereference type) position

/-! ## Arrays -/

/-- An element of an array. An index whose value is known must not be negative, nor
past the end of an array of known extent. -/
def subscript (position : Position) (base index : Expr) : Analyzer Expr := do
  match base.type with
  | .array element =>
    unless numericOrAny index.type do reject (.indexNotNumeric index.type) position
    if let .number place ← orFault index.staticValue then
      if place.isNegative then
        reject (.negativeIndex (← orFault place.text)) position
      if let some length ← orFault (extent (← get).constants base) then
        if (Number.int length).le place then
          reject (.indexOutOfRange (← orFault place.text) length) position
    return .subscript ⟨element, position⟩ base index
  | type => reject (.cannotIndex type) position

/-- An array literal. All elements are of one type; without any that type is open. -/
def array (position : Position) : List Expr → Analyzer Expr
  | [] => return .array ⟨.array .any, position⟩ []
  | first :: rest => do
    for element in rest do
      unless element.type = first.type do
        reject (.mixedElements first.type element.type) element.position
    return .array ⟨.array first.type, position⟩ (first :: rest)

/-! ## Calls -/

/-- What is called: something with parameters and a result, or a library function. -/
inductive Called
  | callee (callee : Callee) (parameters : List Ty) (result : Ty)
  | library (symbol : LibraryFunction)

/-- What a call comes to: a printed value, or an expression. -/
inductive Outcome
  | printed (value : Expr)
  | expression (expression : Expr)

/-- How arguments are passed: each into the type of its parameter, each as a value,
or as they are. -/
inductive Passing
  | into (parameters : List Ty)
  | values
  | plain

/-- Check the number of arguments. -/
def checkArity (name : String) (expected actual : Nat) (position : Position) : Analyzer Unit :=
  unless expected = actual do reject (.arityMismatch name expected actual) position

/-- Find what is called, and check the number of its arguments. -/
def findCalled (scopes : Scopes) (position : Position) (callee : Ident) (count : Nat) :
    Analyzer Called := do
  match ← lookup scopes callee.name position with
  | .library symbol =>
    checkArity symbol.name symbol.arity count position
    return .library symbol
  | .function function =>
    let function ← current function
    checkArity callee.name function.parameters.length count position
    return .callee (.function ⟨function.type, callee.position⟩ function)
      (function.parameters.map Variable.type) function.result
  | .value target =>
    match target.type with
    | .function parameters result =>
      checkArity callee.name parameters.length count position
      return .callee (.reference ⟨⟨target.type, callee.position⟩, target⟩) parameters result
    | type => reject (.notCallable callee.name type) position

/-- Pass one argument. Whatever flows into a parameter takes the type of the
parameter, unless that is open. -/
def pass (passing : Passing) (argument : Expr) : Analyzer Expr := do
  match passing with
  | .into [] => throw (.fault .inconsistent)
  | .into (parameter :: _) =>
    let argument ← useValue argument
    checkConvert argument parameter argument.position
    return if parameter = .any then argument else argument.withType parameter
  | .values => useValue argument
  | .plain => return argument

/-- How the arguments after the first are passed. -/
def Passing.rest : Passing → Passing
  | .into parameters => .into parameters.tail
  | passing => passing

/-- A function applied to the elements of an array. -/
def apply (position : Position) (mapping items : Expr) : Analyzer Expr := do
  match items.type with
  | .array element =>
    match mapping.type with
    | .primitive .any => return .apply ⟨.array .any, position⟩ mapping items
    | .function [parameter] result =>
      unless element.canConvert parameter .unknown do
        reject (.cannotApplyFunction mapping.type items.type) position
      return .apply ⟨.array result, position⟩ mapping items
    | type => reject (.applyNeedsFunction type) position
  | type => reject (.applyNeedsArray type) position

/-- A text with a pattern replaced. -/
def supplant (position : Position) (text pattern replacement : Expr) : Analyzer Expr := do
  for part in [text, pattern, replacement] do
    unless textOrAny part.type do reject (.notText part.type) part.position
  return .supplant ⟨.string, position⟩ text pattern replacement

/-- A call of a library function with given arguments. The type that is described of
its argument is found elsewhere. -/
def callLibrary (position : Position) (symbol : LibraryFunction) (arguments : List Expr) :
    Analyzer Outcome := do
  match symbol.intrinsic, arguments with
  | .exscribe, [value] => return .printed value
  | .apply, [mapping, items] => return .expression (← apply position mapping items)
  | .supplant, [text, pattern, replacement] =>
    return .expression (← supplant position text pattern replacement)
  | _, _ => throw (.fault .inconsistent)

/-- The type of what is called in the argument of a description. -/
def describedCallee (scopes : Scopes) (callee : Ident) : Analyzer Ty := do
  match ← lookup scopes callee.name callee.position with
  | .function function => return (← current function).type
  | .library symbol => return symbol.type
  | .value target =>
    unless target.type.isFunction do
      reject (.describedNotCallable callee.name) callee.position
    return target.type

/-- A call. How its arguments are analyzed depends on what is called; the type that
is described of an argument is found without passing it. -/
def call (scopes : Scopes) (position : Position) (callee : Ident) (count : Nat)
    (described : Analyzer Ty) (arguments : Passing → Analyzer (List Expr)) :
    Analyzer Outcome := do
  match ← findCalled scopes position callee count with
  | .callee callee parameters result =>
    return .expression (.call ⟨result, position⟩ callee (← arguments (.into parameters)))
  | .library symbol =>
    match symbol.intrinsic with
    | .typeOf => return .expression (.typeOf ⟨.string, position⟩ (← described))
    | _ => callLibrary position symbol (← arguments .values)

/-! ## Functions -/

/-- The parameters of a function as variables. -/
def parameters : List Surface.Parameter → Analyzer (List Variable)
  | [] => return []
  | parameter :: rest => do
    let type ← orReject parameter.type.resolve
    let target : Variable := ⟨← freshId, parameter.ident.name, type, true⟩
    return target :: (← parameters rest)

/-- The function that a statement declares, if it declares one. -/
def declared : Surface.Stmt → Analyzer (Option (Position × Function))
  | .function position name written result _ => do
    let parameters ← parameters written
    let type ← result.mapM fun type => orReject type.resolve
    return some (position, ⟨← freshId, name, parameters, type.getD .any, type.isNone⟩)
  | .conjureBinding position name written _ => do
    let type ← orReject written.resolve
    let result ← match type with
      | .function [] result => pure result
      | .function _ _ => reject (.conjureWithParameters name type) position
      | type => pure type
    return some (position, ⟨← freshId, name, [], result, false⟩)
  | _ => return none

/-- Statements being analyzed: the scopes around them, and the functions that they
declare and that have not been reached yet, in order. -/
structure Region where
  scopes : Scopes
  ahead : List Function

/-- Declare the functions of some statements, which may be used before they are reached. -/
def declareAhead (region : Region) : List Surface.Stmt → Analyzer Region
  | [] => return region
  | statement :: rest => do
    match ← declared statement with
    | none => declareAhead region rest
    | some (position, function) =>
      let scopes ← orReject
        (region.scopes.declare .alreadyDeclared function.name (.function function) position)
      declareAhead ⟨scopes, region.ahead ++ [function]⟩ rest

/-- Begin a list of statements. -/
def enter (scopes : Scopes) (body : List Surface.Stmt) : Analyzer Region :=
  declareAhead ⟨scopes, []⟩ body

/-- Declare the parameters of a function in the scope of its body. -/
def declareParameters (scopes : Scopes) :
    List (Surface.Parameter × Variable) → Analyzer Scopes
  | [] => return scopes
  | (written, target) :: rest => do
    let scopes ← orReject
      (scopes.declare .alreadyDeclared target.name (.value target) written.ident.position)
    declareParameters scopes rest

/-- End a function. Without a `return` an inferred function is void. A function with a
declared result must return, on every path or somewhere. -/
def finishFunction (function : Function) (returns : Bool) (position : Position) :
    Analyzer Unit := do
  if function.inferred then
    if ← isPending function then fixResult function .void
  else unless function.result = .void || returns do
    reject (.missingReturn function.name function.result) position

/-- The function that a `return` belongs to. -/
def returningFunction (scopes : Scopes) (position : Position) : Analyzer Function :=
  match scopes.innermost.owner with
  | some function => return function
  | none => reject .returnOutsideFunction position

/-- A `return` without a value. -/
def returnVoid (scopes : Scopes) (position : Position) : Analyzer Stmt := do
  let function ← returningFunction scopes position
  if ← isPending function then fixResult function .void
  else
    let function ← current function
    unless function.result = .void || function.result = .any do
      reject (.mustReturn function.name function.result) position
  return .returnVoid position

/-- A `return` of a value from a function. The first one fixes an inferred result. -/
def returnValue (function : Function) (position : Position) (value : Expr) : Analyzer Stmt := do
  if ← isPending function then fixResult function value.type
  else
    let function ← current function
    if function.result = .void then reject (.returnsVoidButValue function.name) position
    checkConvert value function.result position
  return .returnValue position value

/-! ## Other statements -/

/-- Declare a variable with its first value. -/
def declareVariable (region : Region) (position : Position) (mutable : Bool) (ident : Ident)
    (written : Option Surface.TypeSyntax) (value : Expr) : Analyzer (Stmt × Region) := do
  let type ← match written, value with
    | some written, value => do
      let type ← orReject written.resolve
      checkConvert value type position
      pure type
    | none, .null _ => reject (.nullNeedsType ident.name) position
    | none, value => pure value.type
  let target : Variable := ⟨← freshId, ident.name, type, mutable⟩
  let scopes ← orReject
    (region.scopes.declare .alreadyDeclared target.name (.value target) position)
  unless mutable do
    modify fun state => { state with constants := (target.id, value) :: state.constants }
  return (.declare position target value, { region with scopes := scopes })

/-- Import a library function. -/
def affix (region : Region) (position : Position) (module symbol : String) :
    Analyzer (Stmt × Region) := do
  unless Library.hasModule module do reject (.unknownModule module) position
  match Library.find? module symbol with
  | none => reject (.unknownSymbol module symbol) position
  | some function =>
    let scopes ← orReject
      (region.scopes.declare .alreadyBound function.name (.library function) position)
    return (.affix position function, { region with scopes := scopes })

/-- Step a counter. -/
def stepVariable (scopes : Scopes) (position : Position) (step : Step) (ident : Ident) :
    Analyzer Stmt := do
  let target ← assignable scopes ident
  unless numericOrAny target.type do reject (.cannotStep target.name target.type) position
  return .step position step target

/-- Leave a loop. -/
def breakLoop (scopes : Scopes) (position : Position) : Analyzer Stmt := do
  unless scopes.innermost.inLoop do reject .breakOutsideLoop position
  return .breakLoop position

/-- There is one `main` for all programs of an analyzer. -/
def beginMain (position : Position) : Analyzer Unit := do
  if (← get).mainSeen then reject .mainAlreadyDeclared position
  modify fun state => { state with mainSeen := true }

end Analysis

end GlyphCompiler
