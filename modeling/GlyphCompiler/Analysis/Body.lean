/-
# Analysis of expressions and statements

The analysis goes over the surface syntax once, in the order of the text. Scopes
travel down: an expression only reads them, a statement may add to the
innermost one, which the statements after it see. The functions of a list of
statements are declared before its first statement is analyzed.
-/

import GlyphCompiler.Analysis.Rules
import GlyphCompiler.Program.Returns

namespace GlyphCompiler

namespace Analysis

mutual

/-- Analyze an expression. -/
def expression (scopes : Scopes) : Surface.Expr → Analyzer Expr
  | .integer position text => integerLiteral position text
  | .decimal position text => return .number ⟨.float32, position⟩ (.float (decimalValue text))
  | .string position text => return .string ⟨.string, position⟩ (literalText text)
  | .quoted position text => return quotedLiteral position text
  | .codepoint position text => codepointLiteral position text
  | .bool position value => return .bool ⟨.bool, position⟩ value
  | .null position => return .null ⟨.optional .any, position⟩
  | .name ident => reference scopes ident
  | .binary position operator left right => do
    let left ← useValue (← expression scopes left)
    let right ← useValue (← expression scopes right)
    binary position operator left right
  | .unary position operator operand => do
    unary position operator (← useValue (← expression scopes operand))
  | .addressOf position operand => addressOf scopes position operand
  | .dereference position operand => do dereference position (← expression scopes operand)
  | .subscript position base index => do
    let base ← useValue (← expression scopes base)
    let index ← useValue (← expression scopes index)
    subscript position base index
  | .call callee written => do
    match ← call scopes callee.position callee written.length (described scopes written)
        fun passing => arguments scopes passing written with
    | .expression result => return result
    | .printed _ => reject (.hasNoValue callee.name) callee.position
  | .array position written => do array position (← arguments scopes .values written)
  | .conjure position written => do
    let function : Function := ⟨← freshId, "conjure", [], .any, true⟩
    let body ← statements (← enter (scopes.functionBody function) written) written
    unless containsReturn body do reject .conjureWithoutReturn position
    return .conjure ⟨(← current function).result, position⟩ body

/-- Analyze arguments that are passed in a given way. -/
def arguments (scopes : Scopes) (passing : Passing) : List Surface.Expr → Analyzer (List Expr)
  | [] => return []
  | written :: rest => do
    let argument ← pass passing (← expression scopes written)
    return argument :: (← arguments scopes passing.rest rest)

/-- The type that a library function describes of its argument: of a call, the type
of what is called, and of anything else its own type. -/
def described (scopes : Scopes) : List Surface.Expr → Analyzer Ty
  | [.call callee written] => do
    let type ← describedCallee scopes callee
    let _ ← arguments scopes .plain written
    return type
  | [written] => return (← expression scopes written).type
  | _ => throw (.fault .inconsistent)

/-- Analyze a statement, the first of those that are left of a region. -/
def statement (region : Region) : Surface.Stmt → Analyzer (Stmt × Region)
  | .main position (.block _ written) => do
    beginMain position
    let body ← statements (← enter region.scopes.block written) written
    return (.main position body, region)
  | .main position written => do
    beginMain position
    let (body, inner) ← statement (← enter region.scopes [written]) written
    return (.main position [body], { region with scopes := inner.scopes })
  | .affix position module symbol => affix region position module symbol
  | .function position _ parameters _ written => do
    match region.ahead with
    | [] => throw (.fault .inconsistent)
    | function :: ahead =>
      let scopes ← declareParameters (region.scopes.functionBody function)
        (parameters.zip function.parameters)
      let body ← statements (← enter scopes written) written
      finishFunction function (alwaysReturns body) position
      return (.function position (← current function) body, { region with ahead := ahead })
  | .conjureBinding position _ _ written => do
    match region.ahead with
    | [] => throw (.fault .inconsistent)
    | function :: ahead =>
      let body ← statements (← enter (region.scopes.functionBody function) written) written
      finishFunction function (containsReturn body) position
      return (.function position function body, { region with ahead := ahead })
  | .declare position mutable ident type written => do
    let value ← useValue (← expression region.scopes written)
    declareVariable region position mutable ident type value
  | .assign position ident written => do
    let target ← assignable region.scopes ident
    let value ← useValue (← expression region.scopes written)
    checkConvert value target.type position
    return (.assign position target value, region)
  | .step position step ident => return (← stepVariable region.scopes position step ident, region)
  | .branch position condition consequent alternative => do
    let condition ← checkCondition (← expression region.scopes condition)
    let consequent ← statements (← enter region.scopes.block consequent) consequent
    let alternative ← statements (← enter region.scopes.block alternative) alternative
    return (.branch position condition consequent alternative, region)
  | .loop position condition written => do
    let condition ← checkCondition (← expression region.scopes condition)
    let body ← statements (← enter region.scopes.loop written) written
    return (.loop position condition body, region)
  | .breakLoop position => return (← breakLoop region.scopes position, region)
  | .returnVoid position => return (← returnVoid region.scopes position, region)
  | .returnValue position written => do
    let function ← returningFunction region.scopes position
    let value ← useValue (← expression region.scopes written)
    return (← returnValue function position value, region)
  | .exscribe position written => do
    let value ← useValue (← expression region.scopes written)
    return (.exscribe position value, region)
  | .call position callee written => do
    match ← call region.scopes position callee written.length (described region.scopes written)
        fun passing => arguments region.scopes passing written with
    | .expression result => return (.evaluate position result, region)
    | .printed value => return (.exscribe position value, region)
  | .block position written => do
    let body ← statements (← enter region.scopes.block written) written
    return (.block position body, region)

/-- Analyze the statements of a region. -/
def statements (region : Region) : List Surface.Stmt → Analyzer (List Stmt)
  | [] => return []
  | written :: rest => do
    let (first, region) ← statement region written
    return first :: (← statements region rest)

end

end Analysis

end GlyphCompiler
