/-
# Diagnostics

A diagnostic rejects a program: it has a cause and points at a position of the
source text. Every cause has one category and one wording. Analysis and parsing
stop at the first diagnostic; a fault stops them too, but is not the program's.
-/

import GlyphCompiler.Fault
import GlyphCompiler.Grammar.Symbol
import GlyphCompiler.Operator
import GlyphCompiler.Position
import GlyphCompiler.Text.Quoted
import GlyphCompiler.Ty.Basic

namespace GlyphCompiler

/-- Why a program is rejected. -/
inductive Cause
  -- Syntax.
  | unexpectedEnd
  | unexpectedCharacter (character : Char)
  | unexpectedText (text : String) (expected : List String)
  -- Names and scopes.
  | undeclared (name : String)
  | alreadyDeclared (name : String)
  | alreadyBound (name : String)
  | mainAlreadyDeclared
  | unknownModule (module : String)
  | unknownSymbol (module symbol : String)
  -- Types.
  | unknownType (name : String)
  | functionTypeWithoutResult
  | cannotConvert (source target : Ty)
  | cannotCombine (operator : BinaryOperator) (left right : Ty)
  | cannotApplyOperator (operator : UnaryOperator) (operand : Ty)
  | cannotStep (name : String) (type : Ty)
  | cannotDereference (type : Ty)
  | addressNeedsVariable
  | notACodePoint (text : String)
  | conditionNotBool (type : Ty)
  | mixedElements (first other : Ty)
  | indexNotNumeric (type : Ty)
  | nullNeedsType (name : String)
  | voidValue
  | hasNoValue (name : String)
  | returnsVoid (name : String)
  | mustReturn (name : String) (type : Ty)
  | returnsVoidButValue (name : String)
  | conjureWithParameters (name : String) (type : Ty)
  | libraryFunctionAsValue (name : String)
  | notText (type : Ty)
  | applyNeedsFunction (type : Ty)
  | cannotApplyFunction (function array : Ty)
  -- Assignment.
  | assignToFunction (name : String)
  | assignToConstant (name : String)
  -- Calls.
  | arityMismatch (name : String) (expected actual : Nat)
  | notCallable (name : String) (type : Ty)
  | describedNotCallable (name : String)
  -- Arrays.
  | cannotIndex (type : Ty)
  | applyNeedsArray (type : Ty)
  | negativeIndex (index : String)
  | indexOutOfRange (index : String) (length : Nat)
  -- Control.
  | breakOutsideLoop
  | returnOutsideFunction
  | missingReturn (name : String) (type : Ty)
  | conjureWithoutReturn
  -- Arithmetic.
  | divisionByZero
  deriving DecidableEq, Repr

/-- The categories of causes. -/
inductive Category
  | parseError | undeclaredIdentifier | duplicateDeclaration | duplicateBinding
  | typeMismatch | assignToConstant | unknownType | arityMismatch | notCallable | notAnArray
  | indexOutOfRange | negativeIndex | breakOutsideLoop | returnOutsideFunction
  | missingReturn | divisionByZero | unknownModule | unknownSymbol
  deriving DecidableEq, Repr

namespace Cause

/-- The category of a cause. -/
def category : Cause → Category
  | unexpectedEnd | unexpectedCharacter _ | unexpectedText _ _ => .parseError
  | undeclared _ => .undeclaredIdentifier
  | alreadyDeclared _ | mainAlreadyDeclared => .duplicateDeclaration
  | alreadyBound _ => .duplicateBinding
  | unknownModule _ => .unknownModule
  | unknownSymbol _ _ => .unknownSymbol
  | unknownType _ | functionTypeWithoutResult => .unknownType
  | cannotConvert _ _ | cannotCombine _ _ _ | cannotApplyOperator _ _ | cannotStep _ _
  | cannotDereference _ | addressNeedsVariable | notACodePoint _ | conditionNotBool _
  | mixedElements _ _ | indexNotNumeric _ | nullNeedsType _ | voidValue | hasNoValue _
  | returnsVoid _ | mustReturn _ _ | returnsVoidButValue _ | conjureWithParameters _ _
  | libraryFunctionAsValue _ | notText _ | applyNeedsFunction _ | cannotApplyFunction _ _
  | assignToFunction _ => .typeMismatch
  | assignToConstant _ => .assignToConstant
  | arityMismatch _ _ _ => .arityMismatch
  | notCallable _ _ | describedNotCallable _ => .notCallable
  | cannotIndex _ | applyNeedsArray _ => .notAnArray
  | negativeIndex _ => .negativeIndex
  | indexOutOfRange _ _ => .indexOutOfRange
  | breakOutsideLoop => .breakOutsideLoop
  | returnOutsideFunction => .returnOutsideFunction
  | missingReturn _ _ | conjureWithoutReturn => .missingReturn
  | divisionByZero => .divisionByZero

/-- A name between single quotes. -/
private def quote (name : String) : String := "'" ++ name ++ "'"

/-- The wording of a cause. Of expected terminals, up to six are listed. -/
def message : Cause → String
  | unexpectedEnd => "unexpected end of input"
  | unexpectedCharacter character => "unexpected character " ++ quoted (String.singleton character)
  | unexpectedText text expected =>
    "unexpected " ++ quoted text ++
      if expected.isEmpty || 6 < expected.length then ""
      else ", expected one of " ++ ", ".intercalate expected
  | undeclared name => quote name ++ " is not declared"
  | alreadyDeclared name | alreadyBound name =>
    quote name ++ " is already declared in this scope"
  | mainAlreadyDeclared => "'main' is already declared"
  | unknownModule module => "no library module " ++ quote module
  | unknownSymbol module symbol => "module " ++ quote module ++ " has no symbol " ++ quote symbol
  | unknownType name => "unknown type " ++ quote name
  | functionTypeWithoutResult => "function type with parameters needs '-> R'"
  | cannotConvert source target => "cannot convert " ++ source.name ++ " to " ++ target.name
  | cannotCombine operator left right =>
    "operator " ++ quote operator.sign ++ " cannot combine " ++ left.name ++ " and " ++ right.name
  | cannotApplyOperator operator operand =>
    "operator " ++ quote operator.sign ++ " cannot apply to " ++ operand.name
  | cannotStep name type => "cannot step " ++ quote name ++ " of type " ++ type.name
  | cannotDereference type => "cannot dereference " ++ type.name
  | addressNeedsVariable => "'&' needs a variable operand"
  | notACodePoint text => text ++ " is not a Unicode code point"
  | conditionNotBool type => "condition must be bool, not " ++ type.name
  | mixedElements first other => "array elements mix " ++ first.name ++ " and " ++ other.name
  | indexNotNumeric type => "index must be numeric, not " ++ type.name
  | nullNeedsType name => quote name ++ " needs an optional type to hold null"
  | voidValue => "void expression has no value"
  | hasNoValue name => quote name ++ " has no value"
  | returnsVoid name => quote name ++ " returns void and has no value"
  | mustReturn name type => quote name ++ " must return " ++ type.name
  | returnsVoidButValue name => quote name ++ " returns void but a value is returned"
  | conjureWithParameters name type =>
    "conjure takes no parameters, but " ++ quote name ++ " is annotated " ++ type.name
  | libraryFunctionAsValue name => "library function " ++ quote name ++ " can only be called"
  | notText type => "supplant needs text, not " ++ type.name
  | applyNeedsFunction type => "apply needs a one-parameter function, not " ++ type.name
  | cannotApplyFunction function array =>
    "cannot apply " ++ function.name ++ " to " ++ array.name
  | assignToFunction name => "cannot assign to function " ++ quote name
  | assignToConstant name => "cannot assign to const " ++ quote name
  | arityMismatch name expected actual =>
    quote name ++ " expects " ++ toString expected ++ " argument(s), got " ++ toString actual
  | notCallable name type => quote name ++ " of type " ++ type.name ++ " is not callable"
  | describedNotCallable name => quote name ++ " is not callable"
  | cannotIndex type => "cannot index " ++ type.name
  | applyNeedsArray type => "apply needs an array, not " ++ type.name
  | negativeIndex index => "negative index " ++ index
  | indexOutOfRange index length =>
    "index " ++ index ++ " out of range for length " ++ toString length
  | breakOutsideLoop => "'break' outside of a loop"
  | returnOutsideFunction => "'return' outside of a function"
  | missingReturn name type =>
    quote name ++ " must return " ++ type.name ++ " on every path"
  | conjureWithoutReturn => "conjure body never returns a value"
  | divisionByZero => "division by literal zero"

end Cause

/-- The rejection of a program: its cause, and the position it points at. -/
structure Diagnostic where
  cause : Cause
  position : Position
  deriving DecidableEq, Repr

/-- Why no result was reached: the program is rejected, or a fault. -/
inductive Failure
  | diagnostic (diagnostic : Diagnostic)
  | fault (fault : Fault)
  deriving DecidableEq, Repr

/-- Let a fault fail a computation that may also reject the program. -/
def Failure.ofFault {α : Type} : Except Fault α → Except Failure α
  | .ok value => .ok value
  | .error reason => .error (.fault reason)

/-- Reject a program. -/
def Failure.reject (cause : Cause) (position : Position) : Failure :=
  .diagnostic ⟨cause, position⟩

end GlyphCompiler
