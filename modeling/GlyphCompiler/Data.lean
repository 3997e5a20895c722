/-
# Plain data

A program can be shown as plain data: nulls, truth values, numbers, texts, lists
and records, whose fields stand in order. A node is a record that begins with
its kind; a variable or function is a record of its kind, name and type, however
often it is used.
-/

import GlyphCompiler.Program.Basic

namespace GlyphCompiler

/-- Plain data. -/
inductive Data
  | null
  | bool (value : Bool)
  | number (value : Number)
  | text (value : String)
  | list (elements : List Data)
  | record (fields : List (String × Data))

namespace Data

/-- A natural number. -/
def nat (value : Nat) : Data := .number (.int value)

/-- A position. -/
def position (position : Position) : Data :=
  .record [("line", nat position.line), ("col", nat position.column)]

/-- A type, by its name. -/
def type (type : Ty) : Data := .text type.name

/-- A variable, function or import. -/
def entity (kind name : String) (declaredType : Ty) : Data :=
  .record [("_type", .text kind), ("name", .text name), ("typ", type declaredType)]

/-- A variable. -/
def ofVariable (target : Variable) : Data := entity "Variable" target.name target.type

/-- A function. -/
def ofFunction (target : Function) : Data := entity "Function" target.name target.type

/-- The record of an expression: its kind, type and position, then its own fields. -/
def expression (kind : String) (info : Info) (fields : List (String × Data)) : Data :=
  .record (("_type", .text kind) :: ("typ", type info.type) :: ("loc", position info.position) ::
    fields)

/-- The record of a statement: its kind and position, then its own fields. -/
def statement (kind : String) (place : Position) (fields : List (String × Data)) : Data :=
  .record (("_type", .text kind) :: ("loc", position place) :: fields)

/-- A use of a variable. -/
def ofReference (use : Reference) : Data :=
  expression "VariableReference" use.info [("variable", ofVariable use.target)]

/-- A use of a function. -/
def ofFunctionUse (info : Info) (target : Function) : Data :=
  expression "FunctionReference" info [("function", ofFunction target)]

/-- A callee. -/
def ofCallee : Callee → Data
  | .function info target => ofFunctionUse info target
  | .reference use => ofReference use

end Data

/-- The kind of an expression, as plain data names it. -/
def Expr.kind : Expr → String
  | .number _ _ => "NumericLiteral"
  | .bool _ _ => "BooleanLiteral"
  | .string _ _ => "StringLiteral"
  | .glyph _ _ => "GlyphLiteral"
  | .codepoint _ _ => "CodepointLiteral"
  | .null _ => "NullLiteral"
  | .reference _ => "VariableReference"
  | .function _ _ => "FunctionReference"
  | .binary _ _ _ _ => "BinaryExpression"
  | .unary _ _ _ => "UnaryExpression"
  | .addressOf _ _ => "AddressOf"
  | .dereference _ _ => "Dereference"
  | .call _ _ _ => "FunctionCall"
  | .subscript _ _ _ => "Subscript"
  | .array _ _ => "ArrayExpression"
  | .conjure _ _ => "Conjure"
  | .typeOf _ _ => "TypeOf"
  | .apply _ _ _ => "Apply"
  | .supplant _ _ _ _ => "Supplant"

mutual

/-- An expression as plain data. -/
def Expr.toData : Expr → Data
  | .number info value => .expression "NumericLiteral" info [("value", .number value)]
  | .bool info value => .expression "BooleanLiteral" info [("value", .bool value)]
  | .string info value => .expression "StringLiteral" info [("value", .text value)]
  | .glyph info value =>
    .expression "GlyphLiteral" info [("value", .text (String.singleton value))]
  | .codepoint info value => .expression "CodepointLiteral" info [("value", .nat value)]
  | .null info => .expression "NullLiteral" info []
  | .reference use => .ofReference use
  | .function info target => .ofFunctionUse info target
  | .binary info operator left right =>
    .expression "BinaryExpression" info
      [("op", .text operator.sign), ("left", left.toData), ("right", right.toData)]
  | .unary info operator operand =>
    .expression "UnaryExpression" info
      [("op", .text operator.sign), ("operand", operand.toData)]
  | .addressOf info operand =>
    .expression "AddressOf" info [("operand", .ofReference operand)]
  | .dereference info operand => .expression "Dereference" info [("operand", operand.toData)]
  | .call info callee arguments =>
    .expression "FunctionCall" info
      [("callee", .ofCallee callee), ("args", .list (exprsToData arguments))]
  | .subscript info base index =>
    .expression "Subscript" info [("base", base.toData), ("index", index.toData)]
  | .array info elements =>
    .expression "ArrayExpression" info [("elements", .list (exprsToData elements))]
  | .conjure info body => .expression "Conjure" info [("body", .list (stmtsToData body))]
  | .typeOf info described => .expression "TypeOf" info [("described", .type described)]
  | .apply info mapping items =>
    .expression "Apply" info [("function", mapping.toData), ("array", items.toData)]
  | .supplant info text pattern replacement =>
    .expression "Supplant" info
      [("text", text.toData), ("pattern", pattern.toData), ("replacement", replacement.toData)]

/-- Some expressions as plain data. -/
def exprsToData : List Expr → List Data
  | [] => []
  | expression :: rest => expression.toData :: exprsToData rest

/-- A statement as plain data. -/
def Stmt.toData : Stmt → Data
  | .declare position target value =>
    .statement "VariableDeclaration" position
      [("variable", .ofVariable target), ("value", value.toData), ("mutable", .bool target.mutable)]
  | .function position target body =>
    .statement "FunctionDeclaration" position
      [("function", .ofFunction target), ("body", .list (stmtsToData body)),
        ("params", .list (target.parameters.map .ofVariable))]
  | .main position body => .statement "MainStatement" position [("body", .list (stmtsToData body))]
  | .affix position symbol =>
    .statement "ImportStatement" position
      [("imported", .entity "ImportedFunction" symbol.name symbol.type)]
  | .assign position target value =>
    .statement "Assignment" position [("target", .ofVariable target), ("value", value.toData)]
  | .step position .up target =>
    .statement "Increment" position [("target", .ofVariable target)]
  | .step position .down target =>
    .statement "Decrement" position [("target", .ofVariable target)]
  | .branch position condition consequent alternative =>
    .statement "IfStatement" position
      [("condition", condition.toData), ("consequent", .list (stmtsToData consequent)),
        ("alternative", .list (stmtsToData alternative))]
  | .loop position condition body =>
    .statement "WhileStatement" position
      [("condition", condition.toData), ("body", .list (stmtsToData body))]
  | .breakLoop position => .statement "BreakStatement" position []
  | .returnValue position value =>
    .statement "ReturnStatement" position [("value", value.toData)]
  | .returnVoid position => .statement "ReturnStatement" position [("value", .null)]
  | .exscribe position value =>
    .statement "ExscribeStatement" position [("value", value.toData)]
  | .evaluate position expression =>
    .statement "ExpressionStatement" position [("expression", expression.toData)]
  | .block position body => .statement "Block" position [("body", .list (stmtsToData body))]

/-- Some statements as plain data. -/
def stmtsToData : List Stmt → List Data
  | [] => []
  | statement :: rest => statement.toData :: stmtsToData rest

end

/-- A program as plain data. -/
def Program.toData (program : Program) : Data :=
  .record [("_type", .text "Program"), ("body", .list (stmtsToData program.body)),
    ("loc", .position program.position)]

end GlyphCompiler
