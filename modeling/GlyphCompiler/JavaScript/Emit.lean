/-
# JavaScript of programs

Every variable and function gets a name of its own when it is first written: the
name that it has in the program and a number, counted up over everything that
the emitter writes. So names never collide, whatever is shadowed or reserved.

A statement becomes lines, each with its depth of indentation. A body in the
place of an expression is written on one line.
-/

import GlyphCompiler.JavaScript.Literal
import GlyphCompiler.Program.Basic

namespace GlyphCompiler

namespace JavaScript

/-- The names given so far, by the number of the variable or function, the latest first. -/
structure Names where
  given : List (Nat × String)

/-- No names yet. -/
def Names.none : Names := ⟨[]⟩

/-- A step of writing: it may name things, and may fault. -/
abbrev Emitter := StateT Names (Except Fault)

/-- A line and its depth of indentation. -/
structure Line where
  depth : Nat
  text : String

/-- The text of a line. -/
def Line.render (line : Line) : String :=
  String.ofList (List.replicate (2 * line.depth) ' ') ++ line.text

/-- The name of what has a number, given now if it has none yet. -/
def nameOf (id : Nat) (name : String) : Emitter String := do
  let names ← get
  match names.given.lookup id with
  | some given => return given
  | none =>
    let given := name ++ "_" ++ toString (names.given.length + 1)
    set (⟨(id, given) :: names.given⟩ : Names)
    return given

/-- The name of a variable. -/
def variableName (target : Variable) : Emitter String :=
  nameOf target.id target.name

/-- The name of a function. -/
def functionName (target : Function) : Emitter String :=
  nameOf target.id target.name

/-- The names of some variables in order. -/
def variableNames : List Variable → Emitter (List String)
  | [] => return []
  | first :: rest => do
    let name ← variableName first
    return name :: (← variableNames rest)

/-- A callee. -/
def calleeText : Callee → Emitter String
  | .function _ target => functionName target
  | .reference use => variableName use.target

/-- The sign of an operator. Equality is written so that it does not convert. -/
def operatorText : BinaryOperator → String
  | .eq => "==="
  | .ne => "!=="
  | operator => operator.sign

mutual

/-- The text of an expression. -/
def expressionText : Expr → Emitter String
  | .number _ value => numberLiteral value
  | .bool _ value => return if value then "true" else "false"
  | .string _ value => return stringLiteral value
  | .glyph _ value => return stringLiteral (String.singleton value)
  | .codepoint _ value => return toString value
  | .null _ => return "null"
  | .reference use => variableName use.target
  | .function _ target => functionName target
  | .binary _ operator left right => do
    let left ← expressionText left
    let right ← expressionText right
    return "(" ++ left ++ " " ++ operatorText operator ++ " " ++ right ++ ")"
  | .unary _ operator operand => do
    return "(" ++ operator.sign ++ (← expressionText operand) ++ ")"
  | .addressOf _ operand => do
    return "(() => (\x7b value: " ++ (← variableName operand.target) ++ " \x7d))()"
  | .dereference _ operand => do return (← expressionText operand) ++ ".value"
  | .call _ callee arguments => do
    let callee ← calleeText callee
    return callee ++ "(" ++ ", ".intercalate (← expressionTexts arguments) ++ ")"
  | .subscript _ base index => do
    let base ← expressionText base
    return base ++ "[" ++ (← expressionText index) ++ "]"
  | .array _ elements => do return "[" ++ ",".intercalate (← expressionTexts elements) ++ "]"
  | .conjure _ body => do
    let lines ← bodyLines 0 body
    return "(() => \x7b " ++ " ".intercalate (lines.map Line.text) ++ " \x7d)()"
  | .typeOf _ described => return stringLiteral described.name
  | .apply _ mapping items => do
    let items ← expressionText items
    return items ++ ".map(" ++ (← expressionText mapping) ++ ")"
  | .supplant _ text pattern replacement => do
    let text ← expressionText text
    let pattern ← expressionText pattern
    return text ++ ".replaceAll(" ++ pattern ++ ", " ++ (← expressionText replacement) ++ ")"

/-- The texts of some expressions in order. -/
def expressionTexts : List Expr → Emitter (List String)
  | [] => return []
  | first :: rest => do
    let text ← expressionText first
    return text :: (← expressionTexts rest)

/-- The lines of a statement. `opening` begins a conditional: its own keyword, or what
chains it to the conditional before it. -/
def statementLines (depth : Nat) (opening : String) : Stmt → Emitter (List Line)
  | .declare _ target value => do
    let name ← variableName target
    let keyword := if target.mutable then "let " else "const "
    return [⟨depth, keyword ++ name ++ " = " ++ (← expressionText value) ++ ";"⟩]
  | .function _ target body => do
    let name ← functionName target
    let parameters ← variableNames target.parameters
    let lines ← bodyLines (depth + 1) body
    return ⟨depth, "function " ++ name ++ "(" ++ ", ".intercalate parameters ++ ") \x7b"⟩ ::
      (lines ++ [⟨depth, "\x7d"⟩])
  | .main _ body => bodyLines depth body
  | .affix _ _ => return []
  | .assign _ target value => do
    let name ← variableName target
    return [⟨depth, name ++ " = " ++ (← expressionText value) ++ ";"⟩]
  | .step _ .up target => do return [⟨depth, (← variableName target) ++ "++;"⟩]
  | .step _ .down target => do return [⟨depth, (← variableName target) ++ "--;"⟩]
  | .branch _ condition consequent alternative => do
    let condition ← expressionText condition
    let consequent ← bodyLines (depth + 1) consequent
    let rest ← match alternative with
      | [] => pure [⟨depth, "\x7d"⟩]
      -- A conditional alone is chained, and closes for both.
      | [only] =>
        match only with
        | .branch _ _ _ _ => statementLines depth "\x7d else if" only
        | _ => do
          let lines ← statementLines (depth + 1) "if" only
          pure (⟨depth, "\x7d else \x7b"⟩ :: (lines ++ [⟨depth, "\x7d"⟩]))
      | several => do
        let lines ← bodyLines (depth + 1) several
        pure (⟨depth, "\x7d else \x7b"⟩ :: (lines ++ [⟨depth, "\x7d"⟩]))
    return ⟨depth, opening ++ " (" ++ condition ++ ") \x7b"⟩ :: (consequent ++ rest)
  | .loop _ condition body => do
    let condition ← expressionText condition
    let lines ← bodyLines (depth + 1) body
    return ⟨depth, "while (" ++ condition ++ ") \x7b"⟩ :: (lines ++ [⟨depth, "\x7d"⟩])
  | .breakLoop _ => return [⟨depth, "break;"⟩]
  | .returnValue _ value => do return [⟨depth, "return " ++ (← expressionText value) ++ ";"⟩]
  | .returnVoid _ => return [⟨depth, "return;"⟩]
  | .exscribe _ value => do
    return [⟨depth, "console.log(" ++ (← expressionText value) ++ ");"⟩]
  | .evaluate _ expression => do return [⟨depth, (← expressionText expression) ++ ";"⟩]
  | .block _ body => do
    let lines ← bodyLines (depth + 1) body
    return ⟨depth, "\x7b"⟩ :: (lines ++ [⟨depth, "\x7d"⟩])

/-- The lines of some statements. -/
def bodyLines (depth : Nat) : List Stmt → Emitter (List Line)
  | [] => return []
  | first :: rest => do
    let lines ← statementLines depth "if" first
    return lines ++ (← bodyLines depth rest)

end

/-- Write a program. -/
def emit (program : Program) : Emitter String := do
  return "\n".intercalate ((← bodyLines 0 program.body).map Line.render)

/-- Write a program with an emitter that has written nothing before. -/
def generate (program : Program) : Except Fault String :=
  (emit program).run' .none

end JavaScript

end GlyphCompiler
