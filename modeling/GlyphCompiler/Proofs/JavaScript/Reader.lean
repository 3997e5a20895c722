/-
# A reader of written texts

The reader takes one token after another. It keeps what it has begun to read as a
stack of frames, the innermost first, and what it expects next. An expression that
has been read may still grow: by a member, a subscript, a call, or the rest of a
numeral. A conditional that has been read is opened again by the `else` after it. So
the reader never looks ahead, and never back at a token that it has taken.
-/

import GlyphCompiler.Proofs.JavaScript.Bare

namespace GlyphCompiler

namespace JavaScript

/-! ## Words -/

/-- The words that the emitter writes by itself. -/
inductive Keyword
  | truth | falsity | null
  | value | map | replaceAll
  | binding | constant | function
  | conditional | otherwise | loop | leave | result
  | console | log
  deriving DecidableEq, Repr

namespace Keyword

/-- Every keyword, once. -/
def all : List Keyword :=
  [truth, falsity, null, value, map, replaceAll, binding, constant, function, conditional,
    otherwise, loop, leave, result, console, log]

/-- The text of a keyword. -/
def text : Keyword → String
  | truth => "true"
  | falsity => "false"
  | null => "null"
  | value => "value"
  | map => "map"
  | replaceAll => "replaceAll"
  | binding => "let"
  | constant => "const"
  | function => "function"
  | conditional => "if"
  | otherwise => "else"
  | loop => "while"
  | leave => "break"
  | result => "return"
  | console => "console"
  | log => "log"

/-- The keyword of some letters. -/
def ofLetters? (letters : List Char) : Option Keyword :=
  all.find? fun keyword => keyword.text.toList == letters

end Keyword

/-- A token as the reader takes it. -/
inductive Lexeme
  | mark (character : Char)
  | text (content : String)
  | name (name : String)
  | keyword (keyword : Keyword)
  /-- A word that is a part of a numeral, or that stands in the place of one. -/
  | part (letters : List Char)
  deriving DecidableEq, Repr

/-- The text that some characters stand for in a string literal. -/
def unescape : List Char → List Char
  | [] => []
  | '\\' :: 'x' :: _ :: _ :: rest => '\x00' :: unescape rest
  | '\\' :: 'u' :: _ :: _ :: _ :: '8' :: rest => '\u2028' :: unescape rest
  | '\\' :: 'u' :: _ :: _ :: _ :: _ :: rest => '\u2029' :: unescape rest
  | '\\' :: 'n' :: rest => '\n' :: unescape rest
  | '\\' :: 't' :: rest => '\t' :: unescape rest
  | '\\' :: 'r' :: rest => '\r' :: unescape rest
  | '\\' :: 'f' :: rest => '\x0c' :: unescape rest
  | '\\' :: 'v' :: rest => '\x0b' :: unescape rest
  | '\\' :: character :: rest => character :: unescape rest
  | character :: rest => character :: unescape rest

/-- How the reader takes a token. Names are told by their mark. -/
def Token.lexeme : Token → Lexeme
  | .mark character => .mark character
  | .text content => .text (String.ofList (unescape content))
  | .word letters =>
    if '_' ∈ letters then .name (String.ofList letters)
    else
      match Keyword.ofLetters? letters with
      | some keyword => .keyword keyword
      | none => .part letters

/-- The letters of a word. -/
def Token.letters : Token → String
  | .word letters => String.ofList letters
  | .text _ | .mark _ => ""

theorem lexeme_keyword (keyword : Keyword) :
    (Token.ofString keyword.text).lexeme = .keyword keyword := by
  cases keyword <;> decide +kernel

theorem lexeme_name {name : String} (marked : '_' ∈ name.toList) :
    (Token.ofString name).lexeme = .name name := by
  rw [Token.ofString, Token.lexeme, if_pos marked, String.ofList_toList]

/-! ## The state of the reader -/

/-- An expression that has been read. A numeral keeps its tokens, since more of them may follow. -/
inductive Item
  | numeral (tokens : List Token)
  | expression (expression : BareExpr)

/-- What has been begun and not ended. -/
inductive Frame
  /-- A parenthesis, until what stands in it tells what it is. -/
  | paren
  /-- An operator with its left operand, and the signs of it so far. -/
  | operator (left : BareExpr) (signs : List Char)
  /-- What one more expression completes. -/
  | wrap (build : BareExpr → BareExpr)
  /-- What some expressions complete, and those of them that have been read. -/
  | items (build : List BareExpr → BareExpr) (read : List BareExpr)
  /-- A statement that one more expression completes. -/
  | ending (build : BareExpr → BareStmt)
  /-- A statement that begins with an expression. -/
  | beginning
  /-- A condition before a body. -/
  | guard (build : BareExpr → List BareStmt → BareStmt)
  /-- Some statements, and those of them that have been read. -/
  | body (read : List BareStmt)
  /-- A statement that a body completes. -/
  | owner (build : List BareStmt → BareStmt)
  /-- A body in the place of an expression. -/
  | conjure
  /-- A conditional whose other branch is the conditional that is chained to it. -/
  | chain (condition : BareExpr) (consequent : List BareStmt)

/-- What the reader expects. -/
inductive Focus
  /-- An expression. -/
  | expression
  /-- What makes an expression grow, or ends it. -/
  | rest (item : Item)
  /-- The sign of the exponent of a numeral. -/
  | sign (tokens : List Token)
  /-- The digits of the exponent of a numeral. -/
  | exponent (tokens : List Token)
  /-- A member of what has been read. -/
  | member (item : Item)
  /-- The body of a function without parameters. -/
  | arrow
  /-- The name of a variable whose address is taken. -/
  | address
  /-- A statement, or the end of the body. -/
  | statement
  /-- The name of a variable that is declared. -/
  | declare (isMutable : Bool)
  /-- The name of a function that is declared. -/
  | function
  /-- The parameters of a function. -/
  | parameters (name : String) (parameters : List String)
  /-- The other branch of a conditional. -/
  | otherwise (condition : BareExpr) (consequent : List BareStmt)
  /-- Some tokens that tell nothing. -/
  | ignore (count : Nat) (next : Focus)

/-- Where the reader stands. -/
structure Reader where
  focus : Focus
  frames : List Frame

/-- What the reader knows beforehand: the sizes of numerals, and which names are names of
functions. -/
structure Legend where
  size : List Token → Option (Int × ℚ)
  isFunction : String → Bool

/-! ## Steps -/

/-- The end of a statement. It ends the conditionals that it is chained to. -/
def finish (statement : BareStmt) : List Frame → Reader
  | .chain condition consequent :: frames =>
    finish (.branch condition consequent [statement]) frames
  | .body read :: frames => ⟨.statement, .body (read ++ [statement]) :: frames⟩
  | frames => ⟨.statement, frames⟩

/-- Go back into the last conditional of a chain. -/
def reopen : BareStmt → List Frame → Reader
  | .branch condition consequent [], frames => ⟨.otherwise condition consequent, frames⟩
  | .branch condition consequent [chained], frames =>
    reopen chained (.chain condition consequent :: frames)
  | _, frames => ⟨.statement, frames⟩

/-- Open a conditional again, if it is the last statement that has been read. -/
def reopenLast : List Frame → Reader
  | .body read :: frames =>
    match read.getLast? with
    | some last => reopen last (.body read.dropLast :: frames)
    | none => ⟨.statement, .body read :: frames⟩
  | frames => ⟨.statement, frames⟩

/-- The end of a body. -/
def closeBody : List Frame → Reader
  | .body read :: .owner build :: frames => finish (build read) frames
  | .body read :: .conjure :: frames =>
    ⟨.ignore 3 (.rest (.expression (.conjure read))), frames⟩
  | frames => ⟨.statement, frames⟩

/-- A word that is a part of a numeral: an exponent follows it if it says so. -/
def readPart (tokens : List Token) (letters : List Char) : Focus :=
  if letters.getLast? = some 'e' then .sign (tokens ++ [.word letters])
  else .rest (.numeral (tokens ++ [.word letters]))

/-- A mark that does not begin an expression where one is expected. -/
def readSign (sign : Char) : List Frame → Reader
  | .paren :: frames =>
    if sign = '-' then ⟨.expression, .wrap (.unary .neg) :: frames⟩
    else if sign = '!' then ⟨.expression, .wrap (.unary .not) :: frames⟩
    -- The parentheses are those of the parameters, within those of the whole.
    else ⟨.ignore 2 .arrow, frames.tail⟩
  | .operator left signs :: frames => ⟨.expression, .operator left (signs ++ [sign]) :: frames⟩
  | .items build read :: frames => ⟨.rest (.expression (build read)), frames⟩
  | .ending _ :: frames => finish .returnVoid frames
  | frames => ⟨.expression, frames⟩

/-- A conditional that has no other branch so far. -/
def branchOnly (condition : BareExpr) (consequent : List BareStmt) : BareStmt :=
  .branch condition consequent []

/-- The first token of a statement that begins with a keyword. -/
def beginStatement (frames : List Frame) : Keyword → Reader
  | .binding => ⟨.declare true, frames⟩
  | .constant => ⟨.declare false, frames⟩
  | .function => ⟨.function, frames⟩
  | .conditional => ⟨.ignore 1 .expression, .guard branchOnly :: frames⟩
  | .otherwise => reopenLast frames
  | .loop => ⟨.ignore 1 .expression, .guard .loop :: frames⟩
  | .leave => finish .breakLoop frames
  | .result => ⟨.expression, .ending .returnValue :: frames⟩
  | .console => ⟨.ignore 3 .expression, .ending .exscribe :: frames⟩
  | .truth => ⟨.rest (.expression (.bool true)), .beginning :: frames⟩
  | .falsity => ⟨.rest (.expression (.bool false)), .beginning :: frames⟩
  | _ => ⟨.rest (.expression .null), .beginning :: frames⟩

section

variable (legend : Legend)

/-- What a name stands for. -/
def Legend.named (name : String) : BareExpr :=
  if legend.isFunction name then .function name else .variable name

/-- What has been read as an expression. -/
def Item.value : Item → BareExpr
  | .numeral tokens => .number (legend.size tokens)
  | .expression whole => whole

/-- The name that an expression is. -/
def BareExpr.named : BareExpr → String
  | .variable name | .function name => name
  | _ => ""

/-- The operator with some signs. -/
def operatorOf (signs : List Char) : BinaryOperator :=
  (BinaryOperator.all.find? fun operator => (operatorText operator).toList == signs).getD .or

/-- The first token of an expression. -/
def readFirst (frames : List Frame) : Lexeme → Reader
  | .text content => ⟨.rest (.expression (.text content)), frames⟩
  | .name name => ⟨.rest (.expression (legend.named name)), frames⟩
  | .keyword .truth => ⟨.rest (.expression (.bool true)), frames⟩
  | .keyword .falsity => ⟨.rest (.expression (.bool false)), frames⟩
  | .keyword _ => ⟨.rest (.expression .null), frames⟩
  | .part letters => ⟨readPart [] letters, frames⟩
  | .mark character =>
    if character = '(' then ⟨.expression, .paren :: frames⟩
    else if character = '[' then ⟨.expression, .items .array [] :: frames⟩
    else readSign character frames

/-- A mark that ends an expression. -/
def readEnd (mark : Char) (expression : BareExpr) : List Frame → Reader
  | .paren :: frames => ⟨.expression, .operator expression [mark] :: frames⟩
  | .operator left signs :: frames =>
    ⟨.rest (.expression (.binary (operatorOf signs) left expression)), frames⟩
  | .wrap build :: frames => ⟨.rest (.expression (build expression)), frames⟩
  | .items build read :: frames =>
    if mark = ',' then ⟨.expression, .items build (read ++ [expression]) :: frames⟩
    else ⟨.rest (.expression (build (read ++ [expression]))), frames⟩
  | .ending build :: frames => finish (build expression) frames
  | .beginning :: frames =>
    if mark = '=' then ⟨.expression, .ending (.assign expression.named) :: frames⟩
    else if mark = '+' then
      ⟨.ignore 1 .statement, (finish (.step .up expression.named) frames).frames⟩
    else if mark = '-' then
      ⟨.ignore 1 .statement, (finish (.step .down expression.named) frames).frames⟩
    else finish (.evaluate expression) frames
  | .guard build :: frames =>
    ⟨.ignore 1 .statement, .body [] :: .owner (build expression) :: frames⟩
  | frames => ⟨.rest (.expression expression), frames⟩

/-- A token after an expression. -/
def readRest (item : Item) (frames : List Frame) : Lexeme → Reader
  | .mark mark =>
    if mark = '.' then ⟨.member item, frames⟩
    else if mark = '[' then ⟨.expression, .wrap (.subscript (item.value legend)) :: frames⟩
    else if mark = '(' then ⟨.expression, .items (.call (item.value legend)) [] :: frames⟩
    else readEnd mark (item.value legend) frames
  | _ => ⟨.rest item, frames⟩

/-- The application that has one argument. -/
def applyTo (items : BareExpr) : List BareExpr → BareExpr
  | [mapping] => .apply mapping items
  | _ => .null

/-- The replacement that has two arguments. -/
def supplantIn (text : BareExpr) : List BareExpr → BareExpr
  | [pattern, replacement] => .supplant text pattern replacement
  | _ => .null

/-- A word after a point. -/
def readMember (item : Item) (frames : List Frame) : Lexeme → Reader
  | .keyword .value => ⟨.rest (.expression (.dereference (item.value legend))), frames⟩
  | .keyword .map =>
    ⟨.ignore 1 .expression, .items (applyTo (item.value legend)) [] :: frames⟩
  | .keyword _ =>
    ⟨.ignore 1 .expression, .items (supplantIn (item.value legend)) [] :: frames⟩
  | .part letters =>
    match item with
    | .numeral tokens => ⟨readPart (tokens ++ [.mark '.']) letters, frames⟩
    | .expression _ => ⟨.rest item, frames⟩
  | _ => ⟨.rest item, frames⟩

/-- The first token of a statement. -/
def readStatement (frames : List Frame) : Lexeme → Reader
  | .keyword keyword => beginStatement frames keyword
  | .mark mark =>
    if mark = '\x7b' then ⟨.statement, .body [] :: .owner .block :: frames⟩
    else if mark = '\x7d' then closeBody frames
    -- A mark that has told nothing at the end of the statement before.
    else if mark = ';' then ⟨.statement, frames⟩
    else readFirst legend (.beginning :: frames) (.mark mark)
  | lexeme => readFirst legend (.beginning :: frames) lexeme

/-- One step of the reader. -/
def Reader.step (reader : Reader) (token : Token) : Reader :=
  let frames := reader.frames
  match reader.focus with
  | .expression => readFirst legend frames token.lexeme
  | .rest item => readRest legend item frames token.lexeme
  | .sign tokens => ⟨.exponent (tokens ++ [token]), frames⟩
  | .exponent tokens => ⟨.rest (.numeral (tokens ++ [token])), frames⟩
  | .member item => readMember legend item frames token.lexeme
  | .arrow =>
    if token = .mark '\x7b' then ⟨.statement, .body [] :: .conjure :: frames⟩
    else ⟨.ignore 3 .address, frames⟩
  | .address => ⟨.ignore 5 (.rest (.expression (.addressOf token.letters))), frames⟩
  | .statement => readStatement legend frames token.lexeme
  | .declare isMutable =>
    ⟨.ignore 1 .expression, .ending (.declare isMutable token.letters) :: frames⟩
  | .function => ⟨.ignore 1 (.parameters token.letters []), frames⟩
  | .parameters name parameters =>
    if token = .mark ',' then reader
    else if token = .mark ')' then
      ⟨.ignore 1 .statement, .body [] :: .owner (.function name parameters) :: frames⟩
    else ⟨.parameters name (parameters ++ [token.letters]), frames⟩
  | .otherwise condition consequent =>
    if token = .mark '\x7b' then
      ⟨.statement, .body [] :: .owner (.branch condition consequent) :: frames⟩
    else
      ⟨.ignore 1 .expression, .guard branchOnly :: .chain condition consequent :: frames⟩
  | .ignore count next => ⟨if count ≤ 1 then next else .ignore (count - 1) next, frames⟩

/-- Take some tokens in order. -/
def Reader.run (reader : Reader) (tokens : List Token) : Reader :=
  tokens.foldl (Reader.step legend) reader

/-- The bare program that some tokens show. -/
def read (tokens : List Token) : List BareStmt :=
  match (Reader.run legend ⟨.statement, [.body []]⟩ tokens).frames with
  | [.body read] => read
  | _ => []

@[simp]
theorem run_nil (reader : Reader) : reader.run legend [] = reader := rfl

@[simp]
theorem run_cons (reader : Reader) (token : Token) (tokens : List Token) :
    reader.run legend (token :: tokens) = (reader.step legend token).run legend tokens := rfl

@[simp]
theorem run_append (reader : Reader) (tokens more : List Token) :
    reader.run legend (tokens ++ more) = (reader.run legend tokens).run legend more :=
  List.foldl_append

end

end JavaScript

end GlyphCompiler
