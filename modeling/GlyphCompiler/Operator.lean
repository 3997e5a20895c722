/-
# Operators

The operators of expressions, each under the sign that is written for it.
-/

namespace GlyphCompiler

/-- The operators between two operands. -/
inductive BinaryOperator
  | or | and | eq | ne | lt | le | gt | ge | add | sub | mul | div | rem | pow
  deriving DecidableEq, Repr

namespace BinaryOperator

/-- Every operator between two operands, once. -/
def all : List BinaryOperator :=
  [or, and, eq, ne, lt, le, gt, ge, add, sub, mul, div, rem, pow]

/-- The sign of an operator in a source text. -/
def sign : BinaryOperator → String
  | or => "||"
  | and => "&&"
  | eq => "=="
  | ne => "!="
  | lt => "<"
  | le => "<="
  | gt => ">"
  | ge => ">="
  | add => "+"
  | sub => "-"
  | mul => "*"
  | div => "/"
  | rem => "%"
  | pow => "**"

/-- The operator with a given sign. -/
def ofSign? (text : String) : Option BinaryOperator :=
  all.find? fun operator => operator.sign == text

theorem ofSign?_sign (operator : BinaryOperator) : ofSign? operator.sign = some operator := by
  cases operator <;> rfl

/-- Does an operator combine truth values? -/
def isLogical : BinaryOperator → Bool
  | or | and => true
  | _ => false

/-- Does an operator ask whether its operands are equal? -/
def isEquality : BinaryOperator → Bool
  | eq | ne => true
  | _ => false

/-- Does an operator compare sizes? -/
def isOrder : BinaryOperator → Bool
  | lt | le | gt | ge => true
  | _ => false

/-- Does an operator compute a number? -/
def isArithmetic : BinaryOperator → Bool
  | add | sub | mul | div | rem | pow => true
  | _ => false

end BinaryOperator

/-- The operators before one operand that compute a value. -/
inductive UnaryOperator
  | neg | not
  deriving DecidableEq, Repr

namespace UnaryOperator

/-- The sign of an operator in a source text. -/
def sign : UnaryOperator → String
  | neg => "-"
  | not => "!"

/-- The operator with a given sign. -/
def ofSign? (text : String) : Option UnaryOperator :=
  [neg, not].find? fun operator => operator.sign == text

theorem ofSign?_sign (operator : UnaryOperator) : ofSign? operator.sign = some operator := by
  cases operator <;> rfl

end UnaryOperator

end GlyphCompiler
