/-
# Writing under other numbers

What is written of a program depends on which numbers are the same, not on what they
are. The proof follows the recursion of the emitter: at each step the names given so
far are the same, under other numbers.
-/

import GlyphCompiler.JavaScript.Emit
import GlyphCompiler.Proofs.Program.Renumbering

namespace GlyphCompiler

namespace JavaScript

section

variable (change : Nat → Nat)

/-- The names given to what has other numbers now. -/
def Names.renumber (names : Names) : Names :=
  ⟨names.given.map fun entry => (change entry.1, entry.2)⟩

/-- Two steps write the same, the second one under other numbers. -/
def WriteAlike {Result : Type} (step moved : Emitter Result) : Prop :=
  ∀ names : Names, moved.run (names.renumber change) =
    (step.run names).map fun outcome => (outcome.1, outcome.2.renumber change)

end

namespace WriteAlike

variable {change : Nat → Nat} {Result Other : Type} {step moved : Emitter Result}

theorem pure (result : Result) : WriteAlike change (Pure.pure result) (Pure.pure result) :=
  fun _ => rfl

theorem bind {next nextMoved : Result → Emitter Other} (first : WriteAlike change step moved)
    (second : ∀ result, WriteAlike change (next result) (nextMoved result)) :
    WriteAlike change (step >>= next) (moved >>= nextMoved) := by
  intro names
  rw [StateT.run_bind, StateT.run_bind, first names]
  cases step.run names with
  | error fault => rfl
  | ok outcome => exact second outcome.1 outcome.2

theorem map (form : Result → Other) (first : WriteAlike change step moved) :
    WriteAlike change (do return form (← step)) (do return form (← moved)) :=
  first.bind fun result => .pure (form result)

theorem lift (outcome : Except Fault Result) :
    WriteAlike change (liftM outcome) (liftM outcome) := by
  intro names
  cases outcome <;> rfl

end WriteAlike

section

variable {change : Nat → Nat}

theorem nameOf_renumber (injective : Function.Injective change) (id : Nat) (name : String) :
    WriteAlike change (nameOf id name) (nameOf (change id) name) := by
  intro names
  have same : (names.renumber change).given.lookup (change id) = names.given.lookup id :=
    lookup_renumber change injective names.given id
  unfold nameOf
  simp only [StateT.run_bind, StateT.run_get, pure_bind, same]
  cases names.given.lookup id with
  | some given => rfl
  | none =>
    have length : (names.renumber change).given.length = names.given.length := List.length_map _
    rw [length]
    rfl

theorem variableName_renumber (injective : Function.Injective change) (target : Variable) :
    WriteAlike change (variableName target) (variableName (target.renumber change)) :=
  nameOf_renumber injective target.id target.name

theorem functionName_renumber (injective : Function.Injective change) (target : Function) :
    WriteAlike change (functionName target) (functionName (target.renumber change)) :=
  nameOf_renumber injective target.id target.name

theorem variableNames_renumber (injective : Function.Injective change) (targets : List Variable) :
    WriteAlike change (variableNames targets)
      (variableNames (targets.map (Variable.renumber change))) := by
  induction targets with
  | nil => exact .pure []
  | cons target targets ih =>
    exact (variableName_renumber injective target).bind fun name => ih.map (name :: ·)

theorem calleeText_renumber (injective : Function.Injective change) (callee : Callee) :
    WriteAlike change (calleeText callee) (calleeText (callee.renumber change)) := by
  cases callee with
  | function info target => exact functionName_renumber injective target
  | reference use => exact variableName_renumber injective use.target

mutual

theorem expressionText_renumber (injective : Function.Injective change) : ∀ expression : Expr,
    WriteAlike change (expressionText expression) (expressionText (expression.renumber change))
  | .number _ value => .lift (numberLiteral value)
  | .bool _ _ | .string _ _ | .glyph _ _ | .codepoint _ _ | .null _ | .typeOf _ _ => .pure _
  | .reference use => variableName_renumber injective use.target
  | .function _ target => functionName_renumber injective target
  | .binary _ _ left right =>
    (expressionText_renumber injective left).bind fun _ =>
      (expressionText_renumber injective right).map _
  | .unary _ _ operand => (expressionText_renumber injective operand).map _
  | .addressOf _ operand => (variableName_renumber injective operand.target).map _
  | .dereference _ operand => (expressionText_renumber injective operand).map _
  | .call _ callee arguments =>
    (calleeText_renumber injective callee).bind fun _ =>
      (expressionTexts_renumber injective arguments).map _
  | .subscript _ base index =>
    (expressionText_renumber injective base).bind fun _ =>
      (expressionText_renumber injective index).map _
  | .array _ elements => (expressionTexts_renumber injective elements).map _
  | .conjure _ body => (bodyLines_renumber injective 0 body).map _
  | .apply _ mapping items =>
    (expressionText_renumber injective items).bind fun _ =>
      (expressionText_renumber injective mapping).map _
  | .supplant _ text pattern replacement =>
    (expressionText_renumber injective text).bind fun _ =>
      (expressionText_renumber injective pattern).bind fun _ =>
        (expressionText_renumber injective replacement).map _

theorem expressionTexts_renumber (injective : Function.Injective change) :
    ∀ expressions : List Expr,
      WriteAlike change (expressionTexts expressions)
        (expressionTexts (renumberExprs change expressions))
  | [] => .pure []
  | first :: rest =>
    (expressionText_renumber injective first).bind fun text =>
      (expressionTexts_renumber injective rest).map (text :: ·)

theorem statementLines_renumber (injective : Function.Injective change) (depth : Nat)
    (opening : String) : ∀ statement : Stmt,
    WriteAlike change (statementLines depth opening statement)
      (statementLines depth opening (statement.renumber change))
  | .declare _ target value =>
    (variableName_renumber injective target).bind fun _ =>
      (expressionText_renumber injective value).map _
  | .function _ target body =>
    (functionName_renumber injective target).bind fun _ =>
      (variableNames_renumber injective target.parameters).bind fun _ =>
        (bodyLines_renumber injective (depth + 1) body).map _
  | .main _ body => bodyLines_renumber injective depth body
  | .affix _ _ => .pure []
  | .assign _ target value =>
    (variableName_renumber injective target).bind fun _ =>
      (expressionText_renumber injective value).map _
  | .step _ .up target => (variableName_renumber injective target).map _
  | .step _ .down target => (variableName_renumber injective target).map _
  | .branch _ condition consequent [] =>
    (expressionText_renumber injective condition).bind fun _ =>
      (bodyLines_renumber injective (depth + 1) consequent).map _
  | .branch _ condition consequent [only] => by
    have chained := statementLines_renumber injective depth "\x7d else if" only
    have apart := statementLines_renumber injective (depth + 1) "if" only
    refine (expressionText_renumber injective condition).bind fun _ =>
      (bodyLines_renumber injective (depth + 1) consequent).bind fun _ => ?_
    cases only with
    | branch position other first second => exact chained.map _
    | _ => exact apart.bind fun _ => (WriteAlike.pure _).map _
  | .branch _ condition consequent (first :: second :: rest) =>
    (expressionText_renumber injective condition).bind fun _ =>
      (bodyLines_renumber injective (depth + 1) consequent).bind fun _ =>
        (bodyLines_renumber injective (depth + 1) (first :: second :: rest)).bind fun _ =>
          (WriteAlike.pure _).map _
  | .loop _ condition body =>
    (expressionText_renumber injective condition).bind fun _ =>
      (bodyLines_renumber injective (depth + 1) body).map _
  | .breakLoop _ => .pure _
  | .returnValue _ value => (expressionText_renumber injective value).map _
  | .returnVoid _ => .pure _
  | .exscribe _ value => (expressionText_renumber injective value).map _
  | .evaluate _ expression => (expressionText_renumber injective expression).map _
  | .block _ body => (bodyLines_renumber injective (depth + 1) body).map _

theorem bodyLines_renumber (injective : Function.Injective change) (depth : Nat) :
    ∀ body : List Stmt,
      WriteAlike change (bodyLines depth body) (bodyLines depth (renumberBody change body))
  | [] => .pure []
  | first :: rest =>
    (statementLines_renumber injective depth "if" first).bind fun lines =>
      (bodyLines_renumber injective depth rest).map (lines ++ ·)

end

/-- A program is written the same under other numbers. -/
theorem generate_renumber (injective : Function.Injective change) (program : Program) :
    generate (program.renumber change) = generate program := by
  have alike : WriteAlike change (emit program) (emit (program.renumber change)) :=
    (bodyLines_renumber injective 0 program.body).map _
  have same : (emit (program.renumber change)).run .none = _ := alike .none
  rw [generate, generate, StateT.run'_eq, StateT.run'_eq, same]
  cases (emit program).run .none <;> rfl

end

end JavaScript

end GlyphCompiler
