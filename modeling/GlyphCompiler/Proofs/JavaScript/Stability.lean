/-
# Writing a program again

A name that is given stays. So once a step of writing has run, everything that it
uses is named, and running it again under these names, and any others given since,
writes the same and names nothing. Whatever one emitter writes in between, a program
that it is given again comes out as it did the first time.
-/

import GlyphCompiler.Proofs.JavaScript.Writing
import GlyphCompiler.Proofs.Optimizer.Idempotence
import GlyphCompiler.Proofs.Parser.Spelling
import GlyphCompiler.Proofs.Program.Renumbering

namespace GlyphCompiler

namespace JavaScript

/-! ## Names that stay -/

namespace Names

/-- Every name that is given is also given later. -/
def Within (names later : Names) : Prop :=
  ∀ id, ∀ name ∈ names.name? id, name ∈ later.name? id

theorem Within.refl (names : Names) : names.Within names :=
  fun _ _ given => given

theorem Within.trans {first second third : Names} (left : first.Within second)
    (right : second.Within third) : first.Within third :=
  fun id name given => right id name (left id name given)

theorem within_give (names : Names) (owner : Owner) : names.Within (names.give owner) :=
  fun _ _ => name?_give

end Names

/-- A step of writing that does the same when it is run again: what it names has a name then,
and nothing else decides what it writes. -/
def Stable {Result : Type} (step : Emitter Result) : Prop :=
  ∀ names result after, step.run names = .ok (result, after) →
    names.Within after ∧ ∀ later, after.Within later → step.run later = .ok (result, later)

namespace Stable

variable {Result Other : Type} {step : Emitter Result}

theorem pure (result : Result) : Stable (Pure.pure result) := by
  intro names other after runs
  cases runs
  exact ⟨.refl names, fun _ _ => rfl⟩

/-- The names that the first step needs are still there when the second one has run. -/
theorem bind {next : Result → Emitter Other} (first : Stable step)
    (second : ∀ result, Stable (next result)) : Stable (step >>= next) := by
  intro names other after runs
  rw [StateT.run_bind] at runs
  cases ran : step.run names with
  | error fault =>
    rw [ran] at runs
    cases runs
  | ok outcome =>
    rw [ran] at runs
    obtain ⟨result, middle⟩ := outcome
    obtain ⟨here, again⟩ := first names result middle ran
    obtain ⟨there, againThere⟩ := second result middle other after runs
    refine ⟨here.trans there, fun later within => ?_⟩
    rw [StateT.run_bind, again later (there.trans within)]
    exact againThere later within

theorem map (change : Result → Other) (first : Stable step) :
    Stable (do return change (← step)) :=
  first.bind fun result => .pure (change result)

/-- What names nothing does the same whenever it runs. -/
theorem lift (outcome : Except Fault Result) : Stable (liftM outcome : Emitter Result) := by
  cases outcome with
  | error fault =>
    intro names other after runs
    cases runs
  | ok result => exact .pure result

end Stable

/-- A name is given once. -/
theorem stable_nameOf (owner : Owner) : Stable (nameOf owner.id owner.name) := by
  intro names result after runs
  rw [nameOf_eq] at runs
  cases runs
  refine ⟨names.within_give owner, fun later within => ?_⟩
  obtain ⟨name, given⟩ := Option.isSome_iff_exists.mp (Names.isSome_name?_give names owner)
  have known : later.name? owner.id = some name := within owner.id name given
  have unchanged : later.give owner = later := by
    rw [Names.give, known, Option.isSome_some, if_pos rfl]
  rw [nameOf_eq, unchanged, Names.table, Names.table, known, given]

theorem stable_variableName (target : Variable) : Stable (variableName target) :=
  stable_nameOf (.value target)

theorem stable_functionName (target : Function) : Stable (functionName target) :=
  stable_nameOf (.function target)

theorem stable_variableNames (targets : List Variable) : Stable (variableNames targets) := by
  induction targets with
  | nil => exact .pure []
  | cons target targets ih =>
    exact (stable_variableName target).bind fun name => ih.map (name :: ·)

theorem stable_calleeText (callee : Callee) : Stable (calleeText callee) := by
  cases callee with
  | function info target => exact stable_functionName target
  | reference use => exact stable_variableName use.target

mutual

theorem stable_expressionText : ∀ expression : Expr, Stable (expressionText expression)
  | .number _ value => .lift (numberLiteral value)
  | .bool _ _ | .string _ _ | .glyph _ _ | .codepoint _ _ | .null _ | .typeOf _ _ => .pure _
  | .reference use => stable_variableName use.target
  | .function _ target => stable_functionName target
  | .binary _ _ left right =>
    (stable_expressionText left).bind fun _ => (stable_expressionText right).map _
  | .unary _ _ operand => (stable_expressionText operand).map _
  | .addressOf _ operand => (stable_variableName operand.target).map _
  | .dereference _ operand => (stable_expressionText operand).map _
  | .call _ callee arguments =>
    (stable_calleeText callee).bind fun _ => (stable_expressionTexts arguments).map _
  | .subscript _ base index =>
    (stable_expressionText base).bind fun _ => (stable_expressionText index).map _
  | .array _ elements => (stable_expressionTexts elements).map _
  | .conjure _ body => (stable_bodyLines 0 body).map _
  | .apply _ mapping items =>
    (stable_expressionText items).bind fun _ => (stable_expressionText mapping).map _
  | .supplant _ text pattern replacement =>
    (stable_expressionText text).bind fun _ =>
      (stable_expressionText pattern).bind fun _ => (stable_expressionText replacement).map _

theorem stable_expressionTexts : ∀ expressions : List Expr, Stable (expressionTexts expressions)
  | [] => .pure []
  | first :: rest =>
    (stable_expressionText first).bind fun text => (stable_expressionTexts rest).map (text :: ·)

theorem stable_statementLines (depth : Nat) (opening : String) : ∀ statement : Stmt,
    Stable (statementLines depth opening statement)
  | .declare _ target value =>
    (stable_variableName target).bind fun _ => (stable_expressionText value).map _
  | .function _ target body =>
    (stable_functionName target).bind fun _ =>
      (stable_variableNames target.parameters).bind fun _ => (stable_bodyLines (depth + 1) body).map _
  | .main _ body => stable_bodyLines depth body
  | .affix _ _ => .pure []
  | .assign _ target value =>
    (stable_variableName target).bind fun _ => (stable_expressionText value).map _
  | .step _ .up target => (stable_variableName target).map _
  | .step _ .down target => (stable_variableName target).map _
  | .branch _ condition consequent [] =>
    (stable_expressionText condition).bind fun _ => (stable_bodyLines (depth + 1) consequent).map _
  | .branch _ condition consequent [only] => by
    have chained := stable_statementLines depth "\x7d else if" only
    have apart := stable_statementLines (depth + 1) "if" only
    refine (stable_expressionText condition).bind fun _ =>
      (stable_bodyLines (depth + 1) consequent).bind fun _ => ?_
    cases only with
    | branch position other first second => exact chained.map _
    | _ => exact apart.bind fun _ => (Stable.pure _).map _
  | .branch _ condition consequent (first :: second :: rest) =>
    (stable_expressionText condition).bind fun _ =>
      (stable_bodyLines (depth + 1) consequent).bind fun _ =>
        (stable_bodyLines (depth + 1) (first :: second :: rest)).bind fun _ => (Stable.pure _).map _
  | .loop _ condition body =>
    (stable_expressionText condition).bind fun _ => (stable_bodyLines (depth + 1) body).map _
  | .breakLoop _ => .pure _
  | .returnValue _ value => (stable_expressionText value).map _
  | .returnVoid _ => .pure _
  | .exscribe _ value => (stable_expressionText value).map _
  | .evaluate _ expression => (stable_expressionText expression).map _
  | .block _ body => (stable_bodyLines (depth + 1) body).map _

theorem stable_bodyLines (depth : Nat) : ∀ body : List Stmt, Stable (bodyLines depth body)
  | [] => .pure []
  | first :: rest =>
    (stable_statementLines depth "if" first).bind fun lines =>
      (stable_bodyLines depth rest).map (lines ++ ·)

end

theorem stable_emit (program : Program) : Stable (emit program) :=
  (stable_bodyLines 0 program.body).map _

/-! ## Programs in between -/

/-- The names that an emitter may have when it has been given some programs. Each one is
written, or it faults: then some of what it uses may have been named. -/
inductive Continues : Names → List Program → Names → Prop
  | nil (names : Names) : Continues names [] names
  | written {names middle ends : Names} {program : Program} {programs : List Program}
      {text : String} (runs : (emit program).run names = .ok (text, middle))
      (rest : Continues middle programs ends) : Continues names (program :: programs) ends
  | faulted {names middle ends : Names} {program : Program} {programs : List Program}
      {fault : Fault} (runs : (emit program).run names = .error fault) (named : names.Within middle)
      (rest : Continues middle programs ends) : Continues names (program :: programs) ends

theorem Continues.within {names ends : Names} {programs : List Program}
    (continues : Continues names programs ends) : names.Within ends := by
  induction continues with
  | nil names => exact .refl names
  | written runs _ ih => exact (stable_emit _ _ _ _ runs).1.trans ih
  | faulted _ named _ ih => exact named.trans ih

/-- A program that is given to an emitter again, after any other programs, comes out as it did
the first time, whatever the emitter had written before: as the same text, or with the same
fault. Nothing more is named for it. -/
theorem emit_again {names ends : Names} {program : Program} {between : List Program}
    (continues : Continues names (program :: between) ends) :
    (emit program).run ends = ((emit program).run names).map fun written => (written.1, ends) := by
  cases continues with
  | written runs rest =>
    rw [(stable_emit program _ _ _ runs).2 ends rest.within, runs]
    rfl
  | faulted runs named rest =>
    by_cases short : WritableProgram program
    · obtain ⟨text, written, -⟩ := (writes_emit program names).1 short
      rw [written] at runs
      cases runs
    · rw [(writes_emit program ends).2 short, (writes_emit program names).2 short]
      rfl

/-- What an emitter writes first for the program with two functions and a loop. -/
def orderedText : String :=
  "function f_1() \x7b\n  return g_2();\n\x7d\nfunction g_2() \x7b\n  return 1;\n\x7d\n" ++
    "while ((f_1() < (1 + 1))) \x7b\n  break;\n\x7d"

/-- The names are kept when the programs are all written in turn. -/
theorem continues_of_mapM {programs : List Program} {names ends : Names} {texts : List String}
    (runs : (programs.mapM emit).run names = .ok (texts, ends)) : Continues names programs ends := by
  induction programs generalizing names texts with
  | nil =>
    cases runs
    exact .nil _
  | cons program programs ih =>
    rw [List.mapM_cons, StateT.run_bind] at runs
    obtain ⟨⟨text, middle⟩, first, rest⟩ := Optimizer.bind_eq_ok.mp runs
    rw [StateT.run_bind] at rest
    obtain ⟨⟨others, after⟩, later, same⟩ := Optimizer.bind_eq_ok.mp rest
    cases same
    exact .written first (ih later)

theorem emit_orderedProgram :
    (([orderedProgram, comparingProgram.renumber (· + 2)].mapM emit).run .none).toOption.map
        Prod.fst =
      some [orderedText, "function f_3(p_4) \x7b\n\x7d\nf_3((1 < 2));"] := by
  decide +kernel

/-- The program with two functions and a loop is written the same before and after another one,
whose function has the name of one of them. -/
theorem emit_again_orderedProgram :
    ∃ names ends, (emit orderedProgram).run .none = .ok (orderedText, names) ∧
      Continues .none [orderedProgram, comparingProgram.renumber (· + 2)] ends ∧
      (emit orderedProgram).run ends = .ok (orderedText, ends) := by
  obtain ⟨⟨texts, ends⟩, found, same⟩ := Option.map_eq_some_iff.mp emit_orderedProgram
  obtain rfl : texts = _ := same
  have runs := eq_ok_of_toOption found
  have continues := continues_of_mapM runs
  rw [List.mapM_cons, StateT.run_bind] at runs
  obtain ⟨⟨text, names⟩, first, rest⟩ := Optimizer.bind_eq_ok.mp runs
  rw [StateT.run_bind] at rest
  obtain ⟨⟨others, after⟩, -, same⟩ := Optimizer.bind_eq_ok.mp rest
  obtain rfl : text = orderedText := by
    cases same
    rfl
  refine ⟨names, ends, first, continues, ?_⟩
  rw [emit_again continues, first]
  rfl

end JavaScript

end GlyphCompiler
