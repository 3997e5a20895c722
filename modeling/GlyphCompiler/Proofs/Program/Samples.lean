/-
# Sample programs

Some small source texts with the programs that they are analyzed as. The table of the
parser has to be computed for this, which is most of the work, so all that is computed
of them is computed at once.
-/

import GlyphCompiler.Analysis.Analyze
import GlyphCompiler.Proofs.Program.Equality
import GlyphCompiler.Proofs.Surface.Main

namespace GlyphCompiler

/-! ## A program whose result comes late -/

namespace Analysis

/-- A program that uses a function before it is known that it returns a text. -/
def lateSource : String :=
  "let a: int32 = f();\nevoke f() = 'ok';\nlet x = 1;\nx++;\nexscribe x - 0;"

/-- The counter of the program. -/
def lateCounter : Variable := ⟨2, "x", .int .w32, true⟩

/-- The function that the program uses early. -/
def lateFunction : Function := ⟨0, "f", [], .string, true⟩

/-- What the program comes to. -/
def lateProgram : Program where
  position := ⟨1, 1⟩
  body := [
    .declare ⟨1, 1⟩ ⟨1, "a", .int .w32, true⟩
      (.call ⟨.string, ⟨1, 16⟩⟩ (.function ⟨.function [] .any, ⟨1, 16⟩⟩ lateFunction) []),
    .function ⟨2, 1⟩ lateFunction [.returnValue ⟨2, 11⟩ (.string ⟨.string, ⟨2, 13⟩⟩ "ok")],
    .declare ⟨3, 1⟩ lateCounter (.number ⟨.int .w32, ⟨3, 9⟩⟩ (.int 1)),
    .step ⟨4, 1⟩ .up lateCounter,
    .exscribe ⟨5, 1⟩ (.binary ⟨.int .w32, ⟨5, 10⟩⟩ .sub
      (.reference ⟨⟨.int .w32, ⟨5, 10⟩⟩, lateCounter⟩) (.number ⟨.int .w32, ⟨5, 14⟩⟩ (.int 0)))]

end Analysis

/-! ## A program with a comparison as an argument -/

/-- A program that passes a comparison where a truth value may be missing. -/
def comparingSource : String := "evoke f(p: bool?) { }\nf(1 < 2);"

/-- The comparison, with the type of the parameter that it is passed to. -/
def passedComparison : Expr :=
  .binary ⟨.optional .bool, ⟨2, 3⟩⟩ .lt (.number ⟨.int .w32, ⟨2, 3⟩⟩ (.int 1))
    (.number ⟨.int .w32, ⟨2, 7⟩⟩ (.int 2))

/-- What the program comes to. -/
def comparingProgram : Program where
  position := ⟨1, 1⟩
  body :=
    let taker : Function := ⟨1, "f", [⟨0, "p", .optional .bool, true⟩], .void, true⟩
    [.function ⟨1, 1⟩ taker [],
      .evaluate ⟨2, 1⟩ (.call ⟨.void, ⟨2, 1⟩⟩
        (.function ⟨.function [.optional .bool] .void, ⟨2, 1⟩⟩ taker) [passedComparison])]

/-! ## A program with a negated number -/

/-- A program that prints a negated number. -/
def negatingSource : String := "exscribe -1;"

/-- What the program comes to. -/
def negatingProgram : Program where
  position := ⟨1, 1⟩
  body := [.exscribe ⟨1, 1⟩
    (.unary ⟨.int .w32, ⟨1, 10⟩⟩ .neg (.number ⟨.int .w32, ⟨1, 11⟩⟩ (.int 1)))]

/-! ## A program with two functions and a loop -/

/-- A program with a function that calls a later one, and a `main` that leaves a loop. -/
def orderedSource : String :=
  "evoke f() -> int32 = g();\nevoke g() -> int32 = 1;\nmain = while f() < 1 + 1 { break; }"

/-- The function that is called. -/
def laterFunction : Function := ⟨1, "g", [], .int .w32, false⟩

/-- The function that calls it. -/
def earlierFunction : Function := ⟨0, "f", [], .int .w32, false⟩

/-- What the program comes to. -/
def orderedProgram : Program where
  position := ⟨1, 1⟩
  body := [
    .function ⟨1, 1⟩ earlierFunction [.returnValue ⟨1, 20⟩
      (.call ⟨.int .w32, ⟨1, 22⟩⟩ (.function ⟨.function [] (.int .w32), ⟨1, 22⟩⟩ laterFunction) [])],
    .function ⟨2, 1⟩ laterFunction
      [.returnValue ⟨2, 20⟩ (.number ⟨.int .w32, ⟨2, 22⟩⟩ (.int 1))],
    .main ⟨3, 1⟩ [.loop ⟨3, 8⟩
      (.binary ⟨.bool, ⟨3, 14⟩⟩ .lt
        (.call ⟨.int .w32, ⟨3, 14⟩⟩
          (.function ⟨.function [] (.int .w32), ⟨3, 14⟩⟩ earlierFunction) [])
        (.binary ⟨.int .w32, ⟨3, 20⟩⟩ .add (.number ⟨.int .w32, ⟨3, 20⟩⟩ (.int 1))
          (.number ⟨.int .w32, ⟨3, 24⟩⟩ (.int 1))))
      [.breakLoop ⟨3, 28⟩]]]

/-! ## A program that passes a later function -/

/-- A program that passes a function on before it is known what it returns. -/
def passingSource : String :=
  "evoke f(c: bool) -> int32 \x7b\n  while c \x7b break; \x7d\n" ++
    "  if true \x7b return g(h); \x7d else \x7b return 0; \x7d\n\x7d\n" ++
    "evoke g(p: conjure(int32)) -> int32 = p();\nevoke h() = 3;"

/-- The condition of the loop. -/
def loopCondition : Variable := ⟨0, "c", .bool, true⟩

/-- The parameter that the function is passed to. -/
def functionParameter : Variable := ⟨2, "p", .function [] (.int .w32), true⟩

/-- The function that is passed. -/
def passedFunction : Function := ⟨4, "h", [], .int .w32, true⟩

/-- The function that it is passed to. -/
def takingFunction : Function := ⟨3, "g", [functionParameter], .int .w32, false⟩

/-- The function that passes it, on one of two paths. -/
def passingFunction : Function := ⟨1, "f", [loopCondition], .int .w32, false⟩

/-- The call that it is passed in. -/
def passingCall : Expr :=
  .call ⟨.int .w32, ⟨3, 20⟩⟩ (.function ⟨takingFunction.type, ⟨3, 20⟩⟩ takingFunction)
    [.function ⟨functionParameter.type, ⟨3, 22⟩⟩ passedFunction]

/-- The body of the function that passes it. -/
def passingBody : List Stmt := [
  .loop ⟨2, 3⟩ (.reference ⟨⟨.bool, ⟨2, 9⟩⟩, loopCondition⟩) [.breakLoop ⟨2, 13⟩],
  .branch ⟨3, 3⟩ (.bool ⟨.bool, ⟨3, 6⟩⟩ true) [.returnValue ⟨3, 13⟩ passingCall]
    [.returnValue ⟨3, 35⟩ (.number ⟨.int .w32, ⟨3, 42⟩⟩ (.int 0))]]

/-- What the program comes to. -/
def passingProgram : Program where
  position := ⟨1, 1⟩
  body := [
    .function ⟨1, 1⟩ passingFunction passingBody,
    .function ⟨5, 1⟩ takingFunction [.returnValue ⟨5, 37⟩ (.call ⟨.int .w32, ⟨5, 39⟩⟩
      (.reference ⟨⟨functionParameter.type, ⟨5, 39⟩⟩, functionParameter⟩) [])],
    .function ⟨6, 1⟩ passedFunction
      [.returnValue ⟨6, 11⟩ (.number ⟨.int .w32, ⟨6, 13⟩⟩ (.int 3))]]

/-! ## A program that reads an element -/

/-- A program that reads the element of a constant array. -/
def accessingSource : String := "const a = [1];\nexscribe a[0];"

/-- The constant array. -/
def constantArray : Variable := ⟨0, "a", .array (.int .w32), false⟩

/-- Its elements. -/
def constantElements : List Expr := [.number ⟨.int .w32, ⟨1, 12⟩⟩ (.int 1)]

/-- What the program comes to. -/
def accessingProgram : Program where
  position := ⟨1, 1⟩
  body := [
    .declare ⟨1, 1⟩ constantArray (.array ⟨constantArray.type, ⟨1, 11⟩⟩ constantElements),
    .exscribe ⟨2, 1⟩ (.subscript ⟨.int .w32, ⟨2, 10⟩⟩
      (.reference ⟨⟨constantArray.type, ⟨2, 10⟩⟩, constantArray⟩)
      (.number ⟨.int .w32, ⟨2, 12⟩⟩ (.int 0)))]

/-! ## Two functions in either order -/

/-- A function that calls a later one. -/
def callerFirstSource : String :=
  "evoke f() -> int32 = g();\nevoke g() -> int32 = 1;"

/-- The same functions with the one that is called first. -/
def calleeFirstSource : String :=
  "evoke g() -> int32 = 1;\nevoke f() -> int32 = g();"

/-- What they come to where the one that calls stands first. -/
def callerFirstProgram : Program :=
  { orderedProgram with body := orderedProgram.body.take 2 }

namespace Surface

/-- Is a statement the function that calls, at a given position? -/
def Stmt.isCaller (position : Position) : Stmt → Bool
  | .function place name [] (some (.named type)) [.returnValue _ (.call callee [])] =>
    place == position && name == "f" && type.name == "int32" && callee.name == "g"
  | _ => false

/-- Is a statement the function that is called, at a given position? -/
def Stmt.isCallee (position : Position) : Stmt → Bool
  | .function place name [] (some (.named type)) [.returnValue _ (.integer _ text)] =>
    place == position && name == "g" && type.name == "int32" && text == "1"
  | _ => false

/-- Are some statements the two functions, the one that calls first? -/
def isCallerFirst : List Stmt → Bool
  | [caller, callee] => caller.isCaller ⟨1, 1⟩ && callee.isCallee ⟨2, 1⟩
  | _ => false

/-- Are some statements the two functions, the one that is called first? -/
def isCalleeFirst : List Stmt → Bool
  | [callee, caller] => callee.isCallee ⟨1, 1⟩ && caller.isCaller ⟨2, 1⟩
  | _ => false

end Surface

/-- Does the body of the program that is read from a text have a property? -/
def readsAs (source : String) (property : List Surface.Stmt → Bool) : Bool :=
  match parse source >>= Surface.ofTree with
  | .ok program => property program.body
  | .error _ => false

/-- A program that needs the value of a function before it is known that it has none. -/
def valuelessSource : String := "let a: int32 = f();\nevoke f() { }"

/-- A text that ends where an operand is missing. -/
def unfinishedSource : String := "\nexscribe"

/-- The texts, each with what rejects it. -/
def rejections : List (String × Diagnostic) :=
  [(valuelessSource, ⟨.returnsVoid "f", ⟨1, 16⟩⟩), (unfinishedSource, ⟨.unexpectedEnd, ⟨2, 1⟩⟩)]

/-- Is a text rejected with a given diagnostic? -/
def isRejected (source : String) (diagnostic : Diagnostic) : Bool :=
  match analyze source with
  | .error (.diagnostic found) => found = diagnostic
  | _ => false

theorem eq_error_of_isRejected {source : String} {diagnostic : Diagnostic}
    (rejected : isRejected source diagnostic = true) :
    analyze source = .error (.diagnostic diagnostic) := by
  unfold isRejected at rejected
  split at rejected
  · next failed => rw [failed, of_decide_eq_true rejected]
  · cases rejected

/-! ## Their analysis -/

/-- The programs, each after its source. -/
def samples : List (String × Program) :=
  [(Analysis.lateSource, Analysis.lateProgram), (comparingSource, comparingProgram),
    (negatingSource, negatingProgram), (orderedSource, orderedProgram),
    (callerFirstSource, callerFirstProgram), (passingSource, passingProgram),
    (accessingSource, accessingProgram)]

/-- The programs with everything that is computed of them: they are what their sources come
to, the second one holds no `main`, the two functions are read as they are written in
either order, and the other texts are rejected. -/
def computedSamples :
    { programs : List (String × Program) //
      ((programs.all fun sample => comesTo (analyze sample.1) sample.2) &&
        (!holdsMain comparingSource &&
          ((readsAs callerFirstSource Surface.isCallerFirst &&
            readsAs calleeFirstSource Surface.isCalleeFirst) &&
              rejections.all fun rejection => isRejected rejection.1 rejection.2))) = true } :=
  ⟨samples, by decide +kernel⟩

theorem samples_computed :
    ((samples.all fun sample => comesTo (analyze sample.1) sample.2) &&
      (!holdsMain comparingSource &&
        ((readsAs callerFirstSource Surface.isCallerFirst &&
          readsAs calleeFirstSource Surface.isCalleeFirst) &&
            rejections.all fun rejection => isRejected rejection.1 rejection.2))) = true :=
  computedSamples.property

theorem analyze_of_mem_samples {source : String} {program : Program}
    (member : (source, program) ∈ samples) : analyze source = .ok program :=
  eq_ok_of_comesTo (List.all_eq_true.mp (Bool.and_eq_true_iff.mp samples_computed).1 _ member)

theorem Analysis.analyze_lateSource : analyze lateSource = .ok lateProgram :=
  analyze_of_mem_samples (by simp [samples])

theorem comparingSource_computed :
    comesTo (analyze comparingSource) comparingProgram = true ∧
      holdsMain comparingSource = false := by
  obtain ⟨computed, rest⟩ := Bool.and_eq_true_iff.mp samples_computed
  obtain ⟨silent, -⟩ := Bool.and_eq_true_iff.mp rest
  rw [Bool.not_eq_true'] at silent
  exact ⟨List.all_eq_true.mp computed (comparingSource, comparingProgram) (by simp [samples]), silent⟩

theorem analyze_comparingSource : analyze comparingSource = .ok comparingProgram :=
  eq_ok_of_comesTo comparingSource_computed.1

theorem analyze_negatingSource : analyze negatingSource = .ok negatingProgram :=
  analyze_of_mem_samples (by simp [samples])

theorem analyze_orderedSource : analyze orderedSource = .ok orderedProgram :=
  analyze_of_mem_samples (by simp [samples])

theorem analyze_passingSource : analyze passingSource = .ok passingProgram :=
  analyze_of_mem_samples (by simp [samples])

theorem analyze_accessingSource : analyze accessingSource = .ok accessingProgram :=
  analyze_of_mem_samples (by simp [samples])

theorem readings_computed :
    (readsAs callerFirstSource Surface.isCallerFirst = true ∧
      readsAs calleeFirstSource Surface.isCalleeFirst = true) ∧
        rejections.all (fun rejection => isRejected rejection.1 rejection.2) = true := by
  obtain ⟨-, rest⟩ := Bool.and_eq_true_iff.mp samples_computed
  obtain ⟨-, rest⟩ := Bool.and_eq_true_iff.mp rest
  exact (Bool.and_eq_true_iff.mp rest).imp_left Bool.and_eq_true_iff.mp

theorem analyze_of_mem_rejections {source : String} {diagnostic : Diagnostic}
    (member : (source, diagnostic) ∈ rejections) :
    analyze source = .error (.diagnostic diagnostic) :=
  eq_error_of_isRejected (List.all_eq_true.mp readings_computed.2 _ member)

end GlyphCompiler
