/-
# Types of accepted programs

The types of an accepted program agree with each other. A call that stands for a
value has one, and has its type. What flows into a type converts to it, except that
a call whose result was not known when it was read is not looked at again.
-/

import GlyphCompiler.Proofs.Analysis.Lawful
import GlyphCompiler.Proofs.Program.Samples

namespace GlyphCompiler

namespace Analysis

/-- A new analyzer has nothing in sight, whatever number it begins with. -/
theorem sound_numbering (first : Nat) : Sound { State.initial with nextId := first } (visible [.root]) where
  numbered := nofun
  coherent := nofun
  inferred := nofun
  declared := nofun
  unnumbered _ _ := rfl

theorem sound_initial : Sound .initial (visible [.root]) := sound_numbering 0

/-- Every node of an accepted program is lawful, by the state that its analysis ends in. -/
theorem exists_lawful {source : String} {program : Program}
    (accepted : analyze source = .ok program) :
    ∃ final, (ofSource source).run .initial = .ok program final ∧
      ∀ node ∈ walkStmts program.body, Lawful final node := by
  obtain ⟨written, body, final, ran, analyzes, allows, isBody⟩ := exists_analyzesBody accepted
  have lawful := analyzes.lawful allows sound_initial (.refl final)
  refine ⟨final, ran, fun node member => ?_⟩
  rw [isBody] at member
  obtain ⟨statement, isStatement, below⟩ := mem_walkStmts.mp member
  rw [settleBody_eq_map] at isStatement
  obtain ⟨raw, isRaw, rfl⟩ := List.mem_map.mp isStatement
  exact lawful.all raw isRaw node below

theorem mem_zip_of_mem_passed {arguments : List Expr} {parameters : List Ty} {argument : Expr}
    {parameter : Ty} (pair : (argument, some parameter) ∈ passed arguments parameters) :
    (argument, parameter) ∈ arguments.zip parameters := by
  induction arguments generalizing parameters with
  | nil => cases pair
  | cons first arguments ih =>
    cases parameters with
    | nil =>
      obtain same | member := List.mem_cons.mp pair
      · cases same
      · simpa using ih member
    | cons type parameters =>
      obtain same | member := List.mem_cons.mp pair
      · cases same
        exact List.mem_cons_self
      · exact List.mem_cons_of_mem _ (ih member)

theorem exists_call_of_mem_values {parent : Node} {value : Expr} {type : Ty}
    (member : (value, some type) ∈ parent.values) :
    ∃ info callee arguments, parent = .expr (.call info callee arguments) ∧
      (value, type) ∈ arguments.zip callee.type.parameters := by
  cases parent with
  | expr expression =>
    cases expression with
    | call info callee arguments => exact ⟨info, callee, arguments, rfl, mem_zip_of_mem_passed member⟩
    | _ => simp [Node.values] at member
  | stmt statement =>
    cases statement <;> simp [Node.values] at member

/-- A call of a function by its name that is not evaluated only for its effect has a
value, whatever the order of the declarations: the function is not void, and the type of
the call is the result of the function, or that of the parameter that it is passed to. -/
theorem directCall_resolved {source : String} {program : Program}
    (accepted : analyze source = .ok program) {parent : Node}
    (member : parent ∈ walkStmts program.body) {value : Expr} (below : .expr value ∈ parent.children)
    (isValue : ∀ position, parent ≠ .stmt (.evaluate position value)) {function : Function}
    (calls : value.directCall? = some function) :
    function.result ≠ .void ∧
      (value.type = function.result ∨
        ∃ info callee arguments type, parent = .expr (.call info callee arguments) ∧
          (value, type) ∈ arguments.zip callee.type.parameters ∧ type ≠ .any ∧
            value.type = type) := by
  obtain ⟨final, -, lawful⟩ := exists_lawful accepted
  obtain ⟨parameter, isListed⟩ | ⟨position, evaluated⟩ := directCall_stands calls below
  · obtain ⟨hasResult, type⟩ := (lawful parent member).resolved value parameter isListed function calls
    refine ⟨hasResult, type.imp_right ?_⟩
    rintro ⟨passedTo, rfl, notAny, isType⟩
    obtain ⟨info, callee, arguments, isCall, pair⟩ := exists_call_of_mem_values isListed
    exact ⟨info, callee, arguments, passedTo, isCall, pair, notAny, isType⟩
  · exact absurd evaluated (isValue position)

theorem directCall_resolved_lateProgram :
    ∃ parent ∈ walkStmts lateProgram.body, ∃ value function, .expr value ∈ parent.children ∧
      (∀ position, parent ≠ .stmt (.evaluate position value)) ∧
      value.directCall? = some function ∧ function.result ≠ .void ∧
        (value.type = function.result ∨
          ∃ info callee arguments type, parent = .expr (.call info callee arguments) ∧
            (value, type) ∈ arguments.zip callee.type.parameters ∧ type ≠ .any ∧
              value.type = type) := by
  have member : Node.stmt (lateProgram.body.head (by decide)) ∈ walkStmts lateProgram.body :=
    List.mem_cons_self
  exact ⟨_, member, _, lateFunction, List.mem_cons_self, nofun, rfl,
    directCall_resolved analyze_lateSource member List.mem_cons_self nofun rfl⟩

/-- Every value of a program converts to the type that it flows into. -/
def TypeConsistent (program : Program) : Prop :=
  ∀ node ∈ walkStmts program.body, ∀ value target, Flow node value target → value.ConvertsTo target

/-- Every value of an accepted program converts to the type that it flows into, unless
it is a call whose result was not known when it was read. A program is consistent just
if these calls convert as well. A call has an argument for each parameter, and what a
conjure body returns flows into one type. -/
theorem typeConsistent_iff {source : String} {program : Program}
    (accepted : analyze source = .ok program) :
    ∃ final, (ofSource source).run .initial = .ok program final ∧
      (∀ node ∈ walkStmts program.body, ∀ value target, Flow node value target →
        value.ConvertsTo target ∨ PutOff final value) ∧
      (∀ info callee arguments, .expr (.call info callee arguments) ∈ walkStmts program.body →
        arguments.length = callee.type.parameters.length) ∧
      (∀ info body, .expr (.conjure info body) ∈ walkStmts program.body →
        ∃ type, ∀ value ∈ returned body, value.ConvertsTo type ∨ PutOff final value) ∧
      (TypeConsistent program ↔
        ∀ node ∈ walkStmts program.body, ∀ value target, Flow node value target →
          PutOff final value → value.ConvertsTo target) := by
  obtain ⟨final, ran, lawful⟩ := exists_lawful accepted
  refine ⟨final, ran, fun node member => (lawful node member).converts,
    fun info callee arguments member => (lawful _ member).arity info callee arguments rfl,
    fun info body member => (lawful _ member).conjured info body rfl, ?_, ?_⟩
  · intro consistent node member value target flow _
    exact consistent node member value target flow
  · intro convert node member value target flow
    obtain converts | putOff := (lawful node member).converts value target flow
    · exact converts
    · exact convert node member value target flow putOff

/-- A text flows into an integer where its type came too late. -/
theorem typeConsistent_iff_lateProgram :
    analyze lateSource = .ok lateProgram ∧ ¬ TypeConsistent lateProgram ∧
      ∃ final, (ofSource lateSource).run .initial = .ok lateProgram final ∧
        ∃ node ∈ walkStmts lateProgram.body, ∃ value target, Flow node value target ∧
          PutOff final value ∧ ¬ value.ConvertsTo target := by
  have member : Node.stmt (lateProgram.body.head (by decide)) ∈ walkStmts lateProgram.body :=
    List.mem_cons_self
  have flow : Flow (.stmt (lateProgram.body.head (by decide))) _ _ := Flow.declare _ _ _
  obtain ⟨final, ran, converts, -, -, consistent⟩ := typeConsistent_iff analyze_lateSource
  have refused : ¬ Expr.ConvertsTo (.call ⟨.string, ⟨1, 16⟩⟩
      (.function ⟨.function [] .any, ⟨1, 16⟩⟩ lateFunction) []) (.int .w32) := by
    simp [Expr.ConvertsTo, Ty.canConvert, Expr.type, Expr.info]
  have putOff := (converts _ member _ _ flow).resolve_left refused
  exact ⟨analyze_lateSource, fun all => refused (all _ member _ _ flow), final, ran, _, member, _, _,
    flow, putOff, refused⟩

end Analysis

end GlyphCompiler
