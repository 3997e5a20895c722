/-
# What the subscripts of a run come to

A constant is written once, where it is declared, with a content that fits its first value.
So a content that an expression comes to fits the expression, and every subscript that a
run evaluates finds as many contents in an array as elements are known of it.
-/

import GlyphCompiler.Proofs.Number.Order
import GlyphCompiler.Proofs.Program.Elements

namespace GlyphCompiler

/-! ## Places of elements -/

namespace Content

variable {Other : Type} {elements : List (Content Other)}

theorem isSome_elementAt?_iff {place : Number} : (elementAt? elements place).isSome = true ↔
    ∃ position < elements.length, place.eq (.int (position : Nat)) = true := by
  simp only [elementAt?, List.isSome_findSome?, List.any_eq_true, List.mem_range]
  refine exists_congr fun position => and_congr_right fun bound => ?_
  split <;> simp_all

/-- A whole number that is a place is the place of the element there. -/
theorem elementAt?_int {place : Nat} {element : Content Other}
    (isElement : elements[place]? = some element) :
    elementAt? elements (.int place) = some element := by
  obtain ⟨bound, -⟩ := List.getElem?_eq_some_iff.mp isElement
  have found : (elementAt? elements (.int place)).isSome = true :=
    isSome_elementAt?_iff.mpr ⟨place, bound, by simp [Number.eq_int]⟩
  obtain ⟨content, isFound⟩ := Option.isSome_iff_exists.mp found
  obtain ⟨position, -, same⟩ := List.exists_of_findSome?_eq_some isFound
  split at same
  · next equal =>
    rw [Number.eq_int, beq_iff_eq, Int.natCast_inj] at equal
    rw [isFound, ← same, ← equal, isElement]
  · cases same

/-! ## What is known of contents -/

theorem value_of_ofValue? {known : Value} {content : Content Other}
    (isKnown : ofValue? known = some content) : content.value = known := by
  cases known <;> cases isKnown <;> rfl

theorem exists_operands_of_equal? {left right : Value} {same : Bool}
    (compares : Value.equal? left right = some same) :
    ∃ first second : Content Other, ofValue? left = some first ∧ ofValue? right = some second := by
  cases left <;> cases right <;> first | exact ⟨_, _, rfl, rfl⟩ | simp [Value.equal?] at compares

/-- What is known of the result of an operator is known from its operands. -/
theorem exists_operands_of_binary {operator : BinaryOperator} {left right known : Value}
    {exact : Bool} {content : Content Other}
    (computes : Value.binary operator left right exact = .ok known)
    (isKnown : ofValue? known = some content) :
    ∃ first second : Content Other, ofValue? left = some first ∧ ofValue? right = some second := by
  unfold Value.binary at computes
  split at computes
  case h_3 | h_4 =>
    split at computes
    · next compares => exact exists_operands_of_equal? compares
    · cases computes
      cases isKnown
  case h_11 =>
    cases computes
    cases isKnown
  all_goals exact ⟨_, _, rfl, rfl⟩

theorem exists_operand_of_unary {operator : UnaryOperator} {operand : Value}
    {content : Content Other} (isKnown : ofValue? (Value.unary operator operand) = some content) :
    ∃ first : Content Other, ofValue? operand = some first := by
  unfold Value.unary at isKnown
  split at isKnown
  case h_3 => cases isKnown
  all_goals exact ⟨_, rfl⟩

/-- An operand that decides gives what the operator gives of both operands. -/
theorem eq_of_decides? {operator : BinaryOperator} {first second result content : Content Other}
    {exact : Bool} {known : Value} (decides : decides? operator first = some result)
    (computes : Value.binary operator first.value second.value exact = .ok known)
    (isKnown : ofValue? known = some content) : content = result := by
  unfold decides? at decides
  split at decides
  case h_3 => cases decides
  all_goals
    cases decides
    cases second <;> simp [Value.binary, value] at computes <;> subst computes <;> cases isKnown
    rfl

end Content

/-! ## Cells -/

/-- The numbers of the variables that are written where a node stands. -/
def Node.writes : Node → List Nat
  | .stmt (.declare _ target _) | .stmt (.assign _ target _) | .stmt (.step _ _ target) =>
    [target.id]
  | .stmt (.function _ target _) => target.parameters.map Variable.id
  | _ => []

/-- Constants are written only where they are declared. -/
def Program.WritesOnce (program : Program) : Prop :=
  ∀ position target value, .stmt (.declare position target value) ∈ walkStmts program.body →
    target.mutable = false → ∀ node ∈ walkStmts program.body, target.id ∈ node.writes →
      node = .stmt (.declare position target value)

section

variable {Other : Type}

/-- What is known of the content that an expression comes to. -/
structure Comes (program : Program) (expression : Expr) (content : Content Other) : Prop where
  fits : Fits program expression content
  known : ∀ value found, expression.staticValue = .ok value →
    Content.ofValue? value = some found → content = found

/-- The cells of a constant hold what fits its first value. -/
def FitsVariable (program : Program) (id : Nat) (content : Content Other) : Prop :=
  ∀ position target value, .stmt (.declare position target value) ∈ walkStmts program.body →
    target.mutable = false → target.id = id → Fits program value content

/-- A subscript of the program has been evaluated with what its operands come to. -/
structure Reads (program : Program) (access : Access Other) : Prop where
  stands : ∃ info, .expr (.subscript info access.base access.index) ∈ walkStmts program.body
  base : Comes program access.base access.array
  index : Comes program access.index access.place

/-- What holds of the memory while a program runs. -/
structure Remembers (program : Program) (memory : Memory Other) : Prop where
  cells : ∀ id entry content, memory.cells id entry = some content → FitsVariable program id content
  accesses : ∀ access ∈ memory.accesses, Reads program access

end

section

variable {program : Program} {Other : Type} {content : Content Other} {expression : Expr}

/-- Nothing is known of the content of most expressions. -/
theorem comes_of_unknown (noElements : ∀ elements, ¬ Elements program expression elements)
    (noValue : expression.staticValue = .ok .unknown) : Comes program expression content where
  fits := fits_of_unknown noElements
  known value found isValue isKnown := by
    cases noValue.symm.trans isValue
    cases isKnown

theorem comes_of_value {value : Value}
    (noElements : ∀ elements, ¬ Elements program expression elements)
    (isValue : expression.staticValue = .ok value)
    (isKnown : Content.ofValue? value = some content) :
    Comes program expression content where
  fits := fits_of_unknown noElements
  known other found isOther isFound := by
    cases isValue.symm.trans isOther
    exact Option.some.inj (isKnown.symm.trans isFound)

theorem Remembers.store {memory : Memory Other} {id entry : Nat}
    (remembers : Remembers program memory) (fits : FitsVariable program id content) :
    Remembers program { memory with
      cells := fun other round =>
        if other = id ∧ round = entry then some content else memory.cells other round } where
  cells other round found isFound := by
    dsimp only at isFound
    split at isFound
    · next same =>
      cases isFound
      exact same.1 ▸ fits
    · exact remembers.cells other round found isFound
  accesses := remembers.accesses

/-- Whatever a node writes fits, if the node declares no constant. -/
theorem fitsVariable_of_writes (once : program.WritesOnce) {node : Node}
    (visited : node ∈ walkStmts program.body) {id : Nat} (writes : id ∈ node.writes)
    (fits : ∀ position target value, node = .stmt (.declare position target value) →
      Fits program value content) : FitsVariable program id content := by
  rintro position target value declared constant rfl
  exact fits _ _ _ (once position target value declared constant node visited writes)

end

namespace Platform

variable {platform : Platform} {program : Program}

theorem ensures_load (info : Info) (target : Variable) (entry : Nat) :
    Ensures (Remembers program) (load target.id entry : platform.Run platform.Data)
      (Comes program (.reference ⟨info, target⟩)) := by
  refine .load fun memory content remembers holds => ⟨fits_constant ?_, ?_⟩
  · intro position value declared constant
    exact remembers.cells _ _ _ holds position target value declared constant rfl
  · intro value found isValue isKnown
    cases isValue
    cases isKnown

theorem ensures_store {id entry : Nat} {content : platform.Data}
    (fits : FitsVariable program id content) :
    Ensures (Remembers program) (store id entry content : platform.Run PUnit) fun _ => True :=
  .modify fun _ remembers => remembers.store fits

theorem ensures_enter (entryOf : Nat → Nat) (targets : List Variable) :
    Ensures (Remembers program) (enter entryOf targets : platform.Run (Nat → Nat))
      fun _ => True :=
  .enter fun _ remembers => ⟨remembers.cells, remembers.accesses⟩

theorem ensures_storeAll (entryOf : Nat → Nat) (pairs : List (Variable × platform.Data))
    (fits : ∀ pair ∈ pairs, FitsVariable program pair.1.id pair.2) :
    Ensures (Remembers program) (storeAll entryOf pairs : platform.Run PUnit) fun _ => True := by
  induction pairs with
  | nil => exact .pure trivial
  | cons pair pairs ih =>
    obtain ⟨here, rest⟩ := List.forall_mem_cons.mp fits
    exact .bind (ensures_store here) fun _ _ => ih rest

/-- What is found at a known place of an array is the element there. -/
theorem find?_array {contents : List platform.Data} {place : Nat} {element found : platform.Data}
    (isElement : contents[place]? = some element)
    (finds : find? (.array contents) (.number (.int place)) = some found) : found = element := by
  rw [find?, Content.elementAt?_int isElement] at finds
  exact (Option.some.inj finds).symm

theorem ensures_access {info : Info} {base index : Expr} {array place : platform.Data}
    (visited : .expr (.subscript info base index) ∈ walkStmts program.body)
    (comesBase : Comes program base array) (comesIndex : Comes program index place) :
    Ensures (Remembers program) (access base index array place)
      (Comes program (.subscript info base index)) := by
  refine .bind (.modify fun memory remembers => ⟨remembers.cells, ?_⟩) fun _ _ =>
    .need fun found finds => ⟨fits_element comesBase.fits ?_, ?_⟩
  · exact List.forall_mem_cons.mpr ⟨⟨⟨info, visited⟩, comesBase, comesIndex⟩, remembers.accesses⟩
  · rintro contents position element rfl isIndex isElement
    cases comesIndex.known _ _ isIndex rfl
    exact find?_array isElement finds
  · intro value known isValue isKnown
    cases isValue
    cases isKnown

/-- What is known of the result of an operator is what it gives of the operands. -/
theorem exists_second_of_known {info : Info} {operator : BinaryOperator} {left right : Expr}
    {first content : platform.Data} {value : Value} (comes : Comes program left first)
    (isValue : (Expr.binary info operator left right).staticValue = .ok value)
    (isKnown : Content.ofValue? value = some content) :
    ∃ (other : Value) (second : platform.Data), right.staticValue = .ok other ∧
      Content.ofValue? other = some second ∧
        Value.binary operator first.value second.value info.type.isIntegral = .ok value := by
  rw [Expr.staticValue] at isValue
  cases isLeft : left.staticValue with
  | error fault => simp [isLeft, bind, Except.bind] at isValue
  | ok leftValue =>
    cases isRight : right.staticValue with
    | error fault => simp [isLeft, isRight, bind, Except.bind] at isValue
    | ok rightValue =>
      have computes :
          Value.binary operator leftValue rightValue info.type.isIntegral = .ok value := by
        simpa [isLeft, isRight, bind, Except.bind] using isValue
      obtain ⟨leftContent, second, leftKnown, rightKnown⟩ :=
        Content.exists_operands_of_binary computes isKnown
      obtain rfl := comes.known _ _ isLeft leftKnown
      refine ⟨rightValue, second, rfl, rightKnown, ?_⟩
      rwa [Content.value_of_ofValue? leftKnown, Content.value_of_ofValue? rightKnown]

theorem comes_combine {info : Info} {operator : BinaryOperator} {left right : Expr}
    {first second content : platform.Data} (comesLeft : Comes program left first)
    (comesRight : Comes program right second)
    (gives : combine operator info.type.isIntegral first second = some content) :
    Comes program (.binary info operator left right) content where
  fits := fits_of_unknown nofun
  known value found isValue isKnown := by
    obtain ⟨other, _, isRight, rightKnown, computes⟩ :=
      exists_second_of_known comesLeft isValue isKnown
    obtain rfl := comesRight.known _ _ isRight rightKnown
    rw [combine, computes] at gives
    simpa [Except.toOption, isKnown] using gives.symm

theorem comes_decided {info : Info} {operator : BinaryOperator} {left right : Expr}
    {first content : platform.Data} (comes : Comes program left first)
    (decides : Content.decides? operator first = some content) :
    Comes program (.binary info operator left right) content where
  fits := fits_of_unknown nofun
  known value found isValue isKnown := by
    obtain ⟨_, _, -, -, computes⟩ := exists_second_of_known comes isValue isKnown
    exact (Content.eq_of_decides? decides computes isKnown).symm

theorem comes_single {info : Info} {operator : UnaryOperator} {operand : Expr}
    {inner content : platform.Data} (comes : Comes program operand inner)
    (gives : single operator inner = some content) :
    Comes program (.unary info operator operand) content where
  fits := fits_of_unknown nofun
  known value found isValue isKnown := by
    rw [Expr.staticValue] at isValue
    cases isOperand : operand.staticValue with
    | error fault => simp [isOperand, bind, Except.bind] at isValue
    | ok operandValue =>
      obtain rfl : Value.unary operator operandValue = value := by
        simpa [isOperand, bind, Except.bind, pure, Except.pure] using isValue
      obtain ⟨first, firstKnown⟩ := Content.exists_operand_of_unary isKnown
      obtain rfl := comes.known _ _ isOperand firstKnown
      rw [single, Content.value_of_ofValue? firstKnown, isKnown] at gives
      simpa using gives.symm

theorem comes_array {info : Info} {elements : List Expr} {contents : List platform.Data}
    (comes : List.Forall₂ (Comes program) elements contents) :
    Comes program (.array info elements) (.array contents) where
  fits := fits_array (comes.imp fun _ _ => Comes.fits)
  known value found isValue isKnown := by
    rw [Expr.staticValue] at isValue
    cases values : staticValues elements with
    | error fault => simp [values, bind, Except.bind] at isValue
    | ok values' =>
      simp only [values, bind, Except.bind, pure, Except.pure, Except.ok.injEq] at isValue
      subst isValue
      cases isKnown

theorem ensures_called (entryOf : Nat → Nat) (callee : Callee) :
    Ensures (Remembers program) (called entryOf callee : platform.Run platform.Data)
      fun _ => True := by
  cases callee with
  | function info target => exact .pure trivial
  | reference use => exact (ensures_load use.info use.target _).forget

section

-- The linter does not see what the members of a mutual block use through one another.
set_option linter.unusedSectionVars false

variable {invoke : platform.Data → List platform.Data → platform.Run platform.Data}
  (invokes : ∀ callee arguments,
    Ensures (Remembers program) (invoke callee arguments) fun _ => True)
  (once : program.WritesOnce) (rounds : Nat)

include invokes once

mutual

theorem ensures_evaluate : (expression : Expr) → .expr expression ∈ walkStmts program.body →
    ∀ entryOf, Ensures (Remembers program) (evaluate invoke rounds entryOf expression)
      (Comes program expression)
  | .number _ _, _, _ | .bool _ _, _, _ | .string _ _, _, _ | .glyph _ _, _, _
  | .codepoint _ _, _, _ | .null _, _, _ => .pure (comes_of_value nofun rfl rfl)
  | .function _ _, _, _ | .addressOf _ _, _, _ | .typeOf _ _, _, _ =>
    .pure (comes_of_unknown nofun rfl)
  | .reference _, _, _ => ensures_load _ _ _
  | .binary _ _ left right, visited, entryOf => by
    have below := children_subset_walkStmts visited
    have first := ensures_evaluate left (below List.mem_cons_self) entryOf
    have second := ensures_evaluate right (below (.tail _ List.mem_cons_self)) entryOf
    refine first.bind fun _ comesLeft => ?_
    split
    · next decides => exact .pure (comes_decided comesLeft decides)
    · refine second.bind fun _ comesRight => .need fun _ gives => ?_
      exact comes_combine comesLeft comesRight gives
  | .unary _ _ operand, visited, entryOf => by
    have evaluates := ensures_evaluate operand
      (children_subset_walkStmts visited List.mem_cons_self) entryOf
    exact evaluates.bind fun _ comes => .need fun _ gives => comes_single comes gives
  | .dereference _ operand, visited, entryOf => by
    have evaluates := ensures_evaluate operand
      (children_subset_walkStmts visited List.mem_cons_self) entryOf
    refine evaluates.bind fun pointer _ => ?_
    cases pointer with
    | pointer id entry => exact .load fun _ _ _ _ => comes_of_unknown nofun rfl
    | _ => exact .failure
  | .call _ callee arguments, visited, entryOf => by
    have below := children_subset_walkStmts visited
    have passes := ensures_evaluateAll arguments (fun _ listed => below (.tail _ listed)) entryOf
    refine (ensures_called entryOf callee).bind fun called _ => passes.bind fun contents _ => ?_
    exact (invokes called contents).mono fun _ _ => comes_of_unknown nofun rfl
  | .subscript _ base index, visited, entryOf => by
    have below := children_subset_walkStmts visited
    have first := ensures_evaluate base (below List.mem_cons_self) entryOf
    have second := ensures_evaluate index (below (.tail _ List.mem_cons_self)) entryOf
    refine first.bind fun _ comesBase => second.bind fun _ comesIndex => ?_
    exact ensures_access visited comesBase comesIndex
  | .array _ elements, visited, entryOf => by
    have evaluates := ensures_evaluateAll elements (children_subset_walkStmts visited) entryOf
    exact evaluates.bind fun _ comes => .pure (comes_array comes)
  | .conjure _ body, visited, entryOf => by
    have performs := ensures_performAll body (children_subset_walkStmts visited)
    refine (ensures_enter _ _).bind fun inner _ => (performs inner).bind fun _ _ => ?_
    exact .pure (comes_of_unknown nofun rfl)
  | .apply _ mapping items, visited, entryOf => by
    have below := children_subset_walkStmts visited
    have first := ensures_evaluate mapping (below List.mem_cons_self) entryOf
    have second := ensures_evaluate items (below (.tail _ List.mem_cons_self)) entryOf
    refine first.bind fun called _ => second.bind fun array _ => ?_
    cases array with
    | array contents =>
      have applies := Ensures.each (fun content => invokes called [content]) contents
      exact applies.bind fun _ _ => .pure (comes_of_unknown nofun rfl)
    | _ => exact .failure
  | .supplant _ text pattern replacement, visited, entryOf => by
    have below := children_subset_walkStmts visited
    have first := ensures_evaluate text (below List.mem_cons_self) entryOf
    have second := ensures_evaluate pattern (below (.tail _ List.mem_cons_self)) entryOf
    have third := ensures_evaluate replacement
      (below (.tail _ (.tail _ List.mem_cons_self))) entryOf
    refine first.bind fun _ _ => second.bind fun _ _ => third.bind fun _ _ => ?_
    exact .need fun _ _ => comes_of_unknown nofun rfl

theorem ensures_evaluateAll : (expressions : List Expr) →
    expressions.map Node.expr ⊆ walkStmts program.body →
      ∀ entryOf, Ensures (Remembers program) (evaluateAll invoke rounds entryOf expressions)
        (List.Forall₂ (Comes program) expressions)
  | [], _, _ => .pure .nil
  | expression :: rest, visited, entryOf => by
    have first := ensures_evaluate expression (visited List.mem_cons_self) entryOf
    have others := ensures_evaluateAll rest (fun _ listed => visited (.tail _ listed)) entryOf
    exact first.bind fun _ comes => others.bind fun _ come => .pure (.cons comes come)

theorem ensures_perform : (statement : Stmt) → .stmt statement ∈ walkStmts program.body →
    ∀ entryOf, Ensures (Remembers program) (perform invoke rounds entryOf statement)
      fun _ => True
  | .declare _ target value, visited, entryOf => by
    have evaluates := ensures_evaluate value
      (children_subset_walkStmts visited List.mem_cons_self) entryOf
    refine evaluates.bind fun content comes => (ensures_store ?_).bind fun _ _ => .pure trivial
    refine fitsVariable_of_writes once visited List.mem_cons_self fun _ _ _ same => ?_
    cases same
    exact comes.fits
  | .function _ _ _, _, _ | .affix _ _, _, _ | .breakLoop _, _, _ | .returnVoid _, _, _ =>
    .pure trivial
  | .main _ body, visited, entryOf =>
    ensures_performAll body (children_subset_walkStmts visited) entryOf
  | .assign _ target value, visited, entryOf => by
    have evaluates := ensures_evaluate value
      (children_subset_walkStmts visited List.mem_cons_self) entryOf
    have fits (content : platform.Data) : FitsVariable program target.id content :=
      fitsVariable_of_writes once visited List.mem_cons_self nofun
    refine evaluates.bind fun content _ => (ensures_load value.info target _).bind fun _ _ => ?_
    exact (ensures_store (fits content)).bind fun _ _ => .pure trivial
  | .step position step target, visited, entryOf => by
    have fits (content : platform.Data) : FitsVariable program target.id content :=
      fitsVariable_of_writes once visited List.mem_cons_self nofun
    refine (ensures_load ⟨target.type, position⟩ target _).bind fun _ _ => ?_
    refine .bind (.need fun _ _ => trivial) fun content _ => ?_
    exact (ensures_store (fits content)).bind fun _ _ => .pure trivial
  | .branch _ condition consequent alternative, visited, entryOf => by
    have below := children_subset_walkStmts visited
    have tests := ensures_evaluate condition (below List.mem_cons_self) entryOf
    have first := ensures_performAll consequent fun _ listed =>
      below (.tail _ (List.mem_append_left _ listed))
    have second := ensures_performAll alternative fun _ listed =>
      below (.tail _ (List.mem_append_right _ listed))
    refine tests.bind fun decides _ => ?_
    split
    · exact (ensures_enter _ _).bind fun inner _ => first inner
    · exact (ensures_enter _ _).bind fun inner _ => second inner
    · exact .failure
  | .loop _ condition body, visited, entryOf => by
    have below := children_subset_walkStmts visited
    have tests := ensures_evaluate condition (below List.mem_cons_self) entryOf
    have performs := ensures_performAll body fun _ listed => below (.tail _ listed)
    exact .repeatWhile tests.forget ((ensures_enter _ _).bind fun inner _ => performs inner) rounds
  | .returnValue _ value, visited, entryOf | .exscribe _ value, visited, entryOf
  | .evaluate _ value, visited, entryOf => by
    have evaluates := ensures_evaluate value
      (children_subset_walkStmts visited List.mem_cons_self) entryOf
    exact evaluates.bind fun _ _ => .pure trivial
  | .block _ body, visited, entryOf => by
    have performs := ensures_performAll body (children_subset_walkStmts visited)
    exact (ensures_enter _ _).bind fun inner _ => performs inner

theorem ensures_performAll : (body : List Stmt) → body.map Node.stmt ⊆ walkStmts program.body →
    ∀ entryOf, Ensures (Remembers program) (performAll invoke rounds entryOf body) fun _ => True
  | [], _, _ => .pure trivial
  | statement :: rest, visited, entryOf => by
    have first := ensures_perform statement (visited List.mem_cons_self) entryOf
    have others := ensures_performAll rest (fun _ listed => visited (.tail _ listed)) entryOf
    refine first.bind fun exit _ => ?_
    cases exit with
    | passed => exact others
    | broken | returned => exact .pure trivial

end

end

theorem mem_walkStmts_of_function? {id : Nat} {target : Function} {body : List Stmt}
    (found : program.function? id = some (target, body)) :
    ∃ position, .stmt (.function position target body) ∈ walkStmts program.body := by
  obtain ⟨node, visited, isFunction⟩ := List.exists_of_findSome?_eq_some found
  split at isFunction
  · next position other inner =>
    split at isFunction <;> cases isFunction
    exact ⟨position, visited⟩
  · cases isFunction

theorem ensures_invoke (once : program.WritesOnce) (fuel : Nat) (callee : platform.Data)
    (arguments : List platform.Data) :
    Ensures (Remembers program) (invoke platform program fuel callee arguments)
      fun _ => True := by
  induction fuel generalizing callee arguments with
  | zero => exact .failure
  | succ fuel ih =>
    cases callee with
    | closure function entryOf =>
      have finds : Ensures (Remembers program)
          (need (program.function? function) : platform.Run (Function × List Stmt))
          fun found => program.function? function = some found := .need fun _ found => found
      refine .bind finds fun ⟨target, body⟩ isFound => ?_
      obtain ⟨position, visited⟩ := mem_walkStmts_of_function? isFound
      refine .bind (ensures_enter _ _) fun inner _ => .bind (ensures_storeAll inner _ ?_)
        fun _ _ => .bind (ensures_performAll ih once fuel body ?_ inner) fun _ _ => .pure trivial
      · intro pair listed
        refine fitsVariable_of_writes once visited ?_ nofun
        exact List.mem_map_of_mem (List.of_mem_zip listed).1
      · exact children_subset_walkStmts visited
    | _ => exact .failure

/-- Every subscript that a run evaluates has been evaluated with what its operands come to. -/
theorem reads_of_mem_accesses (once : program.WritesOnce) {fuel : Nat}
    {access : Access platform.Other} (member : access ∈ accesses platform program fuel) :
    Reads program access := by
  have runs : Ensures (Remembers program) (run platform program fuel) fun _ => True :=
    .bind (ensures_enter _ _) fun entryOf _ => ensures_performAll (ensures_invoke once fuel) once
      fuel program.body (map_subset_walkStmts program.body) entryOf
  have remembers := (runs (.empty platform.Other) ⟨nofun, nofun⟩).1
  exact remembers.accesses access member

end Platform

end GlyphCompiler
