/-
# Every node of an accepted program is lawful

The proof follows the rules of analysis. Whatever is read in the middle of an
analysis is judged by the state at its end, which only grows from there on.
-/

import GlyphCompiler.Proofs.Analysis.Settled

namespace GlyphCompiler

namespace Analysis

variable {final before middle after : State} {scopes : Scopes}

theorem Converts.convertsTo {value : Expr} {target : Ty} (converts : Converts value target) :
    value.ConvertsTo target := by
  obtain ⟨known, isKnown, converts⟩ := converts
  simpa [Expr.ConvertsTo, Expr.known, isKnown] using converts

/-! ## Whole numbers -/

theorem whole_of_isLiteral {literal : Expr} (isLiteral : IsLiteral literal) : Whole literal := by
  cases isLiteral with
  | integer position value short => exact ⟨nofun, fun _ => ⟨value, rfl⟩⟩
  | decimal position value => exact ⟨nofun, nofun⟩
  | _ => trivial

theorem AnalyzesCall.whole {position : Position} {callee : Surface.Ident}
    {written : List Surface.Expr} {value : Expr}
    (analyzes : AnalyzesCall scopes position callee written before (.expression value) after) :
    Whole value := by
  cases analyzes <;> trivial

theorem AnalyzesCall.whole_withType {position : Position} {callee : Surface.Ident}
    {written : List Surface.Expr} {value : Expr}
    (analyzes : AnalyzesCall scopes position callee written before (.expression value) after)
    (type : Ty) : Whole ((settle final value).withType type) := by
  cases analyzes <;> trivial

theorem AnalyzesExpr.whole {written : Surface.Expr} {value : Expr}
    (analyzes : AnalyzesExpr scopes written before value after) : Whole value := by
  cases analyzes with
  | literal isLiteral => exact whole_of_isLiteral isLiteral
  | @binary _ _ operator _ _ _ _ _ left right =>
    cases operator with
    | sub =>
      intro open_
      have type : resultType .sub left.type right.type =
          if left.type = .any then right.type else left.type := rfl
      by_cases isAny : left.type = .any
      · exact .inr (.inl isAny)
      · have same : resultType .sub left.type right.type = left.type := by rw [type, if_neg isAny]
        have ofLeft : left.type.isIntegral = true ∨ left.type = .any := same ▸ open_
        exact ofLeft.imp_right .inl
    | _ => trivial
  | call calls => exact calls.whole
  | _ => trivial

theorem AnalyzesValue.whole {written : Surface.Expr} {value : Expr}
    (analyzes : AnalyzesValue scopes written before value after) : Whole value := by
  cases analyzes with
  | value analyzes => exact analyzes.whole

/-! ## Lawful nodes -/

theorem Lawful.ofExpr {value : Expr} (noCall : ∀ info callee arguments, value ≠ .call info callee arguments)
    (noConjure : ∀ info body, value ≠ .conjure info body)
    (resolved : ∀ part parameter, (part, parameter) ∈ (Node.expr value).values →
      Resolved part parameter) (whole : Whole value) : Lawful final (.expr value) where
  resolved := resolved
  converts part target flow := by
    cases flow with
    | argument info callee arguments => exact absurd rfl (noCall info callee arguments)
  arity info callee arguments same := absurd (Node.expr.inj same) (noCall info callee arguments)
  conjured info body same := absurd (Node.expr.inj same) (noConjure info body)
  whole expression same := Node.expr.inj same ▸ whole

theorem Lawful.ofStmt {statement : Stmt}
    (resolved : ∀ part parameter, (part, parameter) ∈ (Node.stmt statement).values →
      Resolved part parameter)
    (converts : ∀ value target, Flow (.stmt statement) value target →
      value.ConvertsTo target ∨ PutOff final value) : Lawful final (.stmt statement) where
  resolved := resolved
  converts := converts
  arity _ _ _ same := nomatch same
  conjured _ _ same := nomatch same
  whole _ same := nomatch same

/-- An expression stands for a lawful value. -/
structure LawfulValue (final : State) (value : Expr) : Prop where
  all : (Node.expr (settle final value)).All (Lawful final)
  accounted : Accounted final value

/-- Arguments that have been passed are lawful. -/
def LawfulPassed (final : State) : Passing → List Expr → Prop
  | .into parameters, arguments => ∀ argument parameter,
      (argument, parameter) ∈ passed (settleAll final arguments) parameters →
        Resolved argument parameter ∧ ∀ type, parameter = some type → argument.ConvertsTo type
  | .values, arguments => ∀ argument ∈ arguments, Accounted final argument
  | .plain, _ => True

/-- An expression whose parts all stand for values is lawful if they are. -/
theorem all_of_parts {value : Expr} (parts : List Expr)
    (children : value.children = parts.map fun part => .expr (settle final part))
    (noCall : ∀ info callee arguments, value ≠ .call info callee arguments)
    (noConjure : ∀ info body, value ≠ .conjure info body) (whole : Whole value)
    (lawful : ∀ part ∈ parts, LawfulValue final part) : (Node.expr value).All (Lawful final) := by
  refine Node.all_iff.mpr ⟨.ofExpr noCall noConjure ?_ whole, ?_⟩
  · have values : (Node.expr value).values = parts.map fun part => (settle final part, none) := by
      have same : (Node.expr value).values =
          (value.children.filterMap Node.expr?).map fun expression => (expression, none) := by
        cases value with
        | call info callee arguments => exact absurd rfl (noCall info callee arguments)
        | _ => rfl
      rw [same, children]
      simp [List.filterMap_map, Node.expr?, Function.comp_def]
    intro part parameter member
    rw [values] at member
    obtain ⟨raw, rawMember, same⟩ := List.mem_map.mp member
    cases same
    exact (lawful raw rawMember).accounted.resolved
  · intro child member
    rw [Node.children, children] at member
    obtain ⟨raw, rawMember, rfl⟩ := List.mem_map.mp member
    exact (lawful raw rawMember).all

/-- A statement whose only part stands for a value is lawful if that is, and if the value
converts to the type that it flows into. -/
theorem all_of_part {statement : Stmt} {value : Expr}
    (children : statement.children = [.expr (settle final value)])
    (values : (Node.stmt statement).values = [(settle final value, none)])
    (lawful : LawfulValue final value)
    (converts : ∀ part target, Flow (.stmt statement) part target →
      part.ConvertsTo target ∨ PutOff final part) : (Node.stmt statement).All (Lawful final) := by
  refine Node.all_iff.mpr ⟨.ofStmt ?_ converts, ?_⟩
  · rw [values]
    simpa using lawful.accounted.resolved
  · rw [Node.children, children]
    simpa using lawful.all

theorem values_withType (type : Ty) (value : Expr) :
    (Node.expr (value.withType type)).values = (Node.expr value).values := by
  cases value <;> rfl

/-- A node stays lawful when it gets another type, as long as its numbers fit. -/
theorem all_withType {value : Expr} {type : Ty} (all : (Node.expr value).All (Lawful final))
    (whole : Whole (value.withType type)) : (Node.expr (value.withType type)).All (Lawful final) := by
  obtain ⟨root, below⟩ := Node.all_iff.mp all
  refine Node.all_iff.mpr ⟨⟨?_, ?_, ?_, ?_, ?_⟩, ?_⟩
  · rw [values_withType]
    exact root.resolved
  · intro part target flow
    cases value with
    | call info callee arguments =>
      cases flow with
      | argument _ _ _ pair => exact root.converts _ _ (.argument info callee arguments pair)
    | _ => cases flow
  · intro info callee arguments same
    cases value with
    | call _ _ _ =>
      cases same
      exact root.arity _ _ _ rfl
    | _ => cases same
  · intro info body same
    cases value with
    | conjure _ _ =>
      cases same
      exact root.conjured _ _ rfl
    | _ => cases same
  · intro expression same
    exact Node.expr.inj same ▸ whole
  · simpa [Node.children] using below

/-- What an argument becomes when it is passed is lawful. -/
theorem LawfulValue.all_passed {value : Expr} {parameter : Ty} (lawful : LawfulValue final value)
    (whole : Whole value) (converts : value.ConvertsTo parameter) :
    (Node.expr (settle final (if parameter = .any then value else value.withType parameter))).All
      (Lawful final) := by
  split
  · exact lawful.all
  · next notAny =>
    rw [settle_withType notAny]
    refine all_withType lawful.all ?_
    rw [← settle_withType notAny]
    exact whole_settle (whole_withType whole converts notAny)

/-- An argument converts to its parameter, whose type it has unless that is open. -/
theorem convertsTo_passed (value : Expr) (parameter : Ty) :
    (settle final (if parameter = .any then value else value.withType parameter)).ConvertsTo
      parameter := by
  unfold Expr.ConvertsTo
  split
  · next isAny =>
    rw [isAny]
    exact Ty.canConvert_any _ _
  · next notAny =>
    rw [settle_withType notAny, Expr.type_withType]
    exact Ty.canConvert_self _ _

/-- What a call comes to is lawful. -/
def LawfulOutcome (final : State) : Outcome → Prop
  | .expression value => (Node.expr (settle final value)).All (Lawful final)
  | .printed value => LawfulValue final value

/-- The statements of a body are lawful, and what they return converts to the result of
the function around them. -/
structure LawfulBody (final : State) (owner : Option Function) (body : List Stmt) : Prop where
  all : ∀ statement ∈ body, (Node.stmt (settleStmt final statement)).All (Lawful final)
  returns : ∀ function, owner = some function → ∀ value ∈ returned (settleBody final body),
    value.ConvertsTo (final.current function).result ∨ PutOff final value

namespace LawfulBody

variable {owner : Option Function} {body : List Stmt} {statement : Stmt}

theorem nil : LawfulBody final owner [] := ⟨nofun, nofun⟩

theorem cons (first : LawfulBody final owner [statement]) (rest : LawfulBody final owner body) :
    LawfulBody final owner (statement :: body) where
  all other member := by
    obtain rfl | member := List.mem_cons.mp member
    · exact first.all other List.mem_cons_self
    · exact rest.all other member
  returns function isOwner value member := by
    obtain here | there := List.mem_append.mp member
    · exact first.returns function isOwner value (by simpa [settleBody, returned] using here)
    · exact rest.returns function isOwner value there

/-- A statement that returns nothing is lawful if it is so as a node. -/
theorem single (returns : (settleStmt final statement).returned = [])
    (all : (Node.stmt (settleStmt final statement)).All (Lawful final)) :
    LawfulBody final owner [statement] where
  all other member := by
    rw [List.mem_singleton.mp member]
    exact all
  returns function isOwner value member := by
    simp [settleBody, GlyphCompiler.returned, returns] at member

end LawfulBody

/-- The nodes of a lawful body are lawful. -/
theorem LawfulBody.all_children {owner : Option Function} {body : List Stmt}
    (lawful : LawfulBody final owner body) :
    ∀ child ∈ (settleBody final body).map Node.stmt, child.All (Lawful final) := by
  rw [settleBody_eq_map]
  simpa using lawful.all

/-- A statement is lawful if it holds no value and the statements below it are lawful. -/
theorem all_of_bodies {statement : Stmt} (values : (Node.stmt statement).values = [])
    (flows : ∀ value target, ¬ Flow (.stmt statement) value target)
    (children : ∀ child ∈ statement.children, child.All (Lawful final)) :
    (Node.stmt statement).All (Lawful final) := by
  refine Node.all_iff.mpr ⟨.ofStmt ?_ fun value target flow => absurd flow (flows value target), children⟩
  rw [values]
  nofun

/-! ## Calls -/

theorem mem_passed_of_mem_zip {arguments : List Expr} {parameters : List Ty} {argument : Expr}
    {parameter : Ty} (pair : (argument, parameter) ∈ arguments.zip parameters) :
    (argument, some parameter) ∈ passed arguments parameters := by
  induction arguments generalizing parameters with
  | nil => simp at pair
  | cons first arguments ih =>
    cases parameters with
    | nil => simp at pair
    | cons type parameters =>
      obtain same | member := List.mem_cons.mp pair
      · cases same
        exact List.mem_cons_self
      · exact List.mem_cons_of_mem _ (ih member)

/-- A call of something with parameters is lawful if its arguments are. -/
theorem all_callee : (callee : Callee) → (Node.expr callee.toExpr).All (Lawful final)
  | .function _ _ => all_of_parts [] rfl nofun nofun trivial nofun
  | .reference _ => all_of_parts [] rfl nofun nofun trivial nofun

theorem all_call {info : Info} {callee : Callee} {arguments : List Expr}
    (arity : arguments.length = callee.type.parameters.length)
    (all : ∀ argument ∈ arguments, (Node.expr (settle final argument)).All (Lawful final))
    (lawful : LawfulPassed final (.into callee.type.parameters) arguments) :
    (Node.expr (settle final (.call info callee arguments))).All (Lawful final) := by
  have type : (final.settleCallee callee).type = callee.type := by cases callee <;> rfl
  refine Node.all_iff.mpr ⟨⟨?_, ?_, ?_, ?_, ?_⟩, ?_⟩
  · intro part parameter member
    rw [settle, Node.values, type] at member
    exact (lawful part parameter member).1
  · intro part target flow
    rw [settle] at flow
    cases flow with
    | argument _ _ _ pair =>
      rw [type] at pair
      exact .inl ((lawful _ _ (mem_passed_of_mem_zip pair)).2 _ rfl)
  · intro _ _ _ same
    cases same
    rw [type, settleAll_eq_map, List.length_map, arity]
  · intro _ _ same
    cases same
  · intro _ same
    cases same
    trivial
  · intro child member
    rw [settle, settleAll_eq_map, Node.children, Expr.children] at member
    obtain rfl | member := List.mem_cons.mp member
    · exact all_callee _
    · rw [List.map_map] at member
      obtain ⟨argument, argumentMember, rfl⟩ := List.mem_map.mp member
      exact all argument argumentMember

/-! ## Statements -/

theorem Stands.inferredIn {region : Region} {id : Nat} (stands : Stands region before)
    (inside : fixable region.scopes region.ahead id) : inferredIn region.scopes id := by
  obtain ⟨function, place, inferred, same⟩ := inside
  exact ⟨function, place.elim mem_visible_of_owner (stands.ahead function), inferred, same⟩

theorem inferredIn_of_owner {inner : Scopes} {id : Nat}
    (owner : inner.innermost.owner = scopes.innermost.owner) (inside : fixable inner [] id) :
    inferredIn scopes id := by
  obtain ⟨function, isOwner | member, inferred, same⟩ := inside
  · exact ⟨function, mem_visible_of_owner (owner ▸ isOwner), inferred, same⟩
  · cases member

/-- What comes after a body also comes after what is before the body. -/
theorem Grows.inside {inner : Scopes} (grows : Grows (fixable inner []) before middle)
    (owner : inner.innermost.owner = scopes.innermost.owner)
    (later : Grows (inferredIn scopes) middle final) : Grows (inferredIn scopes) before final :=
  (grows.mono fun _ _ => inferredIn_of_owner owner).trans later

/-- What comes after a function also comes after its body. -/
theorem Stands.inBody {inner : Scopes} {function : Function} {ahead : List Function}
    (stands : Stands ⟨scopes, function :: ahead⟩ before)
    (seen : ∀ other, other ∈ visible inner ↔ other = function ∨ other ∈ visible scopes)
    (grows : Grows (fixable inner []) before after)
    (later : Grows (Analysis.inferredIn scopes) (after.finishing function) final) :
    Grows (Analysis.inferredIn inner) after final := by
  have here : function ∈ visible scopes := stands.ahead function List.mem_cons_self
  have bound := (stands.sound.numbered function here).trans_le grows.nextId
  have finished : Grows (Analysis.inferredIn scopes) after final :=
    (Grows.finishing bound fun inferred => ⟨function, here, inferred, rfl⟩).trans later
  exact finished.wider fun other member => (seen other).mpr (.inr member)

/-- What comes after some statements also comes after the first of them. -/
theorem Advances.later {region next : Region} (advances : Advances region before next middle)
    (stands : Stands region before) (rest : Grows (fixable next.scopes next.ahead) middle after)
    (later : Grows (inferredIn region.scopes) after final) :
    Grows (inferredIn region.scopes) middle final := by
  refine (rest.mono fun id _ inside => ?_).trans later
  obtain ⟨function, owner | member, inferred, same⟩ := inside
  · exact ⟨function, mem_visible_of_owner (advances.owner ▸ owner), inferred, same⟩
  · exact ⟨function, stands.ahead function (advances.ahead function member), inferred, same⟩

/-- A function whose result is known keeps it to the end. -/
theorem Sound.current_known {function : Function} (sound : Sound before (visible scopes))
    (later : Grows (inferredIn scopes) before final) (member : function ∈ visible scopes)
    (known : before.isPending function = false) : final.current function = before.current function := by
  cases inferred : function.inferred with
  | false =>
    rw [sound.current_declared later member inferred,
      current_of_unknown (sound.declared function member inferred)]
  | true =>
    cases found : before.results.lookup function.id with
    | none => simp [State.isPending, inferred, found] at known
    | some type => simp [State.current, found, later.kept _ _ found]

theorem LawfulValue.branch {owner : Option Function} {position : Position} {condition : Expr}
    {consequent alternative : List Stmt} (lawful : LawfulValue final condition)
    (first : LawfulBody final owner consequent) (second : LawfulBody final owner alternative) :
    LawfulBody final owner [.branch position condition consequent alternative] := by
  refine ⟨?_, ?_⟩
  · rintro statement (_ | ⟨_, ⟨⟩⟩)
    refine Node.all_iff.mpr ⟨.ofStmt ?_ nofun, ?_⟩
    · simpa [settleStmt, Node.values, Node.children, Stmt.children] using lawful.accounted.resolved
    · intro child member
      obtain rfl | member := List.mem_cons.mp member
      · exact lawful.all
      · exact (List.mem_append.mp member).elim (first.all_children child) (second.all_children child)
  · intro function isOwner value member
    have either : value ∈ returned (settleBody final consequent) ∨
        value ∈ returned (settleBody final alternative) := by
      simpa [settleBody, settleStmt, returned, Stmt.returned] using member
    exact either.elim (first.returns function isOwner value) (second.returns function isOwner value)

theorem LawfulValue.loop {owner : Option Function} {position : Position} {condition : Expr}
    {body : List Stmt} (lawful : LawfulValue final condition) (inside : LawfulBody final owner body) :
    LawfulBody final owner [.loop position condition body] := by
  refine ⟨?_, ?_⟩
  · rintro statement (_ | ⟨_, ⟨⟩⟩)
    refine Node.all_iff.mpr ⟨.ofStmt ?_ nofun, ?_⟩
    · simpa [settleStmt, Node.values, Node.children, Stmt.children] using lawful.accounted.resolved
    · intro child member
      obtain rfl | member := List.mem_cons.mp member
      · exact lawful.all
      · exact inside.all_children child member
  · intro function isOwner value member
    exact inside.returns function isOwner value
      (by simpa [settleBody, settleStmt, returned, Stmt.returned] using member)

theorem LawfulValue.returnValue {owner : Option Function} {function : Function}
    {position : Position} {value : Expr} (lawful : LawfulValue final value)
    (isOwner : owner = some function)
    (converts : value.ConvertsTo (final.current function).result) :
    LawfulBody final owner [.returnValue position value] := by
  refine ⟨?_, ?_⟩
  · rintro statement (_ | ⟨_, ⟨⟩⟩)
    exact all_of_part rfl rfl lawful nofun
  · intro other isOther part member
    obtain rfl := Option.some.inj (isOwner.symm.trans isOther)
    obtain rfl : part = settle final value := by
      simpa [settleBody, settleStmt, returned, Stmt.returned] using member
    exact lawful.accounted.convertsTo converts

/-- The body of a function that has been read is lawful, and so is the function. -/
theorem LawfulBody.all_function {function : Function} {body : List Stmt} {position : Position}
    {target : Function} (lawful : LawfulBody final (some function) body)
    (same : final.current target = final.current function) :
    (Node.stmt (settleStmt final (.function position target body))).All (Lawful final) := by
  refine Node.all_iff.mpr ⟨.ofStmt ?_ ?_, ?_⟩
  · simp [settleStmt, Node.values, Node.children, Stmt.children]
  · intro value result flow
    rw [settleStmt] at flow
    cases flow with
    | returns _ _ _ member =>
      rw [same]
      exact lawful.returns function rfl value member
  · exact lawful.all_children

section

set_option linter.unusedSectionVars false

variable (allows : ∀ use ∈ final.deferred, final.Allows use)

include allows

mutual

theorem AnalyzesExpr.lawful {scopes : Scopes} {written : Surface.Expr} {before after : State}
    {value : Expr} :
    AnalyzesExpr scopes written before value after → Sound before (visible scopes) →
      Grows (inferredIn scopes) after final →
        (Node.expr (settle final value)).All (Lawful final)
  | .literal isLiteral, _, _ => by
    have whole := whole_of_isLiteral isLiteral
    cases isLiteral <;> exact all_of_parts [] rfl nofun nofun whole nofun
  | .reference _, _, _ => all_of_parts [] rfl nofun nofun trivial nofun
  | .function _, _, _ => all_of_parts [] rfl nofun nofun trivial nofun
  | .binary analyzesLeft analyzesRight, sound, later => by
    have first := analyzesLeft.grows sound
    have between := sound.grow first (by simp)
    have second := analyzesRight.grows between
    have left := analyzesLeft.lawful sound (second.weaken.trans later)
    have right := analyzesRight.lawful between later
    exact all_of_parts [_, _] rfl nofun nofun (whole_settle (AnalyzesExpr.binary analyzesLeft analyzesRight).whole)
      (by simpa using ⟨left, right⟩)
  | .unary analyzes, sound, later =>
    all_of_parts [_] rfl nofun nofun trivial (by simpa using analyzes.lawful sound later)
  | .addressOf _, _, _ => by
    refine Node.all_iff.mpr ⟨.ofExpr nofun nofun ?_ trivial, ?_⟩
    · rintro part parameter (_ | ⟨_, ⟨⟩⟩) function ⟨⟩
    · rintro child (_ | ⟨_, ⟨⟩⟩)
      exact all_of_parts [] rfl nofun nofun trivial nofun
  | .dereference analyzes pointer, sound, later => by
    have all := analyzes.lawful sound later
    have accounted := analyzes.accounted sound later allows (by simp [pointer]) (by simp [pointer])
    exact all_of_parts [_] rfl nofun nofun trivial (by simpa using ⟨all, accounted⟩)
  | .subscript analyzesBase analyzesIndex _ _, sound, later => by
    have first := analyzesBase.grows sound
    have between := sound.grow first (by simp)
    have second := analyzesIndex.grows between
    have base := analyzesBase.lawful sound (second.weaken.trans later)
    have index := analyzesIndex.lawful between later
    exact all_of_parts [_, _] rfl nofun nofun trivial (by simpa using ⟨base, index⟩)
  | .call analyzes, sound, later => analyzes.lawful sound later
  | .array analyzes _, sound, later => by
    obtain ⟨all, accounted⟩ := analyzes.lawful sound later
    refine all_of_parts _ ?_ nofun nofun trivial fun part member => ⟨all part member, accounted part member⟩
    simp [settle, Expr.children, settleAll_eq_map]
  | .conjure analyzes _, sound, later => by
    have extended : Sound (before.numbering 1)
        (⟨before.nextId, "conjure", [], .any, true⟩ :: visible scopes) :=
      sound.cons rfl fun _ => rfl
    have body := analyzes.lawful
      (extended.subset fun other member => List.mem_cons.mpr (mem_visible_functionBody.mp member))
      (later.wider fun function member => mem_visible_functionBody.mpr (.inr member))
    refine Node.all_iff.mpr ⟨⟨?_, nofun, nofun, ?_, ?_⟩, body.all_children⟩
    · simp [settle, Node.values, Node.children, Expr.children]
    · rintro info inner ⟨⟩
      exact ⟨_, body.returns _ rfl⟩
    · rintro expression ⟨⟩
      trivial

theorem AnalyzesValue.lawful {scopes : Scopes} {written : Surface.Expr} {before after : State}
    {value : Expr} :
    AnalyzesValue scopes written before value after → Sound before (visible scopes) →
      Grows (inferredIn scopes) after final → LawfulValue final value
  | .value analyzes isValue, sound, later => by
    have direct : Grows (inferredIn scopes) _ final := (Grows.usingValue _ _).trans later
    refine ⟨analyzes.lawful sound direct, analyzes.accounted sound direct allows isValue ?_⟩
    intro function calls _ pending
    refine later.deferred _ ?_
    obtain ⟨info, note, arguments, rfl⟩ := directCall?_eq_some.mp calls
    simp [State.usingValue, pending, State.deferring, Expr.position, Expr.info]

theorem AnalyzesExprs.lawful {scopes : Scopes} {passing : Passing} {written : List Surface.Expr}
    {before after : State} {arguments : List Expr} :
    AnalyzesExprs scopes passing written before arguments after → Sound before (visible scopes) →
      Grows (inferredIn scopes) after final →
        (∀ argument ∈ arguments, (Node.expr (settle final argument)).All (Lawful final)) ∧
          LawfulPassed final passing arguments
  | .nil, _, _ => by
    refine ⟨nofun, ?_⟩
    cases passing with
    | into parameters => nofun
    | values => nofun
    | plain => trivial
  | @AnalyzesExprs.into _ parameter _ _ _ _ _ _ argument _ analyzes converts analyzesRest, sound,
      later => by
    have first := (analyzes.grows sound).trans (.converting _ parameter argument)
    have between := sound.grow first (by simp)
    have rest : Grows (inferredIn scopes) _ _ := (analyzesRest.grows between).weaken
    have value := analyzes.lawful sound ((Grows.converting _ _ _).trans (rest.trans later))
    obtain ⟨all, lawful⟩ := analyzesRest.lawful between later
    refine ⟨?_, ?_⟩
    · intro other member
      obtain rfl | member := List.mem_cons.mp member
      · exact value.all_passed analyzes.whole converts.convertsTo
      · exact all other member
    · intro other type member
      obtain same | member := List.mem_cons.mp member
      · cases same
        refine ⟨value.accounted.resolved_passed, ?_⟩
        rintro type ⟨⟩
        exact convertsTo_passed argument parameter
      · exact lawful other type member
  | .value analyzes analyzesRest, sound, later => by
    have first := analyzes.grows sound
    have between := sound.grow first (by simp)
    have second := analyzesRest.grows between
    have argument := analyzes.lawful sound (second.weaken.trans later)
    obtain ⟨all, accounted⟩ := analyzesRest.lawful between later
    exact ⟨by simpa using ⟨argument.all, all⟩, by simpa [LawfulPassed] using ⟨argument.accounted, accounted⟩⟩
  | .plain analyzes analyzesRest, sound, later => by
    have first := analyzes.grows sound
    have between := sound.grow first (by simp)
    have second := analyzesRest.grows between
    have argument := analyzes.lawful sound (second.weaken.trans later)
    obtain ⟨all, -⟩ := analyzesRest.lawful between later
    exact ⟨by simpa using ⟨argument, all⟩, trivial⟩

theorem AnalyzesCall.lawful {scopes : Scopes} {position : Position} {callee : Surface.Ident}
    {written : List Surface.Expr} {before after : State} {outcome : Outcome} :
    AnalyzesCall scopes position callee written before outcome after →
      Sound before (visible scopes) → Grows (inferredIn scopes) after final →
        LawfulOutcome final outcome
  | .function _ arity analyzes, sound, later => by
    obtain ⟨all, lawful⟩ := analyzes.lawful sound later
    refine all_call ?_ all lawful
    rw [analyzes.length, ← arity]
    exact (List.length_map _).symm
  | .reference _ isFunction arity analyzes, sound, later => by
    obtain ⟨all, lawful⟩ := analyzes.lawful sound later
    refine all_call ?_ all ?_
    · rw [analyzes.length, Callee.type, isFunction, Ty.parameters, arity]
    · rw [Callee.type, isFunction]
      exact lawful
  | .typeOf analyzes, sound, later => all_of_parts [] rfl nofun nofun trivial nofun
  | .printed analyzes, sound, later => by
    obtain ⟨all, accounted⟩ := analyzes.lawful sound later
    exact ⟨all _ List.mem_cons_self, accounted _ List.mem_cons_self⟩
  | .apply analyzes, sound, later => by
    obtain ⟨all, accounted⟩ := analyzes.lawful sound later
    exact all_of_parts [_, _] rfl nofun nofun trivial fun part member =>
      ⟨all part member, accounted part member⟩
  | .supplant analyzes, sound, later => by
    obtain ⟨all, accounted⟩ := analyzes.lawful sound later
    exact all_of_parts [_, _, _] rfl nofun nofun trivial fun part member =>
      ⟨all part member, accounted part member⟩

theorem AnalyzesStmt.lawful {region next : Region} {written : Surface.Stmt} {before after : State}
    {statement : Stmt} :
    AnalyzesStmt region written before statement next after → Stands region before →
      Grows (inferredIn region.scopes) after final →
        LawfulBody final region.scopes.innermost.owner [statement]
  | .mainBlock _ body, stands, later => by
    have lawful := body.lawful stands.beginning.block
      (later.wider fun _ member => mem_visible_block.mpr member)
    refine .single rfl (all_of_bodies ?_ nofun lawful.all_children)
    simp [settleStmt, Node.values, Node.children, Stmt.children]
  | .mainStatement _ opens inner, stands, later => by
    have lawful := inner.lawful (stands.beginning.sound.opens opens)
      (later.wider fun function member => (opens.visible function).mpr (.inl member))
    exact .single rfl (all_of_bodies rfl nofun lawful.all_children)
  | .affix _, _, _ => .single rfl (all_of_bodies rfl nofun nofun)
  | .function visible _ owner _ analyzes _, stands, later => by
    have sound := stands.around visible
    have lawful := analyzes.lawful sound (stands.inBody visible (analyzes.grows sound) later)
    rw [owner] at lawful
    exact .single rfl (lawful.all_function (later.current_current _))
  | .conjureBinding analyzes _, stands, later => by
    have sound := stands.around fun _ => mem_visible_functionBody
    have lawful := analyzes.lawful sound
      (stands.inBody (fun _ => mem_visible_functionBody) (analyzes.grows sound) later)
    exact .single rfl (lawful.all_function rfl)
  | .declare analyzes _ _ converts _ _, stands, later => by
    have value := analyzes.lawful stands.sound
      ((Grows.converting _ _ _).trans ((Grows.declaring _ _ _).trans later))
    refine .single rfl (all_of_part rfl rfl value fun part target flow => ?_)
    cases flow
    exact value.accounted.convertsTo converts.convertsTo
  | .declareInferred analyzes _ _ type _ _, stands, later => by
    have value := analyzes.lawful stands.sound ((Grows.declaring _ _ _).trans later)
    refine .single rfl (all_of_part rfl rfl value fun part target flow => ?_)
    cases flow
    exact value.accounted.convertsTo (by rw [type]; exact Ty.canConvert_self _ _)
  | .assign _ _ analyzes converts, stands, later => by
    have value := analyzes.lawful stands.sound ((Grows.converting _ _ _).trans later)
    refine .single rfl (all_of_part rfl rfl value fun part target flow => ?_)
    cases flow
    exact value.accounted.convertsTo converts.convertsTo
  | .step _ _, _, _ => .single rfl (all_of_bodies rfl nofun nofun)
  | .branch analyzes isBool analyzesConsequent analyzesAlternative, stands, later => by
    have first := analyzes.grows stands.sound
    have afterFirst := stands.grow first.weaken
    have second := analyzesConsequent.grows afterFirst.block
    have afterSecond := afterFirst.grow (second.mono fun _ _ => fixable_of_owner rfl)
    have third := analyzesAlternative.grows afterSecond.block
    have laterSecond := third.inside (owner_block _) later
    have laterFirst := second.inside (owner_block _) laterSecond
    have condition : LawfulValue final _ := ⟨analyzes.lawful stands.sound laterFirst,
      analyzes.accounted stands.sound laterFirst allows (by simp [isBool]) (by simp [isBool])⟩
    have consequent := analyzesConsequent.lawful afterFirst.block
      (laterSecond.wider fun _ member => mem_visible_block.mpr member)
    have alternative := analyzesAlternative.lawful afterSecond.block
      (later.wider fun _ member => mem_visible_block.mpr member)
    exact condition.branch consequent alternative
  | .loop analyzes isBool analyzesBody, stands, later => by
    have first := analyzes.grows stands.sound
    have afterFirst := stands.grow first.weaken
    have second := analyzesBody.grows afterFirst.loop
    have laterFirst := second.inside (owner_loop _) later
    have condition : LawfulValue final _ := ⟨analyzes.lawful stands.sound laterFirst,
      analyzes.accounted stands.sound laterFirst allows (by simp [isBool]) (by simp [isBool])⟩
    have body := analyzesBody.lawful afterFirst.loop
      (later.wider fun _ member => mem_visible_loop.mpr member)
    exact condition.loop body
  | .breakLoop _, _, _ => .single rfl (all_of_bodies rfl nofun nofun)
  | .returnVoid _, _, _ => .single rfl (all_of_bodies rfl nofun nofun)
  | .returnFirst owner analyzes pending, stands, later => by
    have inside := stands.grow (analyzes.grows stands.sound).weaken
    have member := mem_visible_of_owner owner
    have inferred := (Bool.and_eq_true_iff.mp pending).1
    have allowed : inferredIn region.scopes _ := ⟨_, member, inferred, rfl⟩
    have direct := (Grows.fixing (inside.sound.numbered _ member) pending allowed).trans later
    have value := analyzes.lawful stands.sound direct
    refine value.returnValue owner ?_
    rw [current_of_lookup (later.kept _ _ (lookup_fixing_self _ _ _))]
    exact Ty.canConvert_self _ _
  | .returnAgain owner analyzes known _ converts, stands, later => by
    have inside := stands.grow (analyzes.grows stands.sound).weaken
    have direct := (Grows.converting _ _ _).trans later
    have value := analyzes.lawful stands.sound direct
    refine value.returnValue owner ?_
    rw [inside.sound.current_known direct (mem_visible_of_owner owner) known]
    exact converts.convertsTo
  | .exscribe analyzes, stands, later =>
    .single rfl (all_of_part rfl rfl (analyzes.lawful stands.sound later) nofun)
  | .evaluate analyzes, stands, later => by
    have lawful := analyzes.lawful stands.sound later
    refine .single rfl (all_of_bodies rfl nofun ?_)
    rintro child (_ | ⟨_, ⟨⟩⟩)
    exact all_withType lawful (analyzes.whole_withType _)
  | .printed analyzes, stands, later =>
    .single rfl (all_of_part rfl rfl (analyzes.lawful stands.sound later) nofun)
  | .block analyzes, stands, later => by
    have body := analyzes.lawful stands.block
      (later.wider fun _ member => mem_visible_block.mpr member)
    refine ⟨?_, ?_⟩
    · rintro statement (_ | ⟨_, ⟨⟩⟩)
      refine all_of_bodies ?_ nofun body.all_children
      simp [settleStmt, Node.values, Node.children, Stmt.children]
    · intro function owner value member
      exact body.returns function owner value (by simpa [settleBody, settleStmt, returned, Stmt.returned] using member)

theorem AnalyzesStmts.lawful {region : Region} {written : List Surface.Stmt}
    {before after : State} {body : List Stmt} :
    AnalyzesStmts region written before body after → Stands region before →
      Grows (inferredIn region.scopes) after final →
        LawfulBody final region.scopes.innermost.owner body
  | .nil, _, _ => .nil
  | .cons first rest, stands, later => by
    have advances := first.advances stands
    have tail := rest.lawful advances.stands (later.wider advances.seen)
    rw [advances.owner] at tail
    exact (first.lawful stands (advances.later stands (rest.grows advances.stands) later)).cons tail

theorem AnalyzesBody.lawful {scopes : Scopes} {written : List Surface.Stmt}
    {before after : State} {body : List Stmt} :
    AnalyzesBody scopes written before body after → Sound before (visible scopes) →
      Grows (inferredIn scopes) after final → LawfulBody final scopes.innermost.owner body
  | .body opens analyzes, sound, later => by
    have lawful := analyzes.lawful (sound.opens opens)
      (later.wider fun function member => (opens.visible function).mpr (.inl member))
    rw [opens.owner] at lawful
    exact lawful

end

end

end Analysis

end GlyphCompiler
