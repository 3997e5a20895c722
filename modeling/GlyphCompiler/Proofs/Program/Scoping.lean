/-
# Scoping of programs

A parameter can be seen in the body of its function, a variable from the statement
after its declaration on, and a function everywhere in the list of statements that
declares it; what can be seen from a statement can be seen from everything in it.
The body of a `main` is part of the list around it. Every mention of a variable or
function of a well scoped program is at a place from which its one declaration can
be seen.
-/

import GlyphCompiler.Proofs.Program.Nodes
import Mathlib.Data.List.Nodup

namespace GlyphCompiler

/-! ## Declarations -/

mutual

/-- The functions that a statement declares in the list that it stands in. -/
def Stmt.hoisted : Stmt → List Function
  | .function _ target _ => [target]
  | .main _ body => hoisted body
  | _ => []

/-- The functions that a list of statements declares. -/
def hoisted : List Stmt → List Function
  | [] => []
  | statement :: rest => statement.hoisted ++ hoisted rest

end

mutual

/-- The variables that a statement declares in the list that it stands in. -/
def Stmt.introduced : Stmt → List Variable
  | .declare _ target _ => [target]
  | .main _ body => introduced body
  | _ => []

/-- The variables that a list of statements declares. -/
def introduced : List Stmt → List Variable
  | [] => []
  | statement :: rest => statement.introduced ++ introduced rest

end

/-- The numbers of the variables and functions that a node declares by itself. A
function declares its parameters. -/
def Node.declares : Node → List Nat
  | .stmt (.declare _ target _) => [target.id]
  | .stmt (.function _ target _) => target.parameters.map Variable.id ++ [target.id]
  | _ => []

/-- The numbers of the variables and functions that are declared among some nodes. -/
def declaredAmong (nodes : List Node) : List Nat :=
  nodes.flatMap Node.declares

/-- The number of the variable or function that a node mentions by itself. What is
called by its name, and the operand of an address, are nodes of their own. -/
def Node.mentions? : Node → Option Nat
  | .expr (.reference use) => some use.target.id
  | .expr (.function _ target) => some target.id
  | .stmt (.assign _ target _) => some target.id
  | .stmt (.step _ _ target) => some target.id
  | _ => none

/-! ## What can be seen -/

/-- The variables and functions that can be seen from a place. -/
structure Sight where
  values : List Variable
  functions : List Function

namespace Sight

/-- Outside of a program nothing can be seen. -/
def outside : Sight := ⟨[], []⟩

/-- What can be seen from every statement of a list. -/
def opening (sight : Sight) (body : List Stmt) : Sight :=
  { sight with functions := hoisted body ++ sight.functions }

/-- What can be seen after a statement. -/
def after (sight : Sight) (statement : Stmt) : Sight :=
  { sight with values := statement.introduced ++ sight.values }

/-- What can be seen after some statements. -/
def afterAll (sight : Sight) (body : List Stmt) : Sight :=
  body.foldl after sight

/-- What can be seen inside a function. -/
def inside (sight : Sight) (function : Function) : Sight :=
  { sight with values := function.parameters ++ sight.values }

/-- Everything that is in one sight is in another. -/
structure Within (first second : Sight) : Prop where
  values : first.values ⊆ second.values
  functions : first.functions ⊆ second.functions

end Sight

/-- A callee is in sight. -/
def Callee.InSight : Callee → Sight → Prop
  | .function _ target, sight => target ∈ sight.functions
  | .reference use, sight => use.target ∈ sight.values

mutual

/-- Everything that an expression mentions is in sight where it is mentioned. -/
def Expr.InSight : Expr → Sight → Prop
  | .number _ _, _ | .bool _ _, _ | .string _ _, _ | .glyph _ _, _ | .codepoint _ _, _
  | .null _, _ | .typeOf _ _, _ => True
  | .reference use, sight => use.target ∈ sight.values
  | .function _ target, sight => target ∈ sight.functions
  | .addressOf _ operand, sight => operand.target ∈ sight.values
  | .binary _ _ left right, sight => left.InSight sight ∧ right.InSight sight
  | .unary _ _ operand, sight => operand.InSight sight
  | .dereference _ operand, sight => operand.InSight sight
  | .call _ callee arguments, sight => callee.InSight sight ∧ allInSight arguments sight
  | .subscript _ base index, sight => base.InSight sight ∧ index.InSight sight
  | .array _ elements, sight => allInSight elements sight
  | .conjure _ body, sight => bodyInSight body (sight.opening body)
  | .apply _ mapping items, sight => mapping.InSight sight ∧ items.InSight sight
  | .supplant _ text pattern replacement, sight =>
    text.InSight sight ∧ pattern.InSight sight ∧ replacement.InSight sight

/-- Everything that some expressions mention is in sight. -/
def allInSight : List Expr → Sight → Prop
  | [], _ => True
  | expression :: rest, sight => expression.InSight sight ∧ allInSight rest sight

/-- Everything that a statement mentions is in sight where it is mentioned. -/
def Stmt.InSight : Stmt → Sight → Prop
  | .affix _ _, _ | .breakLoop _, _ | .returnVoid _, _ => True
  | .declare _ _ value, sight => value.InSight sight
  | .function _ target body, sight => bodyInSight body ((sight.inside target).opening body)
  | .main _ body, sight => bodyInSight body sight
  | .assign _ target value, sight => target ∈ sight.values ∧ value.InSight sight
  | .step _ _ target, sight => target ∈ sight.values
  | .branch _ condition consequent alternative, sight =>
    condition.InSight sight ∧ bodyInSight consequent (sight.opening consequent) ∧
      bodyInSight alternative (sight.opening alternative)
  | .loop _ condition body, sight =>
    condition.InSight sight ∧ bodyInSight body (sight.opening body)
  | .returnValue _ value, sight => value.InSight sight
  | .exscribe _ value, sight => value.InSight sight
  | .evaluate _ expression, sight => expression.InSight sight
  | .block _ body, sight => bodyInSight body (sight.opening body)

/-- Everything that the statements of a list mention is in sight, if the functions that
the list declares are. -/
def bodyInSight : List Stmt → Sight → Prop
  | [], _ => True
  | statement :: rest, sight =>
    statement.InSight sight ∧ bodyInSight rest (sight.after statement)

end

/-- A program is well scoped: every mention is in sight of its declaration, and what is
mentioned is declared once. -/
structure Program.WellScoped (program : Program) : Prop where
  inSight : bodyInSight program.body (Sight.outside.opening program.body)
  declaredOnce : ∀ node ∈ walkStmts program.body, ∀ id, node.mentions? = some id →
    (declaredAmong (walkStmts program.body)).count id = 1

/-! ## Lists of statements -/

theorem hoisted_append (first second : List Stmt) :
    hoisted (first ++ second) = hoisted first ++ hoisted second := by
  induction first with
  | nil => rfl
  | cons statement first ih => rw [List.cons_append, hoisted, ih, hoisted, List.append_assoc]

theorem introduced_append (first second : List Stmt) :
    introduced (first ++ second) = introduced first ++ introduced second := by
  induction first with
  | nil => rfl
  | cons statement first ih =>
    rw [List.cons_append, introduced, ih, introduced, List.append_assoc]

namespace Sight

variable {first second third : Sight}

@[simp]
theorem mem_values_after {sight : Sight} {statement : Stmt} {target : Variable} :
    target ∈ (sight.after statement).values ↔
      target ∈ statement.introduced ∨ target ∈ sight.values :=
  List.mem_append

@[simp]
theorem functions_after (sight : Sight) (statement : Stmt) :
    (sight.after statement).functions = sight.functions := rfl

@[simp]
theorem mem_values_afterAll {sight : Sight} {body : List Stmt} {target : Variable} :
    target ∈ (sight.afterAll body).values ↔
      target ∈ introduced body ∨ target ∈ sight.values := by
  induction body generalizing sight with
  | nil => simp [afterAll, introduced]
  | cons statement body ih =>
    have split : sight.afterAll (statement :: body) = (sight.after statement).afterAll body := rfl
    rw [split, ih, mem_values_after, introduced, List.mem_append]
    grind

@[simp]
theorem functions_afterAll (sight : Sight) (body : List Stmt) :
    (sight.afterAll body).functions = sight.functions := by
  induction body generalizing sight with
  | nil => rfl
  | cons statement body ih => exact ih (sight.after statement)

@[simp]
theorem mem_functions_opening {sight : Sight} {body : List Stmt} {target : Function} :
    target ∈ (sight.opening body).functions ↔ target ∈ hoisted body ∨ target ∈ sight.functions :=
  List.mem_append

@[simp]
theorem values_opening (sight : Sight) (body : List Stmt) :
    (sight.opening body).values = sight.values := rfl

@[simp]
theorem mem_values_inside {sight : Sight} {function : Function} {target : Variable} :
    target ∈ (sight.inside function).values ↔
      target ∈ function.parameters ∨ target ∈ sight.values :=
  List.mem_append

@[simp]
theorem functions_inside (sight : Sight) (function : Function) :
    (sight.inside function).functions = sight.functions := rfl

theorem Within.refl (sight : Sight) : sight.Within sight :=
  ⟨List.Subset.refl _, List.Subset.refl _⟩

theorem Within.trans (left : first.Within second) (right : second.Within third) :
    first.Within third :=
  ⟨List.Subset.trans left.values right.values,
    List.Subset.trans left.functions right.functions⟩

/-- More can be seen from the statements of a list that declares more functions. -/
theorem Within.openingMore (within : first.Within second) {body other : List Stmt}
    (declares : hoisted body ⊆ hoisted other) :
    (first.opening body).Within (second.opening other) where
  values := within.values
  functions _ member := mem_functions_opening.mpr <|
    (mem_functions_opening.mp member).imp (declares ·) (within.functions ·)

theorem Within.opening (within : first.Within second) (body : List Stmt) :
    (first.opening body).Within (second.opening body) :=
  within.openingMore (List.Subset.refl _)

theorem Within.after (within : first.Within second) (statement : Stmt) :
    (first.after statement).Within (second.after statement) where
  values _ member := mem_values_after.mpr <|
    (mem_values_after.mp member).imp id (within.values ·)
  functions := within.functions

theorem Within.inside (within : first.Within second) (function : Function) :
    (first.inside function).Within (second.inside function) where
  values _ member := mem_values_inside.mpr <|
    (mem_values_inside.mp member).imp id (within.values ·)
  functions := within.functions

theorem within_opening (sight : Sight) (body : List Stmt) : sight.Within (sight.opening body) :=
  ⟨List.Subset.refl _, List.subset_append_right _ _⟩

/-- A statement hides nothing from the statements after it. -/
theorem within_after (sight : Sight) (statement : Stmt) : sight.Within (sight.after statement) :=
  ⟨List.subset_append_right _ _, List.Subset.refl _⟩

end Sight

/-! ## More in sight -/

theorem Callee.InSight.mono {callee : Callee} {first second : Sight} (inSight : callee.InSight first)
    (within : first.Within second) : callee.InSight second := by
  cases callee with
  | function info target => exact within.functions inSight
  | reference use => exact within.values inSight

mutual

/-- What is in sight stays so if more can be seen. -/
theorem Expr.inSight_mono : (expression : Expr) → {first second : Sight} →
    expression.InSight first → first.Within second → expression.InSight second
  | .number _ _, _, _, _, _ | .bool _ _, _, _, _, _ | .string _ _, _, _, _, _
  | .glyph _ _, _, _, _, _ | .codepoint _ _, _, _, _, _ | .null _, _, _, _, _
  | .typeOf _ _, _, _, _, _ => trivial
  | .reference _, _, _, seen, within => within.values seen
  | .function _ _, _, _, seen, within => within.functions seen
  | .addressOf _ _, _, _, seen, within => within.values seen
  | .binary _ _ left right, _, _, seen, within =>
    ⟨left.inSight_mono seen.1 within, right.inSight_mono seen.2 within⟩
  | .unary _ _ operand, _, _, seen, within => operand.inSight_mono seen within
  | .dereference _ operand, _, _, seen, within => operand.inSight_mono seen within
  | .call _ _ arguments, _, _, seen, within =>
    ⟨seen.1.mono within, allInSight_mono arguments seen.2 within⟩
  | .subscript _ base index, _, _, seen, within =>
    ⟨base.inSight_mono seen.1 within, index.inSight_mono seen.2 within⟩
  | .array _ elements, _, _, seen, within => allInSight_mono elements seen within
  | .conjure _ body, _, _, seen, within => bodyInSight_mono body seen (within.opening _)
  | .apply _ mapping items, _, _, seen, within =>
    ⟨mapping.inSight_mono seen.1 within, items.inSight_mono seen.2 within⟩
  | .supplant _ text pattern replacement, _, _, seen, within =>
    ⟨text.inSight_mono seen.1 within, pattern.inSight_mono seen.2.1 within,
      replacement.inSight_mono seen.2.2 within⟩

theorem allInSight_mono : (expressions : List Expr) → {first second : Sight} →
    allInSight expressions first → first.Within second → allInSight expressions second
  | [], _, _, _, _ => trivial
  | expression :: rest, _, _, seen, within =>
    ⟨expression.inSight_mono seen.1 within, allInSight_mono rest seen.2 within⟩

theorem Stmt.inSight_mono : (statement : Stmt) → {first second : Sight} →
    statement.InSight first → first.Within second → statement.InSight second
  | .affix _ _, _, _, _, _ | .breakLoop _, _, _, _, _ | .returnVoid _, _, _, _, _ => trivial
  | .declare _ _ value, _, _, seen, within => value.inSight_mono seen within
  | .function _ target body, _, _, seen, within =>
    bodyInSight_mono body seen ((within.inside target).opening _)
  | .main _ body, _, _, seen, within => bodyInSight_mono body seen within
  | .assign _ _ value, _, _, seen, within =>
    ⟨within.values seen.1, value.inSight_mono seen.2 within⟩
  | .step _ _ _, _, _, seen, within => within.values seen
  | .branch _ condition consequent alternative, _, _, seen, within =>
    ⟨condition.inSight_mono seen.1 within,
      bodyInSight_mono consequent seen.2.1 (within.opening _),
      bodyInSight_mono alternative seen.2.2 (within.opening _)⟩
  | .loop _ condition body, _, _, seen, within =>
    ⟨condition.inSight_mono seen.1 within, bodyInSight_mono body seen.2 (within.opening _)⟩
  | .returnValue _ value, _, _, seen, within => value.inSight_mono seen within
  | .exscribe _ value, _, _, seen, within => value.inSight_mono seen within
  | .evaluate _ expression, _, _, seen, within => expression.inSight_mono seen within
  | .block _ body, _, _, seen, within => bodyInSight_mono body seen (within.opening _)

theorem bodyInSight_mono : (body : List Stmt) → {first second : Sight} →
    bodyInSight body first → first.Within second → bodyInSight body second
  | [], _, _, _, _ => trivial
  | statement :: rest, _, _, seen, within =>
    ⟨statement.inSight_mono seen.1 within, bodyInSight_mono rest seen.2 (within.after _)⟩

end

/-- The statements of a list can see what those before them declare. -/
theorem bodyInSight_append (first second : List Stmt) (sight : Sight) :
    bodyInSight (first ++ second) sight ↔
      bodyInSight first sight ∧ bodyInSight second (sight.afterAll first) := by
  induction first generalizing sight with
  | nil => simp [bodyInSight, Sight.afterAll]
  | cons statement first ih =>
    rw [List.cons_append, bodyInSight, ih, bodyInSight, and_assoc]
    rfl

/-! ## What is mentioned is declared -/

theorem declaredAmong_append (first second : List Node) :
    declaredAmong (first ++ second) = declaredAmong first ++ declaredAmong second :=
  List.flatMap_append

theorem declaredAmong_cons (node : Node) (nodes : List Node) :
    declaredAmong (node :: nodes) = node.declares ++ declaredAmong nodes :=
  List.flatMap_cons

mutual

theorem Stmt.id_mem_of_hoisted : (statement : Stmt) → {target : Function} →
    target ∈ statement.hoisted → target.id ∈ declaredAmong statement.walk
  | .function _ _ _, target, member => by
    obtain rfl := List.mem_singleton.mp member
    simp [Stmt.walk, declaredAmong_cons, Node.declares]
  | .main _ body, target, member => by
    rw [Stmt.walk, declaredAmong_cons]
    exact List.mem_append_right _ (id_mem_of_hoisted body member)

theorem id_mem_of_hoisted : (body : List Stmt) → {target : Function} →
    target ∈ hoisted body → target.id ∈ declaredAmong (walkStmts body)
  | statement :: rest, target, member => by
    rw [walkStmts, declaredAmong_append, List.mem_append]
    exact (List.mem_append.mp member).imp statement.id_mem_of_hoisted (id_mem_of_hoisted rest)

end

mutual

theorem Stmt.id_mem_of_introduced : (statement : Stmt) → {target : Variable} →
    target ∈ statement.introduced → target.id ∈ declaredAmong statement.walk
  | .declare _ _ _, target, member => by
    obtain rfl := List.mem_singleton.mp member
    simp [Stmt.walk, declaredAmong_cons, Node.declares]
  | .main _ body, target, member => by
    rw [Stmt.walk, declaredAmong_cons]
    exact List.mem_append_right _ (id_mem_of_introduced body member)

theorem id_mem_of_introduced : (body : List Stmt) → {target : Variable} →
    target ∈ introduced body → target.id ∈ declaredAmong (walkStmts body)
  | statement :: rest, target, member => by
    rw [walkStmts, declaredAmong_append, List.mem_append]
    exact (List.mem_append.mp member).imp statement.id_mem_of_introduced (id_mem_of_introduced rest)

end

/-- If all that some nodes declare is known, so is all that they mention. -/
def Closed (known : Nat → Prop) (nodes : List Node) : Prop :=
  (∀ id ∈ declaredAmong nodes, known id) →
    ∀ node ∈ nodes, ∀ id, node.mentions? = some id → known id

/-- All that can be seen is known. -/
structure Sight.Known (known : Nat → Prop) (sight : Sight) : Prop where
  values : ∀ target ∈ sight.values, known target.id
  functions : ∀ target ∈ sight.functions, known target.id

section

variable {known : Nat → Prop}

theorem Closed.cons {node : Node} {nodes : List Node} (closed : Closed known nodes)
    (mentions : ∀ id, node.mentions? = some id → known id) : Closed known (node :: nodes) := by
  intro declared other member
  rw [declaredAmong_cons] at declared
  obtain rfl | member := List.mem_cons.mp member
  · exact mentions
  · exact closed (fun id inside => declared id (List.mem_append_right _ inside)) other member

theorem closed_nil : Closed known [] := nofun

theorem Closed.append {first second : List Node} (left : Closed known first)
    (right : Closed known second) : Closed known (first ++ second) := by
  intro declared node member
  rw [declaredAmong_append] at declared
  obtain member | member := List.mem_append.mp member
  · exact left (fun id inside => declared id (List.mem_append_left _ inside)) node member
  · exact right (fun id inside => declared id (List.mem_append_right _ inside)) node member

namespace Sight.Known

variable {sight : Sight}

theorem opening (seen : sight.Known known) {body : List Stmt}
    (declared : ∀ id ∈ declaredAmong (walkStmts body), known id) :
    (sight.opening body).Known known where
  values := seen.values
  functions _ member := (mem_functions_opening.mp member).elim
    (fun isHoisted => declared _ (id_mem_of_hoisted body isHoisted)) (seen.functions _)

theorem after (seen : sight.Known known) {statement : Stmt}
    (declared : ∀ id ∈ declaredAmong statement.walk, known id) :
    (sight.after statement).Known known where
  values _ member := (mem_values_after.mp member).elim
    (fun isIntroduced => declared _ (statement.id_mem_of_introduced isIntroduced))
    (seen.values _)
  functions := seen.functions

theorem inside (seen : sight.Known known) {function : Function}
    (declared : ∀ target ∈ function.parameters, known target.id) :
    (sight.inside function).Known known where
  values _ member := (mem_values_inside.mp member).elim (declared _) (seen.values _)
  functions := seen.functions

end Sight.Known

theorem Callee.known_of_inSight {callee : Callee} {sight : Sight} (inSight : callee.InSight sight)
    (seen : sight.Known known) (id : Nat) (mentions : (Node.expr callee.toExpr).mentions? = some id) :
    known id := by
  cases callee with
  | function info target =>
    cases mentions
    exact seen.functions _ inSight
  | reference use =>
    cases mentions
    exact seen.values _ inSight

mutual

theorem Expr.closed_walk : (expression : Expr) → {sight : Sight} → expression.InSight sight →
    sight.Known known → Closed known expression.walk
  | .number _ _, _, _, _ | .bool _ _, _, _, _ | .string _ _, _, _, _ | .glyph _ _, _, _, _
  | .codepoint _ _, _, _, _ | .null _, _, _, _ | .typeOf _ _, _, _, _ => closed_nil.cons nofun
  | .reference use, _, inSight, seen => closed_nil.cons (by
      rintro _ ⟨⟩
      exact seen.values _ inSight)
  | .function _ target, _, inSight, seen => closed_nil.cons (by
      rintro _ ⟨⟩
      exact seen.functions _ inSight)
  | .addressOf _ operand, _, inSight, seen => (closed_nil.cons (by
      rintro _ ⟨⟩
      exact seen.values _ inSight)).cons nofun
  | .binary _ _ left right, _, inSight, seen =>
    ((left.closed_walk inSight.1 seen).append (right.closed_walk inSight.2 seen)).cons nofun
  | .unary _ _ operand, _, inSight, seen => (operand.closed_walk inSight seen).cons nofun
  | .dereference _ operand, _, inSight, seen => (operand.closed_walk inSight seen).cons nofun
  | .call _ _ arguments, _, inSight, seen =>
    ((closed_walkExprs arguments inSight.2 seen).cons (Callee.known_of_inSight inSight.1 seen)).cons nofun
  | .subscript _ base index, _, inSight, seen =>
    ((base.closed_walk inSight.1 seen).append (index.closed_walk inSight.2 seen)).cons nofun
  | .array _ elements, _, inSight, seen => (closed_walkExprs elements inSight seen).cons nofun
  | .conjure _ body, _, inSight, seen => Closed.cons
      (fun declared => closed_walkStmts body inSight (seen.opening declared) declared) nofun
  | .apply _ mapping items, _, inSight, seen =>
    ((mapping.closed_walk inSight.1 seen).append (items.closed_walk inSight.2 seen)).cons nofun
  | .supplant _ text pattern replacement, _, inSight, seen =>
    (((text.closed_walk inSight.1 seen).append (pattern.closed_walk inSight.2.1 seen)).append
      (replacement.closed_walk inSight.2.2 seen)).cons nofun

theorem closed_walkExprs : (expressions : List Expr) → {sight : Sight} →
    allInSight expressions sight → sight.Known known → Closed known (walkExprs expressions)
  | [], _, _, _ => closed_nil
  | expression :: rest, _, inSight, seen =>
    (expression.closed_walk inSight.1 seen).append (closed_walkExprs rest inSight.2 seen)

theorem Stmt.closed_walk : (statement : Stmt) → {sight : Sight} → statement.InSight sight →
    sight.Known known → Closed known statement.walk
  | .affix _ _, _, _, _ | .breakLoop _, _, _, _ | .returnVoid _, _, _, _ => closed_nil.cons nofun
  | .declare _ _ value, _, inSight, seen => (value.closed_walk inSight seen).cons nofun
  | .function position target body, _, inSight, seen => by
    intro declared
    have outer : ∀ id ∈ (Node.stmt (.function position target body)).declares, known id := by
      intro id member
      rw [Stmt.walk, declaredAmong_cons] at declared
      exact declared id (List.mem_append_left _ member)
    refine Closed.cons (fun inner => closed_walkStmts body inSight
      ((seen.inside fun parameter member => ?_).opening inner) inner) nofun declared
    exact outer _ (List.mem_append_left _ (List.mem_map_of_mem member))
  | .main _ body, _, inSight, seen => (closed_walkStmts body inSight seen).cons nofun
  | .assign _ target value, _, inSight, seen => (value.closed_walk inSight.2 seen).cons (by
      rintro _ ⟨⟩
      exact seen.values _ inSight.1)
  | .step _ _ target, _, inSight, seen => closed_nil.cons (by
      rintro _ ⟨⟩
      exact seen.values _ inSight)
  | .branch _ condition consequent alternative, _, inSight, seen =>
    (((condition.closed_walk inSight.1 seen).append
      fun declared => closed_walkStmts consequent inSight.2.1 (seen.opening declared) declared).append
      fun declared => closed_walkStmts alternative inSight.2.2 (seen.opening declared) declared).cons
        nofun
  | .loop _ condition body, _, inSight, seen =>
    ((condition.closed_walk inSight.1 seen).append
      fun declared => closed_walkStmts body inSight.2 (seen.opening declared) declared).cons nofun
  | .returnValue _ value, _, inSight, seen => (value.closed_walk inSight seen).cons nofun
  | .exscribe _ value, _, inSight, seen => (value.closed_walk inSight seen).cons nofun
  | .evaluate _ expression, _, inSight, seen => (expression.closed_walk inSight seen).cons nofun
  | .block _ body, _, inSight, seen => Closed.cons
      (fun declared => closed_walkStmts body inSight (seen.opening declared) declared) nofun

theorem closed_walkStmts : (body : List Stmt) → {sight : Sight} → bodyInSight body sight →
    sight.Known known → Closed known (walkStmts body)
  | [], _, _, _ => closed_nil
  | statement :: rest, _, inSight, seen => by
    intro declared
    refine Closed.append (statement.closed_walk inSight.1 seen) ?_ declared
    refine closed_walkStmts rest inSight.2 (seen.after fun id member => declared id ?_)
    rw [walkStmts, declaredAmong_append]
    exact List.mem_append_left _ member

end

end

/-- A program in which everything is in sight, and nothing is declared twice. -/
structure Program.Scoped (program : Program) : Prop where
  inSight : bodyInSight program.body (Sight.outside.opening program.body)
  distinct : (declaredAmong (walkStmts program.body)).Nodup

theorem Program.Scoped.wellScoped {program : Program} (isScoped : program.Scoped) :
    program.WellScoped where
  inSight := isScoped.inSight
  declaredOnce := by
    have seen : (Sight.outside.opening program.body).Known
        (· ∈ declaredAmong (walkStmts program.body)) :=
      Sight.Known.opening ⟨nofun, nofun⟩ fun _ member => member
    intro node member id mentions
    have declared := closed_walkStmts program.body isScoped.inSight seen (fun _ member => member)
      node member id mentions
    exact List.count_eq_one_of_mem isScoped.distinct declared

end GlyphCompiler
