/-
# The owners of names

The variables and functions of a program own its names. A program names an owner
where it declares it and wherever it mentions it. In a scoped program whatever is
named is declared, as the same record, and two owners never share a number.
-/

import GlyphCompiler.Proofs.Program.Nodes
import GlyphCompiler.Proofs.Program.Scoping

namespace GlyphCompiler

/-- A variable or a function, which owns a name. -/
inductive Owner
  | value (target : Variable)
  | function (target : Function)
  deriving DecidableEq, Repr

namespace Owner

/-- The number of an owner. -/
def id : Owner → Nat
  | .value target => target.id
  | .function target => target.id

/-- The name that an owner has in the program. -/
def name : Owner → String
  | .value target => target.name
  | .function target => target.name

/-- Is an owner a function? -/
def isFunction : Owner → Bool
  | .value _ => false
  | .function _ => true

@[simp]
theorem id_value (target : Variable) : (value target).id = target.id := rfl

@[simp]
theorem id_function (target : Function) : (function target).id = target.id := rfl

@[simp]
theorem name_value (target : Variable) : (value target).name = target.name := rfl

@[simp]
theorem name_function (target : Function) : (function target).name = target.name := rfl

end Owner

/-- The owner of a callee. -/
def Callee.owner : Callee → Owner
  | .function _ target => .function target
  | .reference use => .value use.target

mutual

/-- What an expression names, in the order in which it is written out. -/
def Expr.uses : Expr → List Owner
  | .number _ _ | .bool _ _ | .string _ _ | .glyph _ _ | .codepoint _ _ | .null _
  | .typeOf _ _ => []
  | .reference use => [.value use.target]
  | .function _ target => [.function target]
  | .binary _ _ left right => left.uses ++ right.uses
  | .unary _ _ operand | .dereference _ operand => operand.uses
  | .addressOf _ operand => [.value operand.target]
  | .call _ callee arguments => callee.owner :: usesOfExprs arguments
  | .subscript _ base index => base.uses ++ index.uses
  | .array _ elements => usesOfExprs elements
  | .conjure _ body => usesOfBody body
  | .apply _ mapping items => items.uses ++ mapping.uses
  | .supplant _ text pattern replacement => text.uses ++ pattern.uses ++ replacement.uses

/-- What some expressions name. -/
def usesOfExprs : List Expr → List Owner
  | [] => []
  | first :: rest => first.uses ++ usesOfExprs rest

/-- What a statement names, in the order in which it is written out. -/
def Stmt.uses : Stmt → List Owner
  | .declare _ target value | .assign _ target value => .value target :: value.uses
  | .function _ target body =>
    .function target :: (target.parameters.map Owner.value ++ usesOfBody body)
  | .main _ body | .block _ body => usesOfBody body
  | .affix _ _ | .breakLoop _ | .returnVoid _ => []
  | .step _ _ target => [.value target]
  | .branch _ condition consequent alternative =>
    condition.uses ++ usesOfBody consequent ++ usesOfBody alternative
  | .loop _ condition body => condition.uses ++ usesOfBody body
  | .returnValue _ value | .exscribe _ value | .evaluate _ value => value.uses

/-- What some statements name. -/
def usesOfBody : List Stmt → List Owner
  | [] => []
  | first :: rest => first.uses ++ usesOfBody rest

end

attribute [grind =] Expr.uses usesOfExprs Stmt.uses usesOfBody

/-- What a program names, in the order in which it is written out. -/
def Program.uses (program : Program) : List Owner := usesOfBody program.body

/-! ## Declared owners -/

/-- The owners that a node declares by itself. A function declares its parameters. -/
def Node.owners : Node → List Owner
  | .stmt (.declare _ target _) => [.value target]
  | .stmt (.function _ target _) => target.parameters.map .value ++ [.function target]
  | _ => []

/-- The owners that are declared among some nodes. -/
def ownersAmong (nodes : List Node) : List Owner :=
  nodes.flatMap Node.owners

/-- The owners that a program declares. -/
def Program.owners (program : Program) : List Owner := ownersAmong (walkStmts program.body)

theorem ownersAmong_append (first second : List Node) :
    ownersAmong (first ++ second) = ownersAmong first ++ ownersAmong second :=
  List.flatMap_append

theorem ownersAmong_cons (node : Node) (nodes : List Node) :
    ownersAmong (node :: nodes) = node.owners ++ ownersAmong nodes :=
  List.flatMap_cons

theorem declares_eq (node : Node) : node.declares = node.owners.map Owner.id := by
  cases node with
  | expr expression => rfl
  | stmt statement =>
    cases statement with
    | function position target body =>
      rw [Node.declares, Node.owners, List.map_append, List.map_map]
      rfl
    | _ => rfl

/-- The numbers that are declared are those of the declared owners. -/
theorem declaredAmong_eq (nodes : List Node) :
    declaredAmong nodes = (ownersAmong nodes).map Owner.id := by
  rw [declaredAmong, ownersAmong, List.map_flatMap]
  exact congrArg (nodes.flatMap ·) (funext declares_eq)

mutual

theorem Stmt.owner_of_hoisted : (statement : Stmt) → {target : Function} →
    target ∈ statement.hoisted → .function target ∈ ownersAmong statement.walk
  | .function _ _ _, target, member => by
    obtain rfl := List.mem_singleton.mp member
    simp [Stmt.walk, ownersAmong_cons, Node.owners]
  | .main _ body, target, member => by
    rw [Stmt.walk, ownersAmong_cons]
    exact List.mem_append_right _ (owner_of_hoisted body member)

theorem owner_of_hoisted : (body : List Stmt) → {target : Function} →
    target ∈ hoisted body → .function target ∈ ownersAmong (walkStmts body)
  | statement :: rest, target, member => by
    rw [walkStmts, ownersAmong_append, List.mem_append]
    exact (List.mem_append.mp member).imp statement.owner_of_hoisted (owner_of_hoisted rest)

end

mutual

theorem Stmt.owner_of_introduced : (statement : Stmt) → {target : Variable} →
    target ∈ statement.introduced → .value target ∈ ownersAmong statement.walk
  | .declare _ _ _, target, member => by
    obtain rfl := List.mem_singleton.mp member
    simp [Stmt.walk, ownersAmong_cons, Node.owners]
  | .main _ body, target, member => by
    rw [Stmt.walk, ownersAmong_cons]
    exact List.mem_append_right _ (owner_of_introduced body member)

theorem owner_of_introduced : (body : List Stmt) → {target : Variable} →
    target ∈ introduced body → .value target ∈ ownersAmong (walkStmts body)
  | statement :: rest, target, member => by
    rw [walkStmts, ownersAmong_append, List.mem_append]
    exact (List.mem_append.mp member).imp statement.owner_of_introduced (owner_of_introduced rest)

end

/-! ## What is named is declared -/

/-- Every owner that can be seen is known. -/
structure Sight.Owned (known : Owner → Prop) (sight : Sight) : Prop where
  values : ∀ target ∈ sight.values, known (.value target)
  functions : ∀ target ∈ sight.functions, known (.function target)

section

variable {known : Owner → Prop}

namespace Sight.Owned

variable {sight : Sight}

theorem opening (seen : sight.Owned known) {body : List Stmt}
    (declared : ∀ owner ∈ ownersAmong (walkStmts body), known owner) :
    (sight.opening body).Owned known where
  values := seen.values
  functions _ member := (mem_functions_opening.mp member).elim
    (fun isHoisted => declared _ (owner_of_hoisted body isHoisted)) (seen.functions _)

theorem after (seen : sight.Owned known) {statement : Stmt}
    (declared : ∀ owner ∈ ownersAmong statement.walk, known owner) :
    (sight.after statement).Owned known where
  values _ member := (mem_values_after.mp member).elim
    (fun isIntroduced => declared _ (statement.owner_of_introduced isIntroduced))
    (seen.values _)
  functions := seen.functions

theorem inside (seen : sight.Owned known) {function : Function}
    (declared : ∀ target ∈ function.parameters, known (.value target)) :
    (sight.inside function).Owned known where
  values _ member := (mem_values_inside.mp member).elim (declared _) (seen.values _)
  functions := seen.functions

end Sight.Owned

theorem Callee.known_owner {callee : Callee} {sight : Sight} (inSight : callee.InSight sight)
    (seen : sight.Owned known) : known callee.owner := by
  cases callee with
  | function info target => exact seen.functions _ inSight
  | reference use => exact seen.values _ inSight

/-- If all that some nodes declare is known, so is all that is named. -/
def Owns (known : Owner → Prop) (nodes : List Node) (uses : List Owner) : Prop :=
  (∀ owner ∈ ownersAmong nodes, known owner) → ∀ owner ∈ uses, known owner

namespace Owns

variable {node : Node} {nodes more : List Node} {owner : Owner} {uses others : List Owner}

theorem nil (nodes : List Node) : Owns known nodes [] := by
  intro _ owner member
  cases member

theorem cons (isKnown : known owner) (owns : Owns known nodes uses) :
    Owns known nodes (owner :: uses) := by
  intro declared other member
  obtain rfl | member := List.mem_cons.mp member
  · exact isKnown
  · exact owns declared other member

theorem append (left : Owns known nodes uses) (right : Owns known more others) :
    Owns known (nodes ++ more) (uses ++ others) := by
  intro declared owner member
  rw [ownersAmong_append] at declared
  obtain member | member := List.mem_append.mp member
  · exact left (fun other inside => declared other (List.mem_append_left _ inside)) owner member
  · exact right (fun other inside => declared other (List.mem_append_right _ inside)) owner member

/-- A node that is visited before the others. -/
theorem below (owns : Owns known nodes uses) (node : Node) : Owns known (node :: nodes) uses := by
  intro declared
  rw [ownersAmong_cons] at declared
  exact owns fun other inside => declared other (List.mem_append_right _ inside)

end Owns

mutual

theorem Expr.owns_walk : (expression : Expr) → {sight : Sight} → expression.InSight sight →
    sight.Owned known → Owns known expression.walk expression.uses
  | .number _ _, _, _, _ | .bool _ _, _, _, _ | .string _ _, _, _, _ | .glyph _ _, _, _, _
  | .codepoint _ _, _, _, _ | .null _, _, _, _ | .typeOf _ _, _, _, _ => .nil _
  | .reference _, _, inSight, seen | .addressOf _ _, _, inSight, seen =>
    .cons (seen.values _ inSight) (.nil _)
  | .function _ _, _, inSight, seen => .cons (seen.functions _ inSight) (.nil _)
  | .binary _ _ left right, _, inSight, seen | .subscript _ left right, _, inSight, seen =>
    ((left.owns_walk inSight.1 seen).append (right.owns_walk inSight.2 seen)).below _
  | .unary _ _ operand, _, inSight, seen | .dereference _ operand, _, inSight, seen =>
    (operand.owns_walk inSight seen).below _
  | .call _ _ arguments, _, inSight, seen =>
    .cons (Callee.known_owner inSight.1 seen)
      (((owns_walkExprs arguments inSight.2 seen).below _).below _)
  | .array _ elements, _, inSight, seen => (owns_walkExprs elements inSight seen).below _
  | .conjure _ body, _, inSight, seen =>
    Owns.below (fun declared => owns_walkStmts body inSight (seen.opening declared) declared) _
  | .apply _ mapping items, _, inSight, seen => by
    have both := (mapping.owns_walk inSight.1 seen).append (items.owns_walk inSight.2 seen)
    intro declared owner member
    exact both.below _ declared owner (List.mem_append.mpr (List.mem_append.mp member).symm)
  | .supplant _ text pattern replacement, _, inSight, seen =>
    (((text.owns_walk inSight.1 seen).append (pattern.owns_walk inSight.2.1 seen)).append
      (replacement.owns_walk inSight.2.2 seen)).below _

theorem owns_walkExprs : (expressions : List Expr) → {sight : Sight} →
    allInSight expressions sight → sight.Owned known →
      Owns known (walkExprs expressions) (usesOfExprs expressions)
  | [], _, _, _ => .nil _
  | expression :: rest, _, inSight, seen =>
    (expression.owns_walk inSight.1 seen).append (owns_walkExprs rest inSight.2 seen)

theorem Stmt.owns_walk : (statement : Stmt) → {sight : Sight} → statement.InSight sight →
    sight.Owned known → Owns known statement.walk statement.uses
  | .affix _ _, _, _, _ | .breakLoop _, _, _, _ | .returnVoid _, _, _, _ => .nil _
  | .declare position target value, _, inSight, seen => by
    intro declared
    have isKnown : known (.value target) := by
      rw [Stmt.walk, ownersAmong_cons] at declared
      exact declared _ (List.mem_append_left _ List.mem_cons_self)
    exact Owns.cons isKnown ((value.owns_walk inSight seen).below _) declared
  | .function position target body, _, inSight, seen => by
    intro declared
    have outer : ∀ owner ∈ (Node.stmt (.function position target body)).owners, known owner := by
      intro owner member
      rw [Stmt.walk, ownersAmong_cons] at declared
      exact declared owner (List.mem_append_left _ member)
    have parameters (parameter : Variable) (member : parameter ∈ target.parameters) :
        known (.value parameter) :=
      outer _ (List.mem_append_left _ (List.mem_map_of_mem member))
    have inner : Owns known (walkStmts body) (usesOfBody body) := fun inside =>
      owns_walkStmts body inSight ((seen.inside parameters).opening inside) inside
    have isKnown : known (.function target) :=
      outer _ (List.mem_append_right _ List.mem_cons_self)
    refine Owns.cons isKnown (fun _ owner member => ?_) declared
    obtain member | member := List.mem_append.mp member
    · obtain ⟨parameter, listed, rfl⟩ := List.mem_map.mp member
      exact parameters parameter listed
    · exact inner.below _ declared owner member
  | .main _ body, _, inSight, seen => (owns_walkStmts body inSight seen).below _
  | .assign _ _ value, _, inSight, seen =>
    .cons (seen.values _ inSight.1) ((value.owns_walk inSight.2 seen).below _)
  | .step _ _ _, _, inSight, seen => .cons (seen.values _ inSight) (.nil _)
  | .branch _ condition consequent alternative, _, inSight, seen =>
    (((condition.owns_walk inSight.1 seen).append
      fun declared => owns_walkStmts consequent inSight.2.1 (seen.opening declared) declared).append
      fun declared => owns_walkStmts alternative inSight.2.2 (seen.opening declared) declared).below _
  | .loop _ condition body, _, inSight, seen =>
    ((condition.owns_walk inSight.1 seen).append
      fun declared => owns_walkStmts body inSight.2 (seen.opening declared) declared).below _
  | .returnValue _ value, _, inSight, seen | .exscribe _ value, _, inSight, seen
  | .evaluate _ value, _, inSight, seen => (value.owns_walk inSight seen).below _
  | .block _ body, _, inSight, seen =>
    Owns.below (fun declared => owns_walkStmts body inSight (seen.opening declared) declared) _

theorem owns_walkStmts : (body : List Stmt) → {sight : Sight} → bodyInSight body sight →
    sight.Owned known → Owns known (walkStmts body) (usesOfBody body)
  | [], _, _, _ => .nil _
  | statement :: rest, _, inSight, seen => by
    intro declared
    refine Owns.append (statement.owns_walk inSight.1 seen) ?_ declared
    refine owns_walkStmts rest inSight.2 (seen.after fun owner member => declared owner ?_)
    rw [walkStmts, ownersAmong_append]
    exact List.mem_append_left _ member

end

end

/-- What a scoped program names it declares. -/
theorem Program.Scoped.uses_subset {program : Program} (isScoped : program.Scoped) :
    program.uses ⊆ program.owners := by
  have seen : (Sight.outside.opening program.body).Owned (· ∈ program.owners) :=
    Sight.Owned.opening ⟨by simp [Sight.outside], by simp [Sight.outside]⟩ fun _ member => member
  exact owns_walkStmts program.body isScoped.inSight seen fun _ member => member

/-- Owners whose numbers are all different are told apart by them. -/
theorem Owner.eq_of_id_eq {owners : List Owner} (distinct : (owners.map Owner.id).Nodup)
    {first second : Owner} (firstMember : first ∈ owners) (secondMember : second ∈ owners)
    (same : first.id = second.id) : first = second :=
  List.inj_on_of_nodup_map distinct firstMember secondMember same

/-! ## Functions that are named -/

theorem mem_usesOfExprs_iff {owner : Owner} {expressions : List Expr} :
    owner ∈ usesOfExprs expressions ↔ ∃ expression ∈ expressions, owner ∈ expression.uses := by
  induction expressions with
  | nil => simp [usesOfExprs]
  | cons first rest ih => simp [usesOfExprs, ih]

theorem mem_usesOfBody_iff {owner : Owner} {body : List Stmt} :
    owner ∈ usesOfBody body ↔ ∃ statement ∈ body, owner ∈ statement.uses := by
  induction body with
  | nil => simp [usesOfBody]
  | cons first rest ih => simp [usesOfBody, ih]

/-- What a node names. -/
def Node.uses : Node → List Owner
  | .expr expression => expression.uses
  | .stmt statement => statement.uses

theorem Callee.uses_toExpr (callee : Callee) : callee.toExpr.uses = [callee.owner] := by
  cases callee <;> rfl

/-- A node names what the nodes directly below it name. -/
theorem Node.uses_of_child {node child : Node} {owner : Owner} (listed : child ∈ node.children)
    (used : owner ∈ child.uses) : owner ∈ node.uses := by
  cases node with
  | expr expression =>
    cases expression <;> simp only [children, Expr.children, List.mem_cons, List.mem_map,
      List.not_mem_nil, or_false] at listed
    all_goals grind [Node.uses, Reference.toExpr, Callee.uses_toExpr, mem_usesOfExprs_iff, mem_usesOfBody_iff]
  | stmt statement =>
    cases statement <;> simp only [children, Stmt.children, List.mem_cons, List.mem_map,
      List.mem_append, List.not_mem_nil, or_false] at listed
    all_goals grind [Node.uses, mem_usesOfBody_iff]

/-- Whatever a node of a scoped program names is declared in the program. -/
theorem Program.Scoped.uses_of_mem {program : Program} (isScoped : program.Scoped) {node : Node}
    (visited : node ∈ walkStmts program.body) : node.uses ⊆ program.owners := by
  obtain ⟨statement, listed, below⟩ := mem_walkStmts.mp visited
  have inside : ∀ inner ∈ (Node.stmt statement).walk, inner.uses ⊆ program.uses := by
    refine Node.all_of_inherited (fun above listed owner used => ?_) fun owner used => ?_
    · exact above (Node.uses_of_child listed used)
    · exact mem_usesOfBody_iff.mpr ⟨_, listed, used⟩
  exact fun owner used => isScoped.uses_subset (inside _ below used)

/-- A number is declared by one node of a scoped program. -/
theorem Program.Scoped.eq_of_declares {program : Program} (isScoped : program.Scoped)
    {first second : Node} (firstVisited : first ∈ walkStmts program.body)
    (secondVisited : second ∈ walkStmts program.body) {id : Nat} (inFirst : id ∈ first.declares)
    (inSecond : id ∈ second.declares) : first = second :=
  eq_of_nodup_flatMap isScoped.distinct firstVisited secondVisited inFirst inSecond

/-- A function that is named somewhere in a scoped program is declared in it, as the same
record. -/
theorem Program.Scoped.exists_declaration {program : Program} (isScoped : program.Scoped)
    {note : Info} {function : Function}
    (member : .expr (.function note function) ∈ walkStmts program.body) :
    ∃ position body, .stmt (.function position function body) ∈ walkStmts program.body := by
  have used := isScoped.uses_of_mem member List.mem_cons_self
  obtain ⟨node, visited, declares⟩ := List.mem_flatMap.mp used
  cases node with
  | expr expression => cases declares
  | stmt statement =>
    cases statement with
    | function position target body =>
      obtain parameter | same := List.mem_append.mp declares
      · obtain ⟨_, -, absurd⟩ := List.mem_map.mp parameter
        cases absurd
      · cases List.mem_singleton.mp same
        exact ⟨position, body, visited⟩
    | declare position target value => cases List.mem_singleton.mp declares
    | _ => cases declares

end GlyphCompiler
