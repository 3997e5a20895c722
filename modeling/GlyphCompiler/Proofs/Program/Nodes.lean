/-
# What holds of every node

A property of nodes holds everywhere below a node if it holds of the node and
everywhere below its children. Giving an expression another type leaves everything
below it as it was.
-/

import GlyphCompiler.Program.Walk
import GlyphCompiler.Program.StaticValue
import GlyphCompiler.Ty.Conversion
import Mathlib.Data.List.Nodup
import Mathlib.Data.List.Pairwise

namespace GlyphCompiler

/-- Lists that together repeat nothing belong to the same member if they share something. -/
theorem eq_of_nodup_flatMap {Member Part : Type} {parts : Member → List Part}
    {members : List Member} (distinct : (members.flatMap parts).Nodup) {first second : Member}
    (firstMember : first ∈ members) (secondMember : second ∈ members) {shared : Part}
    (inFirst : shared ∈ parts first) (inSecond : shared ∈ parts second) : first = second := by
  by_contra differ
  obtain ⟨-, apart⟩ := List.nodup_flatMap.mp distinct
  have symmetric : Std.Symm (Function.onFun List.Disjoint parts) :=
    ⟨fun _ _ disjoint _ inLeft inRight => disjoint inRight inLeft⟩
  exact apart.forall firstMember secondMember differ inFirst inSecond

/-! ## Walking -/

namespace Node

/-- The nodes directly below a node. -/
def children : Node → List Node
  | .expr expression => expression.children
  | .stmt statement => statement.children

theorem walk_eq (node : Node) : node.walk = node :: node.children.flatMap Node.walk := by
  cases node with
  | expr expression => exact expression.walk_eq
  | stmt statement => exact statement.walk_eq

theorem self_mem_walk (node : Node) : node ∈ node.walk := by
  rw [walk_eq]
  exact List.mem_cons_self

/-- What stands directly below a node is below it. -/
theorem mem_walk_of_mem_children {node child : Node} (member : child ∈ node.children) :
    child ∈ node.walk := by
  rw [walk_eq]
  exact List.mem_cons_of_mem _ (List.mem_flatMap.mpr ⟨child, member, self_mem_walk child⟩)

theorem length_walk_lt {node child : Node} (member : child ∈ node.children) :
    child.walk.length < node.walk.length := by
  have within : List.Sublist child.walk (node.children.flatMap Node.walk) :=
    List.sublist_flatten_of_mem (List.mem_map_of_mem member)
  rw [node.walk_eq, List.length_cons]
  exact Nat.lt_succ_of_le within.length_le

/-- A node below another one is that one itself, or stands directly below such a node. -/
theorem mem_walk_cases {node inner : Node} (member : inner ∈ node.walk) :
    inner = node ∨ ∃ parent ∈ node.walk, inner ∈ parent.children := by
  rw [walk_eq, List.mem_cons] at member
  obtain rfl | member := member
  · exact .inl rfl
  obtain ⟨child, isChild, below⟩ := List.mem_flatMap.mp member
  have descends : ∀ other ∈ child.walk, other ∈ node.walk := by
    intro other inside
    rw [walk_eq node]
    exact List.mem_cons_of_mem _ (List.mem_flatMap.mpr ⟨child, isChild, inside⟩)
  have := length_walk_lt isChild
  obtain rfl | ⟨parent, parentBelow, isInner⟩ := mem_walk_cases below
  · exact .inr ⟨node, self_mem_walk node, isChild⟩
  · exact .inr ⟨parent, descends parent parentBelow, isInner⟩
termination_by node.walk.length

/-- What is below a node that is below another one stands together there. -/
theorem walk_sublist {node inner : Node} (member : inner ∈ node.walk) :
    inner.walk.Sublist node.walk := by
  rw [walk_eq node] at member
  obtain rfl | member := List.mem_cons.mp member
  · exact .refl _
  obtain ⟨child, isChild, below⟩ := List.mem_flatMap.mp member
  have := length_walk_lt isChild
  rw [walk_eq node]
  exact ((walk_sublist below).trans
    (List.sublist_flatten_of_mem (List.mem_map_of_mem isChild))).cons _
termination_by node.walk.length

/-- What is below a node that is below another one is below that one as well. -/
theorem walk_subset {node inner : Node} (member : inner ∈ node.walk) : inner.walk ⊆ node.walk :=
  (walk_sublist member).subset

/-- A property holds of a node and of every node below it. -/
def All (holds : Node → Prop) (node : Node) : Prop :=
  ∀ inner ∈ node.walk, holds inner

theorem all_iff {holds : Node → Prop} {node : Node} :
    node.All holds ↔ holds node ∧ ∀ child ∈ node.children, child.All holds := by
  unfold All
  rw [walk_eq]
  simp only [List.mem_cons, List.mem_flatMap, forall_eq_or_imp, forall_exists_index, and_imp]
  exact and_congr_right fun _ => ⟨fun all child member inner below => all inner child member below,
    fun all inner child member below => all child member inner below⟩

/-- What a node passes on to its children holds everywhere below it. -/
theorem all_of_inherited {holds : Node → Prop} {node : Node}
    (inherits : ∀ {parent child : Node}, holds parent → child ∈ parent.children → holds child)
    (here : holds node) : node.All holds := by
  refine all_iff.mpr ⟨here, fun child listed => ?_⟩
  have := length_walk_lt listed
  exact all_of_inherited inherits (inherits here listed)
termination_by node.walk.length

end Node

theorem mem_walkStmts {node : Node} {body : List Stmt} :
    node ∈ walkStmts body ↔ ∃ statement ∈ body, node ∈ (Node.stmt statement).walk := by
  rw [walkStmts_eq_flatMap, List.mem_flatMap]
  rfl

theorem walk_subset_walkStmts {node : Node} {body : List Stmt} (member : node ∈ walkStmts body) :
    node.walk ⊆ walkStmts body := by
  obtain ⟨statement, listed, below⟩ := mem_walkStmts.mp member
  intro other inside
  exact mem_walkStmts.mpr ⟨statement, listed, Node.walk_subset below inside⟩

theorem children_subset_walkStmts {body : List Stmt} {node : Node}
    (visited : node ∈ walkStmts body) : node.children ⊆ walkStmts body :=
  fun _ listed => walk_subset_walkStmts visited (Node.mem_walk_of_mem_children listed)

/-- The statements of a body stand in it. -/
theorem map_subset_walkStmts (body : List Stmt) : body.map Node.stmt ⊆ walkStmts body := by
  intro node listed
  obtain ⟨statement, isStatement, rfl⟩ := List.mem_map.mp listed
  exact mem_walkStmts.mpr ⟨statement, isStatement, Node.self_mem_walk _⟩

namespace Expr

theorem withType_type (expression : Expr) : expression.withType expression.type = expression := by
  cases expression <;> rfl

@[simp]
theorem children_withType (type : Ty) (expression : Expr) :
    (expression.withType type).children = expression.children := by
  cases expression <;> rfl

end Expr

/-! ## Calls that stand for values -/

/-- The function that an expression calls by its name, if it is such a call. -/
def Expr.directCall? : Expr → Option Function
  | .call _ (.function _ target) _ => some target
  | _ => none

/-- The parameters of a function type. -/
def Ty.parameters : Ty → List Ty
  | .function parameters _ => parameters
  | _ => []

/-- Arguments, each with the parameter that it is passed to. -/
def passed : List Expr → List Ty → List (Expr × Option Ty)
  | [], _ => []
  | argument :: arguments, [] => (argument, none) :: passed arguments []
  | argument :: arguments, parameter :: parameters =>
    (argument, some parameter) :: passed arguments parameters

/-- The expression that a node is, if it is one. -/
def Node.expr? : Node → Option Expr
  | .expr expression => some expression
  | .stmt _ => none

@[simp]
theorem Node.expr?_expr (expression : Expr) : (Node.expr expression).expr? = some expression := rfl

@[simp]
theorem Node.expr?_stmt (statement : Stmt) : (Node.stmt statement).expr? = none := rfl

/-- The expressions directly below a node that stand for values, each with the parameter
that it is passed to. What is evaluated only for its effect stands for no value. -/
def Node.values : Node → List (Expr × Option Ty)
  | .stmt (.evaluate _ _) => []
  | .expr (.call _ callee arguments) => passed arguments callee.type.parameters
  | node => (node.children.filterMap Node.expr?).map fun expression => (expression, none)

theorem mem_passed {arguments : List Expr} {parameters : List Ty} {argument : Expr}
    (member : argument ∈ arguments) : ∃ parameter, (argument, parameter) ∈ passed arguments parameters := by
  induction arguments generalizing parameters with
  | nil => cases member
  | cons first arguments ih =>
    cases parameters with
    | nil =>
      obtain rfl | member := List.mem_cons.mp member
      · exact ⟨none, List.mem_cons_self⟩
      · exact (ih member).imp fun _ => List.mem_cons_of_mem _
    | cons parameter parameters =>
      obtain rfl | member := List.mem_cons.mp member
      · exact ⟨some parameter, List.mem_cons_self⟩
      · exact (ih member).imp fun _ => List.mem_cons_of_mem _

/-- A call of a function by its name stands for a value below its parent, or it is
evaluated for its effect. -/
theorem directCall_stands {parent : Node} {value : Expr} {function : Function}
    (calls : value.directCall? = some function) (member : .expr value ∈ parent.children) :
    (∃ parameter, (value, parameter) ∈ parent.values) ∨
      ∃ position, parent = .stmt (.evaluate position value) := by
  have listed (values : parent.values =
      (parent.children.filterMap Node.expr?).map fun expression => (expression, none)) :
      ∃ parameter, (value, parameter) ∈ parent.values := by
    refine ⟨none, ?_⟩
    rw [values]
    exact List.mem_map.mpr ⟨value, List.mem_filterMap.mpr ⟨_, member, rfl⟩, rfl⟩
  cases parent with
  | expr expression =>
    cases expression with
    | call info callee arguments =>
      obtain same | member := List.mem_cons.mp member
      · cases same
        cases callee <;> cases calls
      · obtain ⟨argument, argumentMember, same⟩ := List.mem_map.mp member
        cases same
        exact .inl (mem_passed argumentMember)
    | _ => exact .inl (listed rfl)
  | stmt statement =>
    cases statement with
    | evaluate position expression =>
      obtain same : value = expression := by simpa [Node.children, Stmt.children] using member
      exact .inr ⟨position, by rw [same]⟩
    | _ => exact .inl (listed rfl)

/-! ## Flows of values into types -/

mutual

/-- The values that a statement returns from the body that it belongs to. -/
def Stmt.returned : Stmt → List Expr
  | .returnValue _ value => [value]
  | .branch _ _ consequent alternative => returned consequent ++ returned alternative
  | .loop _ _ body | .block _ body => returned body
  | _ => []

/-- The values that a body returns itself. -/
def returned : List Stmt → List Expr
  | [] => []
  | statement :: rest => statement.returned ++ returned rest

end

/-- What is known of the value of an expression before the program runs. -/
def Expr.known (expression : Expr) : Value :=
  match expression.staticValue with
  | .ok value => value
  | .error _ => .unknown

/-- The type of a value converts to another one, with what is known of the value. -/
def Expr.ConvertsTo (value : Expr) (target : Ty) : Prop :=
  value.type.canConvert target value.known = true

/-- The places where a value flows into a type: the declaration and the assignment of a
variable, the arguments of a call, and what a function returns. -/
inductive Flow : Node → Expr → Ty → Prop
  | declare (position : Position) (target : Variable) (value : Expr) :
    Flow (.stmt (.declare position target value)) value target.type
  | assign (position : Position) (target : Variable) (value : Expr) :
    Flow (.stmt (.assign position target value)) value target.type
  | argument (info : Info) (callee : Callee) (arguments : List Expr) {argument : Expr}
      {parameter : Ty} (pair : (argument, parameter) ∈ arguments.zip callee.type.parameters) :
    Flow (.expr (.call info callee arguments)) argument parameter
  | returns (position : Position) (function : Function) (body : List Stmt) {value : Expr}
      (member : value ∈ returned body) :
    Flow (.stmt (.function position function body)) value function.result

end GlyphCompiler
