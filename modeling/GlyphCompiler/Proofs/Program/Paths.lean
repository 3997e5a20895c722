/-
# Paths through bodies

A path takes either side of a branch, whatever the condition is, and runs a loop any
number of times. It ends early where it leaves a loop or returns. What returns on every
path can be told without looking at the paths: as long as a `break` has a loop to leave,
some path runs through a body that is not seen to return. Whether a body holds a `return`
is asked of its nodes, up to the bodies that are within it.
-/

import GlyphCompiler.Program.Returns
import GlyphCompiler.Proofs.Program.Control
import GlyphCompiler.Proofs.Program.Nodes

namespace GlyphCompiler

theorem containsReturn_eq_any (body : List Stmt) :
    containsReturn body = body.any Stmt.containsReturn := by
  induction body with
  | nil => rfl
  | cons statement body ih => rw [containsReturn, ih, List.any_cons]

theorem alwaysReturns_eq_any (body : List Stmt) :
    alwaysReturns body = body.any Stmt.alwaysReturns := by
  induction body with
  | nil => rfl
  | cons statement body ih => rw [alwaysReturns, ih, List.any_cons]

/-! ## Paths -/

/-- How a path ends: it comes to the end of what it runs through, leaves the loop around
it, or returns from the body around it. -/
inductive Exit
  | completes
  | leaves
  | returns
  deriving DecidableEq, Repr

/-- Does a statement always complete? The body of a function that is declared is not run,
and that of a conjure expression returns for itself alone. -/
def Stmt.isStraight : Stmt → Bool
  | .declare _ _ _ | .function _ _ _ | .affix _ _ | .assign _ _ _ | .step _ _ _
  | .exscribe _ _ | .evaluate _ _ => true
  | _ => false

mutual

/-- A path through a statement may end in some way. -/
inductive Stmt.Ends : Stmt → Exit → Prop
  | straight {statement : Stmt} (straight : statement.isStraight = true) :
    statement.Ends .completes
  | consequent {position : Position} {condition : Expr} {consequent alternative : List Stmt}
      {exit : Exit} (ends : BodyEnds consequent exit) :
    Stmt.Ends (.branch position condition consequent alternative) exit
  | alternative {position : Position} {condition : Expr} {consequent alternative : List Stmt}
      {exit : Exit} (ends : BodyEnds alternative exit) :
    Stmt.Ends (.branch position condition consequent alternative) exit
  | loop {position : Position} {condition : Expr} {body : List Stmt} {exit : Exit}
      (ends : RoundsEnd body exit) :
    Stmt.Ends (.loop position condition body) exit
  | block {position : Position} {body : List Stmt} {exit : Exit} (ends : BodyEnds body exit) :
    Stmt.Ends (.block position body) exit
  | main {position : Position} {body : List Stmt} {exit : Exit} (ends : BodyEnds body exit) :
    Stmt.Ends (.main position body) exit
  | breakLoop {position : Position} : Stmt.Ends (.breakLoop position) .leaves
  | returnValue {position : Position} {value : Expr} :
    Stmt.Ends (.returnValue position value) .returns
  | returnVoid {position : Position} : Stmt.Ends (.returnVoid position) .returns

/-- A path through some statements may end in some way: after the last of them, or where
one of them does not complete. -/
inductive BodyEnds : List Stmt → Exit → Prop
  | nil : BodyEnds [] .completes
  | next {statement : Stmt} {rest : List Stmt} {exit : Exit} (here : statement.Ends .completes)
      (ends : BodyEnds rest exit) :
    BodyEnds (statement :: rest) exit
  | stop {statement : Stmt} {rest : List Stmt} {exit : Exit} (here : statement.Ends exit)
      (early : exit ≠ .completes) :
    BodyEnds (statement :: rest) exit

/-- A path through any number of rounds of a loop may end in some way. To leave the loop
is to complete it. -/
inductive RoundsEnd : List Stmt → Exit → Prop
  | none {body : List Stmt} : RoundsEnd body .completes
  | again {body : List Stmt} {exit : Exit} (round : BodyEnds body .completes)
      (ends : RoundsEnd body exit) :
    RoundsEnd body exit
  | left {body : List Stmt} (round : BodyEnds body .leaves) : RoundsEnd body .completes
  | returned {body : List Stmt} (round : BodyEnds body .returns) : RoundsEnd body .returns

end

mutual

/-- No path completes a statement that is seen to return. -/
theorem Stmt.Ends.alwaysReturns_eq_false : {statement : Stmt} → statement.Ends .completes →
    statement.alwaysReturns = false
  | .branch _ _ _ _, ends => by
    rw [Stmt.alwaysReturns, Bool.and_eq_false_iff]
    cases ends with
    | straight straight => cases straight
    | consequent ends => exact .inl ends.alwaysReturns_eq_false
    | alternative ends => exact .inr ends.alwaysReturns_eq_false
  | .block _ body, ends => by
    cases ends with
    | straight straight => cases straight
    | block ends => exact @BodyEnds.alwaysReturns_eq_false body ends
  | .declare _ _ _, _ | .function _ _ _, _ | .main _ _, _ | .affix _ _, _ | .assign _ _ _, _
  | .step _ _ _, _ | .loop _ _ _, _ | .breakLoop _, _ | .exscribe _ _, _ | .evaluate _ _, _ => rfl

theorem BodyEnds.alwaysReturns_eq_false : {body : List Stmt} → BodyEnds body .completes →
    alwaysReturns body = false
  | [], _ => rfl
  | _ :: _, .next here rest => by
    rw [alwaysReturns, Bool.or_eq_false_iff]
    exact ⟨here.alwaysReturns_eq_false, rest.alwaysReturns_eq_false⟩

end

mutual

/-- Some path completes a statement that is not seen to return. One through a loop runs no
round, so of the surroundings it only matters that there is no loop to leave. -/
theorem Stmt.Controlled.ends : {statement : Stmt} → {around : Surroundings} →
    statement.Controlled around → around ≠ .program → around.inLoop = false →
      statement.alwaysReturns = false → statement.Ends .completes
  | .branch _ _ _ _, _, controlled, _, outside, mayEnd => by
    rw [Stmt.alwaysReturns, Bool.and_eq_false_iff] at mayEnd
    obtain mayEnd | mayEnd := mayEnd
    · exact .consequent
        (bodyEnds_of_controlled controlled.2.1 (Surroundings.block_ne_program _) outside mayEnd)
    · exact .alternative
        (bodyEnds_of_controlled controlled.2.2 (Surroundings.block_ne_program _) outside mayEnd)
  | .block _ body, _, controlled, _, outside, mayEnd =>
    .block
      (@bodyEnds_of_controlled body _ controlled (Surroundings.block_ne_program _) outside mayEnd)
  | .loop _ _ _, _, _, _, _, _ => .loop .none
  | .main _ _, _, controlled, below, _, _ => absurd controlled.1 below
  | .breakLoop _, _, controlled, _, outside, _ => by
    rw [Stmt.Controlled, outside] at controlled
    cases controlled
  | .declare _ _ _, _, _, _, _, _ | .function _ _ _, _, _, _, _, _ | .affix _ _, _, _, _, _, _
  | .assign _ _ _, _, _, _, _, _ | .step _ _ _, _, _, _, _, _ | .exscribe _ _, _, _, _, _, _
  | .evaluate _ _, _, _, _, _, _ => .straight rfl

theorem bodyEnds_of_controlled : {body : List Stmt} → {around : Surroundings} →
    bodyControlled body around → around ≠ .program → around.inLoop = false →
      alwaysReturns body = false → BodyEnds body .completes
  | [], _, _, _, _, _ => .nil
  | _ :: _, _, controlled, below, outside, mayEnd => by
    rw [alwaysReturns, Bool.or_eq_false_iff] at mayEnd
    exact .next (controlled.1.ends below outside mayEnd.1)
      (bodyEnds_of_controlled controlled.2 below outside mayEnd.2)

end

/-- A body is seen to return just if no path completes it. -/
theorem alwaysReturns_iff_of_controlled {body : List Stmt} (controlled : bodyControlled body .body) :
    alwaysReturns body = true ↔ ¬ BodyEnds body .completes := by
  constructor
  · intro returns ends
    rw [ends.alwaysReturns_eq_false] at returns
    cases returns
  · intro none
    rw [← Bool.not_eq_false]
    exact fun mayEnd => none (bodyEnds_of_controlled controlled (by decide) rfl mayEnd)

/-! ## Returns that belong to a body -/

/-- The body that a node opens, whose returns are its own: that of a function or of a
conjure expression. -/
def Node.body? : Node → Option (List Stmt)
  | .stmt (.function _ _ body) => some body
  | .expr (.conjure _ body) => some body
  | _ => none

/-- A `return` stands in a node, and not in a body that is opened within it. -/
inductive Node.HoldsReturn : Node → Prop
  | returnValue (position : Position) (value : Expr) :
    Node.HoldsReturn (.stmt (.returnValue position value))
  | returnVoid (position : Position) : Node.HoldsReturn (.stmt (.returnVoid position))
  | inside {node child : Node} (opensNone : node.body? = none) (listed : child ∈ node.children)
      (holds : child.HoldsReturn) :
    node.HoldsReturn

/-- A `return` belongs to a body. -/
def HoldsReturn (body : List Stmt) : Prop :=
  ∃ statement ∈ body, (Node.stmt statement).HoldsReturn

/-- What a part of a node holds, the node holds, unless the part is a body that it opens. -/
theorem HoldsReturn.within {part : List Stmt} {node : Node} (holds : HoldsReturn part)
    (opensNone : node.body? = none) (within : ∀ statement ∈ part, .stmt statement ∈ node.children) :
    node.HoldsReturn := by
  obtain ⟨statement, member, inside⟩ := holds
  exact .inside opensNone (within statement member) inside

mutual

theorem Stmt.holdsReturn : {statement : Stmt} → statement.containsReturn = true →
    (Node.stmt statement).HoldsReturn
  | .returnValue position value, _ => .returnValue position value
  | .returnVoid position, _ => .returnVoid position
  | .branch _ _ _ _, contains => by
    rw [Stmt.containsReturn, Bool.or_eq_true] at contains
    obtain contains | contains := contains
    · exact (holdsReturn_of_containsReturn contains).within rfl
        (by simp +contextual [Node.children, Stmt.children])
    · exact (holdsReturn_of_containsReturn contains).within rfl
        (by simp +contextual [Node.children, Stmt.children])
  | .loop _ _ body, contains | .block _ body, contains =>
    (@holdsReturn_of_containsReturn body contains).within rfl
      (by simp +contextual [Node.children, Stmt.children])

theorem holdsReturn_of_containsReturn : {body : List Stmt} → containsReturn body = true →
    HoldsReturn body
  | statement :: _, contains => by
    rw [containsReturn, Bool.or_eq_true] at contains
    obtain contains | contains := contains
    · exact ⟨statement, List.mem_cons_self, Stmt.holdsReturn contains⟩
    · obtain ⟨other, member, holds⟩ := holdsReturn_of_containsReturn contains
      exact ⟨other, List.mem_cons_of_mem _ member, holds⟩

end

/-- Is a node a statement that is seen to hold a `return`? -/
def Node.containsReturn : Node → Bool
  | .expr _ => false
  | .stmt statement => statement.containsReturn

theorem containsReturn_of_mem {body : List Stmt} {statement : Stmt} (member : statement ∈ body)
    (contains : statement.containsReturn = true) : containsReturn body = true := by
  rw [containsReturn_eq_any, List.any_eq_true]
  exact ⟨statement, member, contains⟩

/-- A `return` is seen in a node if it is seen directly below, unless the node opens a body
or is a `main`. -/
theorem Node.containsReturn_of_child {node child : Node} (opensNone : node.body? = none)
    (notMain : node.isMain = false) (listed : child ∈ node.children)
    (contains : child.containsReturn = true) : node.containsReturn = true := by
  cases child with
  | expr expression => cases contains
  | stmt statement =>
    cases node with
    | expr expression =>
      cases expression with
      | conjure info body => cases opensNone
      | _ => simp [children, Expr.children] at listed
    | stmt parent =>
      cases parent with
      | function position target body => cases opensNone
      | main position body => cases notMain
      | branch position condition consequent alternative =>
        have member : statement ∈ consequent ∨ statement ∈ alternative := by
          simpa [children, Stmt.children] using listed
        exact Bool.or_eq_true_iff.mpr
          (member.imp (containsReturn_of_mem · contains) (containsReturn_of_mem · contains))
      | loop position condition body | block position body =>
        have member : statement ∈ body := by simpa [children, Stmt.children] using listed
        exact containsReturn_of_mem member contains
      | _ => simp [children, Stmt.children] at listed

theorem Node.HoldsReturn.containsReturn {node : Node} (holds : node.HoldsReturn)
    (noMain : ∀ inner ∈ node.walk, inner.isMain = false) : node.containsReturn = true := by
  induction holds with
  | returnValue position value => rfl
  | returnVoid position => rfl
  | @inside node child opensNone listed holds ih =>
    have inside : child ∈ node.walk := by
      rw [walk_eq]
      exact List.mem_cons_of_mem _ (List.mem_flatMap.mpr ⟨child, listed, self_mem_walk child⟩)
    exact containsReturn_of_child opensNone (noMain node (self_mem_walk node)) listed
      (ih fun inner below => noMain inner (walk_subset inside below))

/-- A body is seen to hold a `return` just if one belongs to it. -/
theorem containsReturn_iff_of_controlled {body : List Stmt} (controlled : bodyControlled body .body) :
    containsReturn body = true ↔ HoldsReturn body := by
  refine ⟨holdsReturn_of_containsReturn, ?_⟩
  rintro ⟨statement, member, holds⟩
  refine containsReturn_of_mem member (Node.HoldsReturn.containsReturn holds fun inner below => ?_)
  exact noMain_walkStmts controlled (by decide) inner (mem_walkStmts.mpr ⟨statement, member, below⟩)

/-! ## Bodies in controlled programs -/

/-- A node is controlled, whatever is around it. -/
def Node.Controlled : Node → Prop
  | .expr expression => expression.Controlled
  | .stmt statement => ∃ around, statement.Controlled around

theorem allControlled_iff {expressions : List Expr} :
    allControlled expressions ↔ ∀ expression ∈ expressions, expression.Controlled := by
  induction expressions with
  | nil => simp [allControlled]
  | cons expression expressions ih => simp [allControlled, ih]

/-- Statements that are controlled together are controlled as nodes. -/
theorem Node.controlled_of_mem {body : List Stmt} {around : Surroundings} {child : Node}
    (controlled : bodyControlled body around) (listed : child ∈ body.map Node.stmt) :
    child.Controlled := by
  obtain ⟨statement, member, rfl⟩ := List.mem_map.mp listed
  exact ⟨around, bodyControlled_iff.mp controlled statement member⟩

/-- What is directly below a controlled node is controlled. -/
theorem Node.Controlled.child {node child : Node} (controlled : node.Controlled)
    (listed : child ∈ node.children) : child.Controlled := by
  cases node with
  | expr expression =>
    cases expression with
    | conjure info body => exact controlled_of_mem controlled listed
    | array info elements =>
      obtain ⟨element, member, rfl⟩ := List.mem_map.mp listed
      exact allControlled_iff.mp controlled element member
    | call info callee arguments =>
      obtain rfl | listed := List.mem_cons.mp listed
      · cases callee <;> trivial
      · obtain ⟨argument, member, rfl⟩ := List.mem_map.mp listed
        exact allControlled_iff.mp controlled argument member
    | binary info operator left right | subscript info left right | apply info left right =>
      have same : child = .expr left ∨ child = .expr right := by
        simpa [children, Expr.children] using listed
      obtain rfl | rfl := same
      · exact controlled.1
      · exact controlled.2
    | unary info operator operand | dereference info operand =>
      obtain rfl := List.mem_singleton.mp listed
      exact controlled
    | addressOf info operand =>
      obtain rfl := List.mem_singleton.mp listed
      trivial
    | supplant info text pattern replacement =>
      have same : child = .expr text ∨ child = .expr pattern ∨ child = .expr replacement := by
        simpa [children, Expr.children] using listed
      obtain rfl | rfl | rfl := same
      · exact controlled.1
      · exact controlled.2.1
      · exact controlled.2.2
    | _ => cases listed
  | stmt statement =>
    obtain ⟨around, controlled⟩ := controlled
    cases statement with
    | function position target body | block position body =>
      exact controlled_of_mem controlled listed
    | main position body => exact controlled_of_mem controlled.2 listed
    | branch position condition consequent alternative =>
      obtain rfl | listed := List.mem_cons.mp listed
      · exact controlled.1
      obtain listed | listed := List.mem_append.mp listed
      · exact controlled_of_mem controlled.2.1 listed
      · exact controlled_of_mem controlled.2.2 listed
    | loop position condition body =>
      obtain rfl | listed := List.mem_cons.mp listed
      · exact controlled.1
      · exact controlled_of_mem controlled.2 listed
    | declare position target value | exscribe position value | evaluate position value =>
      obtain rfl := List.mem_singleton.mp listed
      exact controlled
    | assign position target value | returnValue position value =>
      obtain rfl := List.mem_singleton.mp listed
      exact controlled.2
    | _ => cases listed

/-- The bodies that the nodes of a controlled program open are controlled. -/
theorem Program.Controlled.ofBody {program : Program} (controlled : program.Controlled)
    {node : Node} (member : node ∈ walkStmts program.body) {body : List Stmt}
    (opens : node.body? = some body) : bodyControlled body .body := by
  obtain ⟨statement, listed, below⟩ := mem_walkStmts.mp member
  have here := Node.controlled_of_mem controlled.body (List.mem_map_of_mem listed)
  have all := Node.all_of_inherited Node.Controlled.child here node below
  cases node with
  | expr expression =>
    cases expression with
    | conjure info other =>
      cases opens
      exact all
    | _ => cases opens
  | stmt statement =>
    cases statement with
    | function position target other =>
      cases opens
      exact all.elim fun _ inside => inside
    | _ => cases opens

end GlyphCompiler
