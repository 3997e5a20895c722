/-
# The names of what is declared

Every variable and function of an analyzed program has a name that is written where it is
declared. The analysis makes up no names: the body of a conjure belongs to a function that
is never declared.
-/

import GlyphCompiler.Proofs.Analysis.Scoping

namespace GlyphCompiler

namespace Surface

mutual

/-- The names that an expression declares. -/
def Expr.names : Expr → List String
  | .integer _ _ | .decimal _ _ | .string _ _ | .quoted _ _ | .codepoint _ _ | .bool _ _
  | .null _ | .name _ => []
  | .binary _ _ left right => left.names ++ right.names
  | .unary _ _ operand | .addressOf _ operand | .dereference _ operand => operand.names
  | .subscript _ base index => base.names ++ index.names
  | .call _ arguments => namesOfExprs arguments
  | .array _ elements => namesOfExprs elements
  | .conjure _ body => namesOfBody body

/-- The names that some expressions declare. -/
def namesOfExprs : List Expr → List String
  | [] => []
  | first :: rest => first.names ++ namesOfExprs rest

/-- The names that a statement declares. -/
def Stmt.names : Stmt → List String
  | .main _ body => body.names
  | .affix _ _ _ | .step _ _ _ | .breakLoop _ | .returnVoid _ => []
  | .function _ name parameters _ body => name :: parameters.map (·.ident.name) ++ namesOfBody body
  | .conjureBinding _ name _ body => name :: namesOfBody body
  | .declare _ _ ident _ value => ident.name :: value.names
  | .assign _ _ value | .returnValue _ value | .exscribe _ value => value.names
  | .branch _ condition consequent alternative =>
    condition.names ++ namesOfBody consequent ++ namesOfBody alternative
  | .loop _ condition body => condition.names ++ namesOfBody body
  | .call _ _ arguments => namesOfExprs arguments
  | .block _ body => namesOfBody body

/-- The names that some statements declare. -/
def namesOfBody : List Stmt → List String
  | [] => []
  | first :: rest => first.names ++ namesOfBody rest

end

end Surface

open Surface (namesOfExprs namesOfBody)

theorem append_subset_append {α : Type} {first second third fourth : List α} (left : first ⊆ third)
    (right : second ⊆ fourth) : first ++ second ⊆ third ++ fourth :=
  List.append_subset.mpr
    ⟨List.subset_append_of_subset_left _ left, List.subset_append_of_subset_right _ right⟩

theorem flatMap_subset {α β : Type} {first second : List α} {items : α → List β}
    (within : first ⊆ second) : first.flatMap items ⊆ second.flatMap items := by
  intro item member
  obtain ⟨origin, inside, isItem⟩ := List.mem_flatMap.mp member
  exact List.mem_flatMap.mpr ⟨origin, within inside, isItem⟩

/-- The names of the owners that are declared among some nodes. -/
def ownedNames (nodes : List Node) : List String :=
  (ownersAmong nodes).map Owner.name

theorem ownedNames_append (first second : List Node) :
    ownedNames (first ++ second) = ownedNames first ++ ownedNames second := by
  rw [ownedNames, ownersAmong_append, List.map_append]
  rfl

theorem ownedNames_cons (node : Node) (nodes : List Node) :
    ownedNames (node :: nodes) = node.owners.map Owner.name ++ ownedNames nodes := by
  rw [ownedNames, ownersAmong_cons, List.map_append]
  rfl

/-- A node that declares nothing by itself. -/
theorem ownedNames_below {node : Node} (none : node.owners = []) (nodes : List Node) :
    ownedNames (node :: nodes) = ownedNames nodes := by
  rw [ownedNames_cons, none]
  rfl

namespace Analysis

theorem functionNames_subset (statement : Surface.Stmt) :
    functionNames statement ⊆ statement.names := by
  cases statement with
  | function position name parameters result body => exact List.subset_append_left _ _
  | conjureBinding position name type body => simp [functionNames, Surface.Stmt.names]
  | _ => exact List.nil_subset _

theorem functionNames_subset_namesOfBody (written : List Surface.Stmt) :
    written.flatMap functionNames ⊆ namesOfBody written := by
  induction written with
  | nil => exact List.nil_subset _
  | cons statement written ih =>
    rw [List.flatMap_cons, namesOfBody]
    exact append_subset_append (functionNames_subset statement) ih

section

variable {final : State}

theorem ownedNames_withType (type : Ty) (value : Expr) :
    ownedNames (value.withType type).walk = ownedNames value.walk := by
  cases value <;> exact (ownedNames_below rfl _).trans (ownedNames_below rfl _).symm

theorem ownedNames_settle_withType (state : State) (type : Ty) (value : Expr) :
    ownedNames (settle state (value.withType type)).walk = ownedNames (settle state value).walk := by
  cases value <;> exact (ownedNames_below rfl _).trans (ownedNames_below rfl _).symm

/-- After a statement no other function is ahead. -/
theorem AnalyzesStmt.ahead_subset {region next : Region} {written : Surface.Stmt}
    {before after : State} {statement : Stmt}
    (analyzes : AnalyzesStmt region written before statement next after) :
    next.ahead ⊆ region.ahead := by
  cases analyzes with
  | function => exact List.subset_cons_self _ _
  | conjureBinding => exact List.subset_cons_self _ _
  | _ => exact List.Subset.refl _

/-- A function declares its own name, those of its parameters, and what its body declares. -/
theorem ownedNames_function {function target : Function} {ahead : List Function}
    {position : Position} {body : List Stmt} {names : List String}
    (name : target.name = function.name) (parameters : target.parameters = function.parameters)
    (inside : ownedNames (walkStmts body) ⊆ names) :
    ownedNames (Stmt.function position target body).walk ⊆
      (function :: ahead).flatMap namesOf ++ names := by
  rw [Stmt.walk, ownedNames_cons, List.flatMap_cons, List.append_assoc]
  refine append_subset_append ?_ (List.subset_append_of_subset_right _ inside)
  intro other member
  simp only [Node.owners, List.map_append, List.map_map, List.mem_append, List.map_cons,
    List.map_nil, List.mem_singleton, parameters] at member
  obtain member | rfl := member
  · exact List.mem_cons_of_mem _ member
  · exact List.mem_cons.mpr (.inl name)

mutual

/-- What an expression declares is named in it. -/
theorem AnalyzesExpr.named {scopes : Scopes} {written : Surface.Expr} {before after : State}
    {value : Expr} : AnalyzesExpr scopes written before value after →
      ownedNames (settle final value).walk ⊆ written.names
  | .literal isLiteral => by cases isLiteral <;> exact List.nil_subset _
  | .reference _ => List.nil_subset _
  | .function _ => List.nil_subset _
  | .binary left right => by
    rw [settle, Expr.walk, ownedNames_below rfl, ownedNames_append]
    exact append_subset_append left.named right.named
  | .unary operand => operand.named
  | .addressOf _ => List.nil_subset _
  | .dereference operand _ => operand.named
  | .subscript base index _ _ => by
    rw [settle, Expr.walk, ownedNames_below rfl, ownedNames_append]
    exact append_subset_append base.named index.named
  | .call analyzes => analyzes.named
  | .array elements _ => elements.named
  | .conjure body _ => body.named

theorem AnalyzesValue.named {scopes : Scopes} {written : Surface.Expr} {before after : State}
    {value : Expr} : AnalyzesValue scopes written before value after →
      ownedNames (settle final value).walk ⊆ written.names
  | .value analyzes _ => analyzes.named

theorem AnalyzesExprs.named {scopes : Scopes} {passing : Passing} {written : List Surface.Expr}
    {before after : State} {values : List Expr} :
    AnalyzesExprs scopes passing written before values after →
      ownedNames (walkExprs (settleAll final values)) ⊆ namesOfExprs written
  | .nil => List.nil_subset _
  | @AnalyzesExprs.into _ parameter _ _ _ _ _ _ argument _ first _ rest => by
    have same : ownedNames (settle final
        (if parameter = .any then argument else argument.withType parameter)).walk =
          ownedNames (settle final argument).walk := by
      split
      · rfl
      · exact ownedNames_settle_withType final parameter argument
    rw [settleAll, walkExprs, ownedNames_append, same]
    exact append_subset_append first.named rest.named
  | .value first rest => by
    rw [settleAll, walkExprs, ownedNames_append]
    exact append_subset_append first.named rest.named
  | .plain first rest => by
    rw [settleAll, walkExprs, ownedNames_append]
    exact append_subset_append first.named rest.named

theorem AnalyzesCall.named {scopes : Scopes} {position : Position} {callee : Surface.Ident}
    {written : List Surface.Expr} {before after : State} {outcome : Outcome} :
    AnalyzesCall scopes position callee written before outcome after →
      ownedNames (settle final outcome.value).walk ⊆ namesOfExprs written
  | .function _ _ analyzes => analyzes.named
  | .reference _ _ _ analyzes => analyzes.named
  | .typeOf _ => List.nil_subset _
  | .printed analyzes => by
    have named := analyzes.named
    rwa [settleAll, settleAll, walkExprs, walkExprs, List.append_nil] at named
  | .apply analyzes => by
    have named := analyzes.named
    rwa [settleAll, settleAll, settleAll, walkExprs, walkExprs, walkExprs, List.append_nil] at named
  | .supplant analyzes => by
    have named := analyzes.named
    rwa [settleAll, settleAll, settleAll, settleAll, walkExprs, walkExprs, walkExprs, walkExprs,
      List.append_nil, ← List.append_assoc] at named

/-- What a statement declares is named in it, or is the function that comes next. -/
theorem AnalyzesStmt.named {region next : Region} {written : Surface.Stmt}
    {before after : State} {statement : Stmt} :
    AnalyzesStmt region written before statement next after →
      ownedNames (settleStmt final statement).walk ⊆
        region.ahead.flatMap namesOf ++ written.names
  | .mainBlock _ body => List.subset_append_of_subset_right _ body.named
  | .mainStatement _ opens inner => by
    have named := inner.named
    rw [opens.names, List.flatMap_cons, List.flatMap_nil, List.append_nil] at named
    rw [settleStmt, settleBody, settleBody, Stmt.walk, ownedNames_below rfl, walkStmts, walkStmts,
      List.append_nil]
    exact List.subset_append_of_subset_right _
      (List.Subset.trans named
        (List.append_subset.mpr ⟨functionNames_subset _, List.Subset.refl _⟩))
  | .affix _ => List.nil_subset _
  | .function _ _ _ _ body _ => ownedNames_function rfl rfl
      (List.subset_append_of_subset_right (_ :: _) body.named)
  | .conjureBinding body _ => ownedNames_function rfl rfl (List.subset_cons_of_subset _ body.named)
  | .declare value _ name _ _ _ | .declareInferred value _ name _ _ _ => by
    rw [settleStmt, Stmt.walk, ownedNames_cons]
    refine List.subset_append_of_subset_right _ ?_
    rw [Surface.Stmt.names, ← name]
    exact List.cons_subset_cons _ value.named
  | .assign _ _ value _ => List.subset_append_of_subset_right _ value.named
  | .step _ _ => List.nil_subset _
  | .branch condition _ consequent alternative => by
    refine List.subset_append_of_subset_right _ ?_
    rw [settleStmt, Stmt.walk, ownedNames_below rfl, ownedNames_append, ownedNames_append]
    exact append_subset_append
      (append_subset_append condition.named consequent.named) alternative.named
  | .loop condition _ body => by
    refine List.subset_append_of_subset_right _ ?_
    rw [settleStmt, Stmt.walk, ownedNames_below rfl, ownedNames_append]
    exact append_subset_append condition.named body.named
  | .breakLoop _ => List.nil_subset _
  | .returnVoid _ => List.nil_subset _
  | .returnFirst _ value _ => List.subset_append_of_subset_right _ value.named
  | .returnAgain _ value _ _ _ => List.subset_append_of_subset_right _ value.named
  | .exscribe value => List.subset_append_of_subset_right _ value.named
  | .evaluate analyzes => by
    refine List.subset_append_of_subset_right _ ?_
    rw [settleStmt, Stmt.walk, ownedNames_below rfl, ownedNames_withType]
    exact analyzes.named
  | .printed analyzes => List.subset_append_of_subset_right _ analyzes.named
  | .block body => List.subset_append_of_subset_right _ body.named

theorem AnalyzesStmts.named {region : Region} {written : List Surface.Stmt}
    {before after : State} {body : List Stmt} :
    AnalyzesStmts region written before body after →
      ownedNames (walkStmts (settleBody final body)) ⊆
        region.ahead.flatMap namesOf ++ namesOfBody written
  | .nil => List.nil_subset _
  | .cons first rest => by
    have later := List.Subset.trans rest.named
      (append_subset_append (flatMap_subset first.ahead_subset) (List.Subset.refl _))
    rw [settleBody, walkStmts, ownedNames_append, namesOfBody]
    refine List.append_subset.mpr ⟨List.Subset.trans first.named ?_, List.Subset.trans later ?_⟩
    · exact append_subset_append (List.Subset.refl _) (List.subset_append_left _ _)
    · exact append_subset_append (List.Subset.refl _) (List.subset_append_right _ _)

/-- What a list of statements declares is named in it. -/
theorem AnalyzesBody.named {scopes : Scopes} {written : List Surface.Stmt}
    {before after : State} {body : List Stmt} :
    AnalyzesBody scopes written before body after →
      ownedNames (walkStmts (settleBody final body)) ⊆ namesOfBody written
  | .body opens analyzes => by
    have named := analyzes.named
    rw [opens.names] at named
    exact List.Subset.trans named
      (List.append_subset.mpr ⟨functionNames_subset_namesOfBody written, List.Subset.refl _⟩)

end

end

end Analysis

end GlyphCompiler
