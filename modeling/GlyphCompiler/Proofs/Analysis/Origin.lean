/-
# Where the nodes of a program come from

Every node of the final form of a program comes from a derivation of its own, which
begins in a sound state and ends before the final one. The nodes below it come from the
parts of that derivation. So what one derivation says of its node holds of all nodes.
-/

import GlyphCompiler.Proofs.Analysis.Lawful

namespace GlyphCompiler

namespace Analysis

variable {final before middle after : State} {scopes : Scopes}

/-- A node of a final form comes from the derivation of a statement, of an expression or of
a call. Expressions may have been given another type since. -/
inductive Arises (final : State) : Node → Prop
  | stmt {region next : Region} {written : Surface.Stmt} {before after : State} {statement : Stmt}
      (analyzes : AnalyzesStmt region written before statement next after)
      (stands : Stands region before) (later : Grows (inferredIn region.scopes) after final) :
    Arises final (.stmt (settleStmt final statement))
  | expr {scopes : Scopes} {written : Surface.Expr} {before after : State} {value : Expr}
      (analyzes : AnalyzesExpr scopes written before value after)
      (sound : Sound before (visible scopes)) (later : Grows (inferredIn scopes) after final)
      (type : Ty) :
    Arises final (.expr ((settle final value).withType type))
  | call {scopes : Scopes} {position : Position} {callee : Surface.Ident}
      {written : List Surface.Expr} {before after : State} {value : Expr}
      (analyzes : AnalyzesCall scopes position callee written before (.expression value) after)
      (sound : Sound before (visible scopes)) (later : Grows (inferredIn scopes) after final)
      (type : Ty) :
    Arises final (.expr ((settle final value).withType type))

/-! ## Parts of derivations -/

theorem AnalyzesExpr.arises {written : Surface.Expr} {value : Expr}
    (analyzes : AnalyzesExpr scopes written before value after)
    (sound : Sound before (visible scopes)) (later : Grows (inferredIn scopes) after final) :
    Arises final (.expr (settle final value)) := by
  rw [← (settle final value).withType_type]
  exact .expr analyzes sound later _

theorem AnalyzesValue.arises {written : Surface.Expr} {value : Expr}
    (analyzes : AnalyzesValue scopes written before value after)
    (sound : Sound before (visible scopes)) (later : Grows (inferredIn scopes) after final) :
    Arises final (.expr (settle final value)) := by
  cases analyzes with
  | value analyzes isValue => exact analyzes.arises sound ((Grows.usingValue _ _).trans later)

/-- What an argument becomes when it is passed comes from the argument. -/
theorem AnalyzesValue.arises_passed {written : Surface.Expr} {value : Expr}
    (analyzes : AnalyzesValue scopes written before value after)
    (sound : Sound before (visible scopes)) (later : Grows (inferredIn scopes) after final)
    (parameter : Ty) :
    Arises final
      (.expr (settle final (if parameter = .any then value else value.withType parameter))) := by
  split
  · exact analyzes.arises sound later
  · next notAny =>
    rw [settle_withType notAny]
    cases analyzes with
    | value analyzes isValue => exact .expr analyzes sound ((Grows.usingValue _ _).trans later) _

theorem AnalyzesExprs.arises {passing : Passing} {written : List Surface.Expr}
    {arguments : List Expr} (analyzes : AnalyzesExprs scopes passing written before arguments after)
    (sound : Sound before (visible scopes)) (later : Grows (inferredIn scopes) after final) :
    ∀ argument ∈ arguments, Arises final (.expr (settle final argument)) := by
  induction written generalizing passing before arguments with
  | nil =>
    cases analyzes
    exact List.forall_mem_nil _
  | cons first written ih =>
    cases analyzes with
    | @into _ parameter _ _ _ _ _ _ argument _ here converts rest =>
      have grown := (here.grows sound).trans (.converting _ parameter argument)
      have between := sound.grow grown (by simp)
      have remaining : Grows (inferredIn scopes) _ final :=
        (rest.grows between).weaken.trans later
      rw [List.forall_mem_cons]
      exact ⟨here.arises_passed sound ((Grows.converting _ _ _).trans remaining) parameter,
        ih rest between⟩
    | value here rest =>
      have between := sound.grow (here.grows sound) (by simp)
      rw [List.forall_mem_cons]
      exact ⟨here.arises sound ((rest.grows between).weaken.trans later),
        ih rest between⟩
    | plain here rest =>
      have between := sound.grow (here.grows sound) (by simp)
      rw [List.forall_mem_cons]
      exact ⟨here.arises sound ((rest.grows between).weaken.trans later),
        ih rest between⟩

theorem AnalyzesStmts.arises {region : Region} {written : List Surface.Stmt} {body : List Stmt}
    (analyzes : AnalyzesStmts region written before body after) (stands : Stands region before)
    (later : Grows (inferredIn region.scopes) after final) :
    ∀ statement ∈ body, Arises final (.stmt (settleStmt final statement)) := by
  induction written generalizing region before body with
  | nil =>
    cases analyzes
    exact List.forall_mem_nil _
  | cons first written ih =>
    cases analyzes with
    | cons here rest =>
      have advances := here.advances stands
      rw [List.forall_mem_cons]
      exact ⟨.stmt here stands (advances.later stands (rest.grows advances.stands) later),
        ih rest advances.stands (later.wider advances.seen)⟩

theorem AnalyzesBody.arises {written : List Surface.Stmt} {body : List Stmt}
    (analyzes : AnalyzesBody scopes written before body after)
    (sound : Sound before (visible scopes)) (later : Grows (inferredIn scopes) after final) :
    ∀ child ∈ (settleBody final body).map Node.stmt, Arises final child := by
  cases analyzes with
  | body opens analyzes =>
    rw [settleBody_eq_map]
    simpa using analyzes.arises (sound.opens opens)
      (later.wider fun function member => (opens.visible function).mpr (.inl member))

/-! ## The nodes below a node -/

/-- The name of what is called comes from a derivation as well. -/
theorem AnalyzesCall.arises_child {position : Position} {callee : Surface.Ident}
    {written : List Surface.Expr} {value : Expr} {child : Node}
    (analyzes : AnalyzesCall scopes position callee written before (.expression value) after)
    (sound : Sound before (visible scopes)) (later : Grows (inferredIn scopes) after final)
    (listed : child ∈ (settle final value).children) : Arises final child := by
  cases analyzes with
  | function found arity arguments =>
    have whole : Grows (inferredIn scopes) before final :=
      (arguments.grows sound).weaken.trans later
    rw [settle, settleAll_eq_map, Expr.children, List.map_map] at listed
    obtain rfl | listed := List.mem_cons.mp listed
    · exact (AnalyzesExpr.function found).arises sound whole
    · obtain ⟨argument, member, rfl⟩ := List.mem_map.mp listed
      exact arguments.arises sound later argument member
  | reference found isFunction arity arguments =>
    have whole : Grows (inferredIn scopes) before final :=
      (arguments.grows sound).weaken.trans later
    rw [settle, settleAll_eq_map, Expr.children, List.map_map] at listed
    obtain rfl | listed := List.mem_cons.mp listed
    · exact (AnalyzesExpr.reference found).arises sound whole
    · obtain ⟨argument, member, rfl⟩ := List.mem_map.mp listed
      exact arguments.arises sound later argument member
  | typeOf described => cases listed
  | apply parts | supplant parts =>
    have all := parts.arises sound later
    simp only [settle, Expr.children, List.mem_cons, List.not_mem_nil, or_false] at listed all
    grind

theorem AnalyzesExpr.arises_child {written : Surface.Expr} {value : Expr} {child : Node}
    (analyzes : AnalyzesExpr scopes written before value after)
    (sound : Sound before (visible scopes)) (later : Grows (inferredIn scopes) after final)
    (listed : child ∈ (settle final value).children) : Arises final child := by
  cases analyzes with
  | literal isLiteral => cases isLiteral <;> cases listed
  | reference found | function found => cases listed
  | binary left right | subscript left right =>
    have between := sound.grow (left.grows sound) (by simp)
    have first := left.arises sound ((right.grows between).weaken.trans later)
    have second := right.arises between later
    simp only [settle, Expr.children, List.mem_cons, List.not_mem_nil, or_false] at listed
    obtain rfl | rfl := listed
    · exact first
    · exact second
  | unary operand =>
    obtain rfl := List.mem_singleton.mp listed
    exact operand.arises sound later
  | addressOf found =>
    obtain rfl := List.mem_singleton.mp listed
    exact (AnalyzesExpr.reference found).arises sound later
  | dereference operand pointer =>
    obtain rfl := List.mem_singleton.mp listed
    exact operand.arises sound later
  | call calls => exact calls.arises_child sound later listed
  | array elements same =>
    rw [settle, settleAll_eq_map, Expr.children, List.map_map] at listed
    obtain ⟨element, member, rfl⟩ := List.mem_map.mp listed
    exact elements.arises sound later element member
  | conjure body returns =>
    have extended : Sound (before.numbering 1)
        (⟨before.nextId, "conjure", [], .any, true⟩ :: visible scopes) :=
      sound.cons rfl fun _ => rfl
    exact body.arises
      (extended.subset fun other member => List.mem_cons.mpr (mem_visible_functionBody.mp member))
      (later.wider fun function member => mem_visible_functionBody.mpr (.inr member)) child listed

theorem AnalyzesStmt.arises_child {region next : Region} {written : Surface.Stmt}
    {statement : Stmt} {child : Node}
    (analyzes : AnalyzesStmt region written before statement next after)
    (stands : Stands region before) (later : Grows (inferredIn region.scopes) after final)
    (listed : child ∈ (settleStmt final statement).children) : Arises final child := by
  cases analyzes with
  | mainBlock unseen body =>
    exact body.arises stands.beginning.block
      (later.wider fun _ member => mem_visible_block.mpr member) child listed
  | mainStatement unseen opens inner =>
    obtain rfl := List.mem_singleton.mp listed
    exact .stmt inner (stands.beginning.sound.opens opens)
      (later.wider fun function member => (opens.visible function).mpr (.inl member))
  | affix declared => cases listed
  | function seen named owner inLoop body returns =>
    have sound := stands.around seen
    exact body.arises sound (stands.inBody seen (body.grows sound) later) child listed
  | conjureBinding body returns =>
    have sound := stands.around fun _ => mem_visible_functionBody
    exact body.arises sound
      (stands.inBody (fun _ => mem_visible_functionBody) (body.grows sound) later) child listed
  | declare value id name converts declared =>
    obtain rfl := List.mem_singleton.mp listed
    exact value.arises stands.sound
      ((Grows.converting _ _ _).trans ((Grows.declaring _ _ _).trans later))
  | declareInferred value id name type declared =>
    obtain rfl := List.mem_singleton.mp listed
    exact value.arises stands.sound ((Grows.declaring _ _ _).trans later)
  | assign found changeable value converts =>
    obtain rfl := List.mem_singleton.mp listed
    exact value.arises stands.sound ((Grows.converting _ _ _).trans later)
  | step found changeable => cases listed
  | branch condition isBool consequent alternative =>
    have afterFirst := stands.grow (condition.grows stands.sound).weaken
    have second := consequent.grows afterFirst.block
    have afterSecond := afterFirst.grow (second.mono fun _ _ => fixable_of_owner rfl)
    have laterSecond := (alternative.grows afterSecond.block).inside (owner_block _) later
    have laterFirst := second.inside (owner_block _) laterSecond
    obtain rfl | listed := List.mem_cons.mp listed
    · exact condition.arises stands.sound laterFirst
    obtain listed | listed := List.mem_append.mp listed
    · exact consequent.arises afterFirst.block
        (laterSecond.wider fun _ member => mem_visible_block.mpr member) child listed
    · exact alternative.arises afterSecond.block
        (later.wider fun _ member => mem_visible_block.mpr member) child listed
  | loop condition isBool body =>
    have afterFirst := stands.grow (condition.grows stands.sound).weaken
    have laterFirst := (body.grows afterFirst.loop).inside (owner_loop _) later
    obtain rfl | listed := List.mem_cons.mp listed
    · exact condition.arises stands.sound laterFirst
    · exact body.arises afterFirst.loop
        (later.wider fun _ member => mem_visible_loop.mpr member) child listed
  | breakLoop inLoop | returnVoid owner => cases listed
  | returnFirst owner value pending =>
    obtain rfl := List.mem_singleton.mp listed
    have inside := stands.grow (value.grows stands.sound).weaken
    have member := mem_visible_of_owner owner
    have inferred := (Bool.and_eq_true_iff.mp pending).1
    have allowed : inferredIn region.scopes _ := ⟨_, member, inferred, rfl⟩
    exact value.arises stands.sound
      ((Grows.fixing (inside.sound.numbered _ member) pending allowed).trans later)
  | returnAgain owner value known hasResult converts =>
    obtain rfl := List.mem_singleton.mp listed
    exact value.arises stands.sound ((Grows.converting _ _ _).trans later)
  | exscribe value =>
    obtain rfl := List.mem_singleton.mp listed
    exact value.arises stands.sound later
  | evaluate calls =>
    obtain rfl := List.mem_singleton.mp listed
    exact .call calls stands.sound later _
  | printed calls =>
    obtain rfl := List.mem_singleton.mp listed
    cases calls with
    | printed values => exact values.arises stands.sound later _ List.mem_cons_self
  | block body =>
    exact body.arises stands.block (later.wider fun _ member => mem_visible_block.mpr member)
      child listed

/-- What is directly below a node that comes from a derivation comes from one too. -/
theorem Arises.child {node child : Node} (arises : Arises final node)
    (listed : child ∈ node.children) : Arises final child := by
  cases arises with
  | stmt analyzes stands later => exact analyzes.arises_child stands later listed
  | expr analyzes sound later type =>
    rw [Node.children, Expr.children_withType] at listed
    exact analyzes.arises_child sound later listed
  | call analyzes sound later type =>
    rw [Node.children, Expr.children_withType] at listed
    exact analyzes.arises_child sound later listed

/-- Every node of the final form of a body comes from a derivation. -/
theorem AnalyzesBody.arises_walk {written : List Surface.Stmt} {body : List Stmt}
    (analyzes : AnalyzesBody scopes written before body after)
    (sound : Sound before (visible scopes)) (later : Grows (inferredIn scopes) after final) :
    ∀ node ∈ walkStmts (settleBody final body), Arises final node := by
  intro node member
  obtain ⟨statement, listed, below⟩ := mem_walkStmts.mp member
  have here := analyzes.arises sound later (.stmt statement) (List.mem_map_of_mem listed)
  exact Node.all_of_inherited Arises.child here node below

/-! ## Values that are returned -/

/-- A value that is returned from a function comes from a derivation. Either its type has
become the result of the function, or it converts to the result. -/
inductive ReturnedTo (final : State) (owner : Function) (value : Expr) : Prop
  | first {scopes : Scopes} {written : Surface.Expr} {before middle : State}
      (analyzes : AnalyzesValue scopes written before value middle)
      (sound : Sound before (visible scopes)) (later : Grows (inferredIn scopes) middle final)
      (result : (final.current owner).result = value.type)
  | again {scopes : Scopes} {written : Surface.Expr} {before middle : State} {result : Ty}
      (analyzes : AnalyzesValue scopes written before value middle)
      (sound : Sound before (visible scopes)) (converts : Converts value result)
      (later : Grows (inferredIn scopes) (middle.converting result value) final)
      (same : (final.current owner).result = result)

mutual

theorem AnalyzesStmt.returnedTo {region next : Region} {written : Surface.Stmt}
    {before after : State} {statement : Stmt} {owner : Function} :
    AnalyzesStmt region written before statement next after → Stands region before →
      Grows (inferredIn region.scopes) after final → region.scopes.innermost.owner = some owner →
        ∀ value ∈ statement.returned, ReturnedTo final owner value
  | .mainBlock _ _, _, _, _ | .mainStatement _ _ _, _, _, _ | .affix _, _, _, _
  | .function _ _ _ _ _ _, _, _, _ | .conjureBinding _ _, _, _, _ | .declare _ _ _ _ _ _, _, _, _
  | .declareInferred _ _ _ _ _ _, _, _, _ | .assign _ _ _ _, _, _, _ | .step _ _, _, _, _
  | .breakLoop _, _, _, _ | .returnVoid _, _, _, _ | .exscribe _, _, _, _ | .evaluate _, _, _, _
  | .printed _, _, _, _ => nofun
  | .branch analyzes _ analyzesConsequent analyzesAlternative, stands, later, isOwner => by
    have afterFirst := stands.grow (analyzes.grows stands.sound).weaken
    have second := analyzesConsequent.grows afterFirst.block
    have afterSecond := afterFirst.grow (second.mono fun _ _ => fixable_of_owner rfl)
    have laterSecond := (analyzesAlternative.grows afterSecond.block).inside (owner_block _) later
    have consequent := analyzesConsequent.returnedTo afterFirst.block
      (laterSecond.wider fun _ member => mem_visible_block.mpr member) isOwner
    have alternative := analyzesAlternative.returnedTo afterSecond.block
      (later.wider fun _ member => mem_visible_block.mpr member) isOwner
    exact List.forall_mem_append.mpr ⟨consequent, alternative⟩
  | .loop analyzes _ analyzesBody, stands, later, isOwner => by
    have afterFirst := stands.grow (analyzes.grows stands.sound).weaken
    exact analyzesBody.returnedTo afterFirst.loop
      (later.wider fun _ member => mem_visible_loop.mpr member) isOwner
  | .returnFirst owner analyzes pending, stands, later, isOwner => by
    obtain rfl := Option.some.inj (owner.symm.trans isOwner)
    have inside := stands.grow (analyzes.grows stands.sound).weaken
    have member := mem_visible_of_owner owner
    have allowed : inferredIn region.scopes _ :=
      ⟨_, member, (Bool.and_eq_true_iff.mp pending).1, rfl⟩
    have direct := (Grows.fixing (inside.sound.numbered _ member) pending allowed).trans later
    have result := current_of_lookup (later.kept _ _ (lookup_fixing_self _ _ _))
    exact List.forall_mem_singleton.mpr (.first analyzes stands.sound direct result)
  | .returnAgain owner analyzes known _ converts, stands, later, isOwner => by
    obtain rfl := Option.some.inj (owner.symm.trans isOwner)
    have inside := stands.grow (analyzes.grows stands.sound).weaken
    have direct := (Grows.converting _ _ _).trans later
    have same := inside.sound.current_known direct (mem_visible_of_owner owner) known
    exact List.forall_mem_singleton.mpr
      (.again analyzes stands.sound converts later (congrArg Function.result same))
  | .block analyzes, stands, later, isOwner =>
    analyzes.returnedTo stands.block
      (later.wider fun _ member => mem_visible_block.mpr member) isOwner

theorem AnalyzesStmts.returnedTo {region : Region} {written : List Surface.Stmt}
    {before after : State} {body : List Stmt} {owner : Function} :
    AnalyzesStmts region written before body after → Stands region before →
      Grows (inferredIn region.scopes) after final → region.scopes.innermost.owner = some owner →
        ∀ value ∈ returned body, ReturnedTo final owner value
  | .nil, _, _, _ => nofun
  | .cons first rest, stands, later, isOwner => by
    have advances := first.advances stands
    have here := first.returnedTo stands
      (advances.later stands (rest.grows advances.stands) later) isOwner
    have others := rest.returnedTo advances.stands (later.wider advances.seen)
      (advances.owner.trans isOwner)
    exact List.forall_mem_append.mpr ⟨here, others⟩

theorem AnalyzesBody.returnedTo {scopes : Scopes} {written : List Surface.Stmt}
    {before after : State} {body : List Stmt} {owner : Function} :
    AnalyzesBody scopes written before body after → Sound before (visible scopes) →
      Grows (inferredIn scopes) after final → scopes.innermost.owner = some owner →
        ∀ value ∈ returned body, ReturnedTo final owner value
  | .body opens analyzes, sound, later, isOwner =>
    analyzes.returnedTo (sound.opens opens)
      (later.wider fun function member => (opens.visible function).mpr (.inl member))
      (opens.owner.trans isOwner)

end

end Analysis

end GlyphCompiler
