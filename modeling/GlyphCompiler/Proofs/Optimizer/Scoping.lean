/-
# Scoping of optimized programs

The optimizer adds no declaration and no mention. It may take statements with their
declarations away, but only whole lists of them, together with all that can see
them; the statements of a branch that is taken join the list around them, which
then declares more. So everything that is in sight before a pass is in sight after it.
-/

import GlyphCompiler.Proofs.Optimizer.Idempotence
import GlyphCompiler.Proofs.Program.Owners

namespace GlyphCompiler

namespace Optimizer

/-! ## Parts that add nothing -/

/-- An expression can take the place of another one: it mentions nothing that was not in
sight, and declares nothing else. -/
structure Fits (result expression : Expr) : Prop where
  inSight : ∀ sight, expression.InSight sight → result.InSight sight
  declared : (ownersAmong result.walk).Sublist (ownersAmong expression.walk)

/-- Some expressions can take the place of others. -/
structure FitAll (results expressions : List Expr) : Prop where
  inSight : ∀ sight, allInSight expressions sight → allInSight results sight
  declared : (ownersAmong (walkExprs results)).Sublist (ownersAmong (walkExprs expressions))

/-- Some statements can take the place of others in a list: what is declared beside them
is still in sight. -/
structure FitBody (results body : List Stmt) : Prop where
  inSight : ∀ sight, hoisted results ⊆ sight.functions → bodyInSight body sight →
    bodyInSight results sight
  hoisted : GlyphCompiler.hoisted body ⊆ GlyphCompiler.hoisted results
  introduced : GlyphCompiler.introduced body ⊆ GlyphCompiler.introduced results
  declared : (ownersAmong (walkStmts results)).Sublist (ownersAmong (walkStmts body))

theorem Fits.refl (expression : Expr) : Fits expression expression :=
  ⟨fun _ seen => seen, .refl _⟩

theorem FitBody.refl (body : List Stmt) : FitBody body body :=
  ⟨fun _ _ seen => seen, List.Subset.refl _, List.Subset.refl _, .refl _⟩

theorem FitBody.trans {first second third : List Stmt} (left : FitBody second first)
    (right : FitBody third second) : FitBody third first where
  inSight sight seen inSight := right.inSight sight seen
    (left.inSight sight (List.Subset.trans right.hoisted seen) inSight)
  hoisted := List.Subset.trans left.hoisted right.hoisted
  introduced := List.Subset.trans left.introduced right.introduced
  declared := right.declared.trans left.declared

/-- A body of its own still sees everything it mentions. -/
theorem FitBody.opening {results body : List Stmt} (fits : FitBody results body) {sight : Sight}
    (inSight : bodyInSight body (sight.opening body)) :
    bodyInSight results (sight.opening results) :=
  fits.inSight _ (List.subset_append_left _ _)
    (bodyInSight_mono body inSight ((Sight.Within.refl sight).openingMore fits.hoisted))

theorem FitBody.append {first second firstResults secondResults : List Stmt}
    (left : FitBody firstResults first) (right : FitBody secondResults second) :
    FitBody (firstResults ++ secondResults) (first ++ second) where
  inSight sight seen inSight := by
    rw [hoisted_append, List.append_subset] at seen
    rw [bodyInSight_append] at inSight ⊢
    have more : (sight.afterAll first).Within (sight.afterAll firstResults) :=
      ⟨fun target member => by
        rw [Sight.mem_values_afterAll] at member ⊢
        exact member.imp_left (left.introduced ·), by simp⟩
    exact ⟨left.inSight sight seen.1 inSight.1,
      right.inSight _ (by simpa using seen.2) (bodyInSight_mono second inSight.2 more)⟩
  hoisted := by
    rw [hoisted_append, hoisted_append]
    exact List.append_subset.mpr ⟨List.subset_append_of_subset_left _ left.hoisted,
      List.subset_append_of_subset_right _ right.hoisted⟩
  introduced := by
    rw [introduced_append, introduced_append]
    exact List.append_subset.mpr ⟨List.subset_append_of_subset_left _ left.introduced,
      List.subset_append_of_subset_right _ right.introduced⟩
  declared := by
    simp only [walkStmts_eq_flatMap, List.flatMap_append, ownersAmong_append]
    simpa only [walkStmts_eq_flatMap] using left.declared.append right.declared

/-- One statement takes the place of another one. -/
theorem fitBody_singleton {result statement : Stmt}
    (inSight : ∀ sight, result.hoisted ⊆ sight.functions → statement.InSight sight →
      result.InSight sight)
    (hoisted : statement.hoisted ⊆ result.hoisted)
    (introduced : statement.introduced ⊆ result.introduced)
    (declared : (ownersAmong result.walk).Sublist (ownersAmong statement.walk)) :
    FitBody [result] [statement] where
  inSight sight seen inSight' := ⟨inSight sight (by simpa [GlyphCompiler.hoisted] using seen) inSight'.1, trivial⟩
  hoisted := by simpa [GlyphCompiler.hoisted] using hoisted
  introduced := by simpa [GlyphCompiler.introduced] using introduced
  declared := by simpa [walkStmts] using declared

/-- A statement that declares nothing in its list can be left out. -/
theorem fitBody_nil {statement : Stmt} (hoisted : statement.hoisted = [])
    (introduced : statement.introduced = []) : FitBody [] [statement] where
  inSight _ _ _ := trivial
  hoisted := by simp [GlyphCompiler.hoisted, hoisted]
  introduced := by simp [GlyphCompiler.introduced, introduced]
  declared := by simp [walkStmts, ownersAmong]

/-- The statements of a body of its own can take the place of the statement that it
belongs to: their list then declares what the body declared. -/
theorem FitBody.splice {results body : List Stmt} {statement : Stmt} (fits : FitBody results body)
    (inSight : ∀ sight, statement.InSight sight → bodyInSight body (sight.opening body))
    (hoisted : statement.hoisted = []) (introduced : statement.introduced = [])
    (declared : (ownersAmong (walkStmts body)).Sublist (ownersAmong statement.walk)) :
    FitBody results [statement] where
  inSight sight seen inSight' := by
    have joined : (sight.opening results).Within sight :=
      ⟨List.Subset.refl _, List.append_subset.mpr ⟨seen, List.Subset.refl _⟩⟩
    exact bodyInSight_mono results (fits.opening (inSight sight inSight'.1)) joined
  hoisted := by simp [GlyphCompiler.hoisted, hoisted]
  introduced := by simp [GlyphCompiler.introduced, introduced]
  declared := by simpa [walkStmts] using fits.declared.trans declared

/-! ## Absorbed steps -/

theorem fitBody_alike {first second : Stmt} (alike : Alike first second) : FitBody [second] [first] := by
  cases alike with
  | refl => exact .refl _
  | number position target info value other =>
    exact fitBody_singleton (fun _ _ _ => trivial) (List.Subset.refl _) (List.Subset.refl _)
      (.refl _)

theorem fitBody_forall₂ {first second : List Stmt} (alike : List.Forall₂ Alike first second) :
    FitBody second first := by
  induction alike with
  | nil => exact .refl _
  | cons here _ rest => exact (fitBody_alike here).append rest

theorem fitBody_foldl {body read : List Stmt} {absorption : Absorption}
    (fits : FitBody absorption.kept.toList read) :
    FitBody (body.foldl Absorption.next absorption).kept.toList (read ++ body) := by
  induction body generalizing read absorption with
  | nil => simpa using fits
  | cons statement body ih =>
    rw [List.append_cons, List.foldl_cons]
    apply ih
    obtain ⟨-, kept⟩ | ⟨position, step, target, place, rfl, -, stepped⟩ :=
      next_cases absorption statement
    · rw [kept, keep_eq, Array.toList_push]
      exact fits.append (.refl _)
    · rw [stepped, ← List.append_nil (Array.toList _)]
      exact (fits.trans (fitBody_forall₂ (stepAt_alike absorption place step))).append
        (fitBody_nil rfl rfl)

theorem fitBody_absorbSteps (body : List Stmt) : FitBody (absorbSteps body) body :=
  @fitBody_foldl body [] ⟨#[], []⟩ (.refl _)

/-! ## Simplified operators -/

/-- A literal can take the place of any expression. -/
theorem fits_of_literal {result expression : Expr}
    (literal : (∃ info value, result = .number info value) ∨ ∃ info value, result = .bool info value) :
    Fits result expression := by
  obtain ⟨info, value, rfl⟩ | ⟨info, value, rfl⟩ := literal <;>
    exact ⟨fun _ _ => trivial, List.nil_sublist _⟩

theorem literal_of_numberLiteral {info : Info} {value : Number} {result : Expr}
    (literal : numberLiteral info value = .ok (some result)) :
    (∃ info value, result = .number info value) ∨ ∃ info value, result = .bool info value :=
  .inl ⟨_, _, (numberLiteral_eq_some literal).1⟩

theorem literal_of_fold {info : Info} {operator : BinaryOperator} {left right result : Expr}
    (folds : fold info operator left right = .ok (some result)) :
    (∃ info value, result = .number info value) ∨ ∃ info value, result = .bool info value := by
  obtain ⟨value, -, literal⟩ := bind_eq_ok.mp folds
  split at literal
  · exact literal_of_numberLiteral literal
  · cases literal
    exact .inr ⟨_, _, rfl⟩
  · cases literal

theorem fits_binary {info : Info} {operator : BinaryOperator} {left right first second result : Expr}
    (fitsLeft : Fits first left) (fitsRight : Fits second right)
    (simplifies : simplifyBinary info operator first second = .ok result) :
    Fits result (.binary info operator left right) := by
  have fromLeft : Fits first (.binary info operator left right) :=
    ⟨fun sight seen => fitsLeft.inSight sight seen.1, by
      rw [Expr.walk, ownersAmong_cons, ownersAmong_append]
      exact fitsLeft.declared.trans (List.sublist_append_left _ _)⟩
  have fromRight : Fits second (.binary info operator left right) :=
    ⟨fun sight seen => fitsRight.inSight sight seen.2, by
      rw [Expr.walk, ownersAmong_cons, ownersAmong_append]
      exact fitsRight.declared.trans (List.sublist_append_right _ _)⟩
  obtain ⟨folded, folds, rest⟩ := bind_eq_ok.mp simplifies
  cases folded with
  | some folded =>
    cases rest
    exact fits_of_literal (literal_of_fold folds)
  | none =>
    cases lawResult_of_applyLaws rest with
    | none =>
      refine ⟨fun sight seen => ⟨fitsLeft.inSight sight seen.1, fitsRight.inSight sight seen.2⟩, ?_⟩
      simp only [Expr.walk, ownersAmong_cons, ownersAmong_append]
      exact fitsLeft.declared.append fitsRight.declared
    | left _ => exact fromLeft
    | right _ => exact fromRight
    | decided _ _ => exact fromLeft
    | literal literal => exact fits_of_literal (literal_of_numberLiteral literal)
    | negated _ _ _ _ => exact ⟨fromRight.inSight, fromRight.declared⟩

theorem fits_unary {info : Info} {operator : UnaryOperator} {operand inner result : Expr}
    (fits : Fits inner operand) (simplifies : simplifyUnary info operator inner = .ok result) :
    Fits result (.unary info operator operand) := by
  have kept : Fits (.unary info operator inner) (.unary info operator operand) :=
    ⟨fits.inSight, fits.declared⟩
  unfold simplifyUnary at simplifies
  split at simplifies
  · cases simplifies
    exact fits_of_literal (.inr ⟨_, _, rfl⟩)
  · obtain ⟨literal, isLiteral, same⟩ := bind_eq_ok.mp simplifies
    cases literal with
    | some literal =>
      cases same
      exact fits_of_literal (literal_of_numberLiteral isLiteral)
    | none =>
      cases same
      exact kept
  · cases simplifies
    exact kept

theorem fits_dereference {info : Info} {operand inner : Expr} (fits : Fits inner operand) :
    Fits (simplifyDereference info inner) (.dereference info operand) := by
  unfold simplifyDereference
  split
  · exact ⟨fits.inSight, fits.declared⟩
  · exact ⟨fits.inSight, fits.declared⟩

/-! ## One pass -/

mutual

theorem fits_optimizeExpr : {expression result : Expr} →
    optimizeExpr expression = .ok result → Fits result expression
  | .binary info operator left right, result, optimizes => by
    obtain ⟨first, isFirst, rest⟩ := bind_eq_ok.mp optimizes
    obtain ⟨second, isSecond, simplifies⟩ := bind_eq_ok.mp rest
    exact fits_binary (fits_optimizeExpr isFirst) (fits_optimizeExpr isSecond) simplifies
  | .unary info operator operand, result, optimizes => by
    obtain ⟨inner, isInner, simplifies⟩ := bind_eq_ok.mp optimizes
    exact fits_unary (fits_optimizeExpr isInner) simplifies
  | .dereference info operand, result, optimizes => by
    obtain ⟨inner, isInner, same⟩ := bind_eq_ok.mp optimizes
    cases same
    exact fits_dereference (fits_optimizeExpr isInner)
  | .call info callee arguments, result, optimizes => by
    obtain ⟨results, areResults, same⟩ := bind_eq_ok.mp optimizes
    cases same
    have fits := fits_optimizeExprs areResults
    refine ⟨fun sight seen => ⟨seen.1, fits.inSight sight seen.2⟩, ?_⟩
    simp only [Expr.walk, ownersAmong_cons]
    exact (List.Sublist.refl _).append ((List.Sublist.refl _).append fits.declared)
  | .subscript info base index, result, optimizes => by
    obtain ⟨first, isFirst, rest⟩ := bind_eq_ok.mp optimizes
    obtain ⟨second, isSecond, same⟩ := bind_eq_ok.mp rest
    cases same
    have base := fits_optimizeExpr isFirst
    have index := fits_optimizeExpr isSecond
    refine ⟨fun sight seen => ⟨base.inSight sight seen.1, index.inSight sight seen.2⟩, ?_⟩
    simp only [Expr.walk, ownersAmong_cons, ownersAmong_append]
    exact base.declared.append index.declared
  | .array info elements, result, optimizes => by
    obtain ⟨results, areResults, same⟩ := bind_eq_ok.mp optimizes
    cases same
    have fits := fits_optimizeExprs areResults
    exact ⟨fits.inSight, fits.declared⟩
  | .conjure info body, result, optimizes => by
    obtain ⟨flat, isFlat, same⟩ := bind_eq_ok.mp optimizes
    cases same
    have fits := (fitBody_optimizeEach isFlat).trans (fitBody_absorbSteps flat)
    exact ⟨fun _ => fits.opening, fits.declared⟩
  | .apply info mapping items, result, optimizes => by
    obtain ⟨first, isFirst, rest⟩ := bind_eq_ok.mp optimizes
    obtain ⟨second, isSecond, same⟩ := bind_eq_ok.mp rest
    cases same
    have mapping := fits_optimizeExpr isFirst
    have items := fits_optimizeExpr isSecond
    refine ⟨fun sight seen => ⟨mapping.inSight sight seen.1, items.inSight sight seen.2⟩, ?_⟩
    simp only [Expr.walk, ownersAmong_cons, ownersAmong_append]
    exact mapping.declared.append items.declared
  | .supplant info text pattern replacement, result, optimizes => by
    obtain ⟨first, isFirst, rest⟩ := bind_eq_ok.mp optimizes
    obtain ⟨second, isSecond, rest⟩ := bind_eq_ok.mp rest
    obtain ⟨third, isThird, same⟩ := bind_eq_ok.mp rest
    cases same
    have text := fits_optimizeExpr isFirst
    have pattern := fits_optimizeExpr isSecond
    have replacement := fits_optimizeExpr isThird
    refine ⟨fun sight seen => ⟨text.inSight sight seen.1, pattern.inSight sight seen.2.1,
      replacement.inSight sight seen.2.2⟩, ?_⟩
    simp only [Expr.walk, ownersAmong_cons, ownersAmong_append]
    exact (text.declared.append pattern.declared).append replacement.declared
  | .number _ _, _, rfl | .bool _ _, _, rfl | .string _ _, _, rfl | .glyph _ _, _, rfl
  | .codepoint _ _, _, rfl | .null _, _, rfl | .reference _, _, rfl | .function _ _, _, rfl
  | .addressOf _ _, _, rfl | .typeOf _ _, _, rfl => .refl _

theorem fits_optimizeExprs : {expressions results : List Expr} →
    optimizeExprs expressions = .ok results → FitAll results expressions
  | [], _, rfl => ⟨fun _ seen => seen, .refl _⟩
  | expression :: rest, results, optimizes => by
    obtain ⟨first, isFirst, others⟩ := bind_eq_ok.mp optimizes
    obtain ⟨others, areOthers, same⟩ := bind_eq_ok.mp others
    cases same
    have head := fits_optimizeExpr isFirst
    have tail := fits_optimizeExprs areOthers
    refine ⟨fun sight seen => ⟨head.inSight sight seen.1, tail.inSight sight seen.2⟩, ?_⟩
    simp only [walkExprs, ownersAmong_append]
    exact head.declared.append tail.declared

theorem fitBody_optimizeStmt : {statement : Stmt} → {results : List Stmt} →
    optimizeStmt statement = .ok results → FitBody results [statement]
  | .declare position target value, results, optimizes => by
    obtain ⟨result, isResult, same⟩ := bind_eq_ok.mp optimizes
    cases same
    have fits := fits_optimizeExpr isResult
    refine fitBody_singleton (fun sight _ => fits.inSight sight) (List.Subset.refl _)
      (List.Subset.refl _) ?_
    simp only [Stmt.walk, ownersAmong_cons]
    exact (List.Sublist.refl _).append fits.declared
  | .function position target body, results, optimizes => by
    obtain ⟨flat, isFlat, same⟩ := bind_eq_ok.mp optimizes
    cases same
    have fits := (fitBody_optimizeEach isFlat).trans (fitBody_absorbSteps flat)
    refine fitBody_singleton (fun _ _ => fits.opening) (List.Subset.refl _) (List.Subset.refl _) ?_
    simp only [Stmt.walk, ownersAmong_cons]
    exact (List.Sublist.refl _).append fits.declared
  | .main position body, results, optimizes => by
    obtain ⟨flat, isFlat, same⟩ := bind_eq_ok.mp optimizes
    cases same
    have fits := (fitBody_optimizeEach isFlat).trans (fitBody_absorbSteps flat)
    exact fitBody_singleton fits.inSight fits.hoisted fits.introduced fits.declared
  | .assign position target value, results, optimizes => by
    obtain ⟨result, isResult, same⟩ := bind_eq_ok.mp optimizes
    have fits := fits_optimizeExpr isResult
    cases isRead : reads target result with
    | true =>
      rw [isRead] at same
      cases same
      exact fitBody_nil rfl rfl
    | false =>
      rw [isRead] at same
      cases same
      exact fitBody_singleton (fun sight _ seen => ⟨seen.1, fits.inSight sight seen.2⟩)
        (List.Subset.refl _) (List.Subset.refl _) fits.declared
  | .branch position condition consequent alternative, results, optimizes => by
    obtain ⟨decided, isDecided, rest⟩ := bind_eq_ok.mp optimizes
    obtain ⟨first, isFirst, rest⟩ := bind_eq_ok.mp rest
    obtain ⟨second, isSecond, same⟩ := bind_eq_ok.mp rest
    have condition := fits_optimizeExpr isDecided
    have consequent := (fitBody_optimizeEach isFirst).trans (fitBody_absorbSteps first)
    have alternative := (fitBody_optimizeEach isSecond).trans (fitBody_absorbSteps second)
    dsimp only at same
    split at same
    · next info known _ =>
      obtain rfl := pure_eq_ok.mp same
      cases known with
      | true =>
        refine consequent.splice (fun _ seen => seen.2.1) rfl rfl ?_
        simp only [Stmt.walk, ownersAmong_cons, ownersAmong_append]
        exact ((List.sublist_append_right _ _).trans (List.sublist_append_left _ _)).trans
          (List.sublist_append_right _ _)
      | false =>
        refine alternative.splice (fun _ seen => seen.2.2) rfl rfl ?_
        simp only [Stmt.walk, ownersAmong_cons, ownersAmong_append]
        exact (List.sublist_append_right _ _).trans (List.sublist_append_right _ _)
    · obtain rfl := pure_eq_ok.mp same
      refine fitBody_singleton (fun sight _ seen => ⟨condition.inSight sight seen.1,
        consequent.opening seen.2.1, alternative.opening seen.2.2⟩) (List.Subset.refl _)
        (List.Subset.refl _) ?_
      simp only [Stmt.walk, ownersAmong_cons, ownersAmong_append]
      exact (condition.declared.append consequent.declared).append alternative.declared
  | .loop position condition body, results, optimizes => by
    obtain ⟨decided, isDecided, rest⟩ := bind_eq_ok.mp optimizes
    have condition := fits_optimizeExpr isDecided
    split at rest
    · obtain rfl := pure_eq_ok.mp rest
      exact fitBody_nil rfl rfl
    · obtain ⟨flat, isFlat, same⟩ := bind_eq_ok.mp rest
      obtain rfl := pure_eq_ok.mp same
      have fits := (fitBody_optimizeEach isFlat).trans (fitBody_absorbSteps flat)
      refine fitBody_singleton (fun sight _ seen => ⟨condition.inSight sight seen.1,
        fits.opening seen.2⟩) (List.Subset.refl _) (List.Subset.refl _) ?_
      simp only [Stmt.walk, ownersAmong_cons, ownersAmong_append]
      exact condition.declared.append fits.declared
  | .returnValue position value, results, optimizes => by
    obtain ⟨result, isResult, same⟩ := bind_eq_ok.mp optimizes
    cases same
    have fits := fits_optimizeExpr isResult
    exact fitBody_singleton (fun sight _ => fits.inSight sight) (List.Subset.refl _)
      (List.Subset.refl _) fits.declared
  | .exscribe position value, results, optimizes => by
    obtain ⟨result, isResult, same⟩ := bind_eq_ok.mp optimizes
    cases same
    have fits := fits_optimizeExpr isResult
    exact fitBody_singleton (fun sight _ => fits.inSight sight) (List.Subset.refl _)
      (List.Subset.refl _) fits.declared
  | .evaluate position value, results, optimizes => by
    obtain ⟨result, isResult, same⟩ := bind_eq_ok.mp optimizes
    cases same
    have fits := fits_optimizeExpr isResult
    exact fitBody_singleton (fun sight _ => fits.inSight sight) (List.Subset.refl _)
      (List.Subset.refl _) fits.declared
  | .block position body, results, optimizes => by
    obtain ⟨flat, isFlat, same⟩ := bind_eq_ok.mp optimizes
    cases same
    have fits := (fitBody_optimizeEach isFlat).trans (fitBody_absorbSteps flat)
    exact fitBody_singleton (fun _ _ => fits.opening) (List.Subset.refl _) (List.Subset.refl _)
      fits.declared
  | .affix _ _, _, rfl | .step _ _ _, _, rfl | .breakLoop _, _, rfl
  | .returnVoid _, _, rfl => .refl _

theorem fitBody_optimizeEach : {statements results : List Stmt} →
    optimizeEach statements = .ok results → FitBody results statements
  | [], _, rfl => .refl _
  | statement :: rest, results, optimizes => by
    obtain ⟨first, isFirst, others⟩ := bind_eq_ok.mp optimizes
    obtain ⟨others, areOthers, same⟩ := bind_eq_ok.mp others
    cases same
    exact (fitBody_optimizeStmt isFirst).append (fitBody_optimizeEach areOthers)

end

/-- A pass of the optimizer fits the body of a program. -/
theorem fitBody_optimize {program optimized : Program}
    (completes : optimize program = .ok optimized) : FitBody optimized.body program.body := by
  obtain ⟨body, isBody, same⟩ := bind_eq_ok.mp completes
  obtain ⟨flat, isFlat, rest⟩ := bind_eq_ok.mp isBody
  cases rest
  cases same
  exact (fitBody_optimizeEach isFlat).trans (fitBody_absorbSteps flat)

/-- Any number of passes of the optimizer fit the body of a program. -/
theorem fitBody_optimizeTimes {passes : Nat} {program optimized : Program}
    (completes : optimizeTimes passes program = .ok optimized) :
    FitBody optimized.body program.body := by
  induction passes generalizing program with
  | zero =>
    cases completes
    exact .refl _
  | succ passes ih =>
    obtain ⟨middle, isMiddle, rest⟩ := bind_eq_ok.mp completes
    exact (fitBody_optimize isMiddle).trans (ih rest)

/-- A program declares nothing that it did not declare before the optimizer. -/
theorem owners_optimizeTimes {passes : Nat} {program optimized : Program}
    (completes : optimizeTimes passes program = .ok optimized) :
    optimized.owners.Sublist program.owners :=
  (fitBody_optimizeTimes completes).declared

/-- Any number of passes of the optimizer keep a program scoped. -/
theorem scoped_optimizeTimes {passes : Nat} {program optimized : Program}
    (isScoped : program.Scoped) (completes : optimizeTimes passes program = .ok optimized) :
    optimized.Scoped := by
  refine ⟨(fitBody_optimizeTimes completes).opening isScoped.inSight, ?_⟩
  have distinct := isScoped.distinct
  rw [declaredAmong_eq] at distinct ⊢
  exact distinct.sublist ((owners_optimizeTimes completes).map Owner.id)

end Optimizer

end GlyphCompiler
