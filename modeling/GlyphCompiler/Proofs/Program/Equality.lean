/-
# Comparing programs

Two programs are compared part by part. Programs that are found to be the same are
equal, so what a compilation comes to can be checked by running it.
-/

import GlyphCompiler.Program.Basic

namespace GlyphCompiler

mutual

/-- Are two expressions the same? -/
def Expr.same : Expr → Expr → Bool
  | .number info value, other => match other with
    | .number info' value' => info == info' && value == value'
    | _ => false
  | .bool info value, other => match other with
    | .bool info' value' => info == info' && value == value'
    | _ => false
  | .string info value, other => match other with
    | .string info' value' => info == info' && value == value'
    | _ => false
  | .glyph info value, other => match other with
    | .glyph info' value' => info == info' && value == value'
    | _ => false
  | .codepoint info value, other => match other with
    | .codepoint info' value' => info == info' && value == value'
    | _ => false
  | .null info, other => match other with
    | .null info' => info == info'
    | _ => false
  | .reference use, other => match other with
    | .reference use' => use == use'
    | _ => false
  | .function info target, other => match other with
    | .function info' target' => info == info' && target == target'
    | _ => false
  | .binary info operator left right, other => match other with
    | .binary info' operator' left' right' =>
      info == info' && operator == operator' && left.same left' && right.same right'
    | _ => false
  | .unary info operator operand, other => match other with
    | .unary info' operator' operand' =>
      info == info' && operator == operator' && operand.same operand'
    | _ => false
  | .addressOf info operand, other => match other with
    | .addressOf info' operand' => info == info' && operand == operand'
    | _ => false
  | .dereference info operand, other => match other with
    | .dereference info' operand' => info == info' && operand.same operand'
    | _ => false
  | .call info callee arguments, other => match other with
    | .call info' callee' arguments' =>
      info == info' && callee == callee' && sameExprs arguments arguments'
    | _ => false
  | .subscript info base index, other => match other with
    | .subscript info' base' index' => info == info' && base.same base' && index.same index'
    | _ => false
  | .array info elements, other => match other with
    | .array info' elements' => info == info' && sameExprs elements elements'
    | _ => false
  | .conjure info body, other => match other with
    | .conjure info' body' => info == info' && sameStmts body body'
    | _ => false
  | .typeOf info described, other => match other with
    | .typeOf info' described' => info == info' && described == described'
    | _ => false
  | .apply info mapping items, other => match other with
    | .apply info' mapping' items' => info == info' && mapping.same mapping' && items.same items'
    | _ => false
  | .supplant info text pattern replacement, other => match other with
    | .supplant info' text' pattern' replacement' =>
      info == info' && text.same text' && pattern.same pattern' && replacement.same replacement'
    | _ => false

/-- Are some expressions the same as others, in order? -/
def sameExprs : List Expr → List Expr → Bool
  | [], others => others.isEmpty
  | first :: rest, others => match others with
    | first' :: rest' => first.same first' && sameExprs rest rest'
    | [] => false

/-- Are two statements the same? -/
def Stmt.same : Stmt → Stmt → Bool
  | .declare position target value, other => match other with
    | .declare position' target' value' =>
      position == position' && target == target' && value.same value'
    | _ => false
  | .function position target body, other => match other with
    | .function position' target' body' =>
      position == position' && target == target' && sameStmts body body'
    | _ => false
  | .main position body, other => match other with
    | .main position' body' => position == position' && sameStmts body body'
    | _ => false
  | .affix position symbol, other => match other with
    | .affix position' symbol' => position == position' && symbol == symbol'
    | _ => false
  | .assign position target value, other => match other with
    | .assign position' target' value' =>
      position == position' && target == target' && value.same value'
    | _ => false
  | .step position step target, other => match other with
    | .step position' step' target' => position == position' && step == step' && target == target'
    | _ => false
  | .branch position condition consequent alternative, other => match other with
    | .branch position' condition' consequent' alternative' =>
      position == position' && condition.same condition' && sameStmts consequent consequent' &&
        sameStmts alternative alternative'
    | _ => false
  | .loop position condition body, other => match other with
    | .loop position' condition' body' =>
      position == position' && condition.same condition' && sameStmts body body'
    | _ => false
  | .breakLoop position, other => match other with
    | .breakLoop position' => position == position'
    | _ => false
  | .returnValue position value, other => match other with
    | .returnValue position' value' => position == position' && value.same value'
    | _ => false
  | .returnVoid position, other => match other with
    | .returnVoid position' => position == position'
    | _ => false
  | .exscribe position value, other => match other with
    | .exscribe position' value' => position == position' && value.same value'
    | _ => false
  | .evaluate position expression, other => match other with
    | .evaluate position' expression' => position == position' && expression.same expression'
    | _ => false
  | .block position body, other => match other with
    | .block position' body' => position == position' && sameStmts body body'
    | _ => false

/-- Are some statements the same as others, in order? -/
def sameStmts : List Stmt → List Stmt → Bool
  | [], others => others.isEmpty
  | first :: rest, others => match others with
    | first' :: rest' => first.same first' && sameStmts rest rest'
    | [] => false

end

mutual

theorem Expr.eq_of_same : ∀ {first second : Expr}, first.same second = true → first = second
  | .binary _ _ left right, second, same => by
    cases second <;> simp [Expr.same] at same
    obtain ⟨⟨⟨rfl, rfl⟩, sameLeft⟩, sameRight⟩ := same
    rw [Expr.eq_of_same sameLeft, Expr.eq_of_same sameRight]
  | .unary _ _ operand, second, same => by
    cases second <;> simp [Expr.same] at same
    obtain ⟨⟨rfl, rfl⟩, same⟩ := same
    rw [Expr.eq_of_same same]
  | .dereference _ operand, second, same => by
    cases second <;> simp [Expr.same] at same
    obtain ⟨rfl, same⟩ := same
    rw [Expr.eq_of_same same]
  | .call _ _ arguments, second, same => by
    cases second <;> simp [Expr.same] at same
    obtain ⟨⟨rfl, rfl⟩, same⟩ := same
    rw [eq_of_sameExprs same]
  | .subscript _ base index, second, same => by
    cases second <;> simp [Expr.same] at same
    obtain ⟨⟨rfl, sameBase⟩, sameIndex⟩ := same
    rw [Expr.eq_of_same sameBase, Expr.eq_of_same sameIndex]
  | .array _ elements, second, same => by
    cases second <;> simp [Expr.same] at same
    obtain ⟨rfl, same⟩ := same
    rw [eq_of_sameExprs same]
  | .conjure _ body, second, same => by
    cases second <;> simp [Expr.same] at same
    obtain ⟨rfl, same⟩ := same
    rw [eq_of_sameStmts same]
  | .apply _ mapping items, second, same => by
    cases second <;> simp [Expr.same] at same
    obtain ⟨⟨rfl, sameMapping⟩, sameItems⟩ := same
    rw [Expr.eq_of_same sameMapping, Expr.eq_of_same sameItems]
  | .supplant _ text pattern replacement, second, same => by
    cases second <;> simp [Expr.same] at same
    obtain ⟨⟨⟨rfl, sameText⟩, samePattern⟩, sameReplacement⟩ := same
    rw [Expr.eq_of_same sameText, Expr.eq_of_same samePattern, Expr.eq_of_same sameReplacement]
  | .number _ _, second, same | .bool _ _, second, same | .string _ _, second, same
  | .glyph _ _, second, same | .codepoint _ _, second, same | .null _, second, same
  | .reference _, second, same | .function _ _, second, same | .addressOf _ _, second, same
  | .typeOf _ _, second, same => by
    cases second <;> simp [Expr.same] at same <;> simp [same]

theorem eq_of_sameExprs :
    ∀ {firsts seconds : List Expr}, sameExprs firsts seconds = true → firsts = seconds
  | [], [], _ => rfl
  | [], _ :: _, same => by simp [sameExprs] at same
  | _ :: _, [], same => by simp [sameExprs] at same
  | first :: rest, second :: others, same => by
    simp only [sameExprs, Bool.and_eq_true] at same
    rw [Expr.eq_of_same same.1, eq_of_sameExprs same.2]

theorem Stmt.eq_of_same : ∀ {first second : Stmt}, first.same second = true → first = second
  | .declare _ _ value, second, same => by
    cases second <;> simp [Stmt.same] at same
    obtain ⟨⟨rfl, rfl⟩, same⟩ := same
    rw [Expr.eq_of_same same]
  | .function _ _ body, second, same => by
    cases second <;> simp [Stmt.same] at same
    obtain ⟨⟨rfl, rfl⟩, same⟩ := same
    rw [eq_of_sameStmts same]
  | .main _ body, second, same => by
    cases second <;> simp [Stmt.same] at same
    obtain ⟨rfl, same⟩ := same
    rw [eq_of_sameStmts same]
  | .assign _ _ value, second, same => by
    cases second <;> simp [Stmt.same] at same
    obtain ⟨⟨rfl, rfl⟩, same⟩ := same
    rw [Expr.eq_of_same same]
  | .branch _ condition consequent alternative, second, same => by
    cases second <;> simp [Stmt.same] at same
    obtain ⟨⟨⟨rfl, sameCondition⟩, sameConsequent⟩, sameAlternative⟩ := same
    rw [Expr.eq_of_same sameCondition, eq_of_sameStmts sameConsequent,
      eq_of_sameStmts sameAlternative]
  | .loop _ condition body, second, same => by
    cases second <;> simp [Stmt.same] at same
    obtain ⟨⟨rfl, sameCondition⟩, sameBody⟩ := same
    rw [Expr.eq_of_same sameCondition, eq_of_sameStmts sameBody]
  | .returnValue _ value, second, same => by
    cases second <;> simp [Stmt.same] at same
    obtain ⟨rfl, same⟩ := same
    rw [Expr.eq_of_same same]
  | .exscribe _ value, second, same => by
    cases second <;> simp [Stmt.same] at same
    obtain ⟨rfl, same⟩ := same
    rw [Expr.eq_of_same same]
  | .evaluate _ expression, second, same => by
    cases second <;> simp [Stmt.same] at same
    obtain ⟨rfl, same⟩ := same
    rw [Expr.eq_of_same same]
  | .block _ body, second, same => by
    cases second <;> simp [Stmt.same] at same
    obtain ⟨rfl, same⟩ := same
    rw [eq_of_sameStmts same]
  | .affix _ _, second, same | .step _ _ _, second, same | .breakLoop _, second, same
  | .returnVoid _, second, same => by
    cases second <;> simp [Stmt.same] at same <;> simp [same]

theorem eq_of_sameStmts :
    ∀ {firsts seconds : List Stmt}, sameStmts firsts seconds = true → firsts = seconds
  | [], [], _ => rfl
  | [], _ :: _, same => by simp [sameStmts] at same
  | _ :: _, [], same => by simp [sameStmts] at same
  | first :: rest, second :: others, same => by
    simp only [sameStmts, Bool.and_eq_true] at same
    rw [Stmt.eq_of_same same.1, eq_of_sameStmts same.2]

end

/-- Does a computation come to a given program? -/
def comesTo {Failure : Type} (outcome : Except Failure Program) (program : Program) : Bool :=
  match outcome with
  | .ok result => result.position == program.position && sameStmts result.body program.body
  | .error _ => false

theorem eq_ok_of_comesTo {Failure : Type} {outcome : Except Failure Program} {program : Program}
    (comes : comesTo outcome program = true) : outcome = .ok program := by
  unfold comesTo at comes
  split at comes
  · next result =>
    obtain ⟨position, body⟩ := result
    simp only [Bool.and_eq_true, beq_iff_eq] at comes
    rw [comes.1, eq_of_sameStmts comes.2]
  · cases comes

end GlyphCompiler
