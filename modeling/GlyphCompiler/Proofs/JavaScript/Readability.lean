/-
# Written programs can be read

The text of a program tells which of its names are those of functions: the word
`function` stands before them where they are declared. With this a reader recovers all
that a text shows, so that programs with the same text show the same.
-/

import GlyphCompiler.Proofs.JavaScript.Reading

namespace GlyphCompiler

namespace JavaScript

/-! ## Declared functions -/

/-- Does the word `function` stand before a name among some tokens? -/
def Announced (name : String) (tokens : List Token) : Prop :=
  [Token.ofString "function", .ofString name] <:+: tokens

instance (name : String) (tokens : List Token) : Decidable (Announced name tokens) :=
  inferInstanceAs (Decidable (_ <:+: _))

/-- Is a name that of a function that is declared among some nodes? -/
def DeclaredFunction (table : Nat → String) (name : String) (nodes : List Node) : Prop :=
  ∃ target, .function target ∈ ownersAmong nodes ∧ table target.id = name

section

variable {table : Nat → String} {name : String} {tokens : List Token} {nodes : List Node}

theorem announced_other {token : Token} (other : token ≠ .ofString "function") :
    Announced name (token :: tokens) ↔ Announced name tokens := by
  rw [Announced, List.infix_cons_iff, List.cons_prefix_cons]
  exact or_iff_right fun both => other both.1.symm

@[simp]
theorem announced_mark (character : Char) :
    Announced name (.mark character :: tokens) ↔ Announced name tokens :=
  announced_other (by simp [Token.ofString])

@[simp]
theorem announced_text (content : List Char) :
    Announced name (.text content :: tokens) ↔ Announced name tokens :=
  announced_other (by simp [Token.ofString])

theorem announced_name (marked : Marked table) (id : Nat) :
    Announced name (nameToken table id :: tokens) ↔ Announced name tokens := by
  refine announced_other fun same => ?_
  have plain : '_' ∉ "function".toList := by decide
  rw [nameToken, Token.ofString, Token.ofString, Token.word.injEq] at same
  exact plain (same ▸ marked id)

/-- The word `function` announces the name after it. -/
theorem announced_function (marked : Marked table) (id : Nat) :
    Announced name (.ofString "function" :: nameToken table id :: tokens) ↔
      table id = name ∨ Announced name tokens := by
  have here : [Token.ofString name] <+: nameToken table id :: tokens ↔ table id = name := by
    rw [List.cons_prefix_cons, and_iff_left (List.nil_prefix ..), nameToken, Token.ofString,
      Token.ofString, Token.word.injEq, String.toList_inj, eq_comm]
  rw [Announced, List.infix_cons_iff, List.cons_prefix_cons, and_iff_right rfl, here]
  exact or_congr_right (announced_name marked id)

@[simp]
theorem announced_word {word : String} (other : word ≠ "function") :
    Announced name (.ofString word :: tokens) ↔ Announced name tokens :=
  announced_other fun same => other (String.toList_inj.mp (Token.word.inj same))

theorem announced_append_of_forall {before : List Token}
    (others : ∀ token ∈ before, token ≠ .ofString "function") :
    Announced name (before ++ tokens) ↔ Announced name tokens := by
  induction before with
  | nil => exact Iff.rfl
  | cons token before ih =>
    rw [List.forall_mem_cons] at others
    rw [List.cons_append, announced_other others.1, ih others.2]

/-- The words among the tokens of a numeral. -/
theorem words_numeral {numeral : Numeral} {letters : List Char}
    (member : .word letters ∈ numeral.tokens) :
    letters = numeral.whole ++ numeral.marker ∨ letters = numeral.whole ∨
      letters = numeral.fraction ++ numeral.marker ∨
        ∃ sign, numeral.exponent = some (sign, letters) := by
  unfold Numeral.tokens at member
  split at member <;> split at member <;> simp at member <;> grind

@[simp]
theorem announced_numeral (value : Number) :
    Announced name ((Numeral.ofNumber value).tokens ++ tokens) ↔ Announced name tokens := by
  refine announced_append_of_forall fun token member same => ?_
  subst same
  have letter : 'u' ∈ "function".toList := by decide
  obtain proper | unbounded := Numeral.proper_ofNumber value
  · have absent {digits : List Char} (all : ∀ character ∈ digits, character.isDigit = true) :
        'u' ∉ digits := fun inside => absurd (all _ inside) (by decide)
    have marker : 'u' ∉ (Numeral.ofNumber value).marker := by
      unfold Numeral.marker
      split <;> decide
    obtain same | same | same | ⟨sign, same⟩ := words_numeral member
    · rw [same, List.mem_append] at letter
      exact letter.elim (absent proper.whole) marker
    · rw [same] at letter
      exact absent proper.whole letter
    · rw [same, List.mem_append] at letter
      exact letter.elim (absent proper.fraction) marker
    · exact absent (proper.exponent _ same).2.2 letter
  · rw [Numeral.unbounded, List.mem_cons, List.mem_singleton] at unbounded
    obtain same | same := unbounded <;> rw [same] at member <;> revert member <;> decide

@[simp]
theorem announced_number (value : Number) :
    Announced name (numberTokens value ++ tokens) ↔ Announced name tokens := by
  unfold numberTokens parenthesized
  split
  · simp [announced_numeral]
  · exact announced_numeral value

@[simp]
theorem announced_marks (characters : List Char) :
    Announced name (characters.map .mark ++ tokens) ↔ Announced name tokens :=
  announced_append_of_forall (by simp [Token.ofString])

theorem announced_parameters (marked : Marked table) : (parameters : List Variable) →
    (Announced name (separated (parameters.map fun parameter => [nameToken table parameter.id]) ++
      tokens) ↔ Announced name tokens)
  | [] => Iff.rfl
  | [parameter] => announced_name marked parameter.id
  | parameter :: second :: rest => by
    have later := announced_parameters marked (second :: rest)
    rw [List.map_cons, separated] at later
    rw [List.map_cons, List.map_cons, separated, List.intercalate_cons_cons, List.append_assoc,
      List.append_assoc, List.singleton_append, List.singleton_append, announced_name marked,
      announced_mark, later]

@[simp]
theorem announced_opening (opening : Opening) :
    Announced name (opening.tokens ++ tokens) ↔ Announced name tokens := by
  cases opening <;> simp [Opening.tokens]

@[simp]
theorem declaredFunction_append {more : List Node} :
    DeclaredFunction table name (nodes ++ more) ↔
      DeclaredFunction table name nodes ∨ DeclaredFunction table name more := by
  simp [DeclaredFunction, ownersAmong_append, or_and_right, exists_or]

@[simp]
theorem declaredFunction_cons {node : Node} :
    DeclaredFunction table name (node :: nodes) ↔
      (∃ target, .function target ∈ node.owners ∧ table target.id = name) ∨
        DeclaredFunction table name nodes := by
  simp [DeclaredFunction, ownersAmong_cons, or_and_right, exists_or]

@[simp]
theorem declaredFunction_nil : ¬ DeclaredFunction table name [] := by
  simp [DeclaredFunction, ownersAmong]

attribute [local simp] parenthesized braced arrow Node.owners or_assoc

mutual

theorem announced_expr (marked : Marked table) : (expression : Expr) → (tokens : List Token) →
    (Announced name (tokensOfExpr table expression ++ tokens) ↔
      DeclaredFunction table name expression.walk ∨ Announced name tokens)
  | .number _ value, tokens => by simp [tokensOfExpr, Expr.walk]
  | .bool _ value, tokens => by cases value <;> simp [tokensOfExpr, Expr.walk]
  | .string _ _, tokens | .glyph _ _, tokens | .typeOf _ _, tokens => by
    simp [tokensOfExpr, Expr.walk]
  | .codepoint _ value, tokens => by
    have numeral : (Numeral.ofNat value).tokens = (Numeral.ofNumber (.int value)).tokens := rfl
    simp [tokensOfExpr, Expr.walk, numeral]
  | .null _, tokens => by simp [tokensOfExpr, Expr.walk]
  | .reference use, tokens => by simp [tokensOfExpr, Expr.walk, announced_name marked]
  | .function _ target, tokens => by simp [tokensOfExpr, Expr.walk, announced_name marked]
  | .binary _ operator left right, tokens => by
    simp [tokensOfExpr, Expr.walk, announced_expr marked left, announced_expr marked right]
  | .unary _ operator operand, tokens => by
    simp [tokensOfExpr, Expr.walk, announced_expr marked operand]
  | .addressOf _ operand, tokens => by
    simp [tokensOfExpr, Expr.walk, announced_name marked]
  | .dereference _ operand, tokens => by
    simp [tokensOfExpr, Expr.walk, announced_expr marked operand]
  | .call _ callee arguments, tokens => by
    simp [tokensOfExpr, Expr.walk, calleeToken, announced_name marked,
      announced_each marked arguments]
  | .subscript _ base index, tokens => by
    simp [tokensOfExpr, Expr.walk, announced_expr marked base, announced_expr marked index]
  | .array _ elements, tokens => by
    simp [tokensOfExpr, Expr.walk, announced_each marked elements]
  | .conjure _ body, tokens => by
    simp [tokensOfExpr, Expr.walk, announced_body marked body]
  | .apply _ mapping items, tokens => by
    simp [tokensOfExpr, Expr.walk, announced_expr marked mapping, announced_expr marked items,
      or_left_comm]
  | .supplant _ text pattern replacement, tokens => by
    simp [tokensOfExpr, Expr.walk, announced_expr marked text, announced_expr marked pattern,
      announced_expr marked replacement]

theorem announced_each (marked : Marked table) : (expressions : List Expr) → (tokens : List Token) →
    (Announced name (separated (tokensOfEach table expressions) ++ tokens) ↔
      DeclaredFunction table name (walkExprs expressions) ∨ Announced name tokens)
  | [], tokens => by simp [tokensOfEach, separated, walkExprs]
  | [expression], tokens => by
    simp [tokensOfEach, separated, walkExprs, announced_expr marked expression]
  | expression :: second :: rest, tokens => by
    have later := announced_each marked (second :: rest) tokens
    simp only [tokensOfEach, separated] at later
    rw [tokensOfEach, tokensOfEach, separated, List.intercalate_cons_cons]
    simp [walkExprs, announced_expr marked expression, later]

theorem announced_stmt (marked : Marked table) (opening : Opening) : (statement : Stmt) →
    (tokens : List Token) → (Announced name (tokensOfStmt table opening statement ++ tokens) ↔
      DeclaredFunction table name statement.walk ∨ Announced name tokens)
  | .declare _ target value, tokens => by
    have word : (if target.mutable then "let" else "const") ≠ "function" := by
      cases target.mutable <;> decide
    simp [tokensOfStmt, Stmt.walk, announced_word word, announced_name marked,
      announced_expr marked value]
  | .function _ target body, tokens => by
    simp [tokensOfStmt, Stmt.walk, announced_function marked, announced_parameters marked,
      announced_body marked body]
  | .main _ body, tokens => by
    simp [tokensOfStmt, Stmt.walk, announced_body marked body]
  | .affix _ _, tokens => by simp [tokensOfStmt, Stmt.walk]
  | .assign _ target value, tokens => by
    simp [tokensOfStmt, Stmt.walk, announced_name marked, announced_expr marked value]
  | .step _ .up target, tokens | .step _ .down target, tokens => by
    simp [tokensOfStmt, Stmt.walk, announced_name marked]
  | .branch _ condition consequent [], tokens => by
    simp [tokensOfStmt, Stmt.walk, announced_expr marked condition,
      announced_body marked consequent, walkStmts]
  | .branch _ condition consequent [only], tokens => by
    have chained := announced_stmt marked .chained only
    have alone := announced_stmt marked .fresh only
    simp only [tokensOfStmt, Stmt.walk, walkStmts]
    split <;> simp [announced_expr marked condition,
      announced_body marked consequent, chained, alone]
  | .branch _ condition consequent (first :: second :: rest), tokens => by
    have several := announced_body marked (first :: second :: rest)
    simp [tokensOfStmt, Stmt.walk, announced_expr marked condition,
      announced_body marked consequent, several]
  | .loop _ condition body, tokens => by
    simp [tokensOfStmt, Stmt.walk, announced_expr marked condition, announced_body marked body]
  | .breakLoop _, tokens | .returnVoid _, tokens => by simp [tokensOfStmt, Stmt.walk]
  | .returnValue _ value, tokens | .exscribe _ value, tokens | .evaluate _ value, tokens => by
    simp [tokensOfStmt, Stmt.walk, announced_expr marked value]
  | .block _ body, tokens => by
    simp [tokensOfStmt, Stmt.walk, announced_body marked body]

theorem announced_body (marked : Marked table) : (body : List Stmt) → (tokens : List Token) →
    (Announced name (tokensOfBody table body ++ tokens) ↔
      DeclaredFunction table name (walkStmts body) ∨ Announced name tokens)
  | [], tokens => by simp [tokensOfBody, walkStmts]
  | statement :: rest, tokens => by
    simp [tokensOfBody, walkStmts, announced_stmt marked .fresh statement,
      announced_body marked rest]

end

end

/-! ## Programs -/

/-- A text that a fresh emitter writes spells its program under the names that it gives.
Every name has a mark, and the name of what is named is that of nothing else. -/
structure Emitted (program : Program) (text : String) : Prop where
  spells : lex text.toList = tokensOfBody (namesOf program).table program.body
  marked : Marked (namesOf program).table
  injective : ∀ owner ∈ program.owners, ∀ other ∈ program.uses,
    (namesOf program).table owner.id = (namesOf program).table other.id → owner = other

theorem emitted_of_generate {program : Program} {text : String} (isScoped : program.Scoped)
    (named : ∀ owner ∈ program.owners, isName owner.name = true)
    (writes : generate program = .ok text) : Emitted program text := by
  have owned := isScoped.uses_subset
  have distinct : ((program.owners).map Owner.id).Nodup := by
    rw [Program.owners, ← declaredAmong_eq]
    exact isScoped.distinct
  have lists := Names.lists_giveAll fun owner used other usedToo same =>
    Owner.eq_of_id_eq distinct (owned used) (owned usedToo) same
  have worded := worded_table lists fun owner member =>
    named owner (owned (List.mem_eraseDups.mp member))
  obtain ⟨goesOn, fails⟩ := writes_emit program .none
  by_cases short : WritableProgram program
  · obtain ⟨result, runs, isRead⟩ := goesOn short
    obtain rfl : result = text := by
      rw [generate, StateT.run'_eq, runs] at writes
      exact Except.ok.inj writes
    have isNames : namesOf program = Names.none.giveAll program.uses := by rw [namesOf, runs]
    refine ⟨?_, ?_, fun owner declared other used same => ?_⟩
    · rw [isNames]
      exact isRead _ (Names.agrees_table _) worded
    · rw [isNames]
      exact lists.mark_mem_table
    · rw [isNames] at same
      exact Owner.eq_of_id_eq distinct declared (owned used)
        (lists.id_eq (List.mem_eraseDups.mpr used) same)
  · rw [generate, StateT.run'_eq, fails short] at writes
    cases writes

/-- The reader that knows what a text tells of its names. -/
def Legend.Knows (legend : Legend) (tokens : List Token) : Prop :=
  ∀ name, legend.isFunction name = decide (Announced name tokens)

namespace Emitted

variable {program : Program} {text : String}

/-- The names that the word `function` announces are those of functions. -/
theorem fits (emitted : Emitted program text) (isScoped : program.Scoped) {legend : Legend}
    (knows : legend.Knows (lex text.toList)) :
    legend.Fits (namesOf program).table program.uses := by
  intro owner used
  have announced : Announced ((namesOf program).table owner.id) (lex text.toList) ↔
      DeclaredFunction (namesOf program).table ((namesOf program).table owner.id)
        (walkStmts program.body) := by
    have among : Announced ((namesOf program).table owner.id) _ ↔ _ :=
      announced_body emitted.marked program.body []
    rw [List.append_nil] at among
    rw [emitted.spells, among]
    exact or_iff_left (by simp [Announced])
  rw [knows]
  cases owner with
  | value target =>
    refine decide_eq_false fun isAnnounced => ?_
    obtain ⟨function, declared, same⟩ := announced.mp isAnnounced
    cases emitted.injective _ declared _ used same
  | function target =>
    exact decide_eq_true (announced.mpr ⟨target, isScoped.uses_subset used, rfl⟩)

/-- What a text shows can be read from it. -/
theorem read_eq (emitted : Emitted program text) (isScoped : program.Scoped) {legend : Legend}
    (sized : legend.Sized) (knows : legend.Knows (lex text.toList)) :
    read legend (lex text.toList) = bare program := by
  have reads := reads_body sized emitted.marked program.body (emitted.fits isScoped knows) [] []
  rw [read, emitted.spells, reads]
  rfl

end Emitted

end JavaScript

/-- A program is obtained from an accepted text: as it is analyzed, or after any number of
passes of the optimizer. -/
def Obtained (program : Program) : Prop :=
  ∃ first source original next passes, analyzeFrom first source = .ok (original, next) ∧
    optimizeTimes passes original = .ok program

open JavaScript

theorem Obtained.scoped {program : Program} (obtained : Obtained program) :
    program.Scoped ∧ ∀ owner ∈ program.owners, isName owner.name = true := by
  obtain ⟨first, source, original, next, passes, accepted, completes⟩ := obtained
  have isScoped :=
    Optimizer.scoped_optimizeTimes (Analysis.scoped_of_analyzeFrom accepted).1 completes
  have owned := (Optimizer.owners_optimizeTimes completes).subset
  exact ⟨isScoped, fun owner member => isName_of_mem_owners accepted owner (owned member)⟩

/-- A reader recovers what the text of a program shows: it knows the sizes of numerals, and
all else it is told by the text itself. -/
theorem Obtained.read_eq {program : Program} (obtained : Obtained program) {text : String}
    (writes : generate program = .ok text) {legend : Legend} (sized : legend.Sized)
    (knows : legend.Knows (lex text.toList)) : read legend (lex text.toList) = bare program :=
  (emitted_of_generate obtained.scoped.1 obtained.scoped.2 writes).read_eq obtained.scoped.1 sized
    knows

/-- Written programs can be read in one way only: if fresh emitters write the same text for
two programs from accepted texts, optimized or not, then the programs are equal but for what
a text does not show. -/
theorem bare_eq_of_generate_eq {program other : Program} {text : String}
    (obtained : Obtained program) (obtainedOther : Obtained other)
    (writes : generate program = .ok text) (writesOther : generate other = .ok text) : bare program = bare other := by
  obtain ⟨legend, sized, isFunction⟩ :=
    exists_sized fun name => decide (Announced name (lex text.toList))
  have knows : legend.Knows (lex text.toList) := congrFun isFunction
  rw [← obtained.read_eq writes sized knows, obtainedOther.read_eq writesOther sized knows]

/-- The program with the negated number after the optimizer: the sign is that of the number. -/
def negatedProgram : Program where
  position := ⟨1, 1⟩
  body := [.exscribe ⟨1, 1⟩ (.number ⟨.int .w32, ⟨1, 10⟩⟩ (.int (-1)))]

/-- The program with the negated number is written alike before and after the optimizer. -/
theorem bare_eq_of_generate_eq_negatedProgram :
    Obtained negatingProgram ∧ Obtained negatedProgram ∧
      generate negatingProgram = .ok "console.log((-1));" ∧
      generate negatedProgram = .ok "console.log((-1));" ∧
      bare negatingProgram = bare negatedProgram := by
  obtain ⟨next, accepted⟩ := Analysis.analyzeFrom_of_analyze analyze_negatingSource
  have optimized : optimize negatingProgram = .ok negatedProgram :=
    eq_ok_of_comesTo (by decide +kernel)
  have obtained : Obtained negatingProgram := ⟨0, _, _, next, 0, accepted, rfl⟩
  have obtainedOther : Obtained negatedProgram :=
    ⟨0, _, _, next, 1, accepted, by rw [optimizeTimes, optimized]; rfl⟩
  have writes : generate negatingProgram = .ok "console.log((-1));" :=
    eq_ok_of_toOption (by decide +kernel)
  have writesOther : generate negatedProgram = .ok "console.log((-1));" :=
    eq_ok_of_toOption (by decide +kernel)
  exact ⟨obtained, obtainedOther, writes, writesOther,
    bare_eq_of_generate_eq obtained obtainedOther writes writesOther⟩

end GlyphCompiler
