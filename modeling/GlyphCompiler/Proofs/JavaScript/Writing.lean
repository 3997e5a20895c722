/-
# What is written of a program

Writing fails only where a whole number is too long. Otherwise everything that is
used has a name afterwards, and the text spells the tokens of the program under any
names that agree with those.
-/

import GlyphCompiler.Proofs.JavaScript.Naming
import GlyphCompiler.Proofs.JavaScript.Numeral

namespace GlyphCompiler

namespace JavaScript

open Pattern (isNamePart)

/-! ## The tokens of a program -/

/-- Some lists of tokens with commas between them. -/
def separated (parts : List (List Token)) : List Token :=
  [Token.mark ','].intercalate parts

/-- Tokens between braces. -/
def braced (tokens : List Token) : List Token :=
  .mark '\x7b' :: tokens ++ [.mark '\x7d']

/-- The tokens before the body of a function that is called where it stands. -/
def arrow : List Token :=
  [.mark '(', .mark ')', .mark '=', .mark '>']

/-- How a conditional begins: by itself, or chained to the one before it. -/
inductive Opening
  | fresh
  | chained

/-- The text of the keyword of a conditional. -/
def Opening.text : Opening → String
  | fresh => "if"
  | chained => "\x7d else if"

/-- The tokens of the keyword of a conditional. -/
def Opening.tokens : Opening → List Token
  | fresh => [.ofString "if"]
  | chained => [.mark '\x7d', .ofString "else", .ofString "if"]

section

variable (table : Nat → String)

/-- The token of a name. -/
def nameToken (id : Nat) : Token := .ofString (table id)

/-- The token of a callee. -/
def calleeToken (callee : Callee) : Token := nameToken table callee.owner.id

mutual

/-- The tokens of an expression. -/
def tokensOfExpr : Expr → List Token
  | .number _ value => numberTokens value
  | .bool _ value => [.ofString (if value then "true" else "false")]
  | .string _ value => [.text (value.toList.flatMap escapeChar)]
  | .glyph _ value => [.text (escapeChar value)]
  | .codepoint _ value => (Numeral.ofNat value).tokens
  | .null _ => [.ofString "null"]
  | .reference use => [nameToken table use.target.id]
  | .function _ target => [nameToken table target.id]
  | .binary _ operator left right =>
    parenthesized (tokensOfExpr left ++ (operatorText operator).toList.map .mark ++ tokensOfExpr right)
  | .unary _ operator operand =>
    parenthesized (operator.sign.toList.map .mark ++ tokensOfExpr operand)
  | .addressOf _ operand =>
    parenthesized (arrow ++ parenthesized
      (braced [.ofString "value", .mark ':', nameToken table operand.target.id])) ++ parenthesized []
  | .dereference _ operand => tokensOfExpr operand ++ [.mark '.', .ofString "value"]
  | .call _ callee arguments =>
    calleeToken table callee :: parenthesized (separated (tokensOfEach arguments))
  | .subscript _ base index =>
    tokensOfExpr base ++ .mark '[' :: tokensOfExpr index ++ [.mark ']']
  | .array _ elements => .mark '[' :: separated (tokensOfEach elements) ++ [.mark ']']
  | .conjure _ body => parenthesized (arrow ++ braced (tokensOfBody body)) ++ parenthesized []
  | .typeOf _ described => [.text (described.name.toList.flatMap escapeChar)]
  | .apply _ mapping items =>
    tokensOfExpr items ++ .mark '.' :: .ofString "map" :: parenthesized (tokensOfExpr mapping)
  | .supplant _ text pattern replacement =>
    tokensOfExpr text ++ .mark '.' :: .ofString "replaceAll" ::
      parenthesized (tokensOfExpr pattern ++ .mark ',' :: tokensOfExpr replacement)

/-- The tokens of each of some expressions. -/
def tokensOfEach : List Expr → List (List Token)
  | [] => []
  | first :: rest => tokensOfExpr first :: tokensOfEach rest

/-- The tokens of a statement. -/
def tokensOfStmt (opening : Opening) : Stmt → List Token
  | .declare _ target value =>
    .ofString (if target.mutable then "let" else "const") :: nameToken table target.id ::
      .mark '=' :: tokensOfExpr value ++ [.mark ';']
  | .function _ target body =>
    .ofString "function" :: nameToken table target.id ::
      parenthesized (separated (target.parameters.map fun parameter =>
        [nameToken table parameter.id])) ++ braced (tokensOfBody body)
  | .main _ body => tokensOfBody body
  | .affix _ _ => []
  | .assign _ target value =>
    nameToken table target.id :: .mark '=' :: tokensOfExpr value ++ [.mark ';']
  | .step _ .up target => [nameToken table target.id, .mark '+', .mark '+', .mark ';']
  | .step _ .down target => [nameToken table target.id, .mark '-', .mark '-', .mark ';']
  | .branch _ condition consequent alternative =>
    opening.tokens ++ parenthesized (tokensOfExpr condition) ++
      .mark '\x7b' :: tokensOfBody consequent ++
        match alternative with
        | [] => [.mark '\x7d']
        | [only] =>
          match only with
          | .branch _ _ _ _ => tokensOfStmt .chained only
          | _ => .mark '\x7d' :: .ofString "else" :: braced (tokensOfStmt .fresh only)
        | several => .mark '\x7d' :: .ofString "else" :: braced (tokensOfBody several)
  | .loop _ condition body =>
    .ofString "while" :: parenthesized (tokensOfExpr condition) ++ braced (tokensOfBody body)
  | .breakLoop _ => [.ofString "break", .mark ';']
  | .returnValue _ value => .ofString "return" :: tokensOfExpr value ++ [.mark ';']
  | .returnVoid _ => [.ofString "return", .mark ';']
  | .exscribe _ value =>
    .ofString "console" :: .mark '.' :: .ofString "log" ::
      parenthesized (tokensOfExpr value) ++ [.mark ';']
  | .evaluate _ expression => tokensOfExpr expression ++ [.mark ';']
  | .block _ body => braced (tokensOfBody body)

/-- The tokens of some statements. -/
def tokensOfBody : List Stmt → List Token
  | [] => []
  | first :: rest => tokensOfStmt .fresh first ++ tokensOfBody rest

end

end

attribute [grind =] tokensOfExpr tokensOfEach tokensOfStmt tokensOfBody

/-! ## Steps of writing -/

/-- Is a text a word by itself? -/
def isWord (text : String) : Bool :=
  text ≠ "" && text.toList.all isNamePart

/-- A table whose names are words. -/
def Worded (table : Nat → String) : Prop :=
  ∀ id, isWord (table id) = true

/-- What a step of writing does. It names what is used, in order, and its result is
good under every table that has these names; or else it meets a whole number that is
too long. -/
def Writes {Result : Type} (step : Emitter Result) (uses : List Owner) (short : Prop)
    (good : (Nat → String) → Result → Prop) : Prop :=
  ∀ names : Names,
    (short → ∃ result, step.run names = .ok (result, names.giveAll uses) ∧
      ∀ table, (names.giveAll uses).Agrees table → good table result) ∧
    (¬ short → step.run names = .error .tooManyDigits)

namespace Writes

variable {Result Other : Type} {step : Emitter Result} {uses more : List Owner}
  {short shortNext : Prop} {good : (Nat → String) → Result → Prop}
  {goodNext : (Nat → String) → Other → Prop}

theorem pure {result : Result} (isGood : ∀ table, good table result) :
    Writes (Pure.pure result) [] True good :=
  fun _ => ⟨fun _ => ⟨result, rfl, fun table _ => isGood table⟩, fun long => absurd trivial long⟩

/-- Steps that follow each other name what both use, and are good if both are. -/
theorem bind {next : Result → Emitter Other} (first : Writes step uses short good)
    (second : ∀ result, Writes (next result) more shortNext fun table other =>
      good table result → goodNext table other) :
    Writes (step >>= next) (uses ++ more) (short ∧ shortNext) goodNext := by
  intro names
  by_cases isShort : short
  · obtain ⟨result, runs, isGood⟩ := (first names).1 isShort
    obtain ⟨goesOn, fails⟩ := second result (names.giveAll uses)
    refine ⟨fun both => ?_, fun long => ?_⟩
    · obtain ⟨other, ends, isGoodNext⟩ := goesOn both.2
      rw [Names.giveAll_append, StateT.run_bind, runs]
      exact ⟨other, ends, fun table agrees =>
        isGoodNext table agrees (isGood table agrees.earlier)⟩
    · rw [StateT.run_bind, runs]
      exact fails fun shortRest => long ⟨isShort, shortRest⟩
  · refine ⟨fun both => absurd both.1 isShort, fun _ => ?_⟩
    rw [StateT.run_bind, (first names).2 isShort]
    rfl

/-- The same step in other words. -/
theorem of_eq (writes : Writes step uses short good) (sameUses : uses = more)
    (sameShort : short ↔ shortNext) {other : (Nat → String) → Result → Prop}
    (isGood : ∀ table result, good table result → other table result) :
    Writes step more shortNext other := by
  subst sameUses
  intro names
  obtain ⟨goesOn, fails⟩ := writes names
  refine ⟨fun isShort => ?_, fun long => fails (long ∘ sameShort.mp)⟩
  obtain ⟨result, runs, isGoodResult⟩ := goesOn (sameShort.mpr isShort)
  exact ⟨result, runs, fun table agrees => isGood table result (isGoodResult table agrees)⟩

/-- A step whose result is changed. -/
theorem map {change : Result → Other} (writes : Writes step uses short good)
    (isGood : ∀ table result, good table result → goodNext table (change result)) :
    Writes (do return change (← step)) uses short goodNext :=
  (writes.bind fun result => .pure fun table => isGood table result).of_eq
    (List.append_nil uses) (and_iff_left trivial) fun _ _ => id

end Writes

/-- A name is written as the table has it. -/
theorem writes_nameOf (owner : Owner) :
    Writes (nameOf owner.id owner.name) [owner] True fun table text => text = table owner.id := by
  intro names
  refine ⟨fun _ => ⟨_, nameOf_eq owner names, fun table agrees => ?_⟩, fun long => absurd trivial long⟩
  obtain ⟨given, known⟩ := Option.isSome_iff_exists.mp (Names.isSome_name?_give names owner)
  rw [agrees owner.id given known, Names.table, known, Option.getD_some]

/-! ## Whole numbers that can be written -/

/-- Every whole number at or below a node can be written. -/
def Writable (node : Node) : Prop := node.All Node.Short

theorem writable_iff {node : Node} (short : node.Short) :
    Writable node ↔ ∀ child ∈ node.children, Writable child :=
  Node.all_iff.trans (and_iff_right short)

theorem writable_leaf {node : Node} (short : node.Short) (children : node.children = []) :
    Writable node := by
  rw [writable_iff short, children]
  exact fun _ member => absurd member List.not_mem_nil

theorem writable_callee (callee : Callee) : Writable (.expr callee.toExpr) := by
  cases callee <;> exact writable_leaf trivial rfl

theorem writable_number (info : Info) (value : Number) :
    Writable (.expr (.number info value)) ↔ (Node.expr (.number info value)).Short := by
  refine Node.all_iff.trans (and_iff_left ?_)
  simp [Node.children, Expr.children]

/-! ## Pieces of text -/

theorem spells_isWord {text : String} (word : isWord text = true) :
    Spells text.toList [.ofString text] := by
  simp only [isWord, Bool.and_eq_true, decide_eq_true_eq] at word
  exact spells_word word.2 (by simpa using word.1)

theorem closed_operatorText (operator : BinaryOperator) :
    Closed (operatorText operator).toList ((operatorText operator).toList.map .mark) := by
  cases operator <;> exact fixed _ _ (by decide)

theorem closed_sign (operator : UnaryOperator) :
    Closed operator.sign.toList (operator.sign.toList.map .mark) := by
  cases operator <;> exact fixed _ _ (by decide)

theorem spells_ofNat (number : Nat) :
    Spells (toString number).toList (Numeral.ofNat number).tokens := by
  rw [toList_toString_nat]
  have spells := Numeral.spells_of_proper (Numeral.proper_ofNat number)
  simpa [Numeral.text, Numeral.ofNat, Numeral.plain, Numeral.exponentText] using spells

theorem closed_opening (opening : Opening) :
    Closed (opening.text ++ " (").toList (opening.tokens ++ [.mark '(']) := by
  cases opening <;> exact fixed _ _ (by decide)

/-- Lines that spell some tokens, one line after another. -/
inductive Lined : List Line → List Token → Prop
  | nil : Lined [] []
  | cons {line : Line} {lines : List Line} {first rest : List Token}
      (closed : Closed line.text.toList first) (later : Lined lines rest) :
      Lined (line :: lines) (first ++ rest)

/-- One line more. -/
theorem Lined.line (depth : Nat) {text : String} {lines : List Line} {first rest : List Token}
    (closed : Closed text.toList first) (later : Lined lines rest) :
    Lined (⟨depth, text⟩ :: lines) (first ++ rest) :=
  .cons closed later

theorem Lined.append {lines others : List Line} {tokens more : List Token}
    (first : Lined lines tokens) (second : Lined others more) :
    Lined (lines ++ others) (tokens ++ more) := by
  induction first with
  | nil => exact second
  | cons closed _ ih =>
    rw [List.cons_append, List.append_assoc]
    exact .cons closed ih

/-- Lines put together with white space between and before them spell their tokens. -/
theorem Lined.intercalate {separator : String} (blank : isFixed separator [] = true)
    {shown : Line → String}
    (same : ∀ line tokens, Closed line.text.toList tokens → Closed (shown line).toList tokens)
    {lines : List Line} {tokens : List Token} (lined : Lined lines tokens) :
    Closed (separator.intercalate (lines.map shown)).toList tokens := by
  rw [String.toList_intercalate]
  induction lined with
  | nil => exact closed_nil
  | @cons line lines first rest closed later ih =>
    cases lines with
    | nil =>
      obtain _ | _ := later
      simpa using same line first closed
    | cons second others =>
      simp only [List.map_cons, List.intercalate_cons_cons] at ih ⊢
      have opened := (same line first closed).append (fixed separator [] blank)
      rw [List.append_nil] at opened
      exact opened.append ih

/-! ## Expressions and statements -/

/-- A step that writes a text, which spells some tokens if names are words. -/
def WritesText (step : Emitter String) (uses : List Owner) (short : Prop)
    (tokens : (Nat → String) → List Token) : Prop :=
  Writes step uses short fun table text => Worded table → Spells text.toList (tokens table)

theorem writesText_nameOf (owner : Owner) :
    WritesText (nameOf owner.id owner.name) [owner] True fun table => [nameToken table owner.id] :=
  (writes_nameOf owner).of_eq rfl Iff.rfl fun table text same worded => by
    rw [same]
    exact spells_isWord (worded owner.id)

theorem writesText_callee (callee : Callee) :
    WritesText (calleeText callee) [callee.owner] True fun table => [calleeToken table callee] := by
  cases callee with
  | function info target => exact writesText_nameOf (.function target)
  | reference use => exact writesText_nameOf (.value use.target)

/-- A text that is written without naming anything. -/
theorem writesText_pure {text : String} {short : Prop} {tokens : List Token} (isShort : short)
    (spells : Spells text.toList tokens) :
    WritesText (pure text) [] short fun _ => tokens :=
  (Writes.pure fun _ _ => spells).of_eq rfl (iff_of_true trivial isShort) fun _ _ => id

theorem writesText_number (info : Info) (value : Number) :
    WritesText (liftM (numberLiteral value)) [] (Node.expr (.number info value)).Short
      fun _ => numberTokens value := by
  intro names
  refine ⟨fun short => ?_, fun long => ?_⟩
  · obtain ⟨text, ran, spelled⟩ := numberLiteral_of_short short
    refine ⟨text, by rw [ran]; rfl, fun table _ _ => ?_⟩
    rw [spelled]
    exact spells_signed value
  · rw [numberLiteral_of_not_short long]
    rfl

theorem writes_variableNames (targets : List Variable) :
    Writes (variableNames targets) (targets.map Owner.value) True fun table texts => Worded table →
      List.Forall₂ (fun text part => Spells text.toList part) texts
        (targets.map fun target => [nameToken table target.id]) := by
  induction targets with
  | nil => exact .pure fun _ _ => .nil
  | cons target targets ih =>
    refine ((writesText_nameOf (.value target)).bind fun text => ih.bind fun texts =>
      .pure fun table spell spells worded => ?_).of_eq (by simp) (by simp) fun _ _ => id
    exact .cons (spells worded) (spell worded)

/-- An expression is written as its tokens. -/
def WritesExpr (expression : Expr) : Prop :=
  WritesText (expressionText expression) expression.uses (Writable (.expr expression))
    fun table => tokensOfExpr table expression

/-- A statement is written as its tokens, wherever it stands. -/
def WritesStmt (statement : Stmt) : Prop :=
  ∀ depth opening, Writes (statementLines depth (Opening.text opening) statement) statement.uses
    (Writable (.stmt statement)) fun table lines => Worded table →
      Lined lines (tokensOfStmt table opening statement)

section

variable {info : Info} {position : Position} {target : Variable} {value left right : Expr}
  {expressions : List Expr} {body : List Stmt}

theorem writes_expressions (each : ∀ expression ∈ expressions, WritesExpr expression) :
    Writes (expressionTexts expressions) (usesOfExprs expressions)
      (∀ expression ∈ expressions, Writable (.expr expression)) fun table texts => Worded table →
        List.Forall₂ (fun text part => Spells text.toList part) texts
          (tokensOfEach table expressions) := by
  induction expressions with
  | nil => exact (Writes.pure fun _ _ => .nil).of_eq rfl (by simp) fun _ _ => id
  | cons first rest ih =>
    obtain ⟨here, later⟩ := List.forall_mem_cons.mp each
    refine (here.bind fun text => (ih later).bind fun texts =>
      .pure fun table spell spells worded => ?_).of_eq (by simp [usesOfExprs]) (by simp)
      fun _ _ => id
    exact .cons (spells worded) (spell worded)

theorem writes_body (each : ∀ statement ∈ body, WritesStmt statement) (depth : Nat) :
    Writes (bodyLines depth body) (usesOfBody body) (∀ statement ∈ body, Writable (.stmt statement))
      fun table lines => Worded table → Lined lines (tokensOfBody table body) := by
  induction body with
  | nil => exact (Writes.pure fun _ _ => .nil).of_eq rfl (by simp) fun _ _ => id
  | cons first rest ih =>
    obtain ⟨here, later⟩ := List.forall_mem_cons.mp each
    refine ((here depth .fresh).bind fun lines => (ih later).bind fun others =>
      .pure fun table linedRest linedFirst worded => ?_).of_eq (by simp [usesOfBody]) (by simp)
      fun _ _ => id
    exact (linedFirst worded).append (linedRest worded)

theorem writes_binary {operator : BinaryOperator} {first second : Expr} (left : WritesExpr first)
    (right : WritesExpr second) : WritesExpr (.binary info operator first second) := by
  refine (left.bind fun first => right.bind fun second =>
    .pure fun table spellsSecond spellsFirst worded => ?_).of_eq (by simp [Expr.uses])
    ((writable_iff (by exact trivial)).trans (by simp [Node.children, Expr.children])).symm fun _ _ => id
  have opened := ((fixed "(" [.mark '('] (by decide)).andSpells (spellsFirst worded)).andFixed
    " " [] (by decide)
  have signed := (opened.andClosed (closed_operatorText operator)).andClosed
    (fixed " " [] (by decide))
  have closed := (signed.andSpells (spellsSecond worded)).andFixed ")" [.mark ')'] (by decide)
  simpa [tokensOfExpr, parenthesized] using closed.spells

theorem writes_unary {operator : UnaryOperator} (operand : WritesExpr value) :
    WritesExpr (.unary info operator value) := by
  refine (operand.map fun table text spells worded => ?_).of_eq rfl
    ((writable_iff (by exact trivial)).trans (by simp [Node.children, Expr.children])).symm fun _ _ => id
  have opened := (fixed "(" [.mark '('] (by decide)).andClosed (closed_sign operator)
  have closed := (opened.andSpells (spells worded)).andFixed ")" [.mark ')'] (by decide)
  simpa [tokensOfExpr, parenthesized] using closed.spells

theorem writes_addressOf {operand : Reference} : WritesExpr (.addressOf info operand) := by
  refine ((writesText_nameOf (.value operand.target)).map
    fun table text spells worded => ?_).of_eq rfl (iff_of_true trivial ?_) fun _ _ => id
  · have opened := (fixed "(() => (\x7b value: " (.mark '(' :: arrow ++ [.mark '(', .mark '\x7b',
      .ofString "value", .mark ':']) (by decide)).andSpells (spells worded)
    have closed := opened.andFixed " \x7d))()"
      ([.mark '\x7d', .mark ')', .mark ')'] ++ parenthesized []) (by decide)
    simpa [tokensOfExpr, parenthesized, braced] using closed.spells
  · exact (writable_iff (by exact trivial)).mpr
      (by simpa [Node.children, Expr.children] using! writable_callee (.reference operand))

theorem writes_dereference (operand : WritesExpr value) : WritesExpr (.dereference info value) := by
  refine (operand.map fun table text spells worded => ?_).of_eq rfl
    ((writable_iff (by exact trivial)).trans (by simp [Node.children, Expr.children])).symm
    fun _ _ => id
  have opened := (spells worded).andFixed "." [.mark '.'] (by decide)
  have closed := opened.andSpells (spells_isWord (by decide : isWord "value" = true))
  have same : text ++ "." ++ "value" = text ++ ".value" := String.append_assoc ..
  simpa [tokensOfExpr, same] using closed

theorem writes_call {callee : Callee} (arguments : ∀ expression ∈ expressions, WritesExpr expression) :
    WritesExpr (.call info callee expressions) := by
  refine ((writesText_callee callee).bind fun name => (writes_expressions arguments).bind fun texts =>
    .pure fun table spellTexts spellsName worded => ?_).of_eq (by simp [Expr.uses])
    ((writable_iff (by exact trivial)).trans
      (by simp [Node.children, Expr.children, writable_callee])).symm fun _ _ => id
  have opened := (spellsName worded).andFixed "(" [.mark '('] (by decide)
  have arguments := spells_intercalate (by decide : (isFixed ", " [.mark ','] && endsWords ", ") = true)
    (spellTexts worded)
  have closed := (opened.andSpells arguments).andFixed ")" [.mark ')'] (by decide)
  simpa [tokensOfExpr, parenthesized, separated] using closed.spells

theorem writes_subscript (base : WritesExpr left) (index : WritesExpr right) :
    WritesExpr (.subscript info left right) := by
  refine (base.bind fun first => index.bind fun second =>
    .pure fun table spellsSecond spellsFirst worded => ?_).of_eq (by simp [Expr.uses])
    ((writable_iff (by exact trivial)).trans (by simp [Node.children, Expr.children])).symm
    fun _ _ => id
  have opened := (spellsFirst worded).andFixed "[" [.mark '['] (by decide)
  have closed := (opened.andSpells (spellsSecond worded)).andFixed "]" [.mark ']'] (by decide)
  simpa [tokensOfExpr] using closed.spells

theorem writes_array (elements : ∀ expression ∈ expressions, WritesExpr expression) :
    WritesExpr (.array info expressions) := by
  refine ((writes_expressions elements).map fun table texts spell worded => ?_).of_eq rfl
    ((writable_iff (by exact trivial)).trans (by simp [Node.children, Expr.children])).symm
    fun _ _ => id
  have elements := spells_intercalate (by decide : (isFixed "," [.mark ','] && endsWords ",") = true)
    (spell worded)
  have closed := ((fixed "[" [.mark '['] (by decide)).andSpells elements).andFixed
    "]" [.mark ']'] (by decide)
  simpa [tokensOfExpr, separated] using closed.spells

theorem writes_conjure (each : ∀ statement ∈ body, WritesStmt statement) :
    WritesExpr (.conjure info body) := by
  refine ((writes_body each 0).map fun table lines lined worded => ?_).of_eq rfl
    ((writable_iff (by exact trivial)).trans (by simp [Node.children, Expr.children])).symm
    fun _ _ => id
  have inner : Closed (" ".intercalate (lines.map Line.text)).toList (tokensOfBody table body) :=
    (lined worded).intercalate (by decide) fun _ _ => id
  have opened := (fixed "(() => \x7b " (.mark '(' :: arrow ++ [.mark '\x7b']) (by decide)).andClosed
    inner
  have closed := opened.andClosed (fixed " \x7d)()" ([.mark '\x7d', .mark ')'] ++ parenthesized [])
    (by decide))
  simpa [tokensOfExpr, parenthesized, braced] using closed.spells

theorem writes_apply (mapping : WritesExpr left) (items : WritesExpr right) :
    WritesExpr (.apply info left right) := by
  refine (items.bind fun first => mapping.bind fun second =>
    .pure fun table spellsSecond spellsFirst worded => ?_).of_eq (by simp [Expr.uses])
    ((writable_iff (by exact trivial)).trans
      (by simp [Node.children, Expr.children, and_comm])).symm fun _ _ => id
  have opened := (spellsFirst worded).andFixed ".map("
    [.mark '.', .ofString "map", .mark '('] (by decide)
  have closed := (opened.andSpells (spellsSecond worded)).andFixed ")" [.mark ')'] (by decide)
  simpa [tokensOfExpr, parenthesized] using closed.spells

theorem writes_supplant {last : Expr} (text : WritesExpr left) (pattern : WritesExpr right)
    (replacement : WritesExpr last) : WritesExpr (.supplant info left right last) := by
  refine (text.bind fun first => pattern.bind fun second =>
    replacement.bind fun third =>
      .pure fun table spellsThird spellsSecond spellsFirst worded => ?_).of_eq
    (by simp [Expr.uses]) ((writable_iff (by exact trivial)).trans
      (by simp [Node.children, Expr.children])).symm fun _ _ => id
  have opened := (spellsFirst worded).andFixed ".replaceAll("
    [.mark '.', .ofString "replaceAll", .mark '('] (by decide)
  have middle := (opened.andSpells (spellsSecond worded)).andFixed ", " [.mark ','] (by decide)
  have closed := (middle.andSpells (spellsThird worded)).andFixed ")" [.mark ')'] (by decide)
  simpa [tokensOfExpr, parenthesized] using closed.spells

theorem writes_declare (value : WritesExpr left) : WritesStmt (.declare position target left) := by
  intro depth opening
  refine ((writesText_nameOf (.value target)).bind fun name => value.bind fun text =>
    .pure fun table spellsText spellsName worded => ?_).of_eq (by simp [Stmt.uses])
    ((writable_iff (by exact trivial)).trans (by simp [Node.children, Stmt.children])).symm
    fun _ _ => id
  have keyword : Closed (if target.mutable then "let " else "const ").toList
      [.ofString (if target.mutable then "let" else "const")] := by
    cases target.mutable <;> exact fixed _ _ (by decide)
  have opened := (keyword.andSpells (spellsName worded)).andFixed " = " [.mark '='] (by decide)
  have closed := (opened.andSpells (spellsText worded)).andFixed ";" [.mark ';'] (by decide)
  have line := Lined.line depth closed .nil
  simpa [tokensOfStmt] using line

theorem writes_function {target : Function} (each : ∀ statement ∈ body, WritesStmt statement) :
    WritesStmt (.function position target body) := by
  intro depth opening
  refine ((writesText_nameOf (.function target)).bind fun name =>
    (writes_variableNames target.parameters).bind fun parameters =>
      (writes_body each (depth + 1)).bind fun lines =>
        .pure fun table lined spell spells worded => ?_).of_eq (by simp [Stmt.uses])
    ((writable_iff (by exact trivial)).trans (by simp [Node.children, Stmt.children])).symm
    fun _ _ => id
  have parameters := spells_intercalate
    (by decide : (isFixed ", " [.mark ','] && endsWords ", ") = true) (spell worded)
  have opened := ((fixed "function " [.ofString "function"] (by decide)).andSpells
    (spells worded)).andFixed "(" [.mark '('] (by decide)
  have closed := (opened.andSpells parameters).andFixed ") \x7b" [.mark ')', .mark '\x7b'] (by decide)
  have all := Lined.line depth closed ((lined worded).append
    (.line depth (fixed "\x7d" [.mark '\x7d'] (by decide)) .nil))
  simpa [tokensOfStmt, parenthesized, braced, separated] using all

theorem writes_assign (value : WritesExpr left) : WritesStmt (.assign position target left) := by
  intro depth opening
  refine ((writesText_nameOf (.value target)).bind fun name => value.bind fun text =>
    .pure fun table spellsText spellsName worded => ?_).of_eq (by simp [Stmt.uses])
    ((writable_iff (by exact trivial)).trans (by simp [Node.children, Stmt.children])).symm
    fun _ _ => id
  have opened := (spellsName worded).andFixed " = " [.mark '='] (by decide)
  have closed := (opened.andSpells (spellsText worded)).andFixed ";" [.mark ';'] (by decide)
  have line := Lined.line depth closed .nil
  simpa [tokensOfStmt] using line

theorem writes_step {step : Step} : WritesStmt (.step position step target) := by
  intro depth opening
  cases step with
  | up =>
    refine ((writesText_nameOf (.value target)).map fun table text spells worded => ?_).of_eq rfl
      (iff_of_true trivial (writable_leaf (by exact trivial) rfl)) fun _ _ => id
    have closed := (spells worded).andFixed "++;" [.mark '+', .mark '+', .mark ';'] (by decide)
    have line := Lined.line depth closed .nil
    simpa [tokensOfStmt] using line
  | down =>
    refine ((writesText_nameOf (.value target)).map fun table text spells worded => ?_).of_eq rfl
      (iff_of_true trivial (writable_leaf (by exact trivial) rfl)) fun _ _ => id
    have closed := (spells worded).andFixed "--;" [.mark '-', .mark '-', .mark ';'] (by decide)
    have line := Lined.line depth closed .nil
    simpa [tokensOfStmt] using line

theorem writes_loop (condition : WritesExpr value) (each : ∀ statement ∈ body, WritesStmt statement) :
    WritesStmt (.loop position value body) := by
  intro depth opening
  refine (condition.bind fun text => (writes_body each (depth + 1)).bind fun lines =>
    .pure fun table lined spells worded => ?_).of_eq (by simp [Stmt.uses])
    ((writable_iff (by exact trivial)).trans (by simp [Node.children, Stmt.children])).symm
    fun _ _ => id
  have opened := ((fixed "while (" [.ofString "while", .mark '('] (by decide)).andSpells
    (spells worded)).andFixed ") \x7b" [.mark ')', .mark '\x7b'] (by decide)
  have closed := fixed "\x7d" [.mark '\x7d'] (by decide)
  have all := Lined.line depth opened ((lined worded).append (.line depth closed .nil))
  simpa [tokensOfStmt, parenthesized, braced] using all

theorem writes_breakLoop : WritesStmt (.breakLoop position) := by
  intro depth opening
  refine (Writes.pure fun table worded => ?_).of_eq rfl
    (iff_of_true trivial (writable_leaf (by exact trivial) rfl)) fun _ _ => id
  have line := Lined.line depth (fixed "break;" [.ofString "break", .mark ';'] (by decide)) .nil
  simpa [tokensOfStmt] using line

theorem writes_returnValue (value : WritesExpr left) : WritesStmt (.returnValue position left) := by
  intro depth opening
  refine (value.map fun table text spells worded => ?_).of_eq rfl
    ((writable_iff (by exact trivial)).trans (by simp [Node.children, Stmt.children])).symm
    fun _ _ => id
  have closed := ((fixed "return " [.ofString "return"] (by decide)).andSpells
    (spells worded)).andFixed ";" [.mark ';'] (by decide)
  have line := Lined.line depth closed .nil
  simpa [tokensOfStmt] using line

theorem writes_returnVoid : WritesStmt (.returnVoid position) := by
  intro depth opening
  refine (Writes.pure fun table worded => ?_).of_eq rfl
    (iff_of_true trivial (writable_leaf (by exact trivial) rfl)) fun _ _ => id
  have line := Lined.line depth (fixed "return;" [.ofString "return", .mark ';'] (by decide)) .nil
  simpa [tokensOfStmt] using line

theorem writes_exscribe (value : WritesExpr left) : WritesStmt (.exscribe position left) := by
  intro depth opening
  refine (value.map fun table text spells worded => ?_).of_eq rfl
    ((writable_iff (by exact trivial)).trans (by simp [Node.children, Stmt.children])).symm
    fun _ _ => id
  have opened := (fixed "console.log(" [.ofString "console", .mark '.', .ofString "log", .mark '(']
    (by decide)).andSpells (spells worded)
  have closed := opened.andFixed ");" [.mark ')', .mark ';'] (by decide)
  have line := Lined.line depth closed .nil
  simpa [tokensOfStmt, parenthesized] using line

theorem writes_evaluate (expression : WritesExpr value) : WritesStmt (.evaluate position value) := by
  intro depth opening
  refine (expression.map fun table text spells worded => ?_).of_eq rfl
    ((writable_iff (by exact trivial)).trans (by simp [Node.children, Stmt.children])).symm
    fun _ _ => id
  have line := Lined.line depth ((spells worded).andFixed ";" [.mark ';'] (by decide)) .nil
  simpa [tokensOfStmt] using line

theorem writes_block (each : ∀ statement ∈ body, WritesStmt statement) :
    WritesStmt (.block position body) := by
  intro depth opening
  refine ((writes_body each (depth + 1)).map fun table lines lined worded => ?_).of_eq rfl
    ((writable_iff (by exact trivial)).trans (by simp [Node.children, Stmt.children])).symm
    fun _ _ => id
  have all := Lined.line depth (fixed "\x7b" [.mark '\x7b'] (by decide)) ((lined worded).append
    (.line depth (fixed "\x7d" [.mark '\x7d'] (by decide)) .nil))
  simpa [tokensOfStmt, braced] using all

/-- The tokens that close a conditional: the other branch, or the conditional that is
chained to it. -/
theorem lined_branch {depth : Nat} {opening : Opening} {text : String} {lines rest : List Line}
    {condition consequent closing : List Token} (spells : Spells text.toList condition)
    (lined : Lined lines consequent) (closed : Lined rest closing) :
    Lined (⟨depth, opening.text ++ " (" ++ text ++ ") \x7b"⟩ :: (lines ++ rest))
      (opening.tokens ++ parenthesized condition ++ .mark '\x7b' :: consequent ++ closing) := by
  have opened := ((closed_opening opening).andSpells spells).andFixed ") \x7b"
    [.mark ')', .mark '\x7b'] (by decide)
  have all := Lined.line depth opened (lined.append closed)
  simpa [parenthesized] using all

/-- The other branch between braces. -/
theorem lined_else {lines : List Line} {tokens : List Token} (depth : Nat)
    (lined : Lined lines tokens) :
    Lined (⟨depth, "\x7d else \x7b"⟩ :: (lines ++ [⟨depth, "\x7d"⟩]))
      (.mark '\x7d' :: .ofString "else" :: braced tokens) := by
  have all := Lined.line depth
    (fixed "\x7d else \x7b" [.mark '\x7d', .ofString "else", .mark '\x7b'] (by decide))
    (lined.append (.line depth (fixed "\x7d" [.mark '\x7d'] (by decide)) .nil))
  simpa [braced] using all

theorem writes_else {step : Emitter (List Line)} {uses : List Owner} {short : Prop}
    {tokens : (Nat → String) → List Token} (depth : Nat)
    (writes : Writes step uses short fun table lines => Worded table → Lined lines (tokens table)) :
    Writes (do
        let lines ← step
        pure (⟨depth, "\x7d else \x7b"⟩ :: (lines ++ [⟨depth, "\x7d"⟩])))
      uses short fun table lines => Worded table →
        Lined lines (.mark '\x7d' :: .ofString "else" :: braced (tokens table)) :=
  writes.map fun _ _ lined worded => lined_else depth (lined worded)

theorem writable_branch {condition : Expr} {consequent alternative : List Stmt} :
    Writable (.stmt (.branch position condition consequent alternative)) ↔
      Writable (.expr condition) ∧ (∀ statement ∈ consequent, Writable (.stmt statement)) ∧
        ∀ statement ∈ alternative, Writable (.stmt statement) := by
  refine (writable_iff (by exact trivial)).trans ?_
  simp [Node.children, Stmt.children, or_imp, forall_and]

/-- A conditional is written before whatever closes it. -/
theorem writes_conditional {depth : Nat} {opening : Opening} {condition : Expr}
    {consequent : List Stmt} {rest : Emitter (List Line)} {uses : List Owner} {short : Prop}
    {closing : (Nat → String) → List Token} (first : WritesExpr condition)
    (each : ∀ statement ∈ consequent, WritesStmt statement)
    (closes : Writes rest uses short fun table lines => Worded table → Lined lines (closing table)) :
    Writes (do
        let condition ← expressionText condition
        let consequent ← bodyLines (depth + 1) consequent
        let rest ← rest
        return ⟨depth, opening.text ++ " (" ++ condition ++ ") \x7b"⟩ :: (consequent ++ rest))
      (condition.uses ++ usesOfBody consequent ++ uses)
      (Writable (.expr condition) ∧ (∀ statement ∈ consequent, Writable (.stmt statement)) ∧ short)
      fun table lines => Worded table → Lined lines (opening.tokens ++
        parenthesized (tokensOfExpr table condition) ++
          .mark '\x7b' :: tokensOfBody table consequent ++ closing table) := by
  refine (first.bind fun text => (writes_body each (depth + 1)).bind fun lines =>
    closes.bind fun others => .pure fun table closed lined spells worded => ?_).of_eq
    (by simp) (by simp) fun _ _ => id
  exact lined_branch (spells worded) (lined worded) (closed worded)

/-- A conditional is written before its other branch. -/
theorem writes_otherwise {depth : Nat} {opening : Opening} {condition : Expr}
    {consequent : List Stmt} {step : Emitter (List Line)} {uses : List Owner} {short : Prop}
    {tokens : (Nat → String) → List Token} (first : WritesExpr condition)
    (each : ∀ statement ∈ consequent, WritesStmt statement)
    (writes : Writes step uses short fun table lines => Worded table → Lined lines (tokens table)) :
    Writes (do
        let condition ← expressionText condition
        let consequent ← bodyLines (depth + 1) consequent
        let lines ← step
        let rest ← pure (⟨depth, "\x7d else \x7b"⟩ :: (lines ++ [⟨depth, "\x7d"⟩]))
        return ⟨depth, opening.text ++ " (" ++ condition ++ ") \x7b"⟩ :: (consequent ++ rest))
      (condition.uses ++ usesOfBody consequent ++ uses)
      (Writable (.expr condition) ∧ (∀ statement ∈ consequent, Writable (.stmt statement)) ∧ short)
      fun table lines => Worded table → Lined lines (opening.tokens ++
        parenthesized (tokensOfExpr table condition) ++ .mark '\x7b' ::
          tokensOfBody table consequent ++ .mark '\x7d' :: .ofString "else" :: braced (tokens table)) := by
  have closes := @writes_conditional depth opening _ _ _ _ _ _ first each (writes_else depth writes)
  simp only [bind_assoc] at closes
  exact closes

theorem writes_branch {consequent alternative : List Stmt} (condition : WritesExpr value)
    (each : ∀ statement ∈ consequent, WritesStmt statement)
    (others : ∀ statement ∈ alternative, WritesStmt statement) :
    WritesStmt (.branch position value consequent alternative) := by
  intro depth opening
  have whole := writes_body others (depth + 1)
  cases alternative with
  | nil =>
    have closing : Writes (pure [⟨depth, "\x7d"⟩]) [] True fun table lines =>
        Worded table → Lined lines [.mark '\x7d'] :=
      .pure fun _ _ => .line depth (fixed "\x7d" [.mark '\x7d'] (by decide)) .nil
    exact (writes_conditional condition each closing).of_eq (by simp [Stmt.uses, usesOfBody])
      (by simp [writable_branch]) fun _ _ => id
  | cons only rest =>
    cases rest with
    | nil =>
      have chained := others only List.mem_cons_self depth .chained
      have alone := others only List.mem_cons_self (depth + 1) .fresh
      have short : Writable (.stmt (.branch position value consequent [only])) ↔
          Writable (.expr value) ∧ (∀ statement ∈ consequent, Writable (.stmt statement)) ∧
            Writable (.stmt only) := by
        simp [writable_branch]
      have uses : (Stmt.branch position value consequent [only]).uses =
          value.uses ++ usesOfBody consequent ++ only.uses := by
        simp [Stmt.uses, usesOfBody]
      cases only with
      | branch =>
        exact (writes_conditional condition each chained).of_eq uses.symm short.symm fun _ _ => id
      | _ => exact (writes_otherwise condition each alone).of_eq uses.symm short.symm fun _ _ => id
    | cons second more =>
      exact (writes_otherwise condition each whole).of_eq rfl writable_branch.symm fun _ _ => id

end

mutual

/-- Every expression is written as its tokens. -/
theorem writesExpr : (expression : Expr) → WritesExpr expression
  | .number info value =>
    (writesText_number info value).of_eq rfl (writable_number info value).symm fun _ _ => id
  | .bool _ value => writesText_pure (writable_leaf trivial rfl) (by
      cases value <;> exact spells_isWord (by decide))
  | .string _ value =>
    writesText_pure (writable_leaf trivial rfl) (closed_stringLiteral value).spells
  | .glyph _ value => writesText_pure (writable_leaf trivial rfl) (by
      simpa using (closed_stringLiteral (String.singleton value)).spells)
  | .codepoint _ value => writesText_pure (writable_leaf trivial rfl) (spells_ofNat value)
  | .null _ => writesText_pure (writable_leaf trivial rfl) (spells_isWord (by decide))
  | .typeOf _ described =>
    writesText_pure (writable_leaf trivial rfl) (closed_stringLiteral described.name).spells
  | .reference use =>
    (writesText_nameOf (.value use.target)).of_eq rfl
      (iff_of_true trivial (writable_leaf (by exact trivial) rfl)) fun _ _ => id
  | .function _ target =>
    (writesText_nameOf (.function target)).of_eq rfl
      (iff_of_true trivial (writable_leaf (by exact trivial) rfl)) fun _ _ => id
  | .binary _ _ left right => writes_binary (writesExpr left) (writesExpr right)
  | .unary _ _ operand => writes_unary (writesExpr operand)
  | .addressOf _ _ => writes_addressOf
  | .dereference _ operand => writes_dereference (writesExpr operand)
  | .call _ _ arguments => writes_call (writesEachExpr arguments)
  | .subscript _ base index => writes_subscript (writesExpr base) (writesExpr index)
  | .array _ elements => writes_array (writesEachExpr elements)
  | .conjure _ body => writes_conjure (writesEach body)
  | .apply _ mapping items => writes_apply (writesExpr mapping) (writesExpr items)
  | .supplant _ text pattern replacement =>
    writes_supplant (writesExpr text) (writesExpr pattern) (writesExpr replacement)

theorem writesEachExpr : (expressions : List Expr) → ∀ expression ∈ expressions, WritesExpr expression
  | [] => by simp
  | first :: rest => List.forall_mem_cons.mpr ⟨writesExpr first, writesEachExpr rest⟩

/-- Every statement is written as its tokens. -/
theorem writesStmt : (statement : Stmt) → WritesStmt statement
  | .declare _ _ value => writes_declare (writesExpr value)
  | .function _ _ body => writes_function (writesEach body)
  | .main _ body => fun depth _ =>
    (writes_body (writesEach body) depth).of_eq rfl
      ((writable_iff (by exact trivial)).trans (by simp [Node.children, Stmt.children])).symm
      fun _ _ => id
  | .affix _ _ => fun depth opening => by
    refine (Writes.pure fun table worded => ?_).of_eq rfl
      (iff_of_true trivial (writable_leaf (by exact trivial) rfl)) fun _ _ => id
    exact .nil
  | .assign _ _ value => writes_assign (writesExpr value)
  | .step _ _ _ => writes_step
  | .branch _ condition consequent alternative =>
    writes_branch (writesExpr condition) (writesEach consequent) (writesEach alternative)
  | .loop _ condition body => writes_loop (writesExpr condition) (writesEach body)
  | .breakLoop _ => writes_breakLoop
  | .returnValue _ value => writes_returnValue (writesExpr value)
  | .returnVoid _ => writes_returnVoid
  | .exscribe _ value => writes_exscribe (writesExpr value)
  | .evaluate _ expression => writes_evaluate (writesExpr expression)
  | .block _ body => writes_block (writesEach body)

theorem writesEach : (body : List Stmt) → ∀ statement ∈ body, WritesStmt statement
  | [] => by simp
  | first :: rest => List.forall_mem_cons.mpr ⟨writesStmt first, writesEach rest⟩

end

/-! ## Programs -/

/-- Every whole number of a program can be written. -/
def WritableProgram (program : Program) : Prop :=
  ∀ node ∈ walkStmts program.body, node.Short

theorem writableProgram_iff (program : Program) :
    WritableProgram program ↔ ∀ statement ∈ program.body, Writable (.stmt statement) := by
  unfold WritableProgram Writable Node.All
  simp only [mem_walkStmts, forall_exists_index, and_imp]
  exact ⟨fun all statement member node below => all node statement member below,
    fun all node statement member below => all statement member node below⟩

/-- The white space before a line spells nothing. -/
theorem closed_blanks (count : Nat) : Closed (List.replicate count ' ') [] := by
  induction count with
  | zero => exact closed_nil
  | succ count ih => exact (fixed " " [] (by decide)).append ih

/-- A program is written unless it has a whole number that is too long. Then everything that
it uses is named, and the text reads as its tokens. -/
theorem writes_emit (program : Program) :
    Writes (emit program) (program.uses) (WritableProgram program) fun table text =>
      Worded table → lex text.toList = tokensOfBody table program.body := by
  refine ((writes_body (writesEach program.body) 0).map fun table lines lined worded => ?_).of_eq rfl
    (writableProgram_iff program).symm fun _ _ => id
  refine (Lined.intercalate (by decide) (fun line tokens closed => ?_) (lined worded)).spells.lex_eq
  rw [Line.render, String.toList_append, String.toList_ofList]
  exact (closed_blanks _).append closed

end JavaScript

end GlyphCompiler
