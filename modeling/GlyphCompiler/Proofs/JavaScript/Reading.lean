/-
# Reading what is written

The reader takes the tokens of an expression in whatever has been begun, and then has
the expression read, whatever follows; and the tokens of a statement add it to the body
that is read. Each construct of the language is such a rule over the tokens of its parts.
-/

import GlyphCompiler.Proofs.JavaScript.Reader
import GlyphCompiler.Proofs.JavaScript.Names

namespace GlyphCompiler

namespace JavaScript

/-! ## Words -/

theorem unescape_escapeChar (character : Char) (rest : List Char) :
    unescape (escapeChar character ++ rest) = character :: unescape rest := by
  unfold escapeChar
  split
  case h_11 =>
    rw [List.singleton_append, unescape] <;> simp_all
  all_goals rfl

/-- The text of a string literal is read back, whatever it contains. -/
theorem unescape_escape (characters : List Char) :
    unescape (characters.flatMap escapeChar) = characters := by
  induction characters with
  | nil => rfl
  | cons character characters ih => rw [List.flatMap_cons, unescape_escapeChar, ih]

theorem lexeme_text (content : String) :
    (Token.text (content.toList.flatMap escapeChar)).lexeme = .text content := by
  rw [Token.lexeme, unescape_escape, String.ofList_toList]

/-- Digits are a part of a numeral, with or without the letter of an exponent. -/
theorem lexeme_part {digits letters : List Char} (nonempty : digits ≠ [])
    (all : ∀ character ∈ digits, character.isDigit = true) (plain : '_' ∉ letters) :
    (Token.word (digits ++ letters)).lexeme = .part (digits ++ letters) := by
  have unlike : Keyword.ofLetters? (digits ++ letters) = none := by
    refine List.find?_eq_none.mpr fun keyword _ => ?_
    rw [beq_iff_eq]
    intro same
    have starts : keyword.text.toList.head?.any Char.isDigit = false := by
      cases keyword <;> decide +kernel
    obtain ⟨first, rest, rfl⟩ := List.exists_cons_of_ne_nil nonempty
    rw [same, List.cons_append, List.head?_cons, Option.any_some,
      all first List.mem_cons_self] at starts
    cases starts
  have unmarked : '_' ∉ digits ++ letters := by
    simp [mark_not_mem_of_digits all, plain]
  rw [Token.lexeme, if_neg unmarked, unlike]

/-! ## Expressions -/

/-- Some tokens are read as an expression in whatever has been begun. A statement may begin
with them. -/
structure Reads (legend : Legend) (tokens : List Token) (shown : BareExpr) : Prop where
  runs : ∃ item : Item, item.value legend = shown ∧
    ∀ frames, Reader.run legend ⟨.expression, frames⟩ tokens = ⟨.rest item, frames⟩
  begins : ∀ frames, Reader.run legend ⟨.statement, frames⟩ tokens =
    Reader.run legend ⟨.expression, .beginning :: frames⟩ tokens

section

variable {legend : Legend} {tokens more : List Token} {shown other : BareExpr}
  {parts : List (List Token)} {each : List BareExpr} {frames : List Frame} {name : String}

theorem reads_whole (runs : ∀ frames, Reader.run legend ⟨.expression, frames⟩ tokens =
      ⟨.rest (.expression shown), frames⟩)
    (begins : ∀ frames, Reader.run legend ⟨.statement, frames⟩ tokens =
      Reader.run legend ⟨.expression, .beginning :: frames⟩ tokens) : Reads legend tokens shown :=
  ⟨⟨.expression shown, rfl, runs⟩, begins⟩

/-- More tokens make an expression grow. -/
theorem Reads.grow (first : Reads legend tokens shown)
    (grows : ∀ item : Item, item.value legend = shown → ∀ frames,
      Reader.run legend ⟨.rest item, frames⟩ more = ⟨.rest (.expression other), frames⟩) :
    Reads legend (tokens ++ more) other := by
  obtain ⟨⟨item, same, runs⟩, begins⟩ := first
  refine reads_whole (fun frames => ?_) fun frames => ?_
  · rw [run_append, runs, grows item same]
  · rw [run_append, run_append, begins]

theorem reads_text (content : String) :
    Reads legend [.text (content.toList.flatMap escapeChar)] (.text content) := by
  refine reads_whole (fun frames => ?_) fun _ => rfl
  rw [run_cons, Reader.step, lexeme_text]
  rfl

theorem reads_bool (value : Bool) :
    Reads legend [Token.ofString (if value then "true" else "false")] (.bool value) :=
  reads_whole (fun _ => by cases value <;> rfl) fun _ => by cases value <;> rfl

theorem reads_null : Reads legend [Token.ofString "null"] .null :=
  reads_whole (fun _ => rfl) fun _ => rfl

theorem reads_name (marked : '_' ∈ name.toList) :
    Reads legend [Token.ofString name] (legend.named name) := by
  refine reads_whole (fun frames => ?_) fun frames => ?_ <;>
    simp only [run_cons, Reader.step, lexeme_name marked] <;> rfl

/-- The signs of an operator follow its left operand. -/
theorem run_signs (operator : BinaryOperator) (item : Item) (frames : List Frame) :
    Reader.run legend ⟨.rest item, .paren :: frames⟩ ((operatorText operator).toList.map .mark) =
      ⟨.expression, .operator (item.value legend) (operatorText operator).toList :: frames⟩ := by
  cases operator <;> rfl

theorem operatorOf_signs (operator : BinaryOperator) :
    operatorOf (operatorText operator).toList = operator := by
  cases operator <;> rfl

theorem Reads.binary (operator : BinaryOperator) (left : Reads legend tokens shown)
    (right : Reads legend more other) :
    Reads legend (parenthesized (tokens ++ (operatorText operator).toList.map .mark ++ more))
      (.binary operator shown other) := by
  obtain ⟨first, rfl, runs⟩ := left.runs
  obtain ⟨second, rfl, runsOther⟩ := right.runs
  refine reads_whole (fun frames => ?_) fun _ => rfl
  have opened : Reader.step legend ⟨.expression, frames⟩ (.mark '(') =
      ⟨.expression, .paren :: frames⟩ := rfl
  have closed : Reader.step legend ⟨.rest second, .operator (first.value legend)
      (operatorText operator).toList :: frames⟩ (.mark ')') =
    ⟨.rest (.expression (.binary (operatorOf (operatorText operator).toList) (first.value legend)
      (second.value legend))), frames⟩ := rfl
  rw [parenthesized, List.cons_append, run_cons, opened, run_append, run_append, run_append, runs,
    run_signs, runsOther, run_cons, closed, operatorOf_signs, run_nil]

theorem Reads.unary (operator : UnaryOperator) (operand : Reads legend tokens shown) :
    Reads legend (parenthesized (operator.sign.toList.map .mark ++ tokens))
      (.unary operator shown) := by
  obtain ⟨item, rfl, runs⟩ := operand.runs
  refine reads_whole (fun frames => ?_) fun _ => rfl
  have opened : Reader.run legend ⟨.expression, frames⟩
      (.mark '(' :: operator.sign.toList.map .mark) =
        ⟨.expression, .wrap (.unary operator) :: frames⟩ := by
    cases operator <;> rfl
  rw [parenthesized, ← List.cons_append, run_append, run_append, opened, runs]
  rfl

theorem letters_ofString (name : String) : (Token.ofString name).letters = name :=
  String.ofList_toList

theorem reads_addressOf (name : String) :
    Reads legend (parenthesized (arrow ++ parenthesized
      (braced [Token.ofString "value", .mark ':', .ofString name])) ++ parenthesized [])
      (.addressOf name) := by
  refine reads_whole (fun frames => ?_) fun _ => rfl
  conv_rhs => rw [← letters_ofString name]
  rfl

theorem Reads.dereference (operand : Reads legend tokens shown) :
    Reads legend (tokens ++ [Token.mark '.', .ofString "value"]) (.dereference shown) :=
  operand.grow fun _ same _ => same ▸ rfl

theorem Reads.subscript (base : Reads legend tokens shown) (index : Reads legend more other) :
    Reads legend (tokens ++ Token.mark '[' :: more ++ [Token.mark ']'])
      (.subscript shown other) := by
  rw [List.append_assoc]
  refine base.grow fun first same frames => ?_
  obtain ⟨second, rfl, runs⟩ := index.runs
  have opened : Reader.step legend ⟨.rest first, frames⟩ (.mark '[') =
      ⟨.expression, .wrap (.subscript (first.value legend)) :: frames⟩ := rfl
  rw [List.cons_append, run_cons, opened, run_append, runs, same]
  rfl

/-! ## Lists of expressions -/

/-- Does a mark end a list? -/
def isClosing (mark : Char) : Bool := mark = ')' || mark = ']'

/-- Expressions with commas between them are read one after another. -/
theorem run_items_cons {close : Char} (isClosing : isClosing close = true)
    {build : List BareExpr → BareExpr} {read : List BareExpr}
    (first : Reads legend tokens shown) (others : List.Forall₂ (Reads legend) parts each) :
    Reader.run legend ⟨.expression, .items build read :: frames⟩
        (separated (tokens :: parts) ++ [Token.mark close]) =
      ⟨.rest (.expression (build (read ++ shown :: each))), frames⟩ := by
  induction others generalizing tokens shown read with
  | nil =>
    obtain ⟨item, rfl, runs⟩ := first.runs
    rw [separated, List.intercalate_singleton, run_append, runs]
    simp only [JavaScript.isClosing, Bool.or_eq_true, decide_eq_true_eq] at isClosing
    obtain rfl | rfl := isClosing <;> rfl
  | @cons part one parts each second others ih =>
    obtain ⟨item, rfl, runs⟩ := first.runs
    have comma : Reader.step legend ⟨.rest item, .items build read :: frames⟩ (.mark ',') =
        ⟨.expression, .items build (read ++ [item.value legend]) :: frames⟩ := rfl
    rw [separated, List.intercalate_cons_cons, List.append_assoc, List.append_assoc, run_append,
      runs, run_append, run_cons, comma]
    refine (ih second).trans ?_
    rw [List.append_assoc, List.singleton_append]

/-- A list of expressions is read until it ends. -/
theorem run_items {close : Char} (isClosing : isClosing close = true)
    {build : List BareExpr → BareExpr} (reads : List.Forall₂ (Reads legend) parts each) :
    Reader.run legend ⟨.expression, .items build [] :: frames⟩
        (separated parts ++ [Token.mark close]) =
      ⟨.rest (.expression (build each)), frames⟩ := by
  cases reads with
  | nil =>
    simp only [JavaScript.isClosing, Bool.or_eq_true, decide_eq_true_eq] at isClosing
    obtain rfl | rfl := isClosing <;> rfl
  | cons first others => exact run_items_cons isClosing first others

theorem Reads.call (callee : Reads legend tokens shown)
    (arguments : List.Forall₂ (Reads legend) parts each) :
    Reads legend (tokens ++ parenthesized (separated parts)) (.call shown each) := by
  refine callee.grow fun item same frames => ?_
  have opened : Reader.step legend ⟨.rest item, frames⟩ (.mark '(') =
      ⟨.expression, .items (.call (item.value legend)) [] :: frames⟩ := rfl
  rw [parenthesized, List.cons_append, run_cons, opened, same]
  exact run_items (by decide) arguments

theorem reads_array (elements : List.Forall₂ (Reads legend) parts each) :
    Reads legend (Token.mark '[' :: separated parts ++ [Token.mark ']']) (.array each) := by
  refine reads_whole (fun frames => ?_) fun _ => rfl
  have opened : Reader.step legend ⟨.expression, frames⟩ (.mark '[') =
      ⟨.expression, .items .array [] :: frames⟩ := rfl
  rw [List.cons_append, run_cons, opened]
  exact run_items (by decide) elements

theorem Reads.apply (items : Reads legend tokens shown) (mapping : Reads legend more other) :
    Reads legend (tokens ++ Token.mark '.' :: Token.ofString "map" :: parenthesized more)
      (.apply other shown) := by
  refine items.grow fun item same frames => ?_
  have opened : Reader.run legend ⟨.rest item, frames⟩
      [Token.mark '.', .ofString "map", .mark '('] =
        ⟨.expression, .items (applyTo (item.value legend)) [] :: frames⟩ := rfl
  have closed := congrArg (Reader.run legend · (separated [more] ++ [Token.mark ')'])) opened
  rw [run_items (by decide) (.cons mapping .nil), separated, List.intercalate_singleton,
    same] at closed
  exact closed

theorem Reads.supplant {replacement : List Token} {last : BareExpr}
    (text : Reads legend tokens shown) (pattern : Reads legend more other)
    (replaced : Reads legend replacement last) :
    Reads legend (tokens ++ Token.mark '.' :: Token.ofString "replaceAll" ::
      parenthesized (more ++ Token.mark ',' :: replacement)) (.supplant shown other last) := by
  refine text.grow fun item same frames => ?_
  have opened : Reader.run legend ⟨.rest item, frames⟩
      [Token.mark '.', .ofString "replaceAll", .mark '('] =
        ⟨.expression, .items (supplantIn (item.value legend)) [] :: frames⟩ := rfl
  have closed :=
    congrArg (Reader.run legend · (separated [more, replacement] ++ [Token.mark ')'])) opened
  rw [run_items (by decide) (.cons pattern (.cons replaced .nil)), separated,
    List.intercalate_cons_cons, List.intercalate_singleton, List.append_assoc more, same] at closed
  exact closed

/-! ## Numbers -/

/-- The tokens of the exponent of a numeral. -/
def Numeral.exponentTokens (numeral : Numeral) : List Token :=
  match numeral.exponent with
  | none => []
  | some (sign, digits) => [Token.mark sign, .word digits]

/-- Digits are a whole part of a numeral. -/
theorem readPart_digits {digits : List Char} (all : ∀ character ∈ digits, character.isDigit = true)
    (before : List Token) :
    readPart before digits = .rest (.numeral (before ++ [.word digits])) := by
  refine if_neg fun isLast => ?_
  exact absurd (all _ (List.mem_of_getLast? isLast)) (by decide)

/-- The last part of a numeral is read with the exponent after it, if it has one. -/
theorem run_readPart (numeral : Numeral) {digits : List Char}
    (all : ∀ character ∈ digits, character.isDigit = true) (before : List Token)
    (frames : List Frame) :
    Reader.run legend ⟨readPart before (digits ++ numeral.marker), frames⟩ numeral.exponentTokens =
      ⟨.rest (.numeral (before ++ .word (digits ++ numeral.marker) :: numeral.exponentTokens)),
        frames⟩ := by
  unfold Numeral.exponentTokens Numeral.marker
  cases numeral.exponent with
  | none => simp [readPart_digits all]
  | some pair => simp [readPart, Reader.step]

theorem mark_not_mem_marker (numeral : Numeral) : '_' ∉ numeral.marker := by
  unfold Numeral.marker
  split <;> decide

/-- A numeral is read from its tokens. -/
theorem run_numeral {numeral : Numeral} (proper : numeral.Proper) (frames : List Frame) :
    Reader.run legend ⟨.expression, frames⟩ numeral.tokens =
      ⟨.rest (.numeral numeral.tokens), frames⟩ := by
  have begins {digits letters : List Char} (nonempty : digits ≠ [])
      (all : ∀ character ∈ digits, character.isDigit = true) (plain : '_' ∉ letters) :
      Reader.step legend ⟨.expression, frames⟩ (.word (digits ++ letters)) =
        ⟨readPart [] (digits ++ letters), frames⟩ := by
    rw [Reader.step, lexeme_part nonempty all plain]
    rfl
  have tokens : numeral.tokens = (if numeral.fraction.isEmpty then
      [.word (numeral.whole ++ numeral.marker)]
    else [.word numeral.whole, .mark '.', .word (numeral.fraction ++ numeral.marker)]) ++
      numeral.exponentTokens := rfl
  rw [tokens]
  split
  · rw [List.singleton_append, run_cons,
      begins proper.whole_ne_nil proper.whole (mark_not_mem_marker numeral),
      run_readPart numeral proper.whole]
    rfl
  · next nonempty =>
    have whole := begins proper.whole_ne_nil proper.whole List.not_mem_nil
    rw [List.append_nil, readPart_digits proper.whole] at whole
    have point : Reader.step legend ⟨.rest (.numeral [.word numeral.whole]), frames⟩ (.mark '.') =
        ⟨.member (.numeral [.word numeral.whole]), frames⟩ := rfl
    have fraction : Reader.step legend ⟨.member (.numeral [.word numeral.whole]), frames⟩
        (.word (numeral.fraction ++ numeral.marker)) =
          ⟨readPart [.word numeral.whole, .mark '.'] (numeral.fraction ++ numeral.marker),
            frames⟩ := by
      rw [Reader.step, lexeme_part (by simpa using nonempty) proper.fraction
        (mark_not_mem_marker numeral)]
      rfl
    simp only [List.cons_append, List.nil_append, run_cons, whole, point, fraction,
      run_readPart numeral proper.fraction]

/-- A statement may begin with a numeral. -/
theorem begins_numeral {numeral : Numeral} (proper : numeral.Proper) (frames : List Frame) :
    Reader.run legend ⟨.statement, frames⟩ numeral.tokens =
      Reader.run legend ⟨.expression, .beginning :: frames⟩ numeral.tokens := by
  have begins {letters : List Char} (plain : '_' ∉ letters) :
      Reader.step legend ⟨.statement, frames⟩ (.word (numeral.whole ++ letters)) =
        Reader.step legend ⟨.expression, .beginning :: frames⟩
          (.word (numeral.whole ++ letters)) := by
    simp only [Reader.step, lexeme_part proper.whole_ne_nil proper.whole plain]
    rfl
  have whole := begins List.not_mem_nil
  rw [List.append_nil] at whole
  unfold Numeral.tokens
  split <;> simp only [List.cons_append, run_cons, begins (mark_not_mem_marker numeral), whole]

/-- Numerals with the same tokens are the same. -/
theorem Numeral.tokens_inj {numeral other : Numeral}
    (proper : ∀ pair ∈ numeral.exponent, pair.1 ≠ '.')
    (properOther : ∀ pair ∈ other.exponent, pair.1 ≠ '.')
    (same : numeral.tokens = other.tokens) : numeral = other := by
  obtain ⟨whole, fraction, exponent⟩ := numeral
  obtain ⟨whole', fraction', exponent'⟩ := other
  unfold Numeral.tokens Numeral.marker at same
  obtain _ | ⟨sign, digits⟩ := exponent <;> obtain _ | ⟨sign', digits'⟩ := exponent' <;>
    cases fraction <;> cases fraction' <;> simp at same proper properOther ⊢ <;> grind

/-- The size of a number is known from the tokens of its numeral. -/
def Legend.Sized (legend : Legend) : Prop :=
  ∀ value, legend.size (Numeral.ofNumber value).tokens = magnitude value

theorem exponent_ofNumber (value : Number) :
    ∀ pair ∈ (Numeral.ofNumber value).exponent, pair.1 ≠ '.' := by
  intro pair known
  obtain proper | unbounded := Numeral.proper_ofNumber value
  · obtain ⟨sign, -⟩ := proper.exponent pair known
    obtain sign | sign := sign <;> rw [sign] <;> decide
  · rw [Numeral.unbounded, List.mem_cons, List.mem_singleton] at unbounded
    obtain same | same := unbounded <;> rw [same] at known <;> cases known

/-- Numbers whose numerals have the same tokens are of the same size. -/
theorem factorsThrough_magnitude :
    magnitude.FactorsThrough fun value => (Numeral.ofNumber value).tokens :=
  fun number other same =>
    magnitude_eq (Numeral.tokens_inj (exponent_ofNumber number) (exponent_ofNumber other) same)

/-- So a reader can know all sizes. -/
theorem exists_sized (isFunction : String → Bool) :
    ∃ legend : Legend, legend.Sized ∧ legend.isFunction = isFunction := by
  let size := Function.extend (fun value => (Numeral.ofNumber value).tokens) magnitude fun _ => none
  exact ⟨⟨size, isFunction⟩,
    fun value => factorsThrough_magnitude.extend_apply (fun _ => none) value, rfl⟩

theorem reads_numeral (sized : legend.Sized) (value : Number) :
    Reads legend (Numeral.ofNumber value).tokens (.number (magnitude value)) := by
  have shown : Item.value legend (.numeral (Numeral.ofNumber value).tokens) =
      .number (magnitude value) :=
    congrArg BareExpr.number (sized value)
  obtain proper | unbounded := Numeral.proper_ofNumber value
  · exact ⟨⟨_, shown, run_numeral proper⟩, begins_numeral proper⟩
  · refine ⟨⟨_, shown, fun frames => ?_⟩, fun frames => ?_⟩ <;>
      rw [Numeral.unbounded, List.mem_cons, List.mem_singleton] at unbounded <;>
        obtain same | same := unbounded <;> rw [same] <;> rfl

/-- A negative number is read like an operator before its numeral. -/
theorem reads_number (sized : legend.Sized) (value : Number) :
    Reads legend (numberTokens value) (bareNumber value) := by
  unfold numberTokens bareNumber
  split
  · exact (reads_numeral sized value).unary .neg
  · exact reads_numeral sized value

/-! ## Statements -/

/-- Some tokens add statements to the body that is read. -/
def ReadsBody (legend : Legend) (tokens : List Token) (body : List BareStmt) : Prop :=
  ∀ read frames, Reader.run legend ⟨.statement, .body read :: frames⟩ tokens =
    ⟨.statement, .body (read ++ body) :: frames⟩

variable {body others : List BareStmt}

theorem readsBody_nil : ReadsBody legend [] [] := by
  intro read frames
  rw [List.append_nil, run_nil]

theorem ReadsBody.append (first : ReadsBody legend tokens body)
    (second : ReadsBody legend more others) :
    ReadsBody legend (tokens ++ more) (body ++ others) := by
  intro read frames
  rw [run_append, first, second, List.append_assoc]

/-- A body between braces completes the statement that it belongs to. -/
theorem ReadsBody.run_braced (reads : ReadsBody legend tokens body)
    (build : List BareStmt → BareStmt) (frames : List Frame) :
    Reader.run legend ⟨.statement, .body [] :: .owner build :: frames⟩
        (tokens ++ [Token.mark '\x7d']) =
      finish (build body) frames := by
  rw [run_append, reads, List.nil_append]
  rfl

theorem reads_conjure (reads : ReadsBody legend tokens body) :
    Reads legend (parenthesized (arrow ++ braced tokens) ++ parenthesized []) (.conjure body) := by
  have parts : parenthesized (arrow ++ braced tokens) ++ parenthesized [] =
      Token.mark '(' :: (arrow ++ [Token.mark '\x7b']) ++
        (tokens ++ Token.mark '\x7d' :: Token.mark ')' :: parenthesized []) := by
    simp only [parenthesized, braced, List.cons_append, List.append_assoc, List.nil_append]
  refine reads_whole (fun frames => ?_) fun _ => by rw [parts]; rfl
  have opened : Reader.run legend ⟨.expression, frames⟩
      (.mark '(' :: (arrow ++ [Token.mark '\x7b'])) =
        ⟨.statement, .body [] :: .conjure :: frames⟩ := rfl
  rw [parts, run_append, opened, run_append, reads]
  rfl

/-- A statement that one expression completes is read between the tokens that begin and
end it. -/
theorem Reads.ending (before : List Token) {after : List Token} {build : BareExpr → BareStmt}
    (reads : Reads legend tokens shown)
    (opens : ∀ frames, Reader.run legend ⟨.statement, frames⟩ before =
      ⟨.expression, .ending build :: frames⟩)
    (ends : after = [Token.mark ';'] ∨ after = [Token.mark ')', .mark ';']) :
    ReadsBody legend (before ++ tokens ++ after) [build shown] := by
  obtain ⟨item, rfl, runs⟩ := reads.runs
  intro read frames
  rw [run_append, run_append, opens, runs]
  obtain rfl | rfl := ends <;> rfl

theorem readsBody_declare (isMutable : Bool) (name : String) (value : Reads legend tokens shown) :
    ReadsBody legend (Token.ofString (if isMutable then "let" else "const") ::
      Token.ofString name :: Token.mark '=' :: tokens ++ [Token.mark ';'])
      [.declare isMutable name shown] := by
  refine value.ending
    [Token.ofString (if isMutable then "let" else "const"), .ofString name, .mark '=']
    (fun frames => ?_) (.inl rfl)
  conv_rhs => rw [← letters_ofString name]
  cases isMutable <;> rfl

theorem readsBody_assign (marked : '_' ∈ name.toList) (value : Reads legend tokens shown) :
    ReadsBody legend (Token.ofString name :: Token.mark '=' :: tokens ++ [Token.mark ';'])
      [.assign name shown] := by
  refine value.ending [Token.ofString name, .mark '='] (fun frames => ?_) (.inl rfl)
  have named : (legend.named name).named = name := by
    unfold Legend.named
    split <;> rfl
  conv_rhs => rw [← named]
  rw [run_cons, Reader.step, lexeme_name marked]
  rfl

theorem readsBody_step (marked : '_' ∈ name.toList) (step : Step) :
    ReadsBody legend (Token.ofString name :: match step with
      | .up => [Token.mark '+', .mark '+', .mark ';']
      | .down => [Token.mark '-', .mark '-', .mark ';']) [.step step name] := by
  intro read frames
  have named : (legend.named name).named = name := by
    unfold Legend.named
    split <;> rfl
  conv_rhs => rw [← named]
  rw [run_cons, Reader.step, lexeme_name marked]
  cases step <;> rfl

theorem readsBody_leave : ReadsBody legend [Token.ofString "break", .mark ';'] [.breakLoop] :=
  fun _ _ => rfl

theorem readsBody_returnValue (value : Reads legend tokens shown) :
    ReadsBody legend (Token.ofString "return" :: tokens ++ [Token.mark ';']) [.returnValue shown] :=
  value.ending [Token.ofString "return"] (fun _ => rfl) (.inl rfl)

theorem readsBody_returnVoid :
    ReadsBody legend [Token.ofString "return", .mark ';'] [.returnVoid] :=
  fun _ _ => rfl

theorem readsBody_exscribe (value : Reads legend tokens shown) :
    ReadsBody legend (Token.ofString "console" :: Token.mark '.' :: Token.ofString "log" ::
      parenthesized tokens ++ [Token.mark ';']) [.exscribe shown] := by
  have reads := value.ending [Token.ofString "console", .mark '.', .ofString "log", .mark '(']
    (fun _ => rfl) (.inr rfl)
  simpa only [parenthesized, List.cons_append, List.append_assoc, List.nil_append] using reads

theorem readsBody_evaluate (expression : Reads legend tokens shown) :
    ReadsBody legend (tokens ++ [Token.mark ';']) [.evaluate shown] := by
  obtain ⟨item, rfl, runs⟩ := expression.runs
  intro read frames
  rw [run_append, expression.begins, runs]
  rfl

theorem readsBody_block (reads : ReadsBody legend tokens body) :
    ReadsBody legend (braced tokens) [.block body] := by
  intro read frames
  have opened : Reader.step legend ⟨.statement, .body read :: frames⟩ (.mark '\x7b') =
      ⟨.statement, .body [] :: .owner .block :: .body read :: frames⟩ := rfl
  rw [braced, List.cons_append, run_cons, opened, reads.run_braced]
  rfl

/-- The parameters of a function are read one after another. -/
theorem run_parameters (name : String) (read names : List String) (frames : List Frame) :
    Reader.run legend ⟨.parameters name read, frames⟩
        (separated (names.map fun parameter => [Token.ofString parameter]) ++
          [Token.mark ')', .mark '\x7b']) =
      ⟨.statement, .body [] :: .owner (.function name (read ++ names)) :: frames⟩ := by
  induction names generalizing read with
  | nil =>
    rw [List.append_nil]
    rfl
  | cons parameter names ih =>
    have first : Reader.step legend ⟨.parameters name read, frames⟩ (.ofString parameter) =
        ⟨.parameters name (read ++ [parameter]), frames⟩ := by
      conv_rhs => rw [← letters_ofString parameter]
      rfl
    have rest := ih (read ++ [parameter])
    rw [List.append_assoc, List.singleton_append] at rest
    rw [← rest]
    cases names with
    | nil =>
      rw [List.map_singleton, separated, List.intercalate_singleton, List.singleton_append,
        run_cons, first]
      rfl
    | cons second names =>
      rw [List.map_cons, List.map_cons, separated, List.intercalate_cons_cons, List.append_assoc,
        List.append_assoc, List.singleton_append, run_cons, first, List.singleton_append, run_cons]
      rfl

theorem readsBody_function (name : String) (names : List String)
    (reads : ReadsBody legend tokens body) :
    ReadsBody legend (Token.ofString "function" :: Token.ofString name ::
      parenthesized (separated (names.map fun parameter => [Token.ofString parameter])) ++
        braced tokens) [.function name names body] := by
  intro read frames
  have opened : Reader.run legend ⟨.statement, .body read :: frames⟩
      [Token.ofString "function", .ofString name, .mark '('] =
        ⟨.parameters name [], .body read :: frames⟩ := by
    conv_rhs => rw [← letters_ofString name]
    rfl
  have parts : Token.ofString "function" :: Token.ofString name ::
      parenthesized (separated (names.map fun parameter => [Token.ofString parameter])) ++
        braced tokens =
      [Token.ofString "function", .ofString name, .mark '('] ++
        ((separated (names.map fun parameter => [Token.ofString parameter]) ++
          [Token.mark ')', .mark '\x7b']) ++ (tokens ++ [Token.mark '\x7d'])) := by
    simp only [parenthesized, braced, List.cons_append, List.append_assoc, List.nil_append]
  rw [parts, run_append, opened, run_append, run_parameters, reads.run_braced]
  rfl

/-- A condition and the body after it are read after the keyword before them. -/
theorem run_guard (build : BareExpr → List BareStmt → BareStmt)
    (condition : Reads legend tokens shown) (reads : ReadsBody legend more body)
    (frames : List Frame) :
    Reader.run legend ⟨.ignore 1 .expression, .guard build :: frames⟩
        (parenthesized tokens ++ Token.mark '\x7b' :: more ++ [Token.mark '\x7d']) =
      finish (build shown body) frames := by
  obtain ⟨item, rfl, runs⟩ := condition.runs
  have opened : Reader.run legend ⟨.rest item, .guard build :: frames⟩
      [Token.mark ')', .mark '\x7b'] =
        ⟨.statement, .body [] :: .owner (build (item.value legend)) :: frames⟩ := rfl
  have parts : parenthesized tokens ++ Token.mark '\x7b' :: more ++ [Token.mark '\x7d'] =
      Token.mark '(' :: tokens ++
        ([Token.mark ')', .mark '\x7b'] ++ (more ++ [Token.mark '\x7d'])) := by
    simp only [parenthesized, List.cons_append, List.append_assoc, List.nil_append]
  have ignored : Reader.step legend ⟨.ignore 1 .expression, .guard build :: frames⟩ (.mark '(') =
      ⟨.expression, .guard build :: frames⟩ := rfl
  rw [parts, List.cons_append, run_cons, ignored, run_append, runs, run_append, opened,
    reads.run_braced]

theorem readsBody_loop (condition : Reads legend tokens shown)
    (reads : ReadsBody legend more body) :
    ReadsBody legend (Token.ofString "while" :: parenthesized tokens ++ braced more)
      [.loop shown body] := by
  intro read frames
  have opened : Reader.step legend ⟨.statement, .body read :: frames⟩ (.ofString "while") =
      ⟨.ignore 1 .expression, .guard .loop :: .body read :: frames⟩ := rfl
  have parts : Token.ofString "while" :: parenthesized tokens ++ braced more =
      Token.ofString "while" ::
        (parenthesized tokens ++ Token.mark '\x7b' :: more ++ [Token.mark '\x7d']) := by
    simp only [braced, List.cons_append, List.append_assoc]
  rw [parts, run_cons, opened, run_guard .loop condition reads]
  rfl

/-! ## Conditionals -/

/-- Some conditionals, each chained to the next, in a body. -/
inductive Linked : List Frame → Prop
  | body (read : List BareStmt) (frames : List Frame) : Linked (.body read :: frames)
  | chain {frames : List Frame} (condition : BareExpr) (consequent : List BareStmt)
    (linked : Linked frames) : Linked (.chain condition consequent :: frames)

/-- After its end a conditional is opened again where it has been read. -/
theorem reopenLast_finish (linked : Linked frames) (statement : BareStmt) :
    reopenLast (finish statement frames).frames = reopen statement frames := by
  induction linked generalizing statement with
  | body read frames => simp [finish, reopenLast]
  | chain condition consequent linked ih => rw [finish, ih, reopen]

theorem focus_finish (linked : Linked frames) (statement : BareStmt) :
    (finish statement frames).focus = .statement := by
  induction linked generalizing statement with
  | body read frames => rfl
  | chain condition consequent linked ih => rw [finish, ih]

/-- The other branch of a conditional follows it. -/
theorem step_else (linked : Linked frames) (condition : BareExpr) (consequent : List BareStmt) :
    Reader.step legend (finish (branchOnly condition consequent) frames) (.ofString "else") =
      ⟨.otherwise condition consequent, frames⟩ := by
  have reopened := reopenLast_finish linked (branchOnly condition consequent)
  rw [Reader.step, focus_finish linked]
  exact reopened

/-- Some tokens are read as what follows the keyword of a conditional. -/
def ReadsTail (legend : Legend) (tokens : List Token) (statement : BareStmt) : Prop :=
  ∀ frames, Linked frames →
    Reader.run legend ⟨.ignore 1 .expression, .guard branchOnly :: frames⟩ tokens =
      finish statement frames

variable {last : List Token} {chained : BareStmt}

theorem readsTail_only (condition : Reads legend tokens shown)
    (reads : ReadsBody legend more body) :
    ReadsTail legend (parenthesized tokens ++ Token.mark '\x7b' :: more ++ [Token.mark '\x7d'])
      (.branch shown body []) :=
  fun frames _ => run_guard branchOnly condition reads frames

theorem readsTail_else (condition : Reads legend tokens shown) (reads : ReadsBody legend more body)
    (alternative : ReadsBody legend last others) :
    ReadsTail legend (parenthesized tokens ++ Token.mark '\x7b' :: more ++
      Token.mark '\x7d' :: Token.ofString "else" :: braced last) (.branch shown body others) := by
  intro frames linked
  have opened : Reader.step legend ⟨.otherwise shown body, frames⟩ (.mark '\x7b') =
      ⟨.statement, .body [] :: .owner (.branch shown body) :: frames⟩ := rfl
  rw [List.append_cons, run_append, run_guard branchOnly condition reads, run_cons,
    step_else linked, braced, List.cons_append, run_cons, opened, alternative.run_braced]

theorem readsTail_chain (condition : Reads legend tokens shown) (reads : ReadsBody legend more body)
    (tail : ReadsTail legend last chained) :
    ReadsTail legend (parenthesized tokens ++ Token.mark '\x7b' :: more ++
      Token.mark '\x7d' :: Token.ofString "else" :: Token.ofString "if" :: last)
      (.branch shown body [chained]) := by
  intro frames linked
  have opened : Reader.step legend ⟨.otherwise shown body, frames⟩ (.ofString "if") =
      ⟨.ignore 1 .expression, .guard branchOnly :: .chain shown body :: frames⟩ := rfl
  rw [List.append_cons, run_append, run_guard branchOnly condition reads, run_cons,
    step_else linked, run_cons, opened, tail _ (.chain shown body linked), finish]

theorem ReadsTail.readsBody (tail : ReadsTail legend tokens chained) :
    ReadsBody legend (Token.ofString "if" :: tokens) [chained] :=
  fun read frames => tail (.body read :: frames) (.body read frames)

end

/-! ## Expressions and statements -/

/-- The reader knows which of some owners are functions. -/
def Legend.Fits (legend : Legend) (table : Nat → String) (uses : List Owner) : Prop :=
  ∀ owner ∈ uses, legend.isFunction (table owner.id) = owner.isFunction

section

variable {legend : Legend} {table : Nat → String} {uses others : List Owner} {owner : Owner}

@[simp]
theorem fits_nil : legend.Fits table [] := by simp [Legend.Fits]

@[simp]
theorem fits_append : legend.Fits table (uses ++ others) ↔
    legend.Fits table uses ∧ legend.Fits table others :=
  List.forall_mem_append

@[simp]
theorem fits_cons : legend.Fits table (owner :: uses) ↔
    legend.isFunction (table owner.id) = owner.isFunction ∧ legend.Fits table uses :=
  List.forall_mem_cons

/-- A name is read as what it is a name of. -/
theorem reads_owner (marked : Marked table)
    (fits : legend.isFunction (table owner.id) = owner.isFunction) :
    Reads legend [nameToken table owner.id] (bareOwner table owner) := by
  have known : legend.named (table owner.id) = bareOwner table owner := by
    rw [Legend.named, fits]
    cases owner <;> rfl
  exact known ▸ reads_name (marked owner.id)

/-- A statement is read from its tokens; a conditional also where it is chained to another. -/
def ReadsStmt (legend : Legend) (table : Nat → String) : Stmt → Prop
  | .branch position condition consequent alternative =>
    ∃ tail, ReadsTail legend tail (.branch (bareExpr table condition) (bareBody table consequent)
        (bareBody table alternative)) ∧
      ∀ opening, tokensOfStmt table opening (.branch position condition consequent alternative) =
        opening.tokens ++ tail
  | statement => ReadsBody legend (tokensOfStmt table .fresh statement) (bareStmt table statement)

theorem ReadsStmt.body {statement : Stmt} (reads : ReadsStmt legend table statement) :
    ReadsBody legend (tokensOfStmt table .fresh statement) (bareStmt table statement) := by
  cases statement with
  | branch position condition consequent alternative =>
    obtain ⟨tail, reads, tokens⟩ := reads
    rw [tokens]
    exact reads.readsBody
  | _ => exact reads

/-- A conditional is read with the one that is chained to it, if there is one. -/
theorem reads_branch {position : Position} {condition : Expr} {consequent alternative : List Stmt}
    (first : Reads legend (tokensOfExpr table condition) (bareExpr table condition))
    (body : ReadsBody legend (tokensOfBody table consequent) (bareBody table consequent))
    (each : ∀ statement ∈ alternative, ReadsStmt legend table statement)
    (others : ReadsBody legend (tokensOfBody table alternative) (bareBody table alternative)) :
    ReadsStmt legend table (.branch position condition consequent alternative) := by
  cases alternative with
  | nil => exact ⟨_, readsTail_only first body, fun _ => by simp [tokensOfStmt]⟩
  | cons only rest =>
    cases rest with
    | nil =>
      cases only with
      | branch inside second third fourth =>
        obtain ⟨tail, reads, tokens⟩ := each _ List.mem_cons_self
        have chained : bareBody table [.branch inside second third fourth] =
            [.branch (bareExpr table second) (bareBody table third) (bareBody table fourth)] := by
          simp [bareBody, bareStmt]
        have whole := readsTail_chain first body reads
        rw [← chained] at whole
        refine ⟨_, whole, fun opening => ?_⟩
        rw [tokensOfStmt, tokens .chained]
        simp [Opening.tokens]
      | _ =>
        exact ⟨_, readsTail_else first body others, fun _ => by simp [tokensOfStmt, tokensOfBody]⟩
    | cons second more =>
      exact ⟨_, readsTail_else first body others, fun _ => by simp [tokensOfStmt]⟩

mutual

/-- An expression is read from its tokens. -/
theorem reads_expr (sized : legend.Sized) (marked : Marked table) : (expression : Expr) →
    legend.Fits table expression.uses →
      Reads legend (tokensOfExpr table expression) (bareExpr table expression)
  | .number _ value, _ => reads_number sized value
  | .bool _ value, _ => reads_bool value
  | .string _ value, _ => reads_text value
  | .glyph _ value, _ => by
    have letters : (String.singleton value).toList.flatMap escapeChar = escapeChar value := by simp
    have reads : Reads legend _ _ := reads_text (String.singleton value)
    rw [letters] at reads
    exact reads
  | .codepoint _ value, _ => reads_numeral sized (.int value)
  | .null _, _ => reads_null
  | .typeOf _ described, _ => reads_text described.name
  | .reference use, fits => reads_owner marked (fits (.value use.target) List.mem_cons_self)
  | .function _ target, fits => reads_owner marked (fits (.function target) List.mem_cons_self)
  | .binary _ operator left right, fits => by
    simp only [Expr.uses, fits_append] at fits
    exact (reads_expr sized marked left fits.1).binary operator
      (reads_expr sized marked right fits.2)
  | .unary _ operator operand, fits => (reads_expr sized marked operand fits).unary operator
  | .addressOf _ operand, _ => reads_addressOf (table operand.target.id)
  | .dereference _ operand, fits => (reads_expr sized marked operand fits).dereference
  | .call _ callee arguments, fits => by
    simp only [Expr.uses, fits_cons] at fits
    exact (reads_owner marked fits.1).call (reads_each sized marked arguments fits.2)
  | .subscript _ base index, fits => by
    simp only [Expr.uses, fits_append] at fits
    exact (reads_expr sized marked base fits.1).subscript (reads_expr sized marked index fits.2)
  | .array _ elements, fits => reads_array (reads_each sized marked elements fits)
  | .conjure _ body, fits => reads_conjure (reads_body sized marked body fits)
  | .apply _ mapping items, fits => by
    simp only [Expr.uses, fits_append] at fits
    exact (reads_expr sized marked items fits.1).apply (reads_expr sized marked mapping fits.2)
  | .supplant _ text pattern replacement, fits => by
    simp only [Expr.uses, fits_append] at fits
    exact (reads_expr sized marked text fits.1.1).supplant
      (reads_expr sized marked pattern fits.1.2) (reads_expr sized marked replacement fits.2)

theorem reads_each (sized : legend.Sized) (marked : Marked table) : (expressions : List Expr) →
    legend.Fits table (usesOfExprs expressions) →
      List.Forall₂ (Reads legend) (tokensOfEach table expressions) (bareEach table expressions)
  | [], _ => .nil
  | expression :: rest, fits => by
    simp only [usesOfExprs, fits_append] at fits
    exact .cons (reads_expr sized marked expression fits.1) (reads_each sized marked rest fits.2)

/-- A statement is read from its tokens. -/
theorem reads_stmt (sized : legend.Sized) (marked : Marked table) : (statement : Stmt) →
    legend.Fits table statement.uses → ReadsStmt legend table statement
  | .declare _ target value, fits => by
    simp only [Stmt.uses, fits_cons] at fits
    exact readsBody_declare target.mutable _ (reads_expr sized marked value fits.2)
  | .function _ target body, fits => by
    simp only [Stmt.uses, fits_cons, fits_append] at fits
    have reads := readsBody_function (table target.id) (target.parameters.map fun parameter =>
      table parameter.id) (reads_body sized marked body fits.2.2)
    rw [List.map_map] at reads
    exact reads
  | .main _ body, fits => reads_body sized marked body fits
  | .affix _ _, _ => readsBody_nil
  | .assign _ target value, fits => by
    simp only [Stmt.uses, fits_cons] at fits
    exact readsBody_assign (marked target.id) (reads_expr sized marked value fits.2)
  | .step _ step target, _ => by
    cases step with
    | up => exact readsBody_step (marked target.id) .up
    | down => exact readsBody_step (marked target.id) .down
  | .branch _ condition consequent alternative, fits => by
    simp only [Stmt.uses, fits_append] at fits
    exact reads_branch (reads_expr sized marked condition fits.1.1)
      (reads_body sized marked consequent fits.1.2) (reads_eachStmt sized marked alternative fits.2)
      (reads_body sized marked alternative fits.2)
  | .loop _ condition body, fits => by
    simp only [Stmt.uses, fits_append] at fits
    exact readsBody_loop (reads_expr sized marked condition fits.1)
      (reads_body sized marked body fits.2)
  | .breakLoop _, _ => readsBody_leave
  | .returnValue _ value, fits => readsBody_returnValue (reads_expr sized marked value fits)
  | .returnVoid _, _ => readsBody_returnVoid
  | .exscribe _ value, fits => readsBody_exscribe (reads_expr sized marked value fits)
  | .evaluate _ expression, fits => readsBody_evaluate (reads_expr sized marked expression fits)
  | .block _ body, fits => readsBody_block (reads_body sized marked body fits)

theorem reads_eachStmt (sized : legend.Sized) (marked : Marked table) : (body : List Stmt) →
    legend.Fits table (usesOfBody body) → ∀ statement ∈ body, ReadsStmt legend table statement
  | [], _ => by simp
  | statement :: rest, fits => by
    simp only [usesOfBody, fits_append] at fits
    exact List.forall_mem_cons.mpr
      ⟨reads_stmt sized marked statement fits.1, reads_eachStmt sized marked rest fits.2⟩

theorem reads_body (sized : legend.Sized) (marked : Marked table) : (body : List Stmt) →
    legend.Fits table (usesOfBody body) →
      ReadsBody legend (tokensOfBody table body) (bareBody table body)
  | [], _ => readsBody_nil
  | statement :: rest, fits => by
    simp only [usesOfBody, fits_append] at fits
    exact (reads_stmt sized marked statement fits.1).body.append
      (reads_body sized marked rest fits.2)

end

end

end JavaScript

end GlyphCompiler
