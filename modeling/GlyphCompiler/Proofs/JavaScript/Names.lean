/-
# Names of written programs

Names are numbered in the order in which their owners are first written, over all programs
that one emitter writes. The number can be read back from the name, so no two owners share
a name, whatever they are called in their programs; and the underscore before it keeps a
name apart from every reserved word, and from every word that the emitter writes by itself.
-/

import GlyphCompiler.Proofs.JavaScript.Writing
import GlyphCompiler.Proofs.Optimizer.Typing
import GlyphCompiler.Proofs.Parser.Names

namespace GlyphCompiler

namespace JavaScript

/-! ## Numbered names -/

/-- The name of an owner with a number. -/
def numberedName (owner : Owner) (number : Nat) : String :=
  owner.name ++ "_" ++ toString number

theorem toList_numberedName (owner : Owner) (number : Nat) :
    (numberedName owner number).toList = owner.name.toList ++ '_' :: Nat.toDigits 10 number := by
  have mark : "_".toList = ['_'] := by decide
  simp [numberedName, mark]

theorem mark_not_mem_toDigits (number : Nat) : '_' ∉ Nat.toDigits 10 number := by
  intro member
  have digit := Nat.isDigit_of_mem_toDigits (by decide) (by decide) member
  exact absurd digit (by decide)

/-- What stands after the last mark of a text can be read back. -/
theorem append_mark_inj {first second left right : List Char} (noneFirst : '_' ∉ left)
    (noneSecond : '_' ∉ right) (same : first ++ '_' :: left = second ++ '_' :: right) :
    left = right := by
  have reversed := congrArg (fun text => (text.reverse.takeWhile (· ≠ '_')).reverse) same
  have read (text digits : List Char) (none : '_' ∉ digits) :
      ((text ++ '_' :: digits).reverse.takeWhile (· ≠ '_')).reverse = digits := by
    have apart : ∀ character ∈ digits.reverse, decide (character ≠ '_') = true := by
      intro character member
      simp only [ne_eq, decide_not, Bool.not_eq_eq_eq_not, Bool.not_true, decide_eq_false_iff_not]
      rintro rfl
      exact none (List.mem_reverse.mp member)
    rw [List.reverse_append, List.reverse_cons, List.append_assoc, List.takeWhile_append_of_pos apart]
    simp
  simpa only [read first left noneFirst, read second right noneSecond] using reversed

/-- The number of a name can be read back. -/
theorem numberedName_inj {first second : Owner} {number other : Nat}
    (same : numberedName first number = numberedName second other) : number = other := by
  have texts := congrArg String.toList same
  rw [toList_numberedName, toList_numberedName] at texts
  have digits := append_mark_inj (mark_not_mem_toDigits number) (mark_not_mem_toDigits other) texts
  rw [← @Nat.ofDigitChars_ten_toDigits number, digits, Nat.ofDigitChars_ten_toDigits]

/-! ## Names in the order in which they are given -/

namespace Names

/-- The names that some owners get one after another, the first with the number one. -/
structure Lists (names : Names) (owners : List Owner) : Prop where
  length : names.given.length = owners.length
  named : ∀ index owner, owners[index]? = some owner →
    names.name? owner.id = some (numberedName owner (index + 1))
  owned : ∀ id, (names.name? id).isSome → ∃ owner ∈ owners, owner.id = id

theorem lists_none : none.Lists [] where
  length := rfl
  named := by simp
  owned := by simp [name?, none]

variable {names : Names} {owners uses : List Owner} {owner : Owner}

/-- What has a name keeps it. -/
theorem Lists.give_of_mem (lists : names.Lists owners) (member : owner ∈ owners) :
    names.give owner = names := by
  obtain ⟨index, found⟩ := List.mem_iff_getElem?.mp member
  rw [give, lists.named index owner found]
  rfl

/-- A new owner gets the next number. -/
theorem Lists.give_of_new (lists : names.Lists owners)
    (new : ∀ other ∈ owners, other.id ≠ owner.id) : (names.give owner).Lists (owners ++ [owner]) := by
  have unnamed : (names.name? owner.id).isSome = false := by
    rw [Bool.eq_false_iff]
    intro isNamed
    obtain ⟨other, listed, same⟩ := lists.owned _ isNamed
    exact new other listed same
  have given : names.give owner = ⟨(owner.id, numberedName owner (owners.length + 1)) :: names.given⟩ := by
    rw [give, unnamed, fresh, lists.length]
    rfl
  rw [given]
  have lookup (id : Nat) : name? ⟨(owner.id, numberedName owner (owners.length + 1)) :: names.given⟩ id =
      if id = owner.id then some (numberedName owner (owners.length + 1)) else names.name? id := by
    simp only [name?, List.lookup_cons]
    split <;> simp_all
  refine ⟨by simp [lists.length], fun index other found => ?_, fun id isNamed => ?_⟩
  · rw [List.getElem?_append] at found
    rw [lookup]
    split at found
    · rw [if_neg (new other (List.mem_of_getElem? found)), lists.named index other found]
    · simp only [List.getElem?_singleton, Option.ite_none_right_eq_some, Option.some.injEq] at found
      obtain ⟨last, rfl⟩ := found
      rw [if_pos rfl]
      congr
      omega
  · rw [lookup] at isNamed
    split at isNamed
    · next same => exact ⟨owner, by simp, same.symm⟩
    · obtain ⟨other, listed, same⟩ := lists.owned id isNamed
      exact ⟨other, List.mem_append_left _ listed, same⟩

/-- Owners that numbers tell apart are named in the order in which they are first used. -/
theorem lists_giveAll (distinct : ∀ first ∈ uses, ∀ second ∈ uses, first.id = second.id → first = second) :
    (none.giveAll uses).Lists uses.eraseDups := by
  induction uses using List.reverseRecOn with
  | nil => exact lists_none
  | append_singleton uses owner ih =>
    have lists := ih fun first isFirst second isSecond =>
      distinct first (List.mem_append_left _ isFirst) second (List.mem_append_left _ isSecond)
    rw [giveAll_append, giveAll_cons, giveAll_nil, List.eraseDups_append]
    by_cases member : owner ∈ uses
    · have nothing : [owner].removeAll uses = [] := by simp [List.removeAll, member]
      rw [nothing, List.eraseDups_nil, List.append_nil,
        lists.give_of_mem (List.mem_eraseDups.mpr member)]
      exact lists
    · have one : ([owner].removeAll uses).eraseDups = [owner] := by
        simp [List.removeAll, member, List.eraseDups_cons]
      rw [one]
      refine lists.give_of_new fun other listed same => ?_
      have isUse := List.mem_eraseDups.mp listed
      rw [distinct other (List.mem_append_left _ isUse) owner (by simp) same] at isUse
      exact member isUse

/-- The name of an owner, by its place among those that are used. -/
theorem Lists.table_eq (lists : names.Lists owners) {index : Nat} (found : owners[index]? = some owner) :
    names.table owner.id = numberedName owner (index + 1) := by
  rw [table, lists.named index owner found, Option.getD_some]

/-- The name of an owner is the name of nothing else. -/
theorem Lists.id_eq (lists : names.Lists owners) (member : owner ∈ owners) {id : Nat}
    (same : names.table id = names.table owner.id) : id = owner.id := by
  obtain ⟨index, found⟩ := List.mem_iff_getElem?.mp member
  rw [lists.table_eq found] at same
  cases named : names.name? id with
  | none =>
    have letters := congrArg (List.length ∘ String.toList) same
    have digits : 0 < (Nat.toDigits 10 (index + 1)).length := Nat.length_toDigits_pos
    have one : "_".toList.length = 1 := by decide
    rw [table, named, Option.getD_none, Function.comp, Function.comp, toList_numberedName,
      List.length_append, List.length_cons, one] at letters
    omega
  | some name =>
    obtain ⟨other, listed, rfl⟩ := lists.owned id (by rw [named]; rfl)
    obtain ⟨index', found'⟩ := List.mem_iff_getElem?.mp listed
    rw [lists.table_eq found'] at same
    obtain rfl : index' = index := Nat.succ.inj (numberedName_inj same)
    rw [Option.some.inj (found'.symm.trans found)]

/-- Every name has a mark, and so has what stands for no name. -/
theorem Lists.mark_mem_table (lists : names.Lists owners) (id : Nat) : '_' ∈ (names.table id).toList := by
  cases named : names.name? id with
  | none => simp [table, named]
  | some name =>
    obtain ⟨owner, member, rfl⟩ := lists.owned id (by rw [named]; rfl)
    obtain ⟨index, found⟩ := List.mem_iff_getElem?.mp member
    rw [lists.table_eq found, toList_numberedName]
    simp

end Names

/-! ## Names in a text -/

/-- The name that a token is, if it is one: a word with a mark. -/
def Token.name? : Token → Option String
  | .word letters => if '_' ∈ letters then some (String.ofList letters) else none
  | .text _ | .mark _ => none

/-- The names among some tokens. -/
def namesAmong (tokens : List Token) : List String :=
  tokens.filterMap Token.name?

/-- The names that are written in a text, in order. -/
def namesIn (text : String) : List String :=
  namesAmong (lex text.toList)

@[simp]
theorem namesAmong_append (first second : List Token) :
    namesAmong (first ++ second) = namesAmong first ++ namesAmong second :=
  List.filterMap_append

@[simp]
theorem namesAmong_mark (character : Char) (tokens : List Token) :
    namesAmong (.mark character :: tokens) = namesAmong tokens := rfl

@[simp]
theorem namesAmong_text (content : List Char) (tokens : List Token) :
    namesAmong (.text content :: tokens) = namesAmong tokens := rfl

@[simp]
theorem namesAmong_nil : namesAmong [] = [] := rfl

theorem namesAmong_word {letters : List Char} (plain : '_' ∉ letters) (tokens : List Token) :
    namesAmong (.word letters :: tokens) = namesAmong tokens := by
  rw [namesAmong, List.filterMap_cons, Token.name?, if_neg plain]
  rfl

theorem namesAmong_marks (characters : List Char) : namesAmong (characters.map .mark) = [] := by
  induction characters with
  | nil => rfl
  | cons character characters ih => exact ih

theorem mark_not_mem_of_digits {characters : List Char}
    (digits : ∀ character ∈ characters, character.isDigit = true) : '_' ∉ characters := by
  intro member
  exact absurd (digits _ member) (by decide)

/-- A numeral has no names. -/
theorem namesAmong_numeral (value : Number) : namesAmong (Numeral.ofNumber value).tokens = [] := by
  obtain proper | unbounded := Numeral.proper_ofNumber value
  · have whole := mark_not_mem_of_digits proper.whole
    have fraction := mark_not_mem_of_digits proper.fraction
    have marker : '_' ∉ (Numeral.ofNumber value).marker := by
      unfold Numeral.marker
      split <;> decide
    have exponent := proper.exponent
    unfold Numeral.tokens
    rw [namesAmong_append]
    have mantissa : namesAmong (if (Numeral.ofNumber value).fraction.isEmpty then
          [Token.word ((Numeral.ofNumber value).whole ++ (Numeral.ofNumber value).marker)]
        else [.word (Numeral.ofNumber value).whole, .mark '.',
          .word ((Numeral.ofNumber value).fraction ++ (Numeral.ofNumber value).marker)]) = [] := by
      split
      · rw [namesAmong_word (by simp [whole, marker]), namesAmong_nil]
      · rw [namesAmong_word whole, namesAmong_mark, namesAmong_word (by simp [fraction, marker]),
          namesAmong_nil]
    rw [mantissa]
    cases known : (Numeral.ofNumber value).exponent with
    | none => rfl
    | some pair =>
      obtain ⟨-, -, digits⟩ := exponent pair known
      exact namesAmong_word (mark_not_mem_of_digits digits) []
  · rw [Numeral.unbounded, List.mem_cons, List.mem_singleton] at unbounded
    obtain same | same := unbounded <;> rw [same] <;> rfl

@[simp]
theorem namesAmong_numberTokens (value : Number) : namesAmong (numberTokens value) = [] := by
  unfold numberTokens parenthesized
  split <;> simp [namesAmong_numeral]

theorem namesAmong_ofString {word : String} (plain : '_' ∉ word.toList) (tokens : List Token) :
    namesAmong (.ofString word :: tokens) = namesAmong tokens :=
  namesAmong_word plain tokens

@[simp]
theorem namesAmong_parenthesized (tokens : List Token) :
    namesAmong (parenthesized tokens) = namesAmong tokens := by
  simp [parenthesized]

@[simp]
theorem namesAmong_braced (tokens : List Token) : namesAmong (braced tokens) = namesAmong tokens := by
  simp [braced]

@[simp]
theorem namesAmong_separated (parts : List (List Token)) :
    namesAmong (separated parts) = parts.flatMap namesAmong := by
  unfold separated
  induction parts with
  | nil => rfl
  | cons part parts ih =>
    cases parts with
    | nil => simp
    | cons second others =>
      rw [List.intercalate_cons_cons, namesAmong_append, namesAmong_append, ih]
      simp

theorem namesAmong_opening (opening : Opening) : namesAmong opening.tokens = [] := by
  cases opening <;> rfl

section

variable {table : Nat → String}

/-- The name of an owner, by a table. -/
def nameBy (table : Nat → String) (owner : Owner) : String := table owner.id

/-- Every name of a table has a mark. -/
def Marked (table : Nat → String) : Prop :=
  ∀ id, '_' ∈ (table id).toList

theorem namesAmong_name (marked : Marked table) (id : Nat) (tokens : List Token) :
    namesAmong (nameToken table id :: tokens) = table id :: namesAmong tokens := by
  rw [namesAmong, List.filterMap_cons, nameToken, Token.ofString, Token.name?, if_pos (marked id),
    String.ofList_toList]
  rfl

mutual

/-- The names in the tokens of an expression are those of what it names, in order. -/
theorem namesAmong_expr (marked : Marked table) : (expression : Expr) →
    namesAmong (tokensOfExpr table expression) = expression.uses.map (nameBy table)
  | .number _ value => namesAmong_numberTokens value
  | .bool _ value => by cases value <;> exact namesAmong_ofString (by decide) []
  | .string _ _ | .glyph _ _ | .typeOf _ _ => rfl
  | .codepoint _ value => namesAmong_numeral (.int value)
  | .null _ => namesAmong_ofString (by decide) []
  | .reference use => namesAmong_name marked use.target.id []
  | .function _ target => namesAmong_name marked target.id []
  | .binary _ operator left right => by
    simp [tokensOfExpr, Expr.uses, namesAmong_marks, namesAmong_expr marked left,
      namesAmong_expr marked right]
  | .unary _ operator operand => by
    simp [tokensOfExpr, Expr.uses, namesAmong_marks, namesAmong_expr marked operand]
  | .addressOf _ operand => by
    have word : '_' ∉ "value".toList := by decide
    simp [tokensOfExpr, Expr.uses, arrow, namesAmong_ofString word, namesAmong_name marked, nameBy]
  | .dereference _ operand => by
    have word : '_' ∉ "value".toList := by decide
    simp [tokensOfExpr, Expr.uses, namesAmong_ofString word, namesAmong_expr marked operand]
  | .call _ callee arguments => by
    simp [tokensOfExpr, Expr.uses, calleeToken, namesAmong_name marked, nameBy,
      namesAmong_each marked arguments]
  | .subscript _ base index => by
    simp [tokensOfExpr, Expr.uses, namesAmong_expr marked base, namesAmong_expr marked index]
  | .array _ elements => by
    simp [tokensOfExpr, Expr.uses, namesAmong_each marked elements]
  | .conjure _ body => by
    simp [tokensOfExpr, Expr.uses, arrow, namesAmong_body marked body]
  | .apply _ mapping items => by
    have word : '_' ∉ "map".toList := by decide
    simp [tokensOfExpr, Expr.uses, namesAmong_ofString word, namesAmong_expr marked mapping,
      namesAmong_expr marked items]
  | .supplant _ text pattern replacement => by
    have word : '_' ∉ "replaceAll".toList := by decide
    simp [tokensOfExpr, Expr.uses, namesAmong_ofString word, namesAmong_expr marked text,
      namesAmong_expr marked pattern, namesAmong_expr marked replacement]

theorem namesAmong_each (marked : Marked table) : (expressions : List Expr) →
    (tokensOfEach table expressions).flatMap namesAmong =
      (usesOfExprs expressions).map (nameBy table)
  | [] => rfl
  | expression :: rest => by
    simp [tokensOfEach, usesOfExprs, namesAmong_expr marked expression, namesAmong_each marked rest]

/-- The names in the tokens of a statement are those of what it names, in order. -/
theorem namesAmong_stmt (marked : Marked table) (opening : Opening) : (statement : Stmt) →
    namesAmong (tokensOfStmt table opening statement) = statement.uses.map (nameBy table)
  | .declare _ target value => by
    have word : '_' ∉ (if target.mutable then "let" else "const").toList := by
      cases target.mutable <;> decide
    simp [tokensOfStmt, Stmt.uses, namesAmong_ofString word, namesAmong_name marked, nameBy,
      namesAmong_expr marked value]
  | .function _ target body => by
    have word : '_' ∉ "function".toList := by decide
    have parameters : (target.parameters.map fun parameter => [nameToken table parameter.id]).flatMap
        namesAmong = (target.parameters.map Owner.value).map (nameBy table) := by
      simp only [List.flatMap_map, List.map_map, namesAmong_name marked, namesAmong_nil]
      exact List.map_eq_flatMap.symm
    simp only [tokensOfStmt, Stmt.uses, namesAmong_ofString word, namesAmong_name marked,
      List.cons_append, namesAmong_append, namesAmong_parenthesized, namesAmong_separated,
      namesAmong_braced, namesAmong_body marked body, parameters, List.map_cons, List.map_append]
    rfl
  | .main _ body => namesAmong_body marked body
  | .affix _ _ => rfl
  | .assign _ target value => by
    simp [tokensOfStmt, Stmt.uses, namesAmong_name marked, nameBy, namesAmong_expr marked value]
  | .step _ .up target | .step _ .down target => by
    simp [tokensOfStmt, Stmt.uses, namesAmong_name marked, nameBy]
  | .branch _ condition consequent [] => by
    simp [tokensOfStmt, Stmt.uses, usesOfBody, namesAmong_opening, namesAmong_expr marked condition,
      namesAmong_body marked consequent]
  | .branch _ condition consequent [only] => by
    have word : '_' ∉ "else".toList := by decide
    have chained := namesAmong_stmt marked .chained only
    have alone := namesAmong_stmt marked .fresh only
    simp only [tokensOfStmt, Stmt.uses, usesOfBody, namesAmong_append, namesAmong_opening,
      namesAmong_parenthesized, namesAmong_mark, namesAmong_expr marked condition,
      namesAmong_body marked consequent, List.map_append, List.nil_append, List.append_nil,
      List.append_assoc, List.append_cancel_left_eq]
    split
    · exact chained
    · rw [namesAmong_mark, namesAmong_ofString word, namesAmong_braced, alone]
  | .branch _ condition consequent (first :: second :: rest) => by
    have word : '_' ∉ "else".toList := by decide
    have several := namesAmong_body marked (first :: second :: rest)
    simp [tokensOfStmt, Stmt.uses, namesAmong_opening, namesAmong_expr marked condition,
      namesAmong_body marked consequent, namesAmong_ofString word, several]
  | .loop _ condition body => by
    have word : '_' ∉ "while".toList := by decide
    simp [tokensOfStmt, Stmt.uses, namesAmong_ofString word, namesAmong_expr marked condition,
      namesAmong_body marked body]
  | .breakLoop _ => namesAmong_ofString (by decide) _
  | .returnValue _ value => by
    have word : '_' ∉ "return".toList := by decide
    simp [tokensOfStmt, Stmt.uses, namesAmong_ofString word, namesAmong_expr marked value]
  | .returnVoid _ => namesAmong_ofString (by decide) _
  | .exscribe _ value => by
    have console : '_' ∉ "console".toList := by decide
    have log : '_' ∉ "log".toList := by decide
    simp [tokensOfStmt, Stmt.uses, namesAmong_ofString console, namesAmong_ofString log,
      namesAmong_expr marked value]
  | .evaluate _ expression => by
    simp [tokensOfStmt, Stmt.uses, namesAmong_expr marked expression]
  | .block _ body => by
    simp [tokensOfStmt, Stmt.uses, namesAmong_body marked body]

theorem namesAmong_body (marked : Marked table) : (body : List Stmt) →
    namesAmong (tokensOfBody table body) = (usesOfBody body).map (nameBy table)
  | [] => rfl
  | statement :: rest => by
    simp [tokensOfBody, usesOfBody, namesAmong_stmt marked .fresh statement,
      namesAmong_body marked rest]

end

end

/-! ## Programs that one emitter writes -/

/-- Programs that are written one after another are written under the names that are given
in the end. -/
theorem writes_each (programs : List Program) :
    Writes (programs.mapM emit) (programs.flatMap Program.uses)
      (∀ program ∈ programs, WritableProgram program) fun table texts => Worded table →
        List.Forall₂ (fun program text => lex text.toList = tokensOfBody table program.body)
          programs texts := by
  induction programs with
  | nil =>
    exact (Writes.pure fun _ _ => .nil).of_eq rfl (by simp) fun _ _ => id
  | cons program programs ih =>
    rw [List.mapM_cons]
    exact ((writes_emit program).bind fun text => ih.bind fun texts =>
      .pure fun table areRead isRead worded => .cons (isRead worded) (areRead worded)).of_eq
        (by simp) (by simp) fun _ _ => id

/-- Words that are reserved in JavaScript. -/
def reservedWords : List String :=
  ["arguments", "await", "break", "case", "catch", "class", "const", "continue", "debugger",
    "default", "delete", "do", "else", "enum", "eval", "export", "extends", "false", "finally",
    "for", "function", "if", "implements", "import", "in", "instanceof", "interface", "let", "new",
    "null", "package", "private", "protected", "public", "return", "static", "super", "switch",
    "this", "throw", "true", "try", "typeof", "var", "void", "while", "with", "yield"]

/-- The words that the emitter writes for what JavaScript has by itself. -/
def builtinWords : List String := ["console", "log", "map", "replaceAll", "value"]

/-- Is a text an identifier that a variable or function can have? -/
def isFreeIdentifier (text : String) : Bool :=
  isName text && !(reservedWords ++ builtinWords).contains text

theorem mark_not_mem_word : ∀ word ∈ reservedWords ++ builtinWords, '_' ∉ word.toList := by
  decide +kernel

theorem isName_numberedName {owner : Owner} (named : isName owner.name = true) (number : Nat) :
    isName (numberedName owner number) = true := by
  have digits := Numeral.all_isNamePart (Numeral.proper_ofNat number).whole
  simp only [isName, Bool.and_eq_true] at named ⊢
  rw [toList_numberedName, List.all_append, List.all_cons, named.2]
  refine ⟨?_, Bool.and_eq_true_iff.mpr ⟨rfl, Bool.and_eq_true_iff.mpr ⟨by decide, digits⟩⟩⟩
  cases letters : owner.name.toList with
  | nil => simp [letters] at named
  | cons first rest => simpa [letters] using named.1

/-- A numbered name is an identifier that nothing else has. -/
theorem isFreeIdentifier_numberedName {owner : Owner} (named : isName owner.name = true)
    (number : Nat) : isFreeIdentifier (numberedName owner number) = true := by
  rw [isFreeIdentifier, isName_numberedName named, Bool.true_and, Bool.not_eq_true',
    List.contains_eq_mem, decide_eq_false_iff_not]
  intro member
  refine mark_not_mem_word _ member ?_
  rw [toList_numberedName]
  simp

/-- The names that are given are words. -/
theorem worded_table {names : Names} {owners : List Owner} (lists : names.Lists owners)
    (named : ∀ owner ∈ owners, isName owner.name = true) : Worded names.table := by
  intro id
  cases given : names.name? id with
  | none =>
    rw [Names.table, given]
    decide
  | some name =>
    obtain ⟨owner, member, rfl⟩ := lists.owned id (by rw [given]; rfl)
    obtain ⟨index, found⟩ := List.mem_iff_getElem?.mp member
    have isName := isName_numberedName (named owner member) (index + 1)
    rw [GlyphCompiler.isName, Bool.and_eq_true] at isName
    rw [lists.table_eq found, isWord, isName.2, Bool.and_true, decide_eq_true_eq]
    intro empty
    simp [empty] at isName

end JavaScript

/-! ## Programs that share nothing -/

/-- Programs of accepted texts. Each analyzer numbers variables and functions on from where
the one before it stopped, so that the programs share none. -/
inductive AnalyzedFrom : Nat → List Program → Prop
  | nil (first : Nat) : AnalyzedFrom first []
  | cons {first next : Nat} {source : String} {program : Program} {programs : List Program}
      (accepted : analyzeFrom first source = .ok (program, next))
      (later : AnalyzedFrom next programs) : AnalyzedFrom first (program :: programs)

open Analysis (Numbered)

/-- What an accepted program declares has the name of its declaration. -/
theorem isName_of_mem_owners {source : String} {program : Program} {first next : Nat}
    (accepted : analyzeFrom first source = .ok (program, next)) :
    ∀ owner ∈ program.owners, isName owner.name = true := by
  obtain ⟨tree, surface, body, final, parsed, reads, analyzes, -, isBody⟩ :=
    Analysis.analyzesBody_of_analyzeFrom accepted
  intro owner member
  have declared : owner.name ∈ ownedNames (walkStmts program.body) := List.mem_map_of_mem member
  rw [isBody] at declared
  exact isName_of_parse parsed reads owner.name (analyzes.named declared)

/-- All that accepted programs declare is numbered differently. -/
theorem AnalyzedFrom.numbered {first : Nat} {programs : List Program}
    (analyzed : AnalyzedFrom first programs) :
    ∃ next, Numbered first next ((programs.flatMap Program.owners).map Owner.id) := by
  induction analyzed with
  | nil first => exact ⟨first, .nil le_rfl⟩
  | @cons first next source program programs accepted later ih =>
    obtain ⟨last, numbered⟩ := ih
    have here := (Analysis.scoped_of_analyzeFrom accepted).2
    rw [declaredAmong_eq] at here
    rw [List.flatMap_cons, List.map_append]
    exact ⟨last, here.append numbered⟩

theorem AnalyzedFrom.scoped {first : Nat} {programs : List Program}
    (analyzed : AnalyzedFrom first programs) : ∀ program ∈ programs, program.Scoped ∧
      ∀ owner ∈ program.owners, isName owner.name = true := by
  induction analyzed with
  | nil first => simp
  | @cons first next source program programs accepted later ih =>
    exact List.forall_mem_cons.mpr
      ⟨⟨(Analysis.scoped_of_analyzeFrom accepted).1, isName_of_mem_owners accepted⟩, ih⟩

/-- Programs come from others if each is one of them after any number of passes of the
optimizer. -/
def OptimizedFrom (originals programs : List Program) : Prop :=
  ∀ program ∈ programs, ∃ original ∈ originals, ∃ passes,
    optimizeTimes passes original = .ok program

/-- What programs from accepted ones name is declared by these. -/
theorem AnalyzedFrom.uses_subset {first : Nat} {originals programs : List Program}
    (analyzed : AnalyzedFrom first originals) (optimized : OptimizedFrom originals programs) :
    programs.flatMap Program.uses ⊆ originals.flatMap Program.owners := by
  intro owner member
  obtain ⟨program, listed, used⟩ := List.mem_flatMap.mp member
  obtain ⟨original, isOriginal, passes, completes⟩ := optimized program listed
  have isScoped := Optimizer.scoped_optimizeTimes (analyzed.scoped original isOriginal).1 completes
  have owned := (Optimizer.owners_optimizeTimes completes).subset (isScoped.uses_subset used)
  exact List.mem_flatMap.mpr ⟨original, isOriginal, owned⟩

open JavaScript

/-- Changing items one by one commutes with keeping first occurrences, if no two items become
the same. -/
theorem eraseDups_map {α β : Type} [BEq α] [LawfulBEq α] [BEq β] [LawfulBEq β] {change : α → β}
    {items : List α}
    (injective : ∀ first ∈ items, ∀ second ∈ items, change first = change second → first = second) :
    (items.map change).eraseDups = items.eraseDups.map change := by
  induction items using List.reverseRecOn with
  | nil => rfl
  | append_singleton items item ih =>
    have earlier := ih fun first isFirst second isSecond =>
      injective first (List.mem_append_left _ isFirst) second (List.mem_append_left _ isSecond)
    have known : change item ∈ items.map change ↔ item ∈ items := by
      refine ⟨fun member => ?_, List.mem_map_of_mem⟩
      obtain ⟨other, listed, same⟩ := List.mem_map.mp member
      exact injective other (List.mem_append_left _ listed) item (by simp) same ▸ listed
    rw [List.map_append, List.eraseDups_append, List.eraseDups_append, earlier, List.map_append]
    by_cases member : item ∈ items <;>
      simp [List.removeAll, known, member, List.eraseDups_cons]

theorem flatMap_eq_map_of_forall₂ {texts : List String} {programs : List Program}
    {name : Owner → String}
    (read : List.Forall₂ (fun program text => namesIn text = program.uses.map name) programs texts) :
    texts.flatMap namesIn = (programs.flatMap Program.uses).map name := by
  induction read with
  | nil => rfl
  | cons here _ ih => rw [List.flatMap_cons, List.flatMap_cons, here, ih, List.map_append]

/-- Names that one emitter gives never collide, over all programs from accepted texts that it
writes, optimized or not. Each of its texts shows the names of what the program names, in
order. No two owners share a name; a name is that of its owner in the program with a number,
and an identifier that nothing else has. The numbers count the names from one on, in the order
in which they first occur. -/
theorem names_of_emitted {originals programs : List Program} {first : Nat} {texts : List String}
    {names : Names} (analyzed : AnalyzedFrom first originals)
    (optimized : OptimizedFrom originals programs)
    (writes : (programs.mapM emit).run .none = .ok (texts, names)) :
    ∃ name : Nat → String,
      List.Forall₂ (fun program text => namesIn text = program.uses.map fun owner => name owner.id)
        programs texts ∧
      (∀ owner ∈ programs.flatMap Program.uses, ∀ other ∈ programs.flatMap Program.uses,
        name owner.id = name other.id → owner = other) ∧
      (∀ owner ∈ programs.flatMap Program.uses, isFreeIdentifier (name owner.id) = true ∧
        ∃ number : Nat, name owner.id = owner.name ++ "_" ++ toString number) ∧
      (texts.flatMap namesIn).eraseDups =
        (programs.flatMap Program.uses).eraseDups.mapIdx fun index owner =>
          owner.name ++ "_" ++ toString (index + 1) := by
  have owned := analyzed.uses_subset optimized
  obtain ⟨next, numbered⟩ := analyzed.numbered
  have distinct : ∀ owner ∈ programs.flatMap Program.uses,
      ∀ other ∈ programs.flatMap Program.uses, owner.id = other.id → owner = other :=
    fun owner used other usedToo same =>
      Owner.eq_of_id_eq numbered.distinct (owned used) (owned usedToo) same
  have named : ∀ owner ∈ programs.flatMap Program.uses, isName owner.name = true := by
    intro owner used
    obtain ⟨original, listed, declared⟩ := List.mem_flatMap.mp (owned used)
    exact (analyzed.scoped original listed).2 owner declared
  have lists := Names.lists_giveAll distinct
  -- The texts are written under the names that are given in the end.
  obtain ⟨readAs, rfl⟩ : List.Forall₂ (fun program text =>
      namesIn text = program.uses.map fun owner => names.table owner.id) programs texts ∧
      names = Names.none.giveAll (programs.flatMap Program.uses) := by
    obtain ⟨goesOn, fails⟩ := writes_each programs .none
    by_cases short : ∀ program ∈ programs, WritableProgram program
    · obtain ⟨results, runs, reads⟩ := goesOn short
      rw [writes] at runs
      cases runs
      have worded := worded_table lists fun owner member => named owner (List.mem_eraseDups.mp member)
      refine ⟨(reads _ (Names.agrees_table _) worded).imp fun program text same => ?_, rfl⟩
      rw [namesIn, same]
      exact namesAmong_body lists.mark_mem_table program.body
    · rw [fails short] at writes
      cases writes
  have place (owner : Owner) (used : owner ∈ programs.flatMap Program.uses) :
      ∃ index, (programs.flatMap Program.uses).eraseDups[index]? = some owner ∧
        (Names.none.giveAll (programs.flatMap Program.uses)).table owner.id =
          numberedName owner (index + 1) := by
    obtain ⟨index, found⟩ := List.mem_iff_getElem?.mp (List.mem_eraseDups.mpr used)
    exact ⟨index, found, lists.table_eq found⟩
  have injective : ∀ owner ∈ programs.flatMap Program.uses,
      ∀ other ∈ programs.flatMap Program.uses,
        (Names.none.giveAll (programs.flatMap Program.uses)).table owner.id =
          (Names.none.giveAll (programs.flatMap Program.uses)).table other.id → owner = other := by
    intro owner used other usedToo same
    exact distinct owner used other usedToo (lists.id_eq (List.mem_eraseDups.mpr usedToo) same)
  refine ⟨_, readAs, injective, fun owner used => ?_, ?_⟩
  · obtain ⟨index, -, isName⟩ := place owner used
    rw [isName]
    exact ⟨isFreeIdentifier_numberedName (named owner used) _, index + 1, rfl⟩
  · have all : texts.flatMap namesIn = (programs.flatMap Program.uses).map fun owner =>
        (Names.none.giveAll (programs.flatMap Program.uses)).table owner.id :=
      flatMap_eq_map_of_forall₂ readAs
    rw [all, eraseDups_map injective]
    refine List.ext_getElem? fun index => ?_
    rw [List.getElem?_map, List.getElem?_mapIdx]
    cases found : (programs.flatMap Program.uses).eraseDups[index]? with
    | none => rfl
    | some owner => exact congrArg some (lists.table_eq found)

/-- The program that passes a comparison, after the optimizer. -/
def comparedProgram : Program where
  position := ⟨1, 1⟩
  body :=
    let taker : Function := ⟨1, "f", [⟨0, "p", .optional .bool, true⟩], .void, true⟩
    [.function ⟨1, 1⟩ taker [],
      .evaluate ⟨2, 1⟩ (.call ⟨.void, ⟨2, 1⟩⟩
        (.function ⟨.function [.optional .bool] .void, ⟨2, 1⟩⟩ taker) [.bool ⟨.bool, ⟨2, 3⟩⟩ true])]

/-- What one emitter writes for the program after and before the optimizer. -/
theorem emit_comparedProgram :
    (([comparedProgram, comparingProgram].mapM emit).run .none).toOption.map Prod.fst =
      some ["function f_1(p_2) \x7b\n\x7d\nf_1(true);",
        "function f_1(p_2) \x7b\n\x7d\nf_1((1 < 2));"] := by
  decide +kernel

/-- The function and its parameter keep their names in the second text. -/
theorem names_of_emitted_comparedProgram :
    AnalyzedFrom 0 [comparingProgram] ∧
      OptimizedFrom [comparingProgram] [comparedProgram, comparingProgram] ∧
      ∃ texts names, ([comparedProgram, comparingProgram].mapM emit).run .none = .ok (texts, names) ∧
        (texts.flatMap namesIn).eraseDups = ["f_1", "p_2"] := by
  have analyzed : AnalyzedFrom 0 [comparingProgram] := by
    obtain ⟨next, accepted⟩ := Analysis.analyzeFrom_of_analyze analyze_comparingSource
    exact .cons accepted (.nil next)
  have optimized : OptimizedFrom [comparingProgram] [comparedProgram, comparingProgram] := by
    intro program member
    refine ⟨comparingProgram, List.mem_cons_self, ?_⟩
    obtain rfl | rfl : program = comparedProgram ∨ program = comparingProgram := by
      simpa using member
    · exact ⟨1, rfl⟩
    · exact ⟨0, rfl⟩
  obtain ⟨⟨texts, names⟩, found, -⟩ := Option.map_eq_some_iff.mp emit_comparedProgram
  have writes := eq_ok_of_toOption found
  obtain ⟨name, -, -, -, ordered⟩ := names_of_emitted analyzed optimized writes
  refine ⟨analyzed, optimized, texts, names, writes, ordered.trans ?_⟩
  decide +kernel

end GlyphCompiler
