/-
# Names of types are annotations

The name of a type is written in the syntax of annotations. Written in a
declaration, it is derived from the nonterminal of types along the structure of
the type, the tree of this derivation is resolved to the type itself, and the
text is read word by word as it was written. So no two types have one name.
-/

import GlyphCompiler.Analysis.Annotation
import GlyphCompiler.Proofs.Parser.Legible
import GlyphCompiler.Proofs.Parser.Precedence

namespace GlyphCompiler

namespace Ty

open Grammar (Derives derives_of_spells)
open Expression (unitRule derives_of_unitRule derives_token)
open Surface (TypeSyntax)
open Surface.Assemble (ofTree? ofTrees? ofNode?)

/-! ## The words of a name -/

/-- Is a type enclosed in parentheses under a question mark? -/
def isEnclosed : Ty → Bool
  | .pointer _ | .function _ _ => true
  | _ => false

mutual

/-- The words of the name of a type, the first of them after a space or not. -/
def words (spaced : Bool) : Ty → List Word
  | .primitive kind => [⟨spaced, .name, kind.name⟩]
  | .numeric kind => [⟨spaced, .name, kind.name⟩]
  | .array element =>
    ⟨spaced, .leftBracket, "["⟩ :: (words false element ++ [⟨false, .rightBracket, "]"⟩])
  | .pointer target => ⟨spaced, .star, "*"⟩ :: words false target
  | .optional inner =>
    if inner.isEnclosed then
      ⟨spaced, .leftParen, "("⟩ ::
        (words false inner ++ [⟨false, .rightParen, ")"⟩, ⟨false, .question, "?"⟩])
    else words spaced inner ++ [⟨false, .question, "?"⟩]
  | .function [] result =>
    ⟨spaced, .conjureWord, "conjure"⟩ :: ⟨false, .leftParen, "("⟩ ::
      (words false result ++ [⟨false, .rightParen, ")"⟩])
  | .function (first :: rest) result =>
    ⟨spaced, .conjureWord, "conjure"⟩ :: ⟨false, .leftParen, "("⟩ ::
      (words false first ++ (wordsAfter rest ++ ⟨true, .arrow, "->"⟩ ::
        (words true result ++ [⟨false, .rightParen, ")"⟩])))

/-- The words of the names of some types, each after a comma. -/
def wordsAfter : List Ty → List Word
  | [] => []
  | type :: rest => ⟨false, .comma, ","⟩ :: (words true type ++ wordsAfter rest)

end

theorem name_optional (inner : Ty) : (optional inner).name =
    if inner.isEnclosed then "(" ++ inner.name ++ ")?" else inner.name ++ "?" := by
  cases inner <;> rfl

mutual

/-- The words of a name spell it. -/
theorem spell_words (spaced : Bool) : (type : Ty) →
    Word.spell (words spaced type) = (if spaced then [' '] else []) ++ type.name.toList
  | .primitive kind | .numeric kind => by
    cases spaced <;> simp [words, name, Word.characters]
  | .array element => by
    have inner := spell_words false element
    cases spaced <;> simp [words, name, Word.characters, inner]
  | .pointer target => by
    have inner := spell_words false target
    cases spaced <;> simp [words, name, Word.characters, inner]
  | .optional inner => by
    have plain := spell_words spaced inner
    have enclosed := spell_words false inner
    rw [words, name_optional]
    split
    · cases spaced <;> simp [Word.characters, enclosed]
    · simp [Word.characters, plain]
  | .function [] result => by
    have inner := spell_words false result
    cases spaced <;> simp [words, name, Word.characters, inner]
  | .function (first :: rest) result => by
    have inner := spell_words false first
    have others := spell_wordsAfter rest
    have last := spell_words true result
    cases spaced <;> simp [words, name, Word.characters, inner, others, last]

theorem spell_wordsAfter : (types : List Ty) →
    Word.spell (wordsAfter types) = (names types).toList
  | [] => rfl
  | type :: rest => by
    have inner := spell_words true type
    have others := spell_wordsAfter rest
    simp [wordsAfter, names, Word.characters, inner, others]

end

/-! ## The words are legible -/

/-- The names of the primitive and the numeric types are names, and no keywords. -/
theorem name_of_primitive (kind : Primitive) :
    Pattern.name kind.name.toList = some kind.name.toList.length ∧
      (∀ keyword ∈ Terminal.all, keyword.isKeyword → keyword.fixedText? ≠ some kind.name) ∧
      ofName? kind.name = some (.primitive kind) := by
  have checked : ∀ kind ∈ Primitive.all,
      Pattern.name kind.name.toList = some kind.name.toList.length ∧
        (∀ keyword ∈ Terminal.all, keyword.isKeyword → keyword.fixedText? ≠ some kind.name) ∧
        ofName? kind.name = some (.primitive kind) := by
    decide
  exact checked kind (by cases kind <;> decide)

theorem name_of_numeric (kind : Numeric) :
    Pattern.name kind.name.toList = some kind.name.toList.length ∧
      (∀ keyword ∈ Terminal.all, keyword.isKeyword → keyword.fixedText? ≠ some kind.name) ∧
      ofName? kind.name = some (.numeric kind) := by
  have checked : ∀ kind ∈ Numeric.all,
      Pattern.name kind.name.toList = some kind.name.toList.length ∧
        (∀ keyword ∈ Terminal.all, keyword.isKeyword → keyword.fixedText? ≠ some kind.name) ∧
        ofName? kind.name = some (.numeric kind) := by
    decide
  obtain ⟨family, unsigned, width⟩ := kind
  exact checked _ (by cases family <;> cases unsigned <;> cases width <;> decide)

section Legible

open Automaton (typeOpeners)
open Pattern (Delimited)

variable {automaton : Automaton} {before : Option Terminal} {rest : List Word} {spaced : Bool}

/-- A symbol that no longer one begins with. -/
theorem legible_mark {kind : Terminal} {text : String}
    (listed : (Lexer.symbols.lookup text.toList).bind List.head? = some (kind, text.toList.length))
    (plain : Lexer.isPlain kind) (later : Legible automaton (some kind) rest) :
    Legible automaton before (⟨spaced, kind, text⟩ :: rest) := by
  have visible : ∀ pair ∈ Lexer.symbols,
      pair.1.head?.any fun first => Pattern.isSkipped first = false := by
    decide
  obtain ⟨found, known, isFirst⟩ := Option.bind_eq_some_iff.mp listed
  obtain ⟨others, rfl⟩ := List.head?_eq_some_iff.mp isFirst
  have member := Parser.mem_of_lookup_eq_some known
  obtain ⟨first, begins, shown⟩ := (Option.any_eq_true _ _).mp (visible _ member)
  obtain ⟨more, shape⟩ := List.head?_eq_some_iff.mp begins
  have kept : kind.isIgnored = false := by
    simp only [Lexer.isPlain, Bool.and_eq_true, Bool.not_eq_true'] at plain
    exact plain.1.1
  exact .symbol ⟨first, more, shape, of_decide_eq_true shown⟩ member plain kept later

theorem delimited_mark {kind : Terminal} {text : String} {first : Char}
    (member : first ∈ Pattern.delimiters)
    (begins : (Word.characters ⟨spaced, kind, text⟩).head? = some first) :
    Delimited (Word.spell (⟨spaced, kind, text⟩ :: rest)) := by
  obtain ⟨more, shape⟩ := List.head?_eq_some_iff.mp begins
  exact ⟨first, member, more ++ Word.spell rest, by rw [Word.spell_cons, shape, List.cons_append]⟩

/-- A function type begins with its keyword and a parenthesis. -/
theorem legible_conjure (later : Legible automaton (some .leftParen) rest) :
    Legible automaton before
      (⟨spaced, .conjureWord, "conjure"⟩ :: ⟨false, .leftParen, "("⟩ :: rest) := by
  have visible : Parser.Visible "conjure".toList := ⟨'c', "onjure".toList, by decide, by decide⟩
  have spots : Lexer.spots ("conjure".toList ++ Word.spell (⟨false, .leftParen, "("⟩ :: rest)) =
      [(.name, "conjure".toList.length), (.conjureWord, "conjure".toList.length)] := by
    rw [Word.spell_cons, show Word.characters ⟨false, .leftParen, "("⟩ = ['('] by decide]
    rfl
  exact .keyword rfl rfl spots visible rfl (legible_mark (by decide) rfl later)

/-- Types after commas come before a delimiter or begin with a comma. -/
theorem delimited_wordsAfter (delimited : Delimited (Word.spell rest)) (types : List Ty) :
    Delimited (Word.spell (wordsAfter types ++ rest)) := by
  cases types with
  | nil => exact delimited
  | cons type others =>
    rw [wordsAfter, List.cons_append]
    exact delimited_mark (by decide) rfl

mutual

/-- The name of a type can be read after a word that stands before types, and before a
delimiter. -/
theorem legible_words (splits : automaton.states.all automaton.splitsStars = true)
    {before : Terminal} (opens : before ∈ typeOpeners) {rest : List Word}
    (delimited : Delimited (Word.spell rest)) (later : ∀ before, Legible automaton before rest)
    (spaced : Bool) : (type : Ty) → Legible automaton (some before) (words spaced type ++ rest)
  | .primitive kind =>
    have ⟨whole, other, _⟩ := name_of_primitive kind
    .name rfl whole other delimited (later _)
  | .numeric kind =>
    have ⟨whole, other, _⟩ := name_of_numeric kind
    .name rfl whole other delimited (later _)
  | .array element => by
    have opened : Terminal.leftBracket ∈ typeOpeners := by decide
    rw [words, List.cons_append, List.append_assoc]
    refine legible_mark (by decide) rfl
      (legible_words splits opened ?_ (fun _ => ?_) false element)
    · exact delimited_mark (by decide) rfl
    · exact legible_mark (by decide) rfl (later _)
  | .pointer target =>
    have opened : Terminal.star ∈ typeOpeners := by decide
    .star splits opens (legible_words splits opened delimited later false target)
  | .optional inner => by
    rw [words]
    split
    · have opened : Terminal.leftParen ∈ typeOpeners := by decide
      rw [List.cons_append, List.append_assoc]
      refine legible_mark (by decide) rfl
        (legible_words splits opened ?_ (fun _ => ?_) false inner)
      · exact delimited_mark (by decide) rfl
      · exact legible_mark (by decide) rfl (legible_mark (by decide) rfl (later _))
    · rw [List.append_assoc]
      refine legible_words splits opens ?_ (fun _ => ?_) spaced inner
      · exact delimited_mark (by decide) rfl
      · exact legible_mark (by decide) rfl (later _)
  | .function [] result => by
    have opened : Terminal.leftParen ∈ typeOpeners := by decide
    rw [words, List.cons_append, List.cons_append, List.append_assoc]
    refine legible_conjure (legible_words splits opened ?_ (fun _ => ?_) false result)
    · exact delimited_mark (by decide) rfl
    · exact legible_mark (by decide) rfl (later _)
  | .function (first :: others) result => by
    have opened : Terminal.leftParen ∈ typeOpeners := by decide
    have arrow : Terminal.arrow ∈ typeOpeners := by decide
    rw [words, List.cons_append, List.cons_append, List.append_assoc, List.append_assoc,
      List.cons_append, List.append_assoc]
    refine legible_conjure (legible_words splits opened (delimited_wordsAfter ?_ others)
      (fun _ => legible_wordsAfter splits ?_ (fun _ => ?_) others _) false first)
    · exact delimited_mark (by decide) rfl
    · exact delimited_mark (by decide) rfl
    · refine legible_mark (by decide) rfl
        (legible_words splits arrow ?_ (fun _ => ?_) true result)
      · exact delimited_mark (by decide) rfl
      · exact legible_mark (by decide) rfl (later _)

/-- So can the names of some types, each after a comma. -/
theorem legible_wordsAfter (splits : automaton.states.all automaton.splitsStars = true)
    {rest : List Word} (delimited : Delimited (Word.spell rest))
    (later : ∀ before, Legible automaton before rest) :
    (types : List Ty) → ∀ before, Legible automaton before (wordsAfter types ++ rest)
  | [], before => later before
  | type :: others, before => by
    have opened : Terminal.comma ∈ typeOpeners := by decide
    rw [wordsAfter, List.cons_append, List.append_assoc]
    exact legible_mark (by decide) rfl (legible_words splits opened
      (delimited_wordsAfter delimited others) (legible_wordsAfter splits delimited later others)
      true type)

end

end Legible

/-! ## Reading trees -/

/-- A node is read from what its children are read as. -/
theorem ofTree?_built (label : Label) (tokens : List Token) (children : List (Option Tree)) :
    ofTree? (built label tokens children) =
      (ofTrees? children).bind fun parts => ofNode? label (startOf tokens) parts :=
  rfl

theorem ofTrees?_append {first second : List (Option Tree)}
    {parts others : List (Option Surface.Construct)} (known : ofTrees? first = some parts)
    (also : ofTrees? second = some others) :
    ofTrees? (first ++ second) = some (parts ++ others) := by
  induction first generalizing parts with
  | nil =>
    obtain rfl := Option.some.inj known
    exact also
  | cons child rest ih =>
    cases child with
    | none =>
      obtain ⟨more, later, same⟩ := Option.bind_eq_some_iff.mp known
      obtain rfl := Option.some.inj same
      simp [ofTrees?, ih later]
    | some tree =>
      obtain ⟨part, here, known⟩ := Option.bind_eq_some_iff.mp known
      obtain ⟨more, later, same⟩ := Option.bind_eq_some_iff.mp known
      obtain rfl := Option.some.inj same
      simp [ofTrees?, here, ih later]

/-- What a function type with an arrow is read from. -/
theorem ofNode?_functionType (position : Position) (word : Token) (listed : List TypeSyntax)
    (result : TypeSyntax) :
    ofNode? .functionType position
        (some (.token word) :: (listed.map (fun type => some (.type type)) ++
          [some (.type result)])) =
      some (.type (.function position listed (some result))) := by
  have types : (listed.map fun type => some (Surface.Construct.type type)).mapM
      Surface.Assemble.type? = some listed := by
    induction listed with
    | nil => rfl
    | cons first rest ih => simp [ih, Surface.Assemble.type?]
  simp [ofNode?, Surface.Assemble.ofType?, Surface.Assemble.optionalType?, types]

theorem resolveAll_append {first second : List TypeSyntax} {types others : List Ty}
    (known : TypeSyntax.resolveAll first = .ok types)
    (also : TypeSyntax.resolveAll second = .ok others) :
    TypeSyntax.resolveAll (first ++ second) = .ok (types ++ others) := by
  induction first generalizing types with
  | nil =>
    obtain rfl := Except.ok.inj known
    exact also
  | cons written rest ih =>
    rw [TypeSyntax.resolveAll] at known
    rw [List.cons_append, TypeSyntax.resolveAll]
    cases resolved : written.resolve with
    | error failure => simp [resolved, bind, Except.bind] at known
    | ok type =>
      cases later : TypeSyntax.resolveAll rest with
      | error failure => simp [resolved, later, bind, Except.bind] at known
      | ok more =>
        obtain rfl : type :: more = types := by
          simpa [resolved, later, bind, Except.bind, pure, Except.pure] using known
        simp [ih later, bind, Except.bind, pure, Except.pure]

/-! ## The words are an annotation -/

/-- Some tokens are derived as an annotation that is resolved to a type. -/
def Annotates (category : Nonterminal) (tokens : List Token) (type : Ty) : Prop :=
  ∃ tree written, Derives (.nonterminal category) tokens [some tree] ∧
    ofTree? tree = some (.type written) ∧ written.resolve = .ok type

/-- The trees of some types after commas. -/
def AnnotatesAfter (tokens : List Token) (types : List Ty) : Prop :=
  ∃ trees written, (tokens = [] ∧ trees = [] ∨
      Derives (.nonterminal .moreTypes) tokens (trees.map some)) ∧
    ofTrees? (trees.map some) = some (written.map fun type => some (.type type)) ∧
    TypeSyntax.resolveAll written = .ok types

namespace Annotates

variable {tokens : List Token} {type : Ty}

theorem unit {outer inner : Nonterminal} (annotates : Annotates inner tokens type)
    (member : unitRule outer inner ∈ Grammar.rules) : Annotates outer tokens type := by
  obtain ⟨tree, written, derives, reads, resolves⟩ := annotates
  exact ⟨tree, written, derives_of_unitRule member derives, reads, resolves⟩

/-- A name is an annotation by itself. -/
theorem named {token : Token} (isName : token.kind = .name)
    (known : ofName? token.text = some type) : Annotates .atomType [token] type := by
  have rule : ⟨.atomType, [.keep (.terminal .name)], .node .namedType⟩ ∈ Grammar.rules := by decide
  refine ⟨_, .named ⟨token.text, token.position⟩,
    derives_of_spells rule (.cons (derives_token isName) .nil), rfl, ?_⟩
  rw [TypeSyntax.resolve, known]

theorem pointer {star : Token} (isStar : star.kind = .star)
    (annotates : Annotates .type tokens type) :
    Annotates .type (star :: tokens) (.pointer type) := by
  obtain ⟨tree, written, derives, reads, resolves⟩ := annotates
  have rule : ⟨.type, [.keep (.terminal .star), .keep (.nonterminal .type)], .node .pointerType⟩ ∈
      Grammar.rules := by decide
  have whole := derives_of_spells rule (.cons (derives_token isStar) (.cons derives .nil))
  rw [List.append_nil] at whole
  refine ⟨_, .pointer written, whole, ?_, ?_⟩
  · simp [ofTree?_built, Derivation.keep, reads, ofTree?, ofTrees?, ofNode?,
      Surface.Assemble.ofType?, Surface.Assemble.type?]
  · rw [TypeSyntax.resolve, resolves]
    rfl

theorem optional {mark : Token} (isMark : mark.kind = .question)
    (annotates : Annotates .postfixType tokens type) :
    Annotates .postfixType (tokens ++ [mark]) (.optional type) := by
  obtain ⟨tree, written, derives, reads, resolves⟩ := annotates
  have rule : ⟨.postfixType, [.keep (.nonterminal .postfixType), .drop .question],
      .node .optionalType⟩ ∈ Grammar.rules := by decide
  have whole := derives_of_spells rule (.cons derives (.cons (derives_token isMark) .nil))
  rw [List.append_nil] at whole
  refine ⟨_, .optional written, whole, ?_, ?_⟩
  · simp [ofTree?_built, Derivation.keep, reads, ofTrees?, ofNode?,
      Surface.Assemble.ofType?, Surface.Assemble.type?]
  · rw [TypeSyntax.resolve, resolves]
    rfl

section Brackets

variable {opening closing : Token}

theorem array (opens : opening.kind = .leftBracket) (closes : closing.kind = .rightBracket)
    (annotates : Annotates .type tokens type) :
    Annotates .atomType (opening :: (tokens ++ [closing])) (.array type) := by
  obtain ⟨tree, written, derives, reads, resolves⟩ := annotates
  have rule : ⟨.atomType, [.drop .leftBracket, .keep (.nonterminal .type), .drop .rightBracket],
      .node .arrayType⟩ ∈ Grammar.rules := by decide
  have whole := derives_of_spells rule (.cons (derives_token opens)
    (.cons derives (.cons (derives_token closes) .nil)))
  rw [List.append_nil] at whole
  refine ⟨_, .array written, whole, ?_, ?_⟩
  · simp [ofTree?_built, Derivation.keep, reads, ofTrees?, ofNode?,
      Surface.Assemble.ofType?, Surface.Assemble.type?]
  · rw [TypeSyntax.resolve, resolves]
    rfl

/-- Parentheses leave nothing in the tree. -/
theorem parenthesised (opens : opening.kind = .leftParen) (closes : closing.kind = .rightParen)
    (annotates : Annotates .type tokens type) :
    Annotates .atomType (opening :: (tokens ++ [closing])) type := by
  obtain ⟨tree, written, derives, reads, resolves⟩ := annotates
  have rule : ⟨.atomType, [.drop .leftParen, .keep (.nonterminal .type), .drop .rightParen],
      .splice⟩ ∈ Grammar.rules := by decide
  have whole := derives_of_spells rule (.cons (derives_token opens)
    (.cons derives (.cons (derives_token closes) .nil)))
  rw [List.append_nil] at whole
  exact ⟨tree, written, by simpa [Production.contribution, Derivation.keep] using whole, reads,
    resolves⟩

variable {word : Token}

/-- A function type of one part has this part for its result. -/
theorem functionOfNothing (isWord : word.kind = .conjureWord) (opens : opening.kind = .leftParen)
    (closes : closing.kind = .rightParen) (annotates : Annotates .type tokens type) :
    Annotates .atomType (word :: opening :: (tokens ++ [closing])) (.function [] type) := by
  obtain ⟨tree, written, derives, reads, resolves⟩ := annotates
  have rule : ⟨.atomType, [.keep (.terminal .conjureWord), .drop .leftParen,
      .keep (.nonterminal .type), .absent, .drop .rightParen], .node .functionType⟩ ∈
      Grammar.rules := by decide
  have whole := derives_of_spells rule (.cons (derives_token isWord) (.cons (derives_token opens)
    (.cons derives (.cons (derives_token closes) .nil))))
  rw [List.append_nil] at whole
  refine ⟨_, .function word.position [written] none, whole, ?_, ?_⟩
  · simp [ofTree?_built, Derivation.keep, reads, ofTree?, ofTrees?, ofNode?,
      Surface.Assemble.ofType?, Surface.Assemble.type?, Surface.Assemble.optionalType?, startOf]
  · simp [TypeSyntax.resolve, TypeSyntax.resolveAll, resolves, bind, Except.bind, pure,
      Except.pure]

/-- A function type with parameters. -/
theorem function {later last : List Token} {others : List Ty} {result : Ty} {arrow : Token}
    (isWord : word.kind = .conjureWord) (opens : opening.kind = .leftParen)
    (points : arrow.kind = .arrow) (closes : closing.kind = .rightParen)
    (annotates : Annotates .type tokens type) (after : AnnotatesAfter later others)
    (returns : Annotates .type last result) :
    Annotates .atomType
      (word :: opening :: (tokens ++ (later ++ arrow :: (last ++ [closing]))))
      (.function (type :: others) result) := by
  obtain ⟨tree, written, derives, reads, resolves⟩ := annotates
  obtain ⟨trees, more, derivesMore, readsMore, resolvesMore⟩ := after
  obtain ⟨final, writtenLast, derivesLast, readsLast, resolvesLast⟩ := returns
  have whole : Derives (.nonterminal .atomType)
      (word :: opening :: (tokens ++ (later ++ arrow :: (last ++ [closing]))))
      [some (built .functionType
        (word :: opening :: (tokens ++ (later ++ arrow :: (last ++ [closing]))))
        (some (.token word) :: some tree :: (trees.map some ++ [some final])))] := by
    have tail := Grammar.Spells.cons (derives_token points) (.cons derivesLast
      (.cons (derives_token closes) .nil))
    rcases derivesMore with ⟨rfl, rfl⟩ | derivesMore
    · have rule : ⟨.atomType, [.keep (.terminal .conjureWord), .drop .leftParen,
          .keep (.nonterminal .type), .drop .arrow, .keep (.nonterminal .type),
          .drop .rightParen], .node .functionType⟩ ∈ Grammar.rules := by decide
      have whole := derives_of_spells rule (.cons (derives_token isWord)
        (.cons (derives_token opens) (.cons derives tail)))
      simpa [Production.contribution, Derivation.keep] using whole
    · have rule : ⟨.atomType, [.keep (.terminal .conjureWord), .drop .leftParen,
          .keep (.nonterminal .type), .keep (.nonterminal .moreTypes), .drop .arrow,
          .keep (.nonterminal .type), .drop .rightParen], .node .functionType⟩ ∈
          Grammar.rules := by decide
      have whole := derives_of_spells rule (.cons (derives_token isWord)
        (.cons (derives_token opens) (.cons derives (.cons derivesMore tail))))
      simpa [Production.contribution, Derivation.keep] using whole
  refine ⟨_, .function word.position (written :: more) (some writtenLast), whole, ?_, ?_⟩
  · have last : ofTrees? [some final] = some [some (.type writtenLast)] := by
      simp [ofTrees?, readsLast]
    have parts : ofTrees? (some (.token word) :: some tree :: (trees.map some ++ [some final])) =
        some (some (.token word) :: ((written :: more).map (fun type => some (.type type)) ++
          [some (.type writtenLast)])) := by
      simp [ofTrees?, ofTree?, reads, ofTrees?_append readsMore last]
    rw [ofTree?_built, parts, Option.bind_some]
    exact ofNode?_functionType word.position word (written :: more) writtenLast
  · simp [TypeSyntax.resolve, TypeSyntax.resolveAll, resolves, resolvesMore, resolvesLast, bind,
      Except.bind, pure, Except.pure]

end Brackets

end Annotates

theorem AnnotatesAfter.nil : AnnotatesAfter [] [] :=
  ⟨[], [], .inl ⟨rfl, rfl⟩, rfl, rfl⟩

/-- One more type after a comma. -/
theorem AnnotatesAfter.snoc {before tokens : List Token} {types : List Ty} {comma : Token}
    {type : Ty} (after : AnnotatesAfter before types) (separates : comma.kind = .comma)
    (annotates : Annotates .type tokens type) :
    AnnotatesAfter (before ++ comma :: tokens) (types ++ [type]) := by
  obtain ⟨trees, written, derivesBefore, reads, resolves⟩ := after
  obtain ⟨tree, last, derives, readsLast, resolvesLast⟩ := annotates
  refine ⟨trees ++ [tree], written ++ [last], .inr ?_, ?_, ?_⟩
  · rcases derivesBefore with ⟨rfl, rfl⟩ | derivesBefore
    · have rule : ⟨.moreTypes, [.drop .comma, .keep (.nonterminal .type)], .splice⟩ ∈
          Grammar.rules := by decide
      have whole := derives_of_spells rule (.cons (derives_token separates) (.cons derives .nil))
      simpa [Production.contribution, Derivation.keep] using whole
    · have rule : ⟨.moreTypes, [.keep (.nonterminal .moreTypes), .drop .comma,
          .keep (.nonterminal .type)], .splice⟩ ∈ Grammar.rules := by decide
      have whole := derives_of_spells rule (.cons derivesBefore
        (.cons (derives_token separates) (.cons derives .nil)))
      simpa [Production.contribution, Derivation.keep] using whole
  · have one : ofTrees? ([tree].map some) = some ([last].map fun type => some (.type type)) := by
      simp [ofTrees?, readsLast]
    rw [List.map_append, List.map_append]
    exact ofTrees?_append reads one
  · refine resolveAll_append resolves ?_
    rw [TypeSyntax.resolveAll, resolvesLast]
    rfl

/-- The nonterminal that the name of a type is derived from. -/
def category : Ty → Nonterminal
  | .pointer _ => .type
  | .optional _ => .postfixType
  | .primitive _ | .numeric _ | .array _ | .function _ _ => .atomType

theorem mem_rules_postfixType : unitRule .postfixType .atomType ∈ Grammar.rules := by decide

theorem mem_rules_type : unitRule .type .postfixType ∈ Grammar.rules := by decide

theorem Annotates.postfixType {type : Ty} {tokens : List Token} (plain : type.isEnclosed = false)
    (annotates : Annotates type.category tokens type) : Annotates .postfixType tokens type := by
  cases type with
  | optional inner => exact annotates
  | pointer target => exact absurd plain nofun
  | function parameters result => exact absurd plain nofun
  | primitive kind | numeric kind | array element => exact annotates.unit mem_rules_postfixType

theorem Annotates.type {type : Ty} {tokens : List Token}
    (annotates : Annotates type.category tokens type) : Annotates .type tokens type := by
  cases type with
  | pointer target => exact annotates
  | optional inner => exact annotates.unit mem_rules_type
  | primitive kind | numeric kind | array element | function parameters result =>
    exact (annotates.unit mem_rules_postfixType).unit mem_rules_type

mutual

/-- The words of the name of a type are an annotation that is resolved to the type. -/
theorem annotates_words (spaced : Bool) (start : Position) : (type : Ty) →
    Annotates type.category (Word.place start (words spaced type)) type
  | .primitive kind => .named rfl (name_of_primitive kind).2.2
  | .numeric kind => .named rfl (name_of_numeric kind).2.2
  | .array element => by
    rw [words, Word.place, Word.place_append]
    exact .array rfl rfl (annotates_words false _ element).type
  | .pointer target => by
    rw [words, Word.place]
    exact .pointer rfl (annotates_words false _ target).type
  | .optional inner => by
    rw [words]
    split
    · rw [Word.place, Word.place_append]
      change Annotates .postfixType (_ :: (_ ++ ([_] ++ [_]))) _
      rw [← List.append_assoc, ← List.cons_append]
      exact .optional rfl ((Annotates.parenthesised rfl rfl
        (annotates_words false _ inner).type).unit mem_rules_postfixType)
    · rename_i plain
      rw [Word.place_append]
      exact .optional rfl ((annotates_words spaced _ inner).postfixType (by simpa using plain))
  | .function [] result => by
    rw [words, Word.place, Word.place, Word.place_append]
    exact .functionOfNothing rfl rfl rfl (annotates_words false _ result).type
  | .function (first :: rest) result => by
    have after (start : Position) : AnnotatesAfter (Word.place start (wordsAfter rest)) rest :=
      annotatesAfter_wordsAfter rest start .nil
    rw [words, Word.place, Word.place, Word.place_append, Word.place_append, Word.place,
      Word.place_append]
    exact .function rfl rfl rfl rfl (annotates_words false _ first).type (after _)
      (annotates_words true _ result).type

/-- So are the words of the names of some types, after those of others. -/
theorem annotatesAfter_wordsAfter : (types : List Ty) → (start : Position) →
    {before : List Token} → {earlier : List Ty} → AnnotatesAfter before earlier →
    AnnotatesAfter (before ++ Word.place start (wordsAfter types)) (earlier ++ types)
  | [], start, before, earlier, after => by
    rw [wordsAfter, Word.place, List.append_nil, List.append_nil]
    exact after
  | type :: rest, start, before, earlier, after => by
    rw [wordsAfter, Word.place, Word.place_append, ← List.cons_append, ← List.append_assoc,
      List.append_cons earlier]
    exact annotatesAfter_wordsAfter rest _ (after.snoc rfl (annotates_words true _ type).type)

end

/-! ## The declaration around a name -/

/-- The words of the declaration that is written around the name of a type. -/
def declarationWords (type : Ty) : List Word :=
  ⟨false, .letWord, "let"⟩ :: ⟨true, .name, "t"⟩ :: ⟨false, .colon, ":"⟩ ::
    (words true type ++
      [⟨true, .equal, "="⟩, ⟨true, .nullWord, "null"⟩, ⟨false, .semicolon, ";"⟩])

theorem spell_declarationWords (type : Ty) :
    (declaration type.name).toList = Word.spell (declarationWords type) := by
  simp [declaration, declarationWords, spell_words, Word.characters]

theorem legible_declarationWords {automaton : Automaton}
    (splits : automaton.states.all automaton.splitsStars = true) (type : Ty) :
    Legible automaton none (declarationWords type) := by
  have ends (before : Option Terminal) : Legible automaton before
      [⟨true, .equal, "="⟩, ⟨true, .nullWord, "null"⟩, ⟨false, .semicolon, ";"⟩] := by
    have equal : Parser.Visible "=".toList := ⟨'=', [], by decide, by decide⟩
    have null : Parser.Visible "null".toList := ⟨'n', "ull".toList, by decide, by decide⟩
    refine .shortSymbol equal (by decide) rfl rfl (delimited_mark (by decide) rfl) ?_
    exact .keyword rfl rfl rfl null rfl (legible_mark (by decide) rfl .nil)
  have begins : Parser.Visible "let".toList := ⟨'l', "et".toList, by decide, by decide⟩
  have colon : Terminal.colon ∈ Automaton.typeOpeners := by decide
  have typed : Legible automaton (some .colon) _ :=
    legible_words splits colon (delimited_mark (by decide) rfl) ends true type
  refine .keyword rfl rfl rfl begins rfl (.name rfl (by decide) (by decide) ?_
    (legible_mark (by decide) rfl typed))
  exact delimited_mark (by decide) rfl

/-- A single statement is a program. -/
theorem exists_program {tokens : List Token} {tree : Tree} {statement : Surface.Stmt}
    (derives : Derives (.nonterminal .statement) tokens [some tree])
    (reads : ofTree? tree = some (.statement statement)) :
    ∃ whole, Derives (.nonterminal .start) tokens [some whole] ∧
      Surface.ofTree whole = .ok ⟨startOf tokens, [statement]⟩ := by
  have item : unitRule .item .statement ∈ Grammar.rules := by decide
  have items : unitRule .moreItems .item ∈ Grammar.rules := by decide
  have rule : ⟨.start, [.keep (.nonterminal .moreItems)], .node .start⟩ ∈ Grammar.rules := by
    decide
  have whole := derives_of_spells rule
    (.cons (derives_of_unitRule items (derives_of_unitRule item derives)) .nil)
  rw [List.append_nil] at whole
  have program : ofTree? (built .start tokens [some tree]) =
      some (.program ⟨startOf tokens, [statement]⟩) := by
    simp [ofTree?_built, ofTrees?, reads, ofNode?, Surface.Assemble.statement?]
  exact ⟨built .start tokens [some tree], whole, by rw [Surface.ofTree, program]⟩

/-- The declaration of a variable of a type that is null at first is a program. -/
theorem exists_declaration {word name colon equal null semicolon : Token} {tokens : List Token}
    {type : Ty} (isLet : word.kind = .letWord) (isName : name.kind = .name)
    (isColon : colon.kind = .colon) (isEqual : equal.kind = .equal) (isNull : null.kind = .nullWord)
    (isSemicolon : semicolon.kind = .semicolon) (annotates : Annotates .type tokens type) :
    ∃ tree program written,
      Derives (.nonterminal .start)
        (word :: name :: colon :: (tokens ++ [equal, null, semicolon])) [some tree] ∧
      Surface.ofTree tree = .ok program ∧ program.declaredType? = some written ∧
      written.resolve = .ok type := by
  obtain ⟨tree, written, derives, reads, resolves⟩ := annotates
  have atom : Expression.Reads .atom [null] [built .nullLiteral [null] [some (.token null)]] :=
    .token (isNull ▸ rfl)
  have value := Expression.derives_expression (Expression.derived_of_reads
    (.tighter rfl (.tighter rfl (.tighter rfl (.tighter rfl (.tighter rfl (.tighter rfl
      (.tighter rfl (.tighter rfl atom)))))))))
  have mutability : ⟨.mutability, [.keep (.terminal .letWord)], .node .mutability⟩ ∈
      Grammar.rules := by decide
  have rule : ⟨.variableDeclaration, [.keep (.nonterminal .mutability), .keep (.terminal .name),
      .drop .colon, .keep (.nonterminal .type), .drop .equal, .keep (.nonterminal .expression),
      .drop .semicolon], .node .variableDeclaration⟩ ∈ Grammar.rules := by decide
  have statement : unitRule .statement .variableDeclaration ∈ Grammar.rules := by decide
  have declared := derives_of_unitRule statement (derives_of_spells rule
    (.cons (derives_of_spells mutability (.cons (derives_token isLet) .nil))
      (.cons (derives_token isName) (.cons (derives_token isColon) (.cons derives
        (.cons (derives_token isEqual) (.cons value
          (.cons (derives_token isSemicolon) .nil))))))))
  have declaration : ofTree? (built .variableDeclaration
      (word :: name :: colon :: (tokens ++ [equal, null, semicolon]))
      [some (built .mutability [word] [some (.token word)]), some (.token name), some tree,
        some (built .nullLiteral [null] [some (.token null)])]) =
      some (.statement (.declare word.position true ⟨name.text, name.position⟩ (some written)
        (.null null.position))) := by
    simp [ofTree?_built, ofTrees?, ofTree?, reads, ofNode?, isLet, startOf,
      Surface.Assemble.ofStatement?, Surface.Assemble.ofExpression?, Surface.Assemble.ident?,
      Surface.Assemble.optionalType?, Surface.Assemble.expression?]
  obtain ⟨whole, derivesWhole, program⟩ := exists_program declared declaration
  exact ⟨whole, _, written, derivesWhole, program, rfl, resolves⟩

theorem derives_declarationWords (type : Ty) : ∃ tree program written,
    Derives (.nonterminal .start) (Word.place .start (declarationWords type)) [some tree] ∧
      Surface.ofTree tree = .ok program ∧ program.declaredType? = some written ∧
      written.resolve = .ok type := by
  rw [declarationWords, Word.place, Word.place, Word.place, Word.place_append]
  exact exists_declaration rfl rfl rfl rfl rfl rfl (annotates_words true _ type).type

mutual

/-- No word of the name of a type is a `return`. -/
theorem kind_of_mem_words (spaced : Bool) : (type : Ty) →
    ∀ word ∈ words spaced type, word.kind ≠ .returnWord
  | .primitive kind | .numeric kind => by simp [words]
  | .array element => by
    simpa [words, or_imp, forall_and] using kind_of_mem_words false element
  | .pointer target => by simpa [words] using kind_of_mem_words false target
  | .optional inner => by
    rw [words]
    split
    · simpa [or_imp, forall_and] using kind_of_mem_words false inner
    · simpa [or_imp, forall_and] using kind_of_mem_words spaced inner
  | .function [] result => by
    simpa [words, or_imp, forall_and] using kind_of_mem_words false result
  | .function (first :: rest) result => by
    have parts := And.intro (kind_of_mem_words false first)
      (And.intro (kind_of_mem_wordsAfter rest) (kind_of_mem_words true result))
    simpa [words, or_imp, forall_and] using parts

theorem kind_of_mem_wordsAfter : (types : List Ty) →
    ∀ word ∈ wordsAfter types, word.kind ≠ .returnWord
  | [] => nofun
  | type :: rest => by
    have parts := And.intro (kind_of_mem_words true type) (kind_of_mem_wordsAfter rest)
    simpa [wordsAfter, or_imp, forall_and] using parts

end

/-- The declaration that is written around the name of a type is parsed, and its annotation
is resolved to the type. -/
theorem exists_resolved (type : Ty) : ∃ tree program written,
    parse (declaration type.name) = .ok tree ∧ Surface.ofTree tree = .ok program ∧
      program.declaredType? = some written ∧ written.resolve = .ok type := by
  obtain ⟨tree, program, written, derives, reads, declares, resolves⟩ :=
    derives_declarationWords type
  have plain : ∀ token ∈ Word.place .start (declarationWords type), token.kind ≠ .returnWord := by
    intro token member
    obtain ⟨word, inside, same⟩ := Word.exists_of_mem_place member
    have words : ∀ word ∈ declarationWords type, word.kind ≠ .returnWord := by
      simpa [declarationWords, or_imp, forall_and] using kind_of_mem_words true type
    exact same ▸ words word inside
  have parsed := Grammar.parse_of_legible (spell_declarationWords type)
    (legible_declarationWords Grammar.splitsStars_automaton type) plain derives
  exact ⟨tree, program, written, parsed, reads, declares, resolves⟩

/-- The name of a type spells the type. -/
theorem ofText_name (type : Ty) : ofText type.name = .ok type := by
  obtain ⟨tree, program, written, parsed, reads, declares, resolves⟩ := exists_resolved type
  simp [ofText, parsed, reads, declares, resolves, bind, Except.bind, pure, Except.pure]

theorem name_injective : Function.Injective name := by
  intro first second same
  have spelled := ofText_name first
  rw [same, ofText_name second] at spelled
  exact (Except.ok.inj spelled).symm

/-- Every type can be written as an annotation under its name, and is resolved to itself
there, so names lose nothing of a type. -/
theorem resolve_name :
    (∀ type : Ty, ∃ tree program written, parse (declaration type.name) = .ok tree ∧
      Surface.ofTree tree = .ok program ∧ program.declaredType? = some written ∧
      written.resolve = .ok type) ∧
    Function.Injective name :=
  ⟨exists_resolved, name_injective⟩

end Ty

end GlyphCompiler
