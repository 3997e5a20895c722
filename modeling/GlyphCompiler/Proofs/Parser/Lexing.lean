/-
# Reading one word

Which word the lexer reads depends on the terminals that are admitted. A word is
compared with the candidates in their fixed order, so it is enough to know which
of them match at all: the first of these that is tried is read.

A text of an unbounded class is read whole when it is followed by a delimiter,
since no such class goes on past one. Names and keywords are read alike where
names are admitted, and sorted afterwards.
-/

import GlyphCompiler.Token.Lexer

namespace GlyphCompiler

namespace Pattern

/-- Characters that end every name and every literal. -/
def delimiters : List Char := [' ', ';', ':', ',', '?', '(', ')', '[', ']']

/-- A text that begins with a delimiter. -/
def Delimited (text : List Char) : Prop :=
  ∃ first ∈ delimiters, ∃ rest, text = first :: rest

/-! ## Runs -/

variable {test : Char → Bool} {text rest : List Char}

theorem run_append_of_lt (short : run test text < text.length) :
    run test (text ++ rest) = run test text := by
  rw [run] at short
  rw [run, run, List.takeWhile_append, if_neg (Nat.ne_of_lt short)]

theorem run_append_of_eq (full : run test text = text.length) (stops : run test rest = 0) :
    run test (text ++ rest) = text.length := by
  rw [run] at full stops
  rw [run, List.takeWhile_append, if_pos full, List.length_append, stops, Nat.add_zero]

theorem run_le_length (test : Char → Bool) (text : List Char) : run test text ≤ text.length :=
  List.takeWhile_sublist test |>.length_le

/-- Nothing that a delimiter fails runs into a delimited text. -/
theorem run_of_delimited (delimited : Delimited rest)
    (fails : ∀ character ∈ delimiters, test character = false) : run test rest = 0 := by
  obtain ⟨first, member, others, rfl⟩ := delimited
  simp [run, fails first member]

theorem delimiters_not_namePart : ∀ character ∈ delimiters, isNamePart character = false :=
  List.forall_mem_iff_forall_getElem.mpr (by decide)

theorem delimiters_not_hexDigit : ∀ character ∈ delimiters, isHexDigit character = false :=
  List.forall_mem_iff_forall_getElem.mpr (by decide)

theorem delimiters_not_decimalDigit :
    ∀ character ∈ delimiters, isDecimalDigit character = false :=
  List.forall_mem_iff_forall_getElem.mpr (by decide)

/-! ## Classes of texts before a delimiter -/

/-- A whole name is read before a delimiter. -/
theorem name_append (whole : name text = some text.length) (delimited : Delimited rest) :
    name (text ++ rest) = some text.length := by
  cases text with
  | nil => cases whole
  | cons first more =>
    simp only [name] at whole
    split at whole
    · rename_i begins
      have full : run isNamePart more = more.length := by
        simp only [Option.some.injEq, List.length_cons] at whole
        omega
      rw [List.cons_append, name, if_pos begins, run_append_of_eq full
        (run_of_delimited delimited delimiters_not_namePart), List.length_cons, Nat.add_comm]
    · cases whole

theorem someRun_eq_some_iff {length : Nat} :
    someRun test text = some length ↔ run test text = length ∧ length ≠ 0 := by
  rw [someRun]
  split <;> rename_i empty
  · simp [empty, eq_comm]
  · constructor
    · intro found
      obtain rfl := Option.some.inj found
      exact ⟨rfl, empty⟩
    · rintro ⟨rfl, -⟩
      rfl

/-- A whole integer is read before a delimiter. -/
theorem integer_append (whole : someRun isDecimalDigit text = some text.length)
    (delimited : Delimited rest) :
    someRun isDecimalDigit (text ++ rest) = some text.length := by
  obtain ⟨full, nonempty⟩ := someRun_eq_some_iff.mp whole
  exact someRun_eq_some_iff.mpr ⟨run_append_of_eq full
    (run_of_delimited delimited delimiters_not_decimalDigit), nonempty⟩

/-- An integer before a delimiter is not the beginning of a decimal. -/
theorem decimal_integer_append (whole : someRun isDecimalDigit text = some text.length)
    (delimited : Delimited rest) : decimal (text ++ rest) = none := by
  rw [decimal, integer_append whole delimited]
  simp only [List.drop_left]
  obtain ⟨first, member, others, rfl⟩ := delimited
  split
  · rename_i same
    rw [(List.cons.inj same).1] at member
    exact absurd member (by decide)
  · rfl

/-- A whole decimal is read before a delimiter. -/
theorem decimal_append (whole : decimal text = some text.length) (delimited : Delimited rest) :
    decimal (text ++ rest) = some text.length := by
  rw [decimal] at whole
  split at whole
  · exact absurd whole nofun
  · rename_i length digits
    split at whole
    · rename_i places after
      obtain ⟨count, fits, total⟩ := Option.map_eq_some_iff.mp whole
      obtain ⟨same, nonzero⟩ := someRun_eq_some_iff.mp digits
      have least : length ≤ text.length := same ▸ run_le_length isDecimalDigit text
      have size : text.length - length = places.length + 1 := by
        rw [← List.length_drop, after, List.length_cons]
      have full : someRun isDecimalDigit places = some places.length := by
        rw [fits]
        congr 1
        omega
      have short : run isDecimalDigit text < text.length := by omega
      have front : someRun isDecimalDigit (text ++ rest) = some length :=
        someRun_eq_some_iff.mpr ⟨(run_append_of_lt short).trans same, nonzero⟩
      have back : (text ++ rest).drop length = '.' :: (places ++ rest) := by
        rw [List.drop_append_of_le_length least, after, List.cons_append]
      rw [decimal, front]
      simp only [back, integer_append full delimited, Option.map_some, Option.some.injEq]
      omega
    · exact absurd whole nofun

/-- A whole code point is read before a delimiter. -/
theorem codepoint_append (whole : codepoint text = some text.length)
    (delimited : Delimited rest) : codepoint (text ++ rest) = some text.length := by
  rw [codepoint.eq_def] at whole
  split at whole
  · rename_i digits
    simp only at whole
    split at whole
    · rename_i enough
      have size := Option.some.inj whole
      simp only [List.length_cons] at size
      have most := run_le_length isHexDigit digits
      have full : run isHexDigit digits = digits.length := by omega
      have goes := run_append_of_eq full (run_of_delimited delimited delimiters_not_hexDigit)
      simp only [List.cons_append, codepoint, goes, List.length_cons]
      rw [if_pos (by omega)]
      congr 1
      omega
    · cases whole
  · cases whole

/-- What closes a quotation closes it whatever comes after. -/
theorem closing_append {quote : Char} (plain : quote ≠ '\\') {length : Nat}
    (closed : closing quote text = some length) (rest : List Char) :
    closing quote (text ++ rest) = some length := by
  fun_induction closing quote text generalizing length with
  | case1 | case2 => exact absurd closed nofun
  | case3 escaped more other ih =>
    obtain ⟨count, inner, rfl⟩ := Option.map_eq_some_iff.mp closed
    rw [List.cons_append, List.cons_append, closing, ih inner, Option.map_some]
    exact other
  | case4 =>
    rw [List.cons_append, closing, if_pos rfl, closed]
    · exact fun _ same _ => plain same
    · exact fun _ _ same _ => plain same
  | case5 => exact absurd closed nofun
  | case6 character more _ _ notQuote other ih =>
    obtain ⟨count, inner, rfl⟩ := Option.map_eq_some_iff.mp closed
    have notEscape : character ≠ '\\' := fun same => other (by simp [same])
    rw [List.cons_append, closing, if_neg notQuote, if_neg other, ih inner, Option.map_some]
    · exact fun _ same _ => notEscape same
    · exact fun _ _ same _ => notEscape same

/-- A whole quotation is read, whatever comes after. -/
theorem quotedText_append {quote : Char} (plain : quote ≠ '\\') (whole : quotedText quote text = some text.length)
    (rest : List Char) : quotedText quote (text ++ rest) = some text.length := by
  cases text with
  | nil => exact absurd whole nofun
  | cons first more =>
    rw [quotedText] at whole
    split at whole
    · rename_i opens
      obtain ⟨count, closed, total⟩ := Option.map_eq_some_iff.mp whole
      rw [List.cons_append, quotedText, if_pos opens, closing_append plain closed rest,
        Option.map_some, total]
    · exact absurd whole nofun

/-! ## First characters -/

section First

variable {first : Char} {length : Nat}

/-- A fixed text that matches begins as the input does. -/
theorem head?_of_fixed (nonempty : 0 < text.length)
    (found : fixed text (first :: rest) = some length) : text.head? = some first := by
  cases text with
  | nil => exact absurd nonempty (Nat.lt_irrefl 0)
  | cons character more =>
    rw [fixed] at found
    split at found
    · rename_i isStart
      simp only [List.isPrefixOf, Bool.and_eq_true, beq_iff_eq] at isStart
      rw [List.head?_cons, isStart.1]
    · cases found

theorem test_of_someRun (found : someRun test (first :: rest) = some length) :
    test first = true := by
  cases passed : test first with
  | true => rfl
  | false => simp [someRun, run, passed] at found

theorem isNameStart_of_name (found : name (first :: rest) = some length) :
    isNameStart first = true := by
  rw [name] at found
  split at found
  · assumption
  · cases found

theorem isDecimalDigit_of_decimal (found : decimal (first :: rest) = some length) :
    isDecimalDigit first = true := by
  rw [decimal] at found
  split at found
  · exact absurd found nofun
  · exact test_of_someRun ‹_›

theorem eq_of_codepoint (found : codepoint (first :: rest) = some length) : first = 'U' := by
  rw [codepoint.eq_def] at found
  split at found
  · simp_all
  · cases found

theorem eq_of_quotedText {quote : Char} (found : quotedText quote (first :: rest) = some length) :
    first = quote := by
  rw [quotedText] at found
  split at found
  · assumption
  · exact absurd found nofun

theorem eq_of_comment (found : comment (first :: rest) = some length) : first = '/' := by
  rw [comment.eq_def] at found
  split at found
  · simp_all
  · cases found

theorem mem_of_comparison (found : comparison (first :: rest) = some length) :
    first ∈ ['=', '!', '<', '>'] := by
  rw [comparison.eq_def] at found
  split at found <;> simp_all

end First

end Pattern

namespace Terminal

open Pattern

/-- Can a text of a terminal begin with a character? -/
def begins (kind : Terminal) (first : Char) : Bool :=
  match kind with
  | name => isNameStart first
  | integer | decimal => isDecimalDigit first
  | codepoint => first = 'U'
  | doubleQuoted => first = '"'
  | singleQuoted => first = '\''
  | comment => first = '/'
  | blank => isSkipped first
  | comparison => ['=', '!', '<', '>'].contains first
  | endOfInput => false
  | _ => kind.fixedText?.any fun text => text.toList.head? = some first

/-- A terminal matches only what one of its texts can begin with. -/
theorem begins_of_match? {kind : Terminal} {first : Char} {rest : List Char} {length : Nat}
    (found : kind.match? (first :: rest) = some length) : kind.begins first := by
  cases kind <;> simp only [match?, fixedText?, Option.bind_some] at found <;>
    simp only [begins, fixedText?, Option.any_some, decide_eq_true_eq] <;>
    first
    | exact head?_of_fixed (by decide) found
    | exact test_of_someRun found
    | exact isNameStart_of_name found
    | exact isDecimalDigit_of_decimal found
    | exact eq_of_codepoint found
    | exact eq_of_quotedText found
    | exact eq_of_comment found
    | exact List.contains_iff_mem.mpr (mem_of_comparison found)
    | cases found

end Terminal

namespace Lexer

/-! ## Choosing a candidate -/

/-- Is a terminal tried where some are admitted? -/
def isTried (admitted : List Terminal) (kind : Terminal) : Bool :=
  (kind.isIgnored || admitted.contains kind) && !(kind.isKeyword && admitted.contains .name)

/-- All terminals that match at the front of the input, in the order in which they are
tried, with the lengths of what they match. -/
def spots (input : List Char) : List (Terminal × Nat) :=
  order.filterMap fun kind => (kind.match? input).map fun length => (kind, length)

/-- Only the terminals that can begin with the first character count. -/
theorem spots_cons (first : Char) (rest : List Char) :
    spots (first :: rest) = (order.filter (·.begins first)).filterMap fun kind =>
      (kind.match? (first :: rest)).map fun length => (kind, length) := by
  rw [spots, List.filterMap_filter]
  congr 1
  funext kind
  cases found : kind.match? (first :: rest) with
  | none => simp
  | some length => simp [Terminal.begins_of_match? found]

/-- What is read is the first of the matching terminals that is tried. -/
theorem next?_eq (admitted : List Terminal) (input : List Char) :
    next? admitted input = ((spots input).find? fun pair => isTried admitted pair.1).map
      fun (kind, length) =>
        if kind = .name then (classify admitted (input.take length), length)
        else (kind, length) := by
  rw [next?, spots, show candidates admitted = order.filter (isTried admitted) from rfl]
  congr 1
  induction order with
  | nil => rfl
  | cons kind rest ih =>
    rw [List.filter_cons, List.filterMap_cons]
    by_cases tried : isTried admitted kind = true
    · rw [if_pos tried, List.findSome?_cons]
      cases found : kind.match? input with
      | none => simpa using ih
      | some length => simp [tried]
    · rw [if_neg tried, ih]
      cases found : kind.match? input with
      | none => rfl
      | some length => simp [tried]

/-! ## Symbols -/

open Pattern

/-- The symbols that no longer symbol begins with, and what they can be read as. -/
def symbols : List (List Char × List (Terminal × Nat)) :=
  [(['|', '|'], [(.or, 2)]),
    (['&', '&'], [(.and, 2), (.ampersand, 1)]),
    (['=', '='], [(.comparison, 2), (.equal, 1)]),
    (['!', '='], [(.comparison, 2), (.bang, 1)]),
    (['<', '='], [(.comparison, 2)]),
    (['>', '='], [(.comparison, 2)]),
    (['*', '*'], [(.power, 2), (.star, 1)]),
    (['-', '>'], [(.arrow, 2), (.minus, 1)]),
    (['%'], [(.percent, 1)]),
    (['('], [(.leftParen, 1)]),
    ([')'], [(.rightParen, 1)]),
    (['['], [(.leftBracket, 1)]),
    ([']'], [(.rightBracket, 1)]),
    ([','], [(.comma, 1)]),
    ([':'], [(.colon, 1)]),
    ([';'], [(.semicolon, 1)]),
    (['?'], [(.question, 1)])]

/-- The symbols that longer ones begin with, and what they can be read as by themselves. -/
def shortSymbols : List (List Char × List (Terminal × Nat)) :=
  [(['<'], [(.comparison, 1)]),
    (['>'], [(.comparison, 1)]),
    (['+'], [(.plus, 1)]),
    (['-'], [(.minus, 1)]),
    (['*'], [(.star, 1)]),
    (['/'], [(.slash, 1)]),
    (['!'], [(.bang, 1)]),
    (['&'], [(.ampersand, 1)]),
    (['='], [(.equal, 1)])]

/-- The terminals that can begin with the first character of a symbol. -/
def starters : List (Char × List Terminal) :=
  [('|', [.or]), ('&', [.and, .ampersand]), ('=', [.comparison, .equal]),
    ('!', [.comparison, .bang]), ('<', [.comparison]), ('>', [.comparison]),
    ('*', [.power, .star]), ('-', [.arrow, .minusMinus, .minus]), ('+', [.plusPlus, .plus]),
    ('/', [.comment, .slash]), ('%', [.percent]), ('(', [.leftParen]), (')', [.rightParen]),
    ('[', [.leftBracket]), (']', [.rightBracket]), (',', [.comma]), (':', [.colon]),
    (';', [.semicolon]), ('?', [.question])]

theorem filter_begins : ∀ first ∈ starters.map Prod.fst,
    order.filter (·.begins first) = (starters.lookup first).getD [] :=
  List.forall_mem_iff_forall_getElem.mpr (by decide)

theorem spots_starter {first : Char} (member : first ∈ starters.map Prod.fst)
    (rest : List Char) :
    spots (first :: rest) = ((starters.lookup first).getD []).filterMap fun kind =>
      (kind.match? (first :: rest)).map fun length => (kind, length) := by
  rw [spots_cons, filter_begins first member]

/-- A symbol that no longer one begins with is read as it is, whatever comes after. -/
theorem spots_symbol {text : List Char} {found : List (Terminal × Nat)}
    (member : (text, found) ∈ symbols) (rest : List Char) : spots (text ++ rest) = found := by
  simp only [symbols, List.mem_cons, Prod.mk.injEq, List.not_mem_nil, or_false] at member
  rcases member with ⟨rfl, rfl⟩ | ⟨rfl, rfl⟩ | ⟨rfl, rfl⟩ | ⟨rfl, rfl⟩ | ⟨rfl, rfl⟩ | ⟨rfl, rfl⟩ |
    ⟨rfl, rfl⟩ | ⟨rfl, rfl⟩ | ⟨rfl, rfl⟩ | ⟨rfl, rfl⟩ | ⟨rfl, rfl⟩ | ⟨rfl, rfl⟩ | ⟨rfl, rfl⟩ |
    ⟨rfl, rfl⟩ | ⟨rfl, rfl⟩ | ⟨rfl, rfl⟩ | ⟨rfl, rfl⟩ <;>
    exact spots_starter (by decide) _

/-- Any other symbol is read as it is before a delimiter. -/
theorem spots_shortSymbol {text : List Char} {found : List (Terminal × Nat)}
    (member : (text, found) ∈ shortSymbols) {rest : List Char} (delimited : Delimited rest) :
    spots (text ++ rest) = found := by
  obtain ⟨first, delimiter, rest, rfl⟩ := delimited
  simp only [shortSymbols, List.mem_cons, Prod.mk.injEq, List.not_mem_nil, or_false] at member
  simp only [delimiters, List.mem_cons, List.not_mem_nil, or_false] at delimiter
  rcases member with ⟨rfl, rfl⟩ | ⟨rfl, rfl⟩ | ⟨rfl, rfl⟩ | ⟨rfl, rfl⟩ | ⟨rfl, rfl⟩ | ⟨rfl, rfl⟩ |
    ⟨rfl, rfl⟩ | ⟨rfl, rfl⟩ | ⟨rfl, rfl⟩ <;>
    refine (spots_starter (by decide) _).trans ?_ <;>
    rcases delimiter with rfl | rfl | rfl | rfl | rfl | rfl | rfl | rfl | rfl <;> rfl

/-- A terminal that is tried exactly where it is admitted, and read as itself. -/
def isPlain (kind : Terminal) : Bool :=
  !kind.isIgnored && !kind.isKeyword && kind ≠ .name

theorem isTried_eq_of_isPlain {kind : Terminal} (plain : isPlain kind)
    (admitted : List Terminal) : isTried admitted kind = admitted.contains kind := by
  simp only [isPlain, Bool.and_eq_true, Bool.not_eq_true'] at plain
  simp [isTried, plain.1.1, plain.1.2]

theorem not_isTried {kind : Terminal} (plain : isPlain kind) {admitted : List Terminal}
    (other : kind ∉ admitted) : ¬isTried admitted kind = true := by
  rw [isTried_eq_of_isPlain plain]
  exact fun tried => other (List.contains_iff_mem.mp tried)

/-- The first thing that a text can be read as is read where it is admitted, and what it
cannot be read as does not matter. -/
theorem next?_of_spots (before : List (Terminal × Nat)) {admitted : List Terminal}
    {input : List Char} {kind : Terminal} {length : Nat} {others : List (Terminal × Nat)}
    (found : spots input = before ++ (kind, length) :: others)
    (unavailable : ∀ pair ∈ before, isPlain pair.1 ∧ pair.1 ∉ admitted) (plain : isPlain kind)
    (member : kind ∈ admitted) : next? admitted input = some (kind, length) := by
  have tried : isTried admitted kind = true := by
    rw [isTried_eq_of_isPlain plain]
    exact List.contains_iff_mem.mpr member
  have notName : kind ≠ .name := by
    simp only [isPlain, Bool.and_eq_true, decide_eq_true_eq] at plain
    exact plain.2
  have none : before.find? (fun pair => isTried admitted pair.1) = none :=
    List.find?_eq_none.mpr fun pair listed =>
      not_isTried (unavailable pair listed).1 (unavailable pair listed).2
  rw [next?_eq, found, List.find?_append, none, Option.none_or,
    List.find?_cons_of_pos (by exact tried), Option.map_some]
  simp only [notName, if_false]

/-- A text is not read where nothing that it can be read as is admitted. -/
theorem next?_of_not_admitted {admitted : List Terminal} {input : List Char}
    (other : ∀ pair ∈ spots input, isPlain pair.1 ∧ pair.1 ∉ admitted) :
    next? admitted input = none := by
  rw [next?_eq, Option.map_eq_none_iff, List.find?_eq_none]
  exact fun pair member => not_isTried (other pair member).1 (other pair member).2

/-! ## Names, literals and white space -/

/-- A candidate is read when no earlier terminal matches. -/
theorem next?_of_split {admitted after : List Terminal} (before : List Terminal) (kind : Terminal)
    {input : List Char} {length : Nat} (split : order = before ++ kind :: after)
    (unmatched : ∀ other ∈ before, other.match? input = none)
    (tried : isTried admitted kind) (found : kind.match? input = some length) :
    next? admitted input = some (if kind = .name then (classify admitted (input.take length), length)
      else (kind, length)) := by
  have none : before.filterMap (fun kind => (kind.match? input).map fun length => (kind, length)) =
      [] := by
    rw [List.filterMap_eq_nil_iff]
    intro other member
    rw [unmatched other member, Option.map_none]
  rw [next?_eq, spots, split, List.filterMap_append, none, List.nil_append, List.filterMap_cons,
    found]
  simp [tried]

theorem isTried_of_mem {admitted : List Terminal} {kind : Terminal} (member : kind ∈ admitted)
    (plain : kind.isKeyword = false) : isTried admitted kind := by
  simp [isTried, member, plain]

/-- Where the characters are that may begin a name. -/
theorem toNat_of_isNameStart {first : Char} (begins : isNameStart first) :
    65 ≤ first.toNat ∧ first.toNat < 123 := by
  unfold isNameStart Char.isAlpha Char.isUpper Char.isLower at begins
  simp only [ge_iff_le, Bool.or_eq_true, Bool.and_eq_true, decide_eq_true_eq,
    UInt32.le_iff_toNat_le] at begins
  have code : first.val.toNat = first.toNat := rfl
  rcases begins with (⟨lower, upper⟩ | ⟨lower, upper⟩) | rfl
  · simp only [code] at lower upper
    exact ⟨lower, Nat.lt_of_le_of_lt upper (by decide)⟩
  · simp only [code] at lower upper
    exact ⟨Nat.le_trans (by decide) lower, Nat.lt_of_le_of_lt upper (by decide)⟩
  · decide

/-- No decimal digit of any script begins a name. -/
theorem not_isDecimalDigit_of_isNameStart {first : Char} (begins : isNameStart first) :
    isDecimalDigit first = false := by
  have apart : ∀ least ∈ DecimalDigit.zeros, least + 10 ≤ 65 ∨ 123 ≤ least := by decide
  have bounds := toNat_of_isNameStart begins
  rw [isDecimalDigit, DecimalDigit.value?, Option.isSome_map, ← Bool.not_eq_true,
    List.find?_isSome]
  rintro ⟨least, member, inside⟩
  have away := apart least member
  simp only [Bool.and_eq_true, decide_eq_true_eq] at inside
  omega

/-- A name before a delimiter is not a code point. -/
theorem codepoint_name_append {text rest : List Char}
    (whole : Pattern.name text = some text.length) (delimited : Delimited rest) :
    codepoint (text ++ rest) = none := by
  obtain ⟨delimiter, member, others, rfl⟩ := delimited
  rw [codepoint.eq_def]
  split
  · rename_i same
    cases text with
    | nil => cases whole
    | cons first more =>
      cases more with
      | nil =>
        obtain ⟨-, rfl, -⟩ : _ ∧ _ ∧ _ := by simpa using same
        exact absurd member (by decide)
      | cons second more =>
        obtain ⟨rfl, rfl, -⟩ : first = 'U' ∧ second = '+' ∧ _ := by simpa using same
        have short : run isNamePart ('+' :: more) = 0 := rfl
        simp [Pattern.name, short] at whole
  · rfl

/-- A terminal that cannot begin with the first character does not match. -/
theorem match?_eq_none {kind : Terminal} {first : Char} {rest : List Char}
    (other : kind.begins first = false) : kind.match? (first :: rest) = none := by
  cases found : kind.match? (first :: rest) with
  | none => rfl
  | some length => exact absurd ((Terminal.begins_of_match? found).symm.trans other) nofun

/-- Where names are admitted, a whole name before a delimiter is read, and sorted. -/
theorem next?_name {admitted : List Terminal} {text rest : List Char}
    (tried : .name ∈ admitted) (whole : Pattern.name text = some text.length)
    (delimited : Delimited rest) :
    next? admitted (text ++ rest) = some (classify admitted text, text.length) := by
  have begins : ∃ first more, text = first :: more ∧ isNameStart first := by
    cases text with
    | nil => exact absurd whole nofun
    | cons first more => exact ⟨first, more, rfl, isNameStart_of_name whole⟩
  obtain ⟨first, more, shape, starts⟩ := begins
  have bounds := toNat_of_isNameStart starts
  have unlike (character : Char) (outside : character.toNat < 65) : first ≠ character := by
    rintro rfl
    omega
  rw [next?_of_split [.decimal, .codepoint, .comment, .doubleQuoted, .singleQuoted]
    .name rfl ?_ (isTried_of_mem tried rfl)
    (name_append whole delimited)]
  · simp
  · intro other member
    simp only [List.mem_cons, List.not_mem_nil, or_false] at member
    rcases member with rfl | rfl | rfl | rfl | rfl
    · rw [shape, List.cons_append]
      exact match?_eq_none (not_isDecimalDigit_of_isNameStart starts)
    · exact codepoint_name_append whole delimited
    all_goals
      rw [shape, List.cons_append]
      exact match?_eq_none (by simpa [Terminal.begins] using unlike _ (by decide))

/-- The literals whose texts are classes of their own. -/
def quotations : List Terminal := [.integer, .decimal, .codepoint, .doubleQuoted, .singleQuoted]

/-- The input of a candidate is not empty. -/
theorem exists_cons_of_match? {kind : Terminal} {text : List Char}
    (whole : kind.match? text = some text.length) : ∃ first more, text = first :: more := by
  cases text with
  | nil => exact absurd (Terminal.match?_pos whole) (Nat.lt_irrefl 0)
  | cons first more => exact ⟨first, more, rfl⟩

/-- A decimal digit begins numbers only. -/
theorem not_begins_of_isDecimalDigit {first : Char} (digit : isDecimalDigit first) :
    ∀ kind ∈ [Terminal.codepoint, .comment, .doubleQuoted, .singleQuoted, .name],
      kind.begins first = false := by
  have unlike (character : Char) (other : isDecimalDigit character = false) :
      first ≠ character := by
    rintro rfl
    exact absurd (digit.symm.trans other) nofun
  intro kind member
  simp only [List.mem_cons, List.not_mem_nil, or_false] at member
  rcases member with rfl | rfl | rfl | rfl | rfl
  case inr.inr.inr.inr =>
    cases begins : Terminal.name.begins first with
    | false => rfl
    | true => exact absurd (digit.symm.trans (not_isDecimalDigit_of_isNameStart begins)) nofun
  all_goals simpa [Terminal.begins] using unlike _ (by decide)

/-- A whole literal before a delimiter is read. -/
theorem next?_literal {admitted : List Terminal} {kind : Terminal} {text rest : List Char}
    (literal : kind ∈ quotations) (tried : kind ∈ admitted)
    (whole : kind.match? text = some text.length) (delimited : Delimited rest) :
    next? admitted (text ++ rest) = some (kind, text.length) := by
  obtain ⟨first, more, rfl⟩ := exists_cons_of_match? whole
  have begins := Terminal.begins_of_match? whole
  simp only [quotations, List.mem_cons, List.not_mem_nil, or_false] at literal
  rcases literal with rfl | rfl | rfl | rfl | rfl
  case inl =>
    rw [next?_of_split [.decimal, .codepoint, .comment, .doubleQuoted,
      .singleQuoted, .name] .integer rfl ?_ (isTried_of_mem tried rfl)
      (integer_append whole delimited), if_neg nofun]
    intro other member
    rcases List.mem_cons.mp member with rfl | later
    · exact decimal_integer_append whole delimited
    · exact match?_eq_none (not_begins_of_isDecimalDigit begins other later)
  case inr.inl =>
    rw [next?_of_split [] .decimal rfl nofun (isTried_of_mem tried rfl)
      (decimal_append whole delimited), if_neg nofun]
  case inr.inr.inl =>
    obtain rfl := of_decide_eq_true begins
    rw [next?_of_split [.decimal] .codepoint rfl ?_
      (isTried_of_mem tried rfl) (codepoint_append whole delimited), if_neg nofun]
    intro other member
    obtain rfl := List.mem_singleton.mp member
    exact match?_eq_none (by decide)
  case inr.inr.inr.inl =>
    obtain rfl := of_decide_eq_true begins
    have quoted : quotedText '"' ('"' :: more) = some ('"' :: more).length := whole
    have found : Terminal.doubleQuoted.match? ('"' :: more ++ rest) = some ('"' :: more).length :=
      quotedText_append (by decide) quoted rest
    rw [next?_of_split [.decimal, .codepoint, .comment] .doubleQuoted rfl ?_
      (isTried_of_mem tried rfl) found, if_neg nofun]
    exact fun other member => match?_eq_none
      ((by decide : ∀ other ∈ [Terminal.decimal, .codepoint, .comment],
        other.begins '"' = false) other member)
  case inr.inr.inr.inr =>
    obtain rfl := of_decide_eq_true begins
    have quoted : quotedText '\'' ('\'' :: more) = some ('\'' :: more).length := whole
    have found : Terminal.singleQuoted.match? ('\'' :: more ++ rest) =
        some ('\'' :: more).length := quotedText_append (by decide) quoted rest
    rw [next?_of_split [.decimal, .codepoint, .comment, .doubleQuoted] .singleQuoted rfl ?_
      (isTried_of_mem tried rfl) found, if_neg nofun]
    exact fun other member => match?_eq_none
      ((by decide : ∀ other ∈ [Terminal.decimal, .codepoint, .comment, .doubleQuoted],
        other.begins '\'' = false) other member)

/-- No terminal but white space begins with white space. -/
theorem not_isSkipped_of_begins {kind : Terminal} (visible : kind ≠ .blank) {first : Char}
    (begins : kind.begins first) : isSkipped first = false := by
  have apart : ∀ character ∈ [' ', '\t', '\x0c', '\r', '\n'], ∀ kind ∈ Terminal.all,
      kind ≠ .blank → kind.begins character = false :=
    List.forall_mem_iff_forall_getElem.mpr (by decide)
  cases skipped : isSkipped first with
  | false => rfl
  | true =>
    have member : first ∈ [' ', '\t', '\x0c', '\r', '\n'] := by
      simpa [isSkipped, or_assoc] using skipped
    exact absurd (begins.symm.trans (apart first member kind (Terminal.mem_all _) visible)) nofun

/-- A single space before something else is read as white space. -/
theorem next?_space (admitted : List Terminal) {first : Char} (visible : isSkipped first = false)
    (rest : List Char) : next? admitted (' ' :: first :: rest) = some (.blank, 1) := by
  have found : Terminal.blank.match? (' ' :: first :: rest) = some 1 := by
    simp [Terminal.match?, someRun, run, visible, show isSkipped ' ' = true by decide]
  rw [next?_of_split [.decimal, .codepoint, .comment, .doubleQuoted, .singleQuoted,
    .name, .integer] .blank rfl ?_ rfl found, if_neg (by decide)]
  exact fun other member => match?_eq_none
    ((by decide : ∀ other ∈ [Terminal.decimal, .codepoint, .comment, .doubleQuoted,
      .singleQuoted, .name, .integer], other.begins ' ' = false) other member)

/-! ## Words -/

/-- A character that begins a name, a keyword, or a literal. -/
def beginsWord (first : Char) : Bool :=
  isNameStart first || isDecimalDigit first || first = '"' || first = '\''

/-- The terminals whose texts can begin so: names, literals and keywords. -/
def isWord (kind : Terminal) : Bool :=
  kind = .name || quotations.contains kind || kind.isKeyword

theorem isWord_of_begins {kind : Terminal} {first : Char} (word : beginsWord first)
    (begins : kind.begins first) : isWord kind := by
  have unlike (character : Char) (other : beginsWord character = false) : first ≠ character := by
    rintro rfl
    exact absurd (word.symm.trans other) nofun
  have unlikeHead {text : List Char} (other : text.head?.any beginsWord = false) :
      ¬text.head? = some first := by
    intro same
    rw [same, Option.any_some, word] at other
    exact absurd other nofun
  cases kind
  case comparison =>
    have member : first ∈ ['=', '!', '<', '>'] := List.contains_iff_mem.mp begins
    have apart : ∀ character ∈ ['=', '!', '<', '>'], beginsWord character = false :=
      List.forall_mem_iff_forall_getElem.mpr (by decide)
    exact absurd rfl (unlike first (apart first member))
  case comment =>
    exact absurd (of_decide_eq_true begins) (unlike '/' (by decide))
  case blank =>
    have spaces : isSkipped first = true := begins
    simp only [isSkipped, Bool.or_eq_true, decide_eq_true_eq] at spaces
    rcases spaces with (((same | same) | same) | same) | same <;>
      exact absurd same (unlike _ (by decide))
  case endOfInput => exact begins
  all_goals first
    | rfl
    | exact absurd (of_decide_eq_true begins) (unlikeHead (by decide))

/-- A name is sorted as a keyword or a name. -/
theorem isWord_classify (admitted : List Terminal) (text : List Char) :
    isWord (classify admitted text) := by
  rw [classify]
  cases found : admitted.find? fun terminal =>
      terminal.isKeyword && terminal.fixedText? == some (String.ofList text) with
  | none => rfl
  | some kind =>
    have passed := List.find?_some found
    simp [isWord, (Bool.and_eq_true_iff.mp passed).1]

/-- An admitted keyword is what its text is sorted as. -/
theorem classify_keyword {admitted : List Terminal} {kind : Terminal} (member : kind ∈ admitted)
    (keyword : kind.isKeyword) {text : List Char}
    (spelled : kind.fixedText? = some (String.ofList text)) : classify admitted text = kind := by
  have apart : ∀ first ∈ Terminal.all, ∀ second ∈ Terminal.all, first.isKeyword →
      first.fixedText? = second.fixedText? → first = second := by
    decide
  rw [classify]
  cases found : admitted.find? fun terminal =>
      terminal.isKeyword && terminal.fixedText? == some (String.ofList text) with
  | none =>
    have missed := List.find?_eq_none.mp found kind member
    simp [keyword, spelled] at missed
  | some other =>
    have passed := List.find?_some found
    simp only [Bool.and_eq_true, beq_iff_eq] at passed
    exact apart other (Terminal.mem_all _) kind (Terminal.mem_all _) passed.1
      (passed.2.trans spelled.symm)

/-- A text that no admitted keyword is spelled like is sorted as a name. -/
theorem classify_name {admitted : List Terminal} {text : List Char}
    (other : ∀ kind ∈ admitted, kind.isKeyword → kind.fixedText? ≠ some (String.ofList text)) :
    classify admitted text = .name := by
  rw [classify, List.find?_eq_none.mpr, Option.getD_none]
  intro kind member passed
  simp only [Bool.and_eq_true, beq_iff_eq] at passed
  exact other kind member passed.1 passed.2

/-- Wherever a word begins, only a word is read. -/
theorem isWord_of_next? {admitted : List Terminal} {first : Char} {rest : List Char}
    {kind : Terminal} {length : Nat} (word : beginsWord first)
    (found : next? admitted (first :: rest) = some (kind, length)) : isWord kind := by
  obtain ⟨⟨tried, count⟩, matched, same⟩ := Option.map_eq_some_iff.mp found
  obtain ⟨other, -, here⟩ := List.exists_of_findSome?_eq_some matched
  obtain ⟨size, fits, pair⟩ := Option.map_eq_some_iff.mp here
  obtain ⟨rfl, rfl⟩ := Prod.mk.inj pair
  simp only at same
  split at same
  · obtain ⟨rfl, -⟩ := Prod.mk.inj same
    exact isWord_classify _ _
  · obtain ⟨rfl, -⟩ := Prod.mk.inj same
    exact isWord_of_begins word (Terminal.begins_of_match? fits)

end Lexer

end GlyphCompiler
