/-
# Tokens and what comes after them

No terminal but a quotation and ignored text reaches past a character that can begin
white space or a comment. So putting some of these behind a token, or behind a later
one, does not change what is read there: the token is as long as before, and nothing
that is tried before it begins to match.
-/

import GlyphCompiler.Proofs.Parser.Spelling

namespace GlyphCompiler

namespace Pattern

/-- The characters that white space and comments begin with. -/
def separators : List Char := [' ', '\t', '\x0c', '\r', '\n', '/']

theorem separators_not_namePart : ∀ character ∈ separators, isNamePart character = false :=
  List.forall_mem_iff_forall_getElem.mpr (by decide)

theorem separators_not_hexDigit : ∀ character ∈ separators, isHexDigit character = false :=
  List.forall_mem_iff_forall_getElem.mpr (by decide)

theorem separators_not_decimalDigit : ∀ character ∈ separators, isDecimalDigit character = false :=
  List.forall_mem_iff_forall_getElem.mpr (by decide)

section

variable {test : Char → Bool} {text back rest : List Char} {separator : Char}

/-- A run ends at a character that fails its test. -/
theorem run_separated (fails : test separator = false) :
    run test (text ++ separator :: rest) = run test text := by
  rw [run, run, List.takeWhile_append]
  split
  · next full => simp [fails, full]
  · rfl

theorem run_le_run_append (test : Char → Bool) (text back : List Char) :
    run test text ≤ run test (text ++ back) := by
  rw [run, run, List.takeWhile_append]
  split
  · next full =>
    rw [List.length_append]
    omega
  · exact Nat.le_refl _

/-- A run is as long as the text in front if all of that passes and nothing goes on with it. -/
theorem run_append_eq_length_iff :
    run test (text ++ rest) = text.length ↔ run test text = text.length ∧ run test rest = 0 := by
  rw [run, run, run, List.takeWhile_append]
  split
  · next full =>
    rw [List.length_append]
    omega
  · next short => exact iff_of_false short fun both => short both.1

/-- A run that ends with a text still does when something that it does not go on with is
put behind. -/
theorem run_kept {more : List Char} (whole : run test (text ++ (more ++ back)) = text.length)
    (fails : test separator = false) :
    run test (text ++ (more ++ separator :: rest)) = text.length := by
  obtain ⟨full, stops⟩ := run_append_eq_length_iff.mp whole
  refine run_append_eq_length_iff.mpr ⟨full, ?_⟩
  have le := run_le_run_append test more back
  rw [run_separated fails]
  omega

/-! ## What does not begin to match -/

theorem someRun_of_separated (fails : test separator = false)
    (found : (someRun test (text ++ separator :: rest)).isSome) :
    (someRun test (text ++ back)).isSome := by
  have le := run_le_run_append test text back
  simp only [someRun, run_separated fails] at found ⊢
  split at found
  · cases found
  · rw [if_neg (by omega)]
    rfl

theorem name_of_separated (nonempty : text ≠ [])
    (found : (name (text ++ separator :: rest)).isSome) : (name (text ++ back)).isSome := by
  obtain ⟨first, more, rfl⟩ := List.exists_cons_of_ne_nil nonempty
  simp only [List.cons_append, name] at found ⊢
  split at found
  · next starts =>
    rw [if_pos starts]
    rfl
  · cases found

theorem decimal_of_separated (member : separator ∈ separators)
    (found : (decimal (text ++ separator :: rest)).isSome) : (decimal (text ++ back)).isSome := by
  have fails := separators_not_decimalDigit separator member
  rw [decimal] at found
  split at found
  · cases found
  next whole isWhole =>
  obtain ⟨isRun, nonzero⟩ := someRun_eq_some_iff.mp isWhole
  rw [run_separated fails] at isRun
  have least : whole ≤ text.length := isRun ▸ run_le_length isDecimalDigit text
  rw [List.drop_append_of_le_length least] at found
  split at found
  · next places isPoint =>
    -- the point stands in the text, since it is no separator
    cases left : text.drop whole with
    | nil =>
      rw [left] at isPoint
      obtain rfl : separator = '.' := (List.cons.inj isPoint).1
      exact absurd member (by decide)
    | cons point more =>
      rw [left] at isPoint
      obtain ⟨rfl, rfl⟩ := List.cons.inj isPoint
      have short : run isDecimalDigit text < text.length := by
        have := congrArg List.length left
        rw [List.length_drop, List.length_cons] at this
        omega
      have same : someRun isDecimalDigit (text ++ back) = some whole :=
        someRun_eq_some_iff.mpr ⟨(run_append_of_lt short).trans isRun, nonzero⟩
      rw [decimal, same]
      simp only [List.drop_append_of_le_length least, left, List.cons_append, Option.isSome_map] at found ⊢
      exact someRun_of_separated fails found
  · cases found

theorem codepoint_of_separated (nonempty : text ≠ []) (member : separator ∈ separators)
    (found : (codepoint (text ++ separator :: rest)).isSome) : (codepoint (text ++ back)).isSome := by
  obtain ⟨first, more, rfl⟩ := List.exists_cons_of_ne_nil nonempty
  cases more with
  | nil =>
    rw [codepoint.eq_def] at found
    split at found
    · next same =>
      obtain ⟨-, rfl, -⟩ : first = 'U' ∧ separator = '+' ∧ rest = _ := by simpa using same
      exact absurd member (by decide)
    · cases found
  | cons second digits =>
    rw [codepoint.eq_def] at found
    split at found
    · next same =>
      obtain ⟨rfl, rfl, rfl⟩ : first = 'U' ∧ second = '+' ∧ digits ++ separator :: rest = _ := by
        simpa using same
      have le := run_le_run_append isHexDigit digits back
      simp only [run_separated (separators_not_hexDigit separator member)] at found
      split at found
      · next enough =>
        simp only [List.cons_append, codepoint]
        rw [if_pos (by omega)]
        rfl
      · cases found
    · cases found

/-- Two characters decide what a comparison is. -/
theorem comparison_cons (first : Char) (rest : List Char) :
    comparison (first :: rest) =
      if rest.head? = some '=' ∧ first ∈ ['=', '!', '<', '>'] then some 2
      else if first ∈ ['<', '>'] then some 1 else none := by
  rw [comparison.eq_def]
  split <;> simp_all [List.head?_eq_some_iff]
  grind

theorem comparison_of_separated (nonempty : text ≠ []) (member : separator ∈ separators)
    (found : (comparison (text ++ separator :: rest)).isSome) :
    (comparison (text ++ back)).isSome := by
  obtain ⟨first, more, rfl⟩ := List.exists_cons_of_ne_nil nonempty
  rw [List.cons_append, comparison_cons] at found ⊢
  cases more with
  | nil =>
    have other : separator ≠ '=' := by
      rintro rfl
      exact absurd member (by decide)
    grind
  | cons second more => exact found

theorem fixed_eq_some_iff {word input : List Char} {length : Nat} :
    fixed word input = some length ↔ word <+: input ∧ length = word.length := by
  rw [fixed, ← List.isPrefixOf_iff_prefix]
  split
  · next begins => simp [begins, eq_comm]
  · next other => simp [other]

theorem fixed_of_separated {word : List Char} (nonempty : text ≠ [])
    (plain : separator ∉ word.tail) (found : (fixed word (text ++ separator :: rest)).isSome) :
    (fixed word (text ++ back)).isSome := by
  obtain ⟨length, found⟩ := Option.isSome_iff_exists.mp found
  obtain ⟨begins, -⟩ := fixed_eq_some_iff.mp found
  have within : word <+: text := by
    obtain within | ⟨more, rfl⟩ :=
      List.prefix_or_prefix_of_prefix begins (List.prefix_append text (separator :: rest))
    · exact within
    cases more with
    | nil => exact ⟨[], by simp⟩
    | cons first more =>
      obtain ⟨rfl, -⟩ := List.cons_prefix_cons.mp ((List.prefix_append_right_inj text).mp begins)
      refine absurd ?_ plain
      obtain ⟨head, tail, rfl⟩ := List.exists_cons_of_ne_nil nonempty
      simp
  exact Option.isSome_iff_exists.mpr
    ⟨_, fixed_eq_some_iff.mpr ⟨within.trans (List.prefix_append text back), rfl⟩⟩

/-! ## Matches lie within the input -/

section

variable {input : List Char} {length : Nat}

theorem someRun_le {test : Char → Bool} (found : someRun test input = some length) :
    length ≤ input.length := by
  obtain ⟨rfl, -⟩ := someRun_eq_some_iff.mp found
  exact run_le_length test input

theorem name_le (found : name input = some length) : length ≤ input.length := by
  cases input with
  | nil => cases found
  | cons first rest =>
    have := run_le_length isNamePart rest
    grind [name]

theorem decimal_le (found : decimal input = some length) : length ≤ input.length := by
  revert found
  fun_cases decimal input with
  | case1 => simp
  | case2 whole isWhole places isPoint =>
    intro found
    obtain ⟨count, isCount, rfl⟩ := Option.map_eq_some_iff.mp found
    have := someRun_le isCount
    have size := congrArg List.length isPoint
    rw [List.length_drop, List.length_cons] at size
    omega
  | case3 => simp

theorem codepoint_le (found : codepoint input = some length) : length ≤ input.length := by
  revert found
  fun_cases codepoint input with
  | case1 rest digits enough =>
    have := run_le_length isHexDigit rest
    grind
  | case2 | case3 => simp

theorem closing_le {quote : Char} (found : closing quote input = some length) :
    length ≤ input.length := by
  fun_induction closing quote input generalizing length <;> grind [Option.map_eq_some_iff]

theorem quotedText_le {quote : Char} (found : quotedText quote input = some length) :
    length ≤ input.length := by
  revert found
  fun_cases quotedText quote input with
  | case1 | case3 => simp
  | case2 rest =>
    intro found
    obtain ⟨count, closed, rfl⟩ := Option.map_eq_some_iff.mp found
    have := closing_le closed
    rw [List.length_cons]
    omega

theorem commentEnd_le (found : commentEnd input = some length) : length ≤ input.length := by
  fun_induction commentEnd input generalizing length <;> grind [Option.map_eq_some_iff]

theorem comment_le (found : comment input = some length) : length ≤ input.length := by
  revert found
  fun_cases comment input with
  | case1 rest =>
    intro found
    obtain ⟨count, ends, rfl⟩ := Option.map_eq_some_iff.mp found
    have := commentEnd_le ends
    simp only [List.length_cons]
    omega
  | case2 => simp

theorem comparison_le (found : comparison input = some length) : length ≤ input.length := by
  revert found
  fun_cases comparison input <;> grind

theorem fixed_le {word : List Char} (found : fixed word input = some length) :
    length ≤ input.length := by
  obtain ⟨begins, rfl⟩ := fixed_eq_some_iff.mp found
  exact begins.length_le

end

/-! ## What is as long as before -/

section

variable {more : List Char}

theorem someRun_kept (fails : test separator = false)
    (found : someRun test (text ++ (more ++ back)) = some text.length) :
    someRun test (text ++ (more ++ separator :: rest)) = some text.length := by
  obtain ⟨whole, nonzero⟩ := someRun_eq_some_iff.mp found
  exact someRun_eq_some_iff.mpr ⟨run_kept whole fails, nonzero⟩

theorem name_kept (member : separator ∈ separators)
    (found : name (text ++ (more ++ back)) = some text.length) :
    name (text ++ (more ++ separator :: rest)) = some text.length := by
  cases text with
  | nil => exact absurd (name_pos found) (Nat.lt_irrefl 0)
  | cons first others =>
    rw [List.cons_append, name] at found ⊢
    split at found
    · next starts =>
      have whole : run isNamePart (others ++ (more ++ back)) = others.length := by
        simp only [Option.some.injEq, List.length_cons] at found
        omega
      rw [if_pos starts, run_kept whole (separators_not_namePart separator member),
        List.length_cons, Nat.add_comm]
    · cases found

theorem decimal_kept (member : separator ∈ separators)
    (found : decimal (text ++ (more ++ back)) = some text.length) :
    decimal (text ++ (more ++ separator :: rest)) = some text.length := by
  have fails := separators_not_decimalDigit separator member
  rw [decimal] at found
  split at found
  · cases found
  next whole isWhole =>
  split at found
  · next places isPoint =>
    obtain ⟨count, isCount, total⟩ := Option.map_eq_some_iff.mp found
    have least : whole ≤ text.length := by omega
    rw [List.drop_append_of_le_length least] at isPoint
    cases left : text.drop whole with
    | nil =>
      have := congrArg List.length left
      rw [List.length_drop, List.length_nil] at this
      omega
    | cons point others =>
      have length := congrArg List.length left
      rw [List.length_drop, List.length_cons] at length
      rw [left, List.cons_append] at isPoint
      obtain ⟨rfl, rfl⟩ := List.cons.inj isPoint
      obtain rfl : count = others.length := by omega
      obtain ⟨isRun, nonzero⟩ := someRun_eq_some_iff.mp isWhole
      have short : run isDecimalDigit text < text.length := by
        have := run_le_run_append isDecimalDigit text (more ++ back)
        omega
      have same : someRun isDecimalDigit (text ++ (more ++ separator :: rest)) = some whole := by
        rw [run_append_of_lt short] at isRun
        exact someRun_eq_some_iff.mpr ⟨(run_append_of_lt short).trans isRun, nonzero⟩
      rw [decimal, same]
      simp only [List.drop_append_of_le_length least, left, List.cons_append]
      rw [someRun_kept fails isCount, Option.map_some, total]
  · cases found

/-- A run that is cut off at a number of characters is as long as before. -/
theorem min_run_kept {most : Nat} (whole : min most (run test (text ++ (more ++ back))) = text.length)
    (fails : test separator = false) :
    min most (run test (text ++ (more ++ separator :: rest))) = text.length := by
  have full : run test text = text.length := by
    refine Decidable.byContradiction fun short => ?_
    have := run_le_length test text
    rw [run_append_of_lt (by omega)] at whole
    omega
  have atLeast := run_le_run_append test text (more ++ separator :: rest)
  by_cases cut : most ≤ text.length
  · omega
  · have same : run test (text ++ (more ++ back)) = text.length := by omega
    rw [run_kept same fails]
    omega

theorem codepoint_kept (member : separator ∈ separators)
    (found : codepoint (text ++ (more ++ back)) = some text.length) :
    codepoint (text ++ (more ++ separator :: rest)) = some text.length := by
  cases text with
  | nil => exact absurd (codepoint_pos found) (Nat.lt_irrefl 0)
  | cons first others =>
    cases others with
    | nil =>
      unfold codepoint at found
      split at found
      · simp only at found
        split at found
        · have := Option.some.inj found
          simp only [List.length_cons, List.length_nil] at this
          omega
        · cases found
      · cases found
    | cons second digits =>
      rw [List.cons_append, List.cons_append] at found ⊢
      unfold codepoint at found
      split at found
      · next same =>
        obtain ⟨rfl, rfl, rfl⟩ : first = 'U' ∧ second = '+' ∧ digits ++ (more ++ back) = _ := by
          simpa using same
        simp only at found
        split at found
        · next enough =>
          simp only [Option.some.injEq, List.length_cons] at found
          have whole : min 6 (run isHexDigit (digits ++ (more ++ back))) = digits.length := by omega
          have kept : min 6 (run isHexDigit (digits ++ (more ++ separator :: rest))) =
              digits.length :=
            min_run_kept whole (separators_not_hexDigit separator member)
          simp only [codepoint, kept, List.length_cons]
          rw [if_pos (by omega)]
          congr 1
          omega
        · cases found
      · cases found

theorem comparison_kept (member : separator ∈ separators)
    (found : comparison (text ++ (more ++ back)) = some text.length) :
    comparison (text ++ (more ++ separator :: rest)) = some text.length := by
  cases text with
  | nil => exact absurd (comparison_pos found) (Nat.lt_irrefl 0)
  | cons first others =>
    rw [List.cons_append, comparison_cons] at found ⊢
    cases others with
    | cons second others => exact found
    | nil =>
      -- a single character: what comes next was no equality sign, and is none now
      cases more with
      | cons second more => exact found
      | nil =>
        have other : separator ≠ '=' := by
          rintro rfl
          exact absurd member (by decide)
        grind

theorem fixed_kept {word : List Char} (found : fixed word (text ++ back) = some text.length)
    (rest : List Char) : fixed word (text ++ rest) = some text.length := by
  obtain ⟨begins, same⟩ := fixed_eq_some_iff.mp found
  have within : word <+: text :=
    List.prefix_of_prefix_length_le begins (List.prefix_append text back) (Nat.le_of_eq same.symm)
  exact fixed_eq_some_iff.mpr ⟨within.trans (List.prefix_append text rest), same⟩

/-- A quotation closes where it does, whatever comes after. -/
theorem closing_of_closes {quote : Char} (unescaped : quote ≠ '\\') (closes : Closes quote text)
    (rest : List Char) : closing quote (text ++ rest) = some text.length := by
  induction closes with
  | quote => simp [closing, unescaped]
  | escape sameLine _ ih =>
    simp only [List.cons_append, closing, ih, Option.map_some, List.length_cons, Option.some.injEq]
    omega
  | plain other unescaped sameLine _ ih => simp [closing, other, unescaped, sameLine, ih, Nat.add_comm]

theorem quotedText_kept {quote : Char} (unescaped : quote ≠ '\\')
    (found : quotedText quote (text ++ back) = some text.length) (rest : List Char) :
    quotedText quote (text ++ rest) = some text.length := by
  obtain ⟨inside, same, closes⟩ := Terminal.exists_closes_of_quotedText found
  rw [List.take_left] at same
  subst same
  rw [List.cons_append, quotedText, if_pos rfl, closing_of_closes unescaped closes,
    Option.map_some, List.length_cons, Nat.add_comm]

end

end

end Pattern

namespace Terminal

open Pattern

variable {text more back rest : List Char} {separator : Char}

/-- A match lies within the input. -/
theorem match?_le {kind : Terminal} {input : List Char} {length : Nat}
    (found : kind.match? input = some length) : length ≤ input.length := by
  cases kind <;> simp only [match?, fixedText?, Option.bind_some] at found <;>
    first
    | exact Pattern.fixed_le found
    | exact Pattern.comparison_le found
    | exact Pattern.name_le found
    | exact Pattern.someRun_le found
    | exact Pattern.decimal_le found
    | exact Pattern.codepoint_le found
    | exact Pattern.quotedText_le found
    | exact Pattern.comment_le found
    | cases found

/-- Terminals that never reach past a separator. -/
def isBounded (kind : Terminal) : Bool :=
  !([comment, blank, doubleQuoted, singleQuoted].contains kind)

theorem isBounded_or (kind : Terminal) :
    kind.isBounded ∨ kind = comment ∨ kind = blank ∨ kind = doubleQuoted ∨ kind = singleQuoted := by
  cases kind <;> simp [isBounded]

theorem separators_not_mem_tail (kind : Terminal) :
    ∀ separator ∈ separators, ∀ word, kind.fixedText? = some word → separator ∉ word.toList.tail := by
  have all : (Terminal.all.all fun kind => separators.all fun separator =>
      kind.fixedText?.all fun word => !word.toList.tail.contains separator) = true := by
    decide +kernel
  intro separator member word isWord
  have apart := List.all_eq_true.mp (List.all_eq_true.mp all kind (Terminal.mem_all kind)) separator
    member
  rw [isWord] at apart
  simpa using apart

/-- What matches before a separator still matches without it. -/
theorem match?_of_separated {kind : Terminal} (bounded : kind.isBounded) (nonempty : text ≠ [])
    (member : separator ∈ separators) (found : (kind.match? (text ++ separator :: rest)).isSome) :
    (kind.match? (text ++ back)).isSome := by
  have tail := separators_not_mem_tail kind separator member
  cases kind
  case name => exact name_of_separated nonempty found
  case integer => exact someRun_of_separated (separators_not_decimalDigit separator member) found
  case decimal => exact decimal_of_separated member found
  case codepoint => exact codepoint_of_separated nonempty member found
  case comparison => exact comparison_of_separated nonempty member found
  case comment | blank | doubleQuoted | singleQuoted => cases bounded
  case endOfInput => cases found
  all_goals exact fixed_of_separated nonempty (tail _ rfl) found

/-- A token is as long as before when something is put behind it, or further behind. -/
theorem match?_kept {kind : Terminal} (kept : kind.isIgnored = false)
    (member : separator ∈ separators)
    (found : kind.match? (text ++ (more ++ back)) = some text.length) :
    kind.match? (text ++ (more ++ separator :: rest)) = some text.length := by
  cases kind
  case name => exact name_kept member found
  case integer => exact someRun_kept (separators_not_decimalDigit separator member) found
  case decimal => exact decimal_kept member found
  case codepoint => exact codepoint_kept member found
  case comparison => exact comparison_kept member found
  case doubleQuoted | singleQuoted => exact quotedText_kept (by decide) found _
  case comment | blank => cases kept
  case endOfInput => cases found
  all_goals exact fixed_kept found _

end Terminal

namespace Lexer

open Pattern

variable {text more back rest : List Char} {separator : Char}

/-- What is read is what the first matching candidate matches, and its kind is that of the
candidate, or of a keyword if this is a name. -/
theorem next?_eq_some_iff {admitted : List Terminal} {input : List Char} {kind : Terminal}
    {length : Nat} :
    next? admitted input = some (kind, length) ↔
      ∃ before tried after, candidates admitted = before ++ tried :: after ∧
        (∀ other ∈ before, other.match? input = none) ∧ tried.match? input = some length ∧
        kind = if tried = .name then classify admitted (input.take length) else tried := by
  rw [next?, Option.map_eq_some_iff]
  constructor
  · rintro ⟨⟨tried, size⟩, found, same⟩
    obtain ⟨before, _, after, split, here, missed⟩ := List.findSome?_eq_some_iff.mp found
    obtain ⟨_, fits, pair⟩ := Option.map_eq_some_iff.mp here
    cases pair
    refine ⟨before, tried, after, split, fun other member => ?_, ?_⟩
    · exact Option.map_eq_none_iff.mp (missed other member)
    · dsimp only at same
      by_cases isName : tried = .name
      · rw [if_pos isName] at same ⊢
        obtain ⟨rfl, rfl⟩ := Prod.mk.inj same
        exact ⟨fits, rfl⟩
      · rw [if_neg isName] at same ⊢
        obtain ⟨rfl, rfl⟩ := Prod.mk.inj same
        exact ⟨fits, rfl⟩
  · rintro ⟨before, tried, after, whole, missed, fits, rfl⟩
    refine ⟨(tried, length), List.findSome?_eq_some_iff.mpr ⟨before, tried, after, whole, ?_, ?_⟩, ?_⟩
    · rw [fits, Option.map_some]
    · exact fun other member => Option.map_eq_none_iff.mpr (missed other member)
    · dsimp only
      split <;> rfl

/-- What is read lies within the input. -/
theorem length_le_of_next? {admitted : List Terminal} {input : List Char} {kind : Terminal}
    {length : Nat} (found : next? admitted input = some (kind, length)) : length ≤ input.length := by
  obtain ⟨_, _, _, -, -, fits, -⟩ := next?_eq_some_iff.mp found
  exact Terminal.match?_le fits

/-- Only one kept terminal can begin with a quote, and only one with a slash. -/
theorem eq_of_begins {kind : Terminal} (kept : kind.isIgnored = false) :
    (kind.begins '"' → kind = .doubleQuoted) ∧ (kind.begins '\'' → kind = .singleQuoted) ∧
      (kind.begins '/' → kind = .slash) := by
  have all : ∀ kind ∈ Terminal.all, kind.isIgnored = false →
      (kind.begins '"' → kind = .doubleQuoted) ∧ (kind.begins '\'' → kind = .singleQuoted) ∧
        (kind.begins '/' → kind = .slash) := by
    decide +kernel
  exact all kind (Terminal.mem_all kind) kept

/-- A slash begins a comment only if an at sign follows it. -/
theorem comment_eq_none (member : separator ∈ separators) (apart : more.head? ≠ some '@') :
    comment ('/' :: (more ++ separator :: rest)) = none := by
  unfold comment
  split
  · next inside same =>
    refine absurd ?_ apart
    cases more with
    | nil =>
      obtain rfl : separator = '@' := (List.cons.inj (List.cons.inj same).2).1
      exact absurd member (by decide)
    | cons first others =>
      obtain rfl : first = '@' := (List.cons.inj (List.cons.inj same).2).1
      rfl
  · rfl

/-- What did not match where a token is does not match when a gap is put behind it or
further behind, unless the token is a slash that an at sign follows. -/
theorem match?_eq_none_kept {tried other : Terminal} (triedKept : tried.isIgnored = false)
    (fits : tried.match? (text ++ (more ++ back)) = some text.length)
    (missed : other.match? (text ++ (more ++ back)) = none) (member : separator ∈ separators)
    (apart : text = ['/'] → more.head? ≠ some '@') :
    other.match? (text ++ (more ++ separator :: rest)) = none := by
  rw [← Option.not_isSome_iff_eq_none]
  intro found
  obtain ⟨first, others, rfl⟩ : ∃ first others, text = first :: others := by
    cases text with
    | nil => exact absurd (Terminal.match?_pos fits) (Nat.lt_irrefl 0)
    | cons first others => exact ⟨first, others, rfl⟩
  have begins := Terminal.begins_of_match? fits
  obtain ⟨length, isLength⟩ := Option.isSome_iff_exists.mp found
  have starts := Terminal.begins_of_match? isLength
  obtain bounded | rfl | rfl | rfl | rfl := other.isBounded_or
  · have still : (other.match? (first :: others ++ more ++ back)).isSome := by
      rw [← List.append_assoc] at found
      exact Terminal.match?_of_separated bounded (by simp) member found
    rw [List.append_assoc, missed] at still
    cases still
  · -- a comment would begin with the slash that was read
    obtain rfl : first = '/' := of_decide_eq_true starts
    obtain rfl := (eq_of_begins triedKept).2.2 begins
    have isFixed : fixed ['/'] ('/' :: others ++ (more ++ back)) = some ('/' :: others).length := fits
    obtain ⟨-, one⟩ := fixed_eq_some_iff.mp isFixed
    obtain rfl : others = [] := List.length_eq_zero_iff.mp (Nat.succ.inj one)
    have begun : comment ('/' :: (more ++ separator :: rest)) = some length := isLength
    rw [comment_eq_none member (apart rfl)] at begun
    cases begun
  · have notSkipped := not_isSkipped_of_begins (by rintro rfl; cases triedKept) begins
    cases notSkipped.symm.trans starts
  · obtain rfl : first = '"' := of_decide_eq_true starts
    obtain rfl := (eq_of_begins triedKept).1 begins
    cases missed.symm.trans fits
  · obtain rfl : first = '\'' := of_decide_eq_true starts
    obtain rfl := (eq_of_begins triedKept).2.1 begins
    cases missed.symm.trans fits

/-- A token is read as before when a gap is put behind it or further behind, unless it is
a slash that an at sign follows. -/
theorem next?_kept {admitted : List Terminal} {kind : Terminal}
    (found : next? admitted (text ++ (more ++ back)) = some (kind, text.length))
    (kept : kind.isIgnored = false) (member : separator ∈ separators)
    (apart : text = ['/'] → more.head? ≠ some '@') :
    next? admitted (text ++ (more ++ separator :: rest)) = some (kind, text.length) := by
  obtain ⟨before, tried, after, whole, missed, fits, rfl⟩ := next?_eq_some_iff.mp found
  have triedKept : tried.isIgnored = false := by
    split at kept
    · next isName => rw [isName]; rfl
    · exact kept
  refine next?_eq_some_iff.mpr ⟨before, tried, after, whole, fun other listed => ?_,
    Terminal.match?_kept triedKept member fits, by rw [List.take_left, List.take_left]⟩
  exact match?_eq_none_kept triedKept fits (missed other listed) member apart

end Lexer

end GlyphCompiler
