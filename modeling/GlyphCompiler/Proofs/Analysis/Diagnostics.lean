/-
# Diagnostics point into the source

Whatever rejects a source text points into it: the parser at a character of it or at its
last token, and the analysis at the first token of a construct, also where it judges a use
only when the whole program has been read.
-/

import GlyphCompiler.Proofs.Analysis.Blame
import GlyphCompiler.Proofs.Analysis.Soundness
import GlyphCompiler.Proofs.Parser.Constructs
import GlyphCompiler.Proofs.Parser.Failure
import GlyphCompiler.Proofs.Program.Samples

namespace GlyphCompiler

namespace Analysis

open Surface (exprsWithin bodyWithin)

variable {inside : Position → Prop}

/-! ## Expressions and statements -/

mutual

theorem blames_expression : ∀ (written : Surface.Expr) (scopes : Scopes), written.Within inside →
    Blames inside (fun value => inside value.position) (expression scopes written)
  | .integer _ text, _, here => blames_integerLiteral text here
  | .decimal _ _, _, here | .string _ _, _, here | .bool _ _, _, here | .null _, _, here =>
    .pure here
  | .quoted position text, _, here => .pure (by rwa [position_quotedLiteral])
  | .codepoint _ text, _, here => blames_codepointLiteral text here
  | .name _, scopes, here => blames_reference scopes here
  | .binary _ operator left right, scopes, ⟨here, inLeft, inRight⟩ =>
    (blames_expression left scopes inLeft).bind fun left inLeft =>
      (blames_useValue inLeft).bind fun left _ =>
        (blames_expression right scopes inRight).bind fun right inRight =>
          (blames_useValue inRight).bind fun right _ => blames_binary operator left right here
  | .unary _ operator operand, scopes, ⟨here, inOperand⟩ =>
    (blames_expression operand scopes inOperand).bind fun operand inOperand =>
      (blames_useValue inOperand).bind fun operand _ => blames_unary operator operand here
  | .addressOf _ _, scopes, ⟨here, inOperand⟩ => blames_addressOf scopes here inOperand
  | .dereference _ operand, scopes, ⟨here, inOperand⟩ =>
    (blames_expression operand scopes inOperand).bind fun operand _ =>
      blames_dereference operand here
  | .subscript _ base index, scopes, ⟨here, inBase, inIndex⟩ =>
    (blames_expression base scopes inBase).bind fun base inBase =>
      (blames_useValue inBase).bind fun base _ =>
        (blames_expression index scopes inIndex).bind fun index inIndex =>
          (blames_useValue inIndex).bind fun index _ => blames_subscript base index here
  | .call callee written, scopes, ⟨here, inWritten⟩ => by
    refine (blames_call scopes callee written.length here
      (blames_described written scopes inWritten)
      fun passing => blames_arguments written passing scopes inWritten).bind fun outcome inValue => ?_
    cases outcome with
    | expression result => exact .pure inValue
    | printed value => exact .reject here
  | .array _ written, scopes, ⟨here, inWritten⟩ =>
    (blames_arguments written .values scopes inWritten).bind fun elements inElements =>
      blames_array here inElements
  | .conjure _ written, scopes, ⟨here, inWritten⟩ => by
    refine Blames.freshId.bind fun id _ => (blames_enter _ inWritten).bind fun region _ =>
      (blames_statements written region inWritten).bind fun body _ => ?_
    exact .ite ((Blames.current _).bind fun known _ => .pure here) (.rejecting here)

theorem blames_arguments : ∀ (written : List Surface.Expr) (passing : Passing) (scopes : Scopes),
    exprsWithin inside written →
      Blames inside (fun values => ∀ value ∈ values, inside value.position)
        (arguments scopes passing written)
  | [], _, _, _ => .pure (by simp)
  | first :: rest, passing, scopes, ⟨inFirst, inRest⟩ =>
    (blames_expression first scopes inFirst).bind fun _ inArgument =>
      (blames_pass passing inArgument).bind fun _ inArgument =>
        (blames_arguments rest passing.rest scopes inRest).bind fun _ inRest =>
          .pure (List.forall_mem_cons.mpr ⟨inArgument, inRest⟩)

theorem blames_described : ∀ (written : List Surface.Expr) (scopes : Scopes),
    exprsWithin inside written → Blames inside (fun _ => True) (described scopes written)
  | [], _, _ => .fault _
  | [written], scopes, ⟨within, _⟩ => by
    cases written with
    | call callee written =>
      exact (blames_describedCallee scopes within.1).bind fun type _ =>
        (blames_arguments written .plain scopes within.2).bind fun _ _ => .pure trivial
    | _ => exact (blames_expression _ scopes within).bind fun _ _ => .pure trivial
  | first :: second :: rest, scopes, _ => by
    rw [described_many]
    exact .fault _

theorem blames_statement : ∀ (written : Surface.Stmt) (region : Region), written.Within inside →
    Blames inside (fun _ => True) (statement region written)
  | .affix _ module symbol, region, here => blames_affix region module symbol here
  | .main position written, region, ⟨here, within⟩ => by
    cases written with
    | block blockPosition written =>
      exact (blames_beginMain here).bind fun _ _ => (blames_enter _ within.2).bind fun inner _ =>
        (blames_statements written inner within.2).bind fun body _ => .pure trivial
    | _ =>
      have alone := Surface.bodyWithin_iff.mpr (List.forall_mem_singleton.mpr within)
      rw [statement_main region position _ (by simp)]
      exact (blames_beginMain here).bind fun _ _ => (blames_enter _ alone).bind fun inner _ =>
        (blames_statement _ inner within).bind fun ⟨body, inner⟩ _ => .pure trivial
  | .function position name parameters result written, ⟨scopes, ahead⟩,
    ⟨here, inParameters, _, inBody⟩ => by
    cases ahead with
    | nil => exact .fault _
    | cons function ahead =>
      have inZip : ∀ entry ∈ parameters.zip function.parameters, entry.1.Within inside :=
        fun entry member => inParameters entry.1 (List.of_mem_zip member).1
      exact (blames_declareParameters _ inZip).bind fun inner _ =>
        (blames_enter inner inBody).bind fun inner _ =>
          (blames_statements written inner inBody).bind fun body _ =>
            (blames_finishFunction function _ here).bind fun _ _ =>
              (Blames.current function).bind fun known _ => .pure trivial
  | .conjureBinding position name type written, ⟨scopes, ahead⟩, ⟨here, _, inBody⟩ => by
    cases ahead with
    | nil => exact .fault _
    | cons function ahead =>
      exact (blames_enter _ inBody).bind fun inner _ =>
        (blames_statements written inner inBody).bind fun body _ =>
          (blames_finishFunction function _ here).bind fun _ _ => .pure trivial
  | .declare _ changeable ident _ written, region, ⟨here, inType, inValue⟩ =>
    (blames_expression written region.scopes inValue).bind fun value inValue =>
      (blames_useValue inValue).bind fun value inValue =>
        blames_declareVariable region changeable ident here inType inValue
  | .assign _ ident written, region, ⟨here, inTarget, inValue⟩ =>
    (blames_assignable region.scopes inTarget).bind fun target _ =>
      (blames_expression written region.scopes inValue).bind fun value inValue =>
        (blames_useValue inValue).bind fun value inValue =>
          (blames_checkConvert target.type inValue here).bind fun _ _ => .pure trivial
  | .step _ step ident, region, ⟨here, inTarget⟩ =>
    (blames_stepVariable region.scopes step here inTarget).bind fun _ _ => .pure trivial
  | .branch _ condition consequent alternative, region,
    ⟨_, inCondition, inConsequent, inAlternative⟩ =>
    (blames_expression condition region.scopes inCondition).bind fun condition inCondition =>
      (blames_checkCondition inCondition).bind fun condition _ =>
        (blames_enter _ inConsequent).bind fun inner _ =>
          (blames_statements consequent inner inConsequent).bind fun consequent _ =>
            (blames_enter _ inAlternative).bind fun inner _ =>
              (blames_statements alternative inner inAlternative).bind fun _ _ => .pure trivial
  | .loop _ condition written, region, ⟨_, inCondition, inBody⟩ =>
    (blames_expression condition region.scopes inCondition).bind fun condition inCondition =>
      (blames_checkCondition inCondition).bind fun condition _ =>
        (blames_enter _ inBody).bind fun inner _ =>
          (blames_statements written inner inBody).bind fun _ _ => .pure trivial
  | .breakLoop _, region, here =>
    (blames_breakLoop region.scopes here).bind fun _ _ => .pure trivial
  | .returnVoid _, region, here =>
    (blames_returnVoid region.scopes here).bind fun _ _ => .pure trivial
  | .returnValue _ written, region, ⟨here, inValue⟩ =>
    (blames_returningFunction region.scopes here).bind fun function _ =>
      (blames_expression written region.scopes inValue).bind fun value inValue =>
        (blames_useValue inValue).bind fun value inValue =>
          (blames_returnValue function here inValue).bind fun _ _ => .pure trivial
  | .exscribe _ written, region, ⟨_, inValue⟩ =>
    (blames_expression written region.scopes inValue).bind fun value inValue =>
      (blames_useValue inValue).bind fun _ _ => .pure trivial
  | .call _ callee written, region, ⟨here, inWritten⟩ => by
    refine (blames_call region.scopes callee written.length here
      (blames_described written region.scopes inWritten)
      fun passing => blames_arguments written passing region.scopes inWritten).bind
        fun outcome _ => ?_
    cases outcome with
    | expression result => exact .pure trivial
    | printed value => exact .pure trivial
  | .block _ written, region, ⟨_, inBody⟩ =>
    (blames_enter _ inBody).bind fun inner _ =>
      (blames_statements written inner inBody).bind fun _ _ => .pure trivial

theorem blames_statements : ∀ (written : List Surface.Stmt) (region : Region),
    bodyWithin inside written → Blames inside (fun _ => True) (statements region written)
  | [], _, _ => .pure trivial
  | first :: rest, region, ⟨inFirst, inRest⟩ =>
    (blames_statement first region inFirst).bind fun ⟨_, region⟩ _ =>
      (blames_statements rest region inRest).bind fun _ _ => .pure trivial

end

/-! ## Programs -/

theorem blames_judge {use : Deferred} (here : inside use.position) :
    Blames inside (fun _ => True) (judge use) := by
  refine (Blames.current use.function).bind fun function _ => ?_
  cases use.target with
  | none => exact .ite (.reject here) (.pure trivial)
  | some target => exact .ite (.pure trivial) (.reject here)

/-- Uses that were put off are blamed where they were met. -/
theorem blames_judgeDeferred : Blames inside (fun _ => True) judgeDeferred := by
  refine Blames.get.bind fun state within => Blames.bind (Blames.forIn fun use member => ?_)
    fun _ _ => .pure trivial
  exact (blames_judge (within use (List.mem_reverse.mp member))).bind fun _ _ => .pure trivial

theorem blames_program {source : Surface.Program} (within : bodyWithin inside source.body) :
    Blames inside (fun _ => True) (program source) :=
  (blames_enter _ within).bind fun region _ =>
    (blames_statements source.body region within).bind fun _ _ =>
      blames_judgeDeferred.bind fun _ _ => Blames.get.bind fun _ _ => .pure trivial

/-- A rejection of a new analyzer points at the first token of a construct. -/
theorem begins_of_analyzeTree {derivation : Derivation} (valid : derivation.Valid Grammar.rules)
    {tree : Tree} (isTree : derivation.tree? = some tree) {diagnostic : Diagnostic}
    (rejected : analyzeTree tree = .error (.diagnostic diagnostic)) :
    derivation.Begins diagnostic.position := by
  have blames : Blames derivation.Begins (fun _ => True) (ofTree tree) := by
    unfold ofTree Surface.ofTree
    split
    · next source reads =>
      refine blames_program (Grammar.within_of_valid valid (fun _ => id) ?_ reads)
      rw [(Grammar.tree?_eq_some_iff derivation tree).mp isTree]
      exact List.mem_cons_self
    · exact .faulting
  have ends := blames .initial (by simp [State.Within, State.initial])
  rw [analyzeTree] at rejected
  split at rejected
  · cases rejected
  · next failed =>
    cases rejected
    rw [failed] at ends
    exact ends

end Analysis

/-! ## Source texts -/

theorem inText_of_parse {source : String} {diagnostic : Diagnostic}
    (rejected : parse source = .error (.diagnostic diagnostic)) :
    diagnostic.position.InText source.toList := by
  have failed : parseDerivation source = .error (.diagnostic diagnostic) := by
    rw [parse] at rejected
    cases derived : parseDerivation source with
    | error failure =>
      rw [derived] at rejected
      cases rejected
      rfl
    | ok derivation =>
      rw [derived] at rejected
      simp only [bind, Except.bind] at rejected
      split at rejected <;> cases rejected
  have inside := Parser.inText_of_parseFrom (Position.inText_after [] source.toList) failed
  exact inside

/-- Every diagnostic points into the source: its line is one of the lines of the text and its
column at most one behind the end of that line. If the text can be parsed, the diagnostic points
at the first token of a construct of the program. -/
theorem inText_of_rejected {source : String} {diagnostic : Diagnostic}
    (rejected : parse source = .error (.diagnostic diagnostic) ∨
      analyze source = .error (.diagnostic diagnostic)) :
    diagnostic.position.InText source.toList ∧
      ∀ tree, parse source = .ok tree → ∃ derivation,
        parseDerivation source = .ok derivation ∧ derivation.tree? = some tree ∧
          derivation.Begins diagnostic.position := by
  cases parsed : parse source with
  | error failure =>
    have same : failure = .diagnostic diagnostic := by
      rw [analyze, parsed] at rejected
      obtain same | same := rejected <;> exact Except.error.inj same
    subst same
    exact ⟨inText_of_parse parsed, fun _ succeeds => by cases succeeds⟩
  | ok tree =>
    rw [analyze, parsed] at rejected
    replace rejected : analyzeTree tree = .error (.diagnostic diagnostic) :=
      rejected.resolve_left (by simp)
    obtain ⟨derivation, derived, isTree⟩ := (Grammar.parse_eq_ok_iff source tree).mp parsed
    obtain ⟨valid, -, spelled⟩ := Grammar.spelled_of_parseDerivation derived
    have begins := Analysis.begins_of_analyzeTree valid isTree rejected
    refine ⟨?_, ?_⟩
    · obtain ⟨construct, member, token, rest, tokens, place⟩ := begins
      rw [← place]
      exact spelled.inText token (valid.tokens_subset construct member (by simp [tokens]))
    · rintro _ ⟨⟩
      exact ⟨derivation, derived, isTree, begins⟩

/-- A use that is judged last is rejected where the function is called, and a text that ends too
early at its last token. -/
theorem inText_of_rejected_valueless :
    analyze valuelessSource = .error (.diagnostic ⟨.returnsVoid "f", ⟨1, 16⟩⟩) ∧
      Position.InText ⟨1, 16⟩ valuelessSource.toList ∧
      (∀ tree, parse valuelessSource = .ok tree → ∃ derivation,
        parseDerivation valuelessSource = .ok derivation ∧ derivation.tree? = some tree ∧
          derivation.Begins ⟨1, 16⟩) ∧
      analyze unfinishedSource = .error (.diagnostic ⟨.unexpectedEnd, ⟨2, 1⟩⟩) ∧
      Position.InText ⟨2, 1⟩ unfinishedSource.toList := by
  have valueless : analyze valuelessSource = .error (.diagnostic ⟨.returnsVoid "f", ⟨1, 16⟩⟩) :=
    analyze_of_mem_rejections (by simp [rejections])
  have unfinished : analyze unfinishedSource = .error (.diagnostic ⟨.unexpectedEnd, ⟨2, 1⟩⟩) :=
    analyze_of_mem_rejections (by simp [rejections])
  have judged := inText_of_rejected (.inr valueless)
  exact ⟨valueless, judged.1, judged.2, unfinished, (inText_of_rejected (.inr unfinished)).1⟩

end GlyphCompiler
