/-
# Programs that are analyzed one after another

An analyzer reads a program as a new one would, whatever accepted programs it has read
before, unless both hold a `main`. What is written of the program is the same, and so
is what is wrong with it.
-/

import GlyphCompiler.Proofs.Analysis.Following
import GlyphCompiler.Proofs.JavaScript.Renumbering
import GlyphCompiler.Proofs.Program.Samples

namespace GlyphCompiler

namespace Analysis

open Surface (anyHasMain bodyHasMain)

namespace Past

/-- A past does not matter to what may hold a `main`: either it holds none, or nothing
else is noted of it than without the past. -/
def Admits (past : Past) (hasMain : Bool) : Prop := hasMain = true → past.main = id

variable {past : Past}

theorem admits_or {first second : Bool} :
    past.Admits (first || second) ↔ past.Admits first ∧ past.Admits second := by
  cases first <;> cases second <;> simp [Admits]

mutual

theorem follows_expression : ∀ (written : Surface.Expr) (scopes : Scopes),
    past.Admits written.hasMain →
      past.Follows (Expr.renumber past.number) (expression scopes written)
        (expression (Scopes.renumber past.number scopes) written)
  | .integer position text, _, _ => follows_integerLiteral position text
  | .decimal _ _, _, _ | .string _ _, _, _ | .bool _ _, _, _ | .null _, _, _ => .pure rfl
  | .quoted position text, _, _ => .pure (renumber_quotedLiteral position text)
  | .codepoint position text, _, _ => follows_codepointLiteral position text
  | .name ident, scopes, _ => follows_reference scopes ident
  | .binary position operator left right, scopes, admits => by
    obtain ⟨admitsLeft, admitsRight⟩ := admits_or.mp admits
    exact (follows_expression left scopes admitsLeft).bind fun left =>
      (follows_useValue left).bind fun left =>
        (follows_expression right scopes admitsRight).bind fun right =>
          (follows_useValue right).bind fun right => follows_binary position operator left right
  | .unary position operator operand, scopes, admits =>
    (follows_expression operand scopes admits).bind fun operand =>
      (follows_useValue operand).bind fun operand => follows_unary position operator operand
  | .addressOf position operand, scopes, _ => follows_addressOf scopes position operand
  | .dereference position operand, scopes, admits =>
    (follows_expression operand scopes admits).bind fun operand =>
      follows_dereference position operand
  | .subscript position base index, scopes, admits => by
    obtain ⟨admitsBase, admitsIndex⟩ := admits_or.mp admits
    exact (follows_expression base scopes admitsBase).bind fun base =>
      (follows_useValue base).bind fun base =>
        (follows_expression index scopes admitsIndex).bind fun index =>
          (follows_useValue index).bind fun index => follows_subscript position base index
  | .call callee written, scopes, admits => by
    refine (follows_call scopes callee.position callee written.length
      (follows_described written scopes admits)
      fun passing => follows_arguments written passing scopes admits).bind fun outcome => ?_
    cases outcome with
    | expression result => exact .pure rfl
    | printed value => exact .reject _ _
  | .array position written, scopes, admits =>
    (follows_arguments written .values scopes admits).bind fun elements =>
      follows_array position elements
  | .conjure position written, scopes, admits => by
    refine Follows.freshId.bind fun id => ?_
    refine (follows_enter (scopes.functionBody ⟨id, "conjure", [], .any, true⟩) written).bind
      fun region => (follows_statements written region admits).bind fun body => ?_
    rw [containsReturn_renumber]
    exact .ite ((Follows.current _).bind fun known => .pure rfl) .rejecting

theorem follows_arguments : ∀ (written : List Surface.Expr) (passing : Passing) (scopes : Scopes),
    past.Admits (anyHasMain written) →
      past.Follows (List.map (Expr.renumber past.number)) (arguments scopes passing written)
        (arguments (Scopes.renumber past.number scopes) passing written)
  | [], _, _, _ => .pure rfl
  | first :: rest, passing, scopes, admits => by
    obtain ⟨admitsFirst, admitsRest⟩ := admits_or.mp admits
    exact (follows_expression first scopes admitsFirst).bind fun argument =>
      (follows_pass passing argument).bind fun argument =>
        (follows_arguments rest passing.rest scopes admitsRest).bind fun rest => .pure rfl

theorem follows_described : ∀ (written : List Surface.Expr) (scopes : Scopes),
    past.Admits (anyHasMain written) →
      past.Follows id (described scopes written)
        (described (Scopes.renumber past.number scopes) written)
  | [], _, _ => .throw _
  | [written], scopes, admits => by
    obtain ⟨admits, -⟩ := admits_or.mp admits
    cases written with
    | call callee written =>
      exact (follows_describedCallee scopes callee).bind fun type =>
        (follows_arguments written .plain scopes admits).bind fun _ => .pure rfl
    | _ =>
      exact (follows_expression _ scopes admits).bind fun described =>
        .pure (Expr.type_renumber past.number described)
  | first :: second :: rest, scopes, _ => by
    rw [described_many, described_many]
    exact .throw _

theorem follows_statement : ∀ (written : Surface.Stmt) (region : Region),
    past.Admits written.hasMain →
      past.Follows (renumberStep past.number) (statement region written)
        (statement (region.renumber past.number) written)
  | .affix position module symbol, region, _ => follows_affix region position module symbol
  | .main position written, region, admits => by
    have noted : past.main = id := admits rfl
    cases written with
    | block blockPosition written =>
      refine (follows_beginMain noted position).bind fun _ => ?_
      rw [Region.renumber, block_scopes]
      exact (follows_enter region.scopes.block written).bind fun inner =>
        (follows_statements written inner fun _ => noted).bind fun body => .pure rfl
    | _ =>
      rw [statement_main region position _ (by simp), statement_main _ position _ (by simp)]
      exact (follows_beginMain noted position).bind fun _ =>
        (follows_enter region.scopes [_]).bind fun inner =>
          (follows_statement _ inner fun _ => noted).bind fun ⟨body, inner⟩ => .pure rfl
  | .function position name parameters result written, ⟨scopes, ahead⟩, admits => by
    cases ahead with
    | nil => exact .throw _
    | cons function ahead =>
      refine (follows_declareParameters (scopes.functionBody function) parameters
        function.parameters).bind fun inner => (follows_enter inner written).bind fun inner =>
          (follows_statements written inner admits).bind fun body => ?_
      rw [alwaysReturns_renumber]
      exact (follows_finishFunction function _ position).bind fun _ =>
        (Follows.current function).bind fun known => .pure rfl
  | .conjureBinding position name type written, ⟨scopes, ahead⟩, admits => by
    cases ahead with
    | nil => exact .throw _
    | cons function ahead =>
      refine (follows_enter (scopes.functionBody function) written).bind fun inner =>
        (follows_statements written inner admits).bind fun body => ?_
      rw [containsReturn_renumber]
      exact (follows_finishFunction function _ position).bind fun _ => .pure rfl
  | .declare position changeable ident type written, region, admits =>
    (follows_expression written region.scopes admits).bind fun value =>
      (follows_useValue value).bind fun value =>
        follows_declareVariable region position changeable ident type value
  | .assign position ident written, region, admits =>
    (follows_assignable region.scopes ident).bind fun target =>
      (follows_expression written region.scopes admits).bind fun value =>
        (follows_useValue value).bind fun value =>
          (follows_checkConvert value target.type position).bind fun _ => .pure rfl
  | .step position step ident, region, _ =>
    (follows_stepVariable region.scopes position step ident).bind fun _ => .pure rfl
  | .branch position condition consequent alternative, region, admits => by
    obtain ⟨admitsCondition, admitsBranches⟩ := admits_or.mp admits
    obtain ⟨admitsConsequent, admitsAlternative⟩ := admits_or.mp admitsBranches
    refine (follows_expression condition region.scopes admitsCondition).bind fun condition =>
      (follows_checkCondition condition).bind fun condition => ?_
    rw [Region.renumber, block_scopes]
    exact (follows_enter region.scopes.block consequent).bind fun inner =>
      (follows_statements consequent inner admitsConsequent).bind fun consequent =>
        (follows_enter region.scopes.block alternative).bind fun inner =>
          (follows_statements alternative inner admitsAlternative).bind fun _ => .pure rfl
  | .loop position condition written, region, admits => by
    obtain ⟨admitsCondition, admitsBody⟩ := admits_or.mp admits
    refine (follows_expression condition region.scopes admitsCondition).bind fun condition =>
      (follows_checkCondition condition).bind fun condition => ?_
    rw [Region.renumber, loop_scopes]
    exact (follows_enter region.scopes.loop written).bind fun inner =>
      (follows_statements written inner admitsBody).bind fun _ => .pure rfl
  | .breakLoop position, region, _ =>
    (follows_breakLoop region.scopes position).bind fun _ => .pure rfl
  | .returnVoid position, region, _ =>
    (follows_returnVoid region.scopes position).bind fun _ => .pure rfl
  | .returnValue position written, region, admits =>
    (follows_returningFunction region.scopes position).bind fun function =>
      (follows_expression written region.scopes admits).bind fun value =>
        (follows_useValue value).bind fun value =>
          (follows_returnValue function position value).bind fun _ => .pure rfl
  | .exscribe position written, region, admits =>
    (follows_expression written region.scopes admits).bind fun value =>
      (follows_useValue value).bind fun _ => .pure rfl
  | .call position callee written, region, admits => by
    refine (follows_call region.scopes position callee written.length
      (follows_described written region.scopes admits)
      fun passing => follows_arguments written passing region.scopes admits).bind fun outcome => ?_
    cases outcome with
    | expression result => exact .pure rfl
    | printed value => exact .pure rfl
  | .block position written, region, admits => by
    rw [statement, statement, Region.renumber, block_scopes]
    exact (follows_enter region.scopes.block written).bind fun inner =>
      (follows_statements written inner admits).bind fun _ => .pure rfl

theorem follows_statements : ∀ (written : List Surface.Stmt) (region : Region),
    past.Admits (bodyHasMain written) →
      past.Follows (renumberBody past.number) (statements region written)
        (statements (region.renumber past.number) written)
  | [], _, _ => .pure rfl
  | first :: rest, region, admits => by
    obtain ⟨admitsFirst, admitsRest⟩ := admits_or.mp admits
    exact (follows_statement first region admitsFirst).bind fun ⟨_, region⟩ =>
      (follows_statements rest region admitsRest).bind fun _ => .pure rfl

end

/-! ## Final forms -/

theorem settleCallee_around (state : State) (callee : Callee) :
    (past.around state).settleCallee (callee.renumber past.number) =
      (state.settleCallee callee).renumber past.number := by
  cases callee <;> simp [Callee.renumber, State.settleCallee]

theorem settleInfo_around (state : State) (info : Info) (callee : Callee) :
    (past.around state).settleInfo info (callee.renumber past.number) =
      state.settleInfo info callee := by
  cases callee <;> simp [Callee.renumber, State.settleInfo]

mutual

theorem settle_around (state : State) : ∀ expression : Expr,
    settle (past.around state) (expression.renumber past.number) =
      (settle state expression).renumber past.number
  | .number _ _ | .bool _ _ | .string _ _ | .glyph _ _ | .codepoint _ _ | .null _ | .reference _
  | .addressOf _ _ | .typeOf _ _ => rfl
  | .function info function => by simp [Expr.renumber, settle]
  | .binary _ _ left right => by
    simp [Expr.renumber, settle, settle_around state left, settle_around state right]
  | .unary _ _ operand | .dereference _ operand => by
    simp [Expr.renumber, settle, settle_around state operand]
  | .call info callee arguments => by
    simp [Expr.renumber, settle, settleCallee_around, settleInfo_around,
      settleAll_around state arguments]
  | .subscript _ base index => by
    simp [Expr.renumber, settle, settle_around state base, settle_around state index]
  | .array _ elements => by simp [Expr.renumber, settle, settleAll_around state elements]
  | .conjure _ body => by simp [Expr.renumber, settle, settleBody_around state body]
  | .apply _ mapping items => by
    simp [Expr.renumber, settle, settle_around state mapping, settle_around state items]
  | .supplant _ text pattern replacement => by
    simp [Expr.renumber, settle, settle_around state text, settle_around state pattern,
      settle_around state replacement]

theorem settleAll_around (state : State) : ∀ expressions : List Expr,
    settleAll (past.around state) (renumberExprs past.number expressions) =
      renumberExprs past.number (settleAll state expressions)
  | [] => rfl
  | first :: rest => by
    simp [renumberExprs, settleAll, settle_around state first, settleAll_around state rest]

theorem settleStmt_around (state : State) : ∀ statement : Stmt,
    settleStmt (past.around state) (statement.renumber past.number) =
      (settleStmt state statement).renumber past.number
  | .affix _ _ | .step _ _ _ | .breakLoop _ | .returnVoid _ => rfl
  | .declare _ _ value | .assign _ _ value | .returnValue _ value | .exscribe _ value => by
    simp [Stmt.renumber, settleStmt, settle_around state value]
  | .function _ _ body => by simp [Stmt.renumber, settleStmt, settleBody_around state body]
  | .main _ body | .block _ body => by
    simp [Stmt.renumber, settleStmt, settleBody_around state body]
  | .branch _ condition consequent alternative => by
    simp [Stmt.renumber, settleStmt, settle_around state condition,
      settleBody_around state consequent, settleBody_around state alternative]
  | .loop _ condition body => by
    simp [Stmt.renumber, settleStmt, settle_around state condition, settleBody_around state body]
  | .evaluate _ expression => by simp [Stmt.renumber, settleStmt, settle_around state expression]

theorem settleBody_around (state : State) : ∀ body : List Stmt,
    settleBody (past.around state) (renumberBody past.number body) =
      renumberBody past.number (settleBody state body)
  | [] => rfl
  | first :: rest => by
    simp [renumberBody, settleBody, settleStmt_around state first, settleBody_around state rest]

end

/-! ## Uses that were put off -/

theorem follows_judge (use : Deferred) :
    past.Follows id (judge use) (judge (use.renumber past.number)) := by
  refine (Follows.current use.function).bind fun function => ?_
  simp only [Deferred.renumber, Function.type_renumber]
  cases use.target with
  | none => exact .ite (.reject _ _) (.pure rfl)
  | some target => exact .ite (.pure rfl) (.reject _ _)

theorem yields_judge_of_allows {state : State} {use : Deferred} (allows : state.Allows use) :
    Yields (judge use) state () state := by
  simp only [judge, yields_bind, yields_current]
  refine ⟨_, _, ⟨rfl, rfl⟩, ?_⟩
  unfold State.Allows at allows
  split at allows
  · next noTarget => simpa [noTarget] using allows
  · next target hasTarget => simpa [hasTarget] using allows

/-- What is judged of some uses, one after another. -/
def judgeEach (uses : List Deferred) : Analyzer Unit := do
  for use in uses do judge use

/-- Uses that are allowed may be left out. -/
theorem run_judgeEach_append {state : State} {uses : List Deferred}
    (allows : ∀ use ∈ uses, state.Allows use) (rest : List Deferred) :
    (judgeEach (uses ++ rest)).run state = (judgeEach rest).run state := by
  induction uses with
  | nil => rfl
  | cons use uses ih =>
    obtain ⟨allowed, others⟩ := List.forall_mem_cons.mp allows
    have judged : (judge use) state = .ok () state := yields_judge_of_allows allowed
    rw [← ih others, List.cons_append, judgeEach, List.forIn_cons]
    simp only [EStateM.run, bind, EStateM.bind, judged]
    rfl

theorem follows_judgeEach (uses : List Deferred) :
    past.Follows id (judgeEach uses) (judgeEach (uses.map (Deferred.renumber past.number))) := by
  refine Follows.bind (Follows.forIn fun use => ?_) fun _ => .pure rfl
  exact (follows_judge use).bind fun _ => .pure rfl

/-- Earlier uses are judged again, and allowed again. -/
theorem follows_judgeDeferred : past.Follows id judgeDeferred judgeDeferred := by
  intro state
  have deferred : (past.around state).deferred.reverse =
      past.known.deferred.reverse ++
        state.deferred.reverse.map (Deferred.renumber past.number) := by
    rw [around, List.reverse_append, List.map_reverse]
  have earlier : ∀ use ∈ past.known.deferred.reverse, (past.around state).Allows use := by
    intro use member
    rw [List.mem_reverse] at member
    rw [State.Allows, past.current_earlier state (past.bounded.deferred use member)]
    exact past.allows use member
  show (judgeEach (past.around state).deferred.reverse).run (past.around state) =
    past.outcome id ((judgeEach state.deferred.reverse).run state)
  rw [deferred, run_judgeEach_append earlier]
  exact follows_judgeEach state.deferred.reverse state

theorem follows_program (source : Surface.Program)
    (admits : past.Admits (bodyHasMain source.body)) :
    past.Follows (Program.renumber past.number) (Analysis.program source)
      (Analysis.program source) := by
  refine (follows_enter [.root] source.body).bind fun region =>
    (follows_statements source.body region admits).bind fun body =>
      follows_judgeDeferred.bind fun _ => Follows.get.bind fun state => .pure ?_
  rw [settleBody_around]
  rfl

end Past

theorem Past.follows_ofSource {past : Past} (source : String)
    (admits : past.Admits (holdsMain source)) :
    past.Follows (Program.renumber past.number) (ofSource source) (ofSource source) := by
  rw [holdsMain] at admits
  unfold ofSource
  cases parsed : parse source with
  | error failure => exact .throwing
  | ok tree =>
    show past.Follows _ (ofTree tree) (ofTree tree)
    unfold ofTree
    cases read : Surface.ofTree tree with
    | error failure => exact .throwing
    | ok program =>
      have held : (parse source >>= Surface.ofTree) = .ok program := by
        rw [parsed]
        exact read
      rw [held] at admits
      exact follows_program program admits

/-! ## Sessions -/

/-- What an analyzer remembers when it has accepted everything that it has read: nothing
is noted of numbers still to be handed out, and all uses that were put off are allowed. -/
structure State.Clean (state : State) : Prop where
  bounded : state.Bounded
  allows : ∀ use ∈ state.deferred, state.Allows use

theorem clean_initial : State.initial.Clean where
  bounded := ⟨fun _ _ => rfl, nofun, nofun⟩
  allows := nofun

namespace State.Clean

variable {start final : State} {source : String} {program : Program}

/-- What is remembered, as a past. -/
def past (clean : start.Clean) (main : Bool → Bool) : Past :=
  ⟨start, clean.bounded, clean.allows, main⟩

/-- A program is analyzed as a new analyzer does it. -/
theorem run_ofSource (clean : start.Clean) {main : Bool → Bool} (same : main false = start.mainSeen)
    (admits : (clean.past main).Admits (holdsMain source)) :
    (ofSource source).run start =
      (clean.past main).outcome (Program.renumber (clean.past main).number)
        ((ofSource source).run .initial) := by
  have begins : (clean.past main).around .initial = start := by
    simp [Past.around, past, same, State.initial, Past.number]
  have ran := Past.follows_ofSource source admits .initial
  rwa [begins] at ran

/-- After an accepted program nothing else is remembered that would matter. -/
theorem after (clean : start.Clean) (ran : (ofSource source).run start = .ok program final) :
    final.Clean := by
  obtain ⟨tree, surface, body, -, -, analyzes, allows, -⟩ := analyzesBody_of_ofSource ran
  have sound : Sound start (visible [.root]) := ⟨nofun, nofun, nofun, nofun, clean.bounded.results⟩
  exact ⟨analyzes.bounded sound clean.bounded, allows⟩

/-- Only a `main` is noted as one. -/
theorem mainSeen_eq (clean : start.Clean) (silent : holdsMain source = false)
    (ran : (ofSource source).run start = .ok program final) : final.mainSeen = start.mainSeen := by
  have admits : (clean.past fun _ => start.mainSeen).Admits (holdsMain source) := fun holds =>
    absurd (silent.symm.trans holds) Bool.false_ne_true
  rw [clean.run_ofSource rfl admits] at ran
  cases alone : (ofSource source).run .initial with
  | error failure state =>
    rw [alone] at ran
    cases ran
  | ok result state =>
    rw [alone] at ran
    cases ran
    rfl

end State.Clean

theorem session_cons_of_ok {start final : State} {source : String} {program : Program}
    (ran : (ofSource source).run start = .ok program final) (rest : List String) :
    session start (source :: rest) = .ok program :: session final rest := by
  rw [session, ran]

theorem length_session (start : State) (sources : List String) :
    (session start sources).length = sources.length := by
  induction sources generalizing start with
  | nil => rfl
  | cons source sources ih =>
    rw [session]
    split <;> simp [ih]

/-- After accepted programs a session goes on in a clean state. -/
theorem exists_clean_after {start : State} {earlier : List String} (clean : start.Clean)
    (accepted : ∀ outcome ∈ session start earlier, ∃ program, outcome = .ok program) :
    ∃ state : State, state.Clean ∧
      ((∀ text ∈ earlier, holdsMain text = false) → state.mainSeen = start.mainSeen) ∧
      ∀ rest, session start (earlier ++ rest) = session start earlier ++ session state rest := by
  induction earlier generalizing start with
  | nil => exact ⟨start, clean, fun _ => rfl, fun _ => rfl⟩
  | cons source earlier ih =>
    cases ran : (ofSource source).run start with
    | error failure state =>
      have failed : .error failure ∈ session start (source :: earlier) := by
        rw [session, ran]
        exact List.mem_cons_self
      obtain ⟨program, absurd⟩ := accepted _ failed
      cases absurd
    | ok program middle =>
      have begins := session_cons_of_ok ran
      rw [begins earlier] at accepted
      obtain ⟨state, clean', seen, goesOn⟩ := ih (clean.after ran) fun outcome member =>
        accepted outcome (List.mem_cons_of_mem _ member)
      refine ⟨state, clean', fun silent => ?_, fun rest => ?_⟩
      · obtain ⟨silent, others⟩ := List.forall_mem_cons.mp silent
        rw [seen others, clean.mainSeen_eq silent ran]
      · rw [List.cons_append, begins, begins, goesOn, List.cons_append]

/-- What is written of the outcome of an analysis, or what is wrong with it. -/
def emitted (outcome : Except Failure Program) : Except Failure String := do
  Failure.ofFault (JavaScript.generate (← outcome))

theorem analyze_eq (source : String) :
    analyze source = (match (ofSource source).run .initial with
      | .ok program _ => .ok program
      | .error failure _ => .error failure) := by
  unfold analyze ofSource
  cases parse source with
  | error failure => rfl
  | ok tree => rfl

/-- Programs that are analyzed by one analyzer do not disturb each other. After programs
that were accepted, what is written of a program, or what is wrong with it, is the same as
if it were analyzed alone, unless it holds a `main` and so does one before it. -/
theorem session_undisturbed {earlier : List String} (source : String) (later : List String)
    (accepted : ∀ outcome ∈ session .initial earlier, ∃ program, outcome = .ok program)
    (single : holdsMain source = false ∨ ∀ text ∈ earlier, holdsMain text = false) :
    (session .initial (earlier ++ source :: later))[earlier.length]?.map emitted =
      some (emitted (analyze source)) := by
  obtain ⟨state, clean, seen, goesOn⟩ := exists_clean_after clean_initial accepted
  obtain ⟨main, same, admits⟩ : ∃ main : Bool → Bool, main false = state.mainSeen ∧
      (clean.past main).Admits (holdsMain source) := by
    obtain silent | silent := single
    · exact ⟨fun _ => state.mainSeen, rfl, fun holds =>
        absurd (silent.symm.trans holds) Bool.false_ne_true⟩
    · exact ⟨id, (seen silent).symm, fun _ => rfl⟩
  rw [goesOn, List.getElem?_append_right (length_session _ _).le, length_session, Nat.sub_self,
    session, clean.run_ofSource same admits, analyze_eq]
  cases (ofSource source).run .initial with
  | error failure state => rfl
  | ok program state =>
    have generated := JavaScript.generate_renumber (clean.past main).number_injective program
    simp only [Past.outcome, List.getElem?_cons_zero, Option.map_some, Option.some.injEq]
    show Failure.ofFault _ = Failure.ofFault _
    rw [generated]

/-- A program that uses a function before its result is known does not disturb the next one. -/
theorem session_undisturbed_lateSource :
    (∀ outcome ∈ session .initial [lateSource], ∃ program, outcome = .ok program) ∧
      holdsMain comparingSource = false ∧
      (session .initial [lateSource, comparingSource])[1]?.map emitted =
        some (emitted (.ok comparingProgram)) := by
  obtain ⟨final, ran⟩ := exists_run_of_analyze analyze_lateSource
  have accepted : ∀ outcome ∈ session .initial [lateSource], ∃ program, outcome = .ok program := by
    rw [session_cons_of_ok ran]
    exact fun outcome member => ⟨lateProgram, List.mem_singleton.mp member⟩
  have silent := comparingSource_computed.2
  rw [← analyze_comparingSource]
  exact ⟨accepted, silent, session_undisturbed comparingSource [] accepted (.inl silent)⟩

end Analysis

end GlyphCompiler
