/-
# Counters that are folded

While the steps of a list are absorbed, every foldable variable has its declaration at
the place that is noted for it. Nothing that was kept after that place names the variable
or runs code that may be anywhere, and a whole number there is the one that was declared,
with every step counted that the variable took in.
-/

import GlyphCompiler.Proofs.Analysis.Scoping
import GlyphCompiler.Proofs.Optimizer.Scoping

namespace GlyphCompiler

/-! ## Lists of statements -/

/-- The lists of statements directly below a node. -/
def Node.bodies : Node → List (List Stmt)
  | .expr (.conjure _ body) | .stmt (.function _ _ body) | .stmt (.main _ body)
  | .stmt (.loop _ _ body) | .stmt (.block _ body) => [body]
  | .stmt (.branch _ _ consequent alternative) => [consequent, alternative]
  | _ => []

/-- The lists of statements of a program: its body, and those in it. -/
def Program.bodies (program : Program) : List (List Stmt) :=
  program.body :: (walkStmts program.body).flatMap Node.bodies

theorem Node.walkStmts_sublist {node : Node} {body : List Stmt} (listed : body ∈ node.bodies) :
    (walkStmts body).Sublist node.walk := by
  cases node with
  | expr expression =>
    cases expression with
    | conjure info body' =>
      cases List.mem_singleton.mp listed
      exact List.sublist_cons_self _ _
    | _ => cases listed
  | stmt statement =>
    cases statement with
    | function position target body' | main position body' | block position body' =>
      cases List.mem_singleton.mp listed
      exact List.sublist_cons_self _ _
    | loop position condition body' =>
      cases List.mem_singleton.mp listed
      exact (List.sublist_append_right _ _).cons _
    | branch position condition consequent alternative =>
      obtain rfl | listed := List.mem_cons.mp listed
      · exact ((List.sublist_append_right _ _).trans (List.sublist_append_left _ _)).cons _
      · cases List.mem_singleton.mp listed
        exact (List.sublist_append_right _ _).cons _
    | _ => cases listed

theorem walkStmts_sublist_of_mem_bodies {program : Program} {body : List Stmt}
    (listed : body ∈ program.bodies) : (walkStmts body).Sublist (walkStmts program.body) := by
  obtain rfl | listed := List.mem_cons.mp listed
  · exact .refl _
  obtain ⟨node, visited, isBody⟩ := List.mem_flatMap.mp listed
  obtain ⟨statement, isStatement, below⟩ := mem_walkStmts.mp visited
  rw [walkStmts_eq_flatMap program.body]
  exact ((Node.walkStmts_sublist isBody).trans (Node.walk_sublist below)).trans
    (List.sublist_flatten_of_mem (List.mem_map_of_mem isStatement))

theorem walkStmts_sublist {first second : List Stmt} (within : first.Sublist second) :
    (walkStmts first).Sublist (walkStmts second) := by
  rw [walkStmts_eq_flatMap, walkStmts_eq_flatMap]
  exact within.flatMap Stmt.walk

namespace Optimizer

/-! ## Names in a statement -/

/-- A node that names a variable mentions or declares it by itself, or a node directly
below it names the variable. -/
theorem named_cases {node : Node} {target : Variable} (named : .value target ∈ node.uses) :
    mentioned? node = some target.id ∨ target.id ∈ node.declares ∨
      ∃ child ∈ node.children, .value target ∈ child.uses := by
  cases node with
  | expr expression =>
    cases expression <;>
      simp [Node.uses, Expr.uses, mem_usesOfExprs_iff, mem_usesOfBody_iff] at named <;>
      simp [mentioned?, Node.declares, Node.children, Expr.children, Node.uses, Expr.uses,
        Reference.toExpr, Callee.uses_toExpr] <;>
      grind
  | stmt statement =>
    cases statement <;> simp [Node.uses, Stmt.uses, mem_usesOfBody_iff] at named <;>
      simp [mentioned?, Node.declares, Node.children, Stmt.children, Node.uses] <;>
      grind

/-- Where a node names a variable, the variable is mentioned or declared. -/
theorem exists_of_named {node : Node} {target : Variable} (named : .value target ∈ node.uses) :
    ∃ inner ∈ node.walk, mentioned? inner = some target.id ∨ target.id ∈ inner.declares := by
  obtain mentions | declares | ⟨child, listed, named⟩ := named_cases named
  · exact ⟨node, node.self_mem_walk, .inl mentions⟩
  · exact ⟨node, node.self_mem_walk, .inr declares⟩
  · have := Node.length_walk_lt listed
    obtain ⟨inner, below, found⟩ := exists_of_named named
    exact ⟨inner, Node.walk_subset (Node.mem_walk_of_mem_children listed) below, found⟩
termination_by node.walk.length

/-- A statement leaves a variable alone: it does not name the variable, and runs no code
that may be anywhere. -/
structure LeavesAlone (id : Nat) (statement : Stmt) : Prop where
  unnamed : ∀ target, .value target ∈ statement.uses → target.id ≠ id
  quiet : ∀ node ∈ statement.walk, node.runsCode = false

theorem LeavesAlone.alike {id : Nat} {first second : Stmt} (leaves : LeavesAlone id first)
    (alike : Alike first second) : LeavesAlone id second := by
  cases alike with
  | refl => exact leaves
  | number position target info value other =>
    refine ⟨leaves.unnamed, fun node below => ?_⟩
    simp only [Stmt.walk, Expr.walk, List.mem_cons, List.not_mem_nil, or_false] at below
    obtain rfl | rfl := below <;> rfl

/-- What stays foldable after a statement is left alone by it, unless it is declared there. -/
theorem leavesAlone_of_untouched {foldable : List (Nat × Nat)} {statement : Stmt} {id place : Nat}
    (entry : (id, place) ∈ untouched foldable statement)
    (notDeclared : id ∉ declaredAmong statement.walk) : LeavesAlone id statement := by
  unfold untouched at entry
  split at entry
  · cases entry
  dsimp only at entry
  split at entry
  · cases entry
  next quiet =>
    obtain ⟨-, unmentioned⟩ := List.mem_filter.mp entry
    refine ⟨fun target named same => ?_, fun node below => ?_⟩
    · obtain ⟨inner, below, mentions | declares⟩ :=
        @exists_of_named (.stmt statement) target named
      · simp only [Bool.not_eq_true', List.any_eq_false, beq_iff_eq] at unmentioned
        exact unmentioned inner below (mentions.trans (congrArg some same))
      · exact notDeclared (List.mem_flatMap.mpr ⟨inner, below, same ▸ declares⟩)
    · simp only [List.any_eq_true, not_exists, not_and, Bool.not_eq_true] at quiet
      exact quiet node below

theorem untouched_sublist (foldable : List (Nat × Nat)) (statement : Stmt) :
    (untouched foldable statement).Sublist foldable := by
  unfold untouched
  split
  · exact List.nil_sublist _
  · dsimp only
    split
    · exact List.nil_sublist _
    · exact List.filter_sublist

/-! ## What is foldable after a statement -/

/-- A variable that is foldable after a statement has just been declared by it, or it was
foldable before and has been left untouched. -/
theorem foldableAfter_cases {foldable : List (Nat × Nat)} {place : Nat} {statement : Stmt}
    {entry : Nat × Nat} (listed : entry ∈ foldableAfter foldable place statement) :
    (∃ position target info value, statement = .declare position target (.number info value) ∧
      target.mutable = true ∧ entry = (target.id, place)) ∨ entry ∈ untouched foldable statement := by
  unfold foldableAfter at listed
  split at listed
  · next id opened =>
    obtain rfl | listed := List.mem_cons.mp listed
    · left
      unfold Absorption.opened? at opened
      split at opened
      · next position target info value =>
        split at opened
        · next changes =>
          cases opened
          exact ⟨position, target, info, value, rfl, changes, rfl⟩
        · cases opened
      · cases opened
    · exact .inr (List.mem_of_mem_filter listed)
  · exact .inr listed

theorem nodup_foldableAfter {foldable : List (Nat × Nat)} (distinct : (foldable.map Prod.fst).Nodup)
    (place : Nat) (statement : Stmt) :
    ((foldableAfter foldable place statement).map Prod.fst).Nodup := by
  have rest := distinct.sublist ((untouched_sublist foldable statement).map Prod.fst)
  unfold foldableAfter
  split
  · next id _ =>
    rw [List.map_cons, List.nodup_cons]
    refine ⟨?_, rest.sublist (List.filter_sublist.map Prod.fst)⟩
    simp
  · exact rest

/-! ## The run -/

/-- The absorption after some statements have been read. -/
def afterReading (read : List Stmt) : Absorption :=
  read.foldl Absorption.next ⟨#[], []⟩

/-- The steps that are taken in while some statements are read. -/
def takenIn (absorption : Absorption) : List Stmt → List Stmt
  | [] => []
  | statement :: rest =>
    (if isAbsorbed absorption.foldable statement then [statement] else []) ++
      takenIn (absorption.next statement) rest

/-- Is a statement a step of a variable in a direction? -/
def isStepOf (id : Nat) (step : Step) : Stmt → Bool
  | .step _ other target => other == step && target.id == id
  | _ => false

/-- What holds of a foldable variable: its declaration stands at its place, nothing after it
touches the variable, and its number is the declared one with the steps that were taken in. -/
structure Counts (read : List Stmt) (absorption : Absorption) (taken : List Stmt) (place : Nat)
    (position : Position) (target : Variable) (info : Info) (value initial : Number) : Prop where
  here : absorption.kept[place]? = some (.declare position target (.number info value))
  changes : target.mutable = true
  later : ∀ index statement, place < index → absorption.kept[index]? = some statement →
    LeavesAlone target.id statement
  declared : .declare position target (.number info initial) ∈ read
  counted : ∀ count, value = .int count → ∃ first, initial = .int first ∧
    count = first + taken.countP (isStepOf target.id .up) - taken.countP (isStepOf target.id .down)

namespace Counts

variable {read taken : List Stmt} {absorption : Absorption} {place : Nat} {position : Position}
  {target : Variable} {info : Info} {value initial : Number}

theorem lt_size (counts : Counts read absorption taken place position target info value initial) :
    place < absorption.kept.size :=
  (Array.getElem?_eq_some_iff.mp counts.here).1

theorem mem_declared (counts : Counts read absorption taken place position target info value initial) :
    target.id ∈ declaredAmong (walkStmts read) :=
  List.mem_flatMap.mpr ⟨_, map_subset_walkStmts read (List.mem_map_of_mem counts.declared),
    List.mem_cons_self⟩

/-- A statement that is kept after the declaration has to leave the variable alone. -/
theorem keep (counts : Counts read absorption taken place position target info value initial)
    {statement : Stmt} (leaves : LeavesAlone target.id statement) :
    Counts (read ++ [statement]) (absorption.keep statement) taken place position target info value
      initial where
  here := by
    rw [keep_eq, Array.getElem?_push, if_neg (Nat.ne_of_lt counts.lt_size)]
    exact counts.here
  changes := counts.changes
  later index other after isOther := by
    rw [keep_eq, Array.getElem?_push] at isOther
    split at isOther
    · cases isOther
      exact leaves
    · exact counts.later index other after isOther
  declared := List.mem_append_left _ counts.declared
  counted := counts.counted

/-- A declaration that has just been kept has taken nothing in. -/
theorem opened (changes : target.mutable = true)
    (untaken : ∀ step, taken.countP (isStepOf target.id step) = 0) :
    Counts (read ++ [.declare position target (.number info value)])
      (absorption.keep (.declare position target (.number info value))) taken absorption.kept.size
      position target info value value where
  here := by rw [keep_eq, Array.getElem?_push, if_pos rfl]
  changes := changes
  later index other after isOther := by
    rw [keep_eq, Array.getElem?_eq_some_iff] at isOther
    obtain ⟨inside, -⟩ := isOther
    rw [Array.size_push] at inside
    omega
  declared := List.mem_append_right _ List.mem_cons_self
  counted count same := ⟨count, same, by simp [untaken]⟩

/-- A step changes a number as it says. -/
theorem counted_stepped
    (counts : Counts read absorption taken place position target info value initial)
    {other : Variable} (isTarget : other.id = target.id) (step : Step) (note : Position) (count : Int)
    (same : stepped step value = .int count) :
    ∃ first, initial = .int first ∧ count = first +
      (taken ++ [Stmt.step note step other]).countP (isStepOf target.id .up) -
        (taken ++ [Stmt.step note step other]).countP (isStepOf target.id .down) := by
  cases value with
  | float value => cases step <;> cases same
  | int value =>
    obtain ⟨first, isFirst, counted⟩ := counts.counted value rfl
    refine ⟨first, isFirst, ?_⟩
    rw [List.countP_append, List.countP_append, List.countP_singleton, List.countP_singleton]
    cases step <;> cases same <;> simp [isStepOf, isTarget] <;> omega

/-- The step of a variable is counted by its declaration. -/
theorem stepAt (counts : Counts read absorption taken place position target info value initial)
    {other : Variable} (isTarget : other.id = target.id) (step : Step) (note : Position) :
    Counts (read ++ [.step note step other]) (absorption.stepAt place step)
      (taken ++ [.step note step other]) place position target info (stepped step value)
      initial where
  here := by simp [Absorption.stepAt, Array.getElem?_modify, counts.here]
  changes := counts.changes
  later index other after isOther := by
    simp only [Absorption.stepAt, Array.getElem?_modify, if_neg (Nat.ne_of_lt after)] at isOther
    exact counts.later index other after isOther
  declared := List.mem_append_left _ counts.declared
  counted := counts.counted_stepped isTarget step note

/-- The step of another variable, which is declared elsewhere, is not counted. -/
theorem stepElsewhere
    (counts : Counts read absorption taken place position target info value initial)
    {other : Variable} {elsewhere : Nat} (differ : other.id ≠ target.id) (apart : elsewhere ≠ place)
    (step : Step) (note : Position) :
    Counts (read ++ [.step note step other]) (absorption.stepAt elsewhere step)
      (taken ++ [.step note step other]) place position target info value initial where
  here := by simp [Absorption.stepAt, Array.getElem?_modify, apart, counts.here]
  changes := counts.changes
  later index statement after isStatement := by
    simp only [Absorption.stepAt, Array.getElem?_modify] at isStatement
    split at isStatement
    · obtain ⟨before, isBefore, rfl⟩ := Option.map_eq_some_iff.mp isStatement
      refine (counts.later index before after isBefore).alike ?_
      split
      · exact .number _ _ _ _ _
      · exact .refl _
    · exact counts.later index statement after isStatement
  declared := List.mem_append_left _ counts.declared
  counted count same := by
    have untouched (direction : Step) :
        isStepOf target.id direction (.step note step other) = false := by simp [isStepOf, differ]
    simpa [List.countP_append, untouched] using counts.counted count same

end Counts

/-- What holds while the steps of a list are absorbed. -/
structure Replays (read : List Stmt) (absorption : Absorption) (taken : List Stmt) : Prop where
  distinct : (absorption.foldable.map Prod.fst).Nodup
  counts : ∀ id place, (id, place) ∈ absorption.foldable →
    ∃ position target info value initial, target.id = id ∧
      Counts read absorption taken place position target info value initial
  known : ∀ position step target, .step position step target ∈ taken →
    target.id ∈ declaredAmong (walkStmts read)

/-- No step of a variable that is declared only now has been taken in. -/
theorem Replays.untaken {read taken : List Stmt} {absorption : Absorption}
    (replays : Replays read absorption taken) {id : Nat}
    (undeclared : id ∉ declaredAmong (walkStmts read)) (step : Step) :
    taken.countP (isStepOf id step) = 0 := by
  rw [List.countP_eq_zero]
  intro statement listed isStep
  cases statement with
  | step position direction target =>
    simp only [isStepOf, Bool.and_eq_true, beq_iff_eq] at isStep
    exact undeclared (isStep.2 ▸ replays.known position direction target listed)
  | _ => cases isStep

theorem Replays.next {read taken : List Stmt} {absorption : Absorption}
    (replays : Replays read absorption taken) (statement : Stmt)
    (once : (declaredAmong (walkStmts (read ++ [statement]))).Nodup) :
    Replays (read ++ [statement]) (absorption.next statement)
      (taken ++ if isAbsorbed absorption.foldable statement then [statement] else []) := by
  have parts : declaredAmong (walkStmts (read ++ [statement])) =
      declaredAmong (walkStmts read) ++ declaredAmong statement.walk := by
    rw [walkStmts_eq_flatMap, List.flatMap_append, ← walkStmts_eq_flatMap, declaredAmong_append]
    simp
  rw [parts] at once
  obtain ⟨-, -, apart⟩ := List.nodup_append.mp once
  obtain ⟨notAbsorbed, kept⟩ | ⟨position, step, target, place, rfl, found, stepped⟩ :=
    next_cases absorption statement
  · rw [kept, notAbsorbed]
    simp only [Bool.false_eq_true, if_false, List.append_nil]
    refine ⟨nodup_foldableAfter replays.distinct _ _, fun id place entry => ?_,
      fun position step target listed => ?_⟩
    · obtain ⟨position, target, info, value, rfl, changes, same⟩ | entry := foldableAfter_cases entry
      · cases same
        have undeclared : target.id ∉ declaredAmong (walkStmts read) := fun declared =>
          apart _ declared _ List.mem_cons_self rfl
        exact ⟨position, target, info, value, value, rfl,
          .opened changes (replays.untaken undeclared)⟩
      · obtain ⟨position, target, info, value, initial, rfl, counts⟩ :=
          replays.counts id place ((untouched_sublist _ _).subset entry)
        exact ⟨position, target, info, value, initial, rfl, counts.keep
          (leavesAlone_of_untouched entry fun declared => apart _ counts.mem_declared _ declared rfl)⟩
    · rw [parts]
      exact List.mem_append_left _ (replays.known position step target listed)
  · have absorbed : isAbsorbed absorption.foldable (.step position step target) = true := by
      simp [isAbsorbed, found]
    have listed : (target.id, place) ∈ absorption.foldable := by
      obtain ⟨before, after, split, -⟩ := List.lookup_eq_some_iff.mp found
      rw [split]
      exact List.mem_append_right _ List.mem_cons_self
    obtain ⟨_, stepTarget, _, _, _, sameId, stepCounts⟩ := replays.counts target.id place listed
    rw [stepped, absorbed, if_pos rfl]
    refine ⟨replays.distinct, fun id elsewhere entry => ?_, fun note direction other member => ?_⟩
    · obtain ⟨position', target', info, value, initial, rfl, counts⟩ :=
        replays.counts id elsewhere entry
      by_cases same : target.id = target'.id
      · have equal : (target'.id, elsewhere) = (target.id, place) :=
          List.inj_on_of_nodup_map replays.distinct entry listed same.symm
        obtain rfl : elsewhere = place := congrArg Prod.snd equal
        exact ⟨position', target', info, _, initial, rfl, counts.stepAt same step position⟩
      · have elsewhere_ne : place ≠ elsewhere := by
          rintro rfl
          -- one statement declares one variable
          cases stepCounts.here.symm.trans counts.here
          exact same sameId.symm
        exact ⟨position', target', info, value, initial, rfl,
          counts.stepElsewhere same elsewhere_ne step position⟩
    · rw [parts]
      refine List.mem_append_left _ ?_
      obtain member | member := List.mem_append.mp member
      · exact replays.known note direction other member
      · cases List.mem_singleton.mp member
        exact sameId ▸ stepCounts.mem_declared

theorem takenIn_append (absorption : Absorption) (first second : List Stmt) :
    takenIn absorption (first ++ second) =
      takenIn absorption first ++ takenIn (first.foldl Absorption.next absorption) second := by
  induction first generalizing absorption with
  | nil => rfl
  | cons statement first ih =>
    rw [List.cons_append, takenIn, ih, takenIn, List.append_assoc, List.foldl_cons]

/-- Every list of statements is absorbed so, if no number is declared twice in it. -/
theorem replays_afterReading {read : List Stmt} (once : (declaredAmong (walkStmts read)).Nodup) :
    Replays read (afterReading read) (takenIn ⟨#[], []⟩ read) := by
  induction read using List.reverseRecOn with
  | nil =>
    refine ⟨List.nodup_nil, fun id place entry => ?_, fun position step target member => ?_⟩
    · cases entry
    · cases member
  | append_singleton read statement ih =>
    have within : (walkStmts read).Sublist (walkStmts (read ++ [statement])) :=
      walkStmts_sublist (List.sublist_append_left _ _)
    have next := (ih (once.sublist (within.flatMap Node.declares))).next statement once
    rw [takenIn_append, takenIn, takenIn, List.append_nil, afterReading, List.foldl_append]
    exact next

end Optimizer

open Optimizer

/-- While the steps of a list of an accepted program are absorbed, a foldable variable has
its declaration at its place, changeable and with a number. Nothing that is kept after that
place names the variable or runs code that may be anywhere. If the number is whole, it is
the one that was declared, with the steps of the variable that were taken in. -/
theorem foldable_counts {source : String} {program : Program}
    (accepted : analyze source = .ok program) {body done flat read : List Stmt}
    (listed : body ∈ program.bodies) (isDone : done <+: body)
    (optimizes : optimizeEach done = .ok flat) (isRead : read <+: flat) :
    ((afterReading read).foldable.map Prod.fst).Nodup ∧
      ∀ id place, (id, place) ∈ (afterReading read).foldable →
        place < (afterReading read).kept.size ∧
          ∃ position target info value initial, target.id = id ∧
            Counts read (afterReading read) (takenIn ⟨#[], []⟩ read) place position target info
              value initial ∧
            ∀ other ∈ read, id ∈ (Node.stmt other).declares →
              other = .declare position target (.number info initial) := by
  have isScoped := Analysis.scoped_of_analyze accepted
  have onceFlat : (declaredAmong (walkStmts flat)).Nodup := by
    have once : (declaredAmong (walkStmts done)).Nodup :=
      isScoped.distinct.sublist (((walkStmts_sublist isDone.sublist).trans
        (walkStmts_sublist_of_mem_bodies listed)).flatMap Node.declares)
    rw [declaredAmong_eq] at once ⊢
    exact once.sublist ((fitBody_optimizeEach optimizes).declared.map Owner.id)
  have once : (declaredAmong (walkStmts read)).Nodup :=
    onceFlat.sublist ((walkStmts_sublist isRead.sublist).flatMap Node.declares)
  have replays := replays_afterReading once
  refine ⟨replays.distinct, fun id place entry => ?_⟩
  obtain ⟨position, target, info, value, initial, rfl, counts⟩ := replays.counts id place entry
  refine ⟨counts.lt_size, position, target, info, value, initial, rfl, counts,
    fun other member declares => ?_⟩
  have visited {statement : Stmt} (member : statement ∈ read) : .stmt statement ∈ walkStmts read :=
    map_subset_walkStmts read (List.mem_map_of_mem member)
  have same := eq_of_nodup_flatMap once (visited member) (visited counts.declared) declares
    List.mem_cons_self
  cases same
  rfl

theorem foldable_counts_lateProgram :
    ∃ read, optimizeEach (Analysis.lateProgram.body.take 4) = .ok read ∧
      (afterReading read).kept.size = 3 ∧
        ∃ position target info initial, target.id = Analysis.lateCounter.id ∧
          Counts read (afterReading read) (takenIn ⟨#[], []⟩ read) 2 position target info (.int 2)
            initial := by
  have optimizes : optimizeEach (Analysis.lateProgram.body.take 4) =
      .ok (Analysis.lateProgram.body.take 4) := rfl
  have listed : Analysis.lateProgram.body ∈ Analysis.lateProgram.bodies := List.mem_cons_self
  obtain ⟨-, entries⟩ := foldable_counts Analysis.analyze_lateSource listed (List.take_prefix 4 _)
    optimizes (List.prefix_refl _)
  obtain ⟨-, position, target, info, value, initial, isCounter, counts, -⟩ :=
    entries Analysis.lateCounter.id 2 (by decide)
  have here : (afterReading (Analysis.lateProgram.body.take 4)).kept[2]? =
      some (.declare ⟨3, 1⟩ Analysis.lateCounter (.number ⟨.int .w32, ⟨3, 9⟩⟩ (.int 2))) := rfl
  cases counts.here.symm.trans here
  exact ⟨_, optimizes, rfl, _, _, _, initial, isCounter, counts⟩

end GlyphCompiler
