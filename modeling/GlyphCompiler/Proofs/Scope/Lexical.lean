/-
# What names mean in a growing forest

A forest of scopes grows by creating scopes and declaring names, in any order: a scope
may gain names after scopes inside it exist. What a name means at a place is told by
the history alone: by the path from that place outward, and by the first declaration
of the name in each scope on it. Only the history says so here, and it is shown that
the forest that has grown answers the same.
-/

import Mathlib
import GlyphCompiler.Scope.Forest

namespace GlyphCompiler

namespace Forest

variable {Entity Owner : Type}

/-! ## Histories -/

/-- What a scope is made as, and the number of the scope that it is made in. -/
inductive Kind (Owner : Type)
  | root
  | block (around : Nat)
  | loop (around : Nat)
  | functionBody (around : Nat) (owner : Owner)

namespace Kind

/-- The number of the scope around a scope. -/
def around? : Kind Owner → Option Nat
  | .root => none
  | .block around | .loop around | .functionBody around _ => some around

/-- The function that a scope is the body of. -/
def owner? : Kind Owner → Option Owner
  | .functionBody _ owner => some owner
  | _ => none

/-- Is a scope the body of a loop? -/
def isLoop : Kind Owner → Bool
  | .loop _ => true
  | _ => false

/-- Is a scope an outermost one? -/
def isRoot : Kind Owner → Bool
  | .root => true
  | _ => false

/-- The empty scope of a kind, given the scope around it. -/
def made (outer : Scope Entity Owner) : Kind Owner → Scope Entity Owner
  | .root => .root
  | .block _ => outer.block
  | .loop _ => outer.loop
  | .functionBody _ owner => .functionBody owner

end Kind

/-- What is done with a forest. -/
inductive Action (Entity Owner : Type)
  | create (kind : Kind Owner)
  | declare (place : Nat) (cause : String → Cause) (name : String) (entity : Entity)
      (position : Position)
  | lookup (place : Nat) (name : String)

namespace Action

/-- The scope that an action is about, unless it creates an outermost one. -/
def place? : Action Entity Owner → Option Nat
  | .create kind => kind.around?
  | .declare place _ _ _ _ | .lookup place _ => some place

/-- The kind of the scope that an action creates. -/
def kind? : Action Entity Owner → Option (Kind Owner)
  | .create kind => some kind
  | _ => none

/-- What an action declares a name as in a scope. -/
def declares? (place : Nat) (name : String) : Action Entity Owner → Option Entity
  | .declare number _ declared entity _ =>
    if number = place ∧ declared = name then some entity else none
  | _ => none

end Action

/-- The forest after an action. A declaration that fails leaves it as it was. -/
def act (forest : Forest Entity Owner) : Action Entity Owner → Forest Entity Owner
  | .create .root => forest.addRoot
  | .create (.block around) => forest.addBlock around
  | .create (.loop around) => forest.addLoop around
  | .create (.functionBody around owner) => forest.addFunctionBody around owner
  | .declare place cause name entity position =>
    match forest.declare place cause name entity position with
    | .ok grown => grown
    | .error _ => forest
  | .lookup _ _ => forest

/-- The forest that has grown by some actions in order. -/
def grow (history : List (Action Entity Owner)) : Forest Entity Owner :=
  history.foldl act ⟨#[]⟩

/-- The kinds of the scopes that have been created, by their numbers. -/
def kinds (history : List (Action Entity Owner)) : List (Kind Owner) :=
  history.filterMap Action.kind?

/-- The first declaration of a name in a scope. -/
def declared? (history : List (Action Entity Owner)) (place : Nat) (name : String) :
    Option Entity :=
  history.findSome? (Action.declares? place name)

/-- Every action is about a scope that exists by then. -/
inductive Valid : List (Action Entity Owner) → Prop
  | nil : Valid []
  | snoc {history : List (Action Entity Owner)} {action : Action Entity Owner} :
      Valid history → (∀ place ∈ action.place?, place < (kinds history).length) →
        Valid (history ++ [action])

/-- The numbers of a scope and of the scopes around it, from the inside out. -/
inductive Path (kinds : List (Kind Owner)) : Nat → List Nat → Prop
  | root {number : Nat} : kinds[number]? = some .root → Path kinds number [number]
  | inside {number around : Nat} {kind : Kind Owner} {path : List Nat} :
      kinds[number]? = some kind → kind.around? = some around → Path kinds around path →
        Path kinds number (number :: path)

/-- A loop is on a path, with no body of a function before it. -/
def Loops (kinds : List (Kind Owner)) (path : List Nat) : Prop :=
  ∃ inner number outer, path = inner ++ number :: outer ∧ kinds[number]?.any Kind.isLoop ∧
    ∀ nearer ∈ inner, kinds[nearer]?.bind Kind.owner? = none

/-! ## One action after others -/

section

variable {history : List (Action Entity Owner)} {action : Action Entity Owner}

theorem grow_snoc : grow (history ++ [action]) = (grow history).act action := by
  simp [grow]

theorem kinds_snoc : kinds (history ++ [action]) = kinds history ++ action.kind?.toList := by
  rw [kinds, kinds, List.filterMap_append]
  cases action <;> rfl

theorem declared?_snoc (place : Nat) (name : String) :
    declared? (history ++ [action]) place name =
      (declared? history place name).or (action.declares? place name) := by
  rw [declared?, declared?, List.findSome?_append]
  cases isDeclared : action.declares? place name <;> simp [isDeclared]

end

/-! ## What the forest holds -/

/-- Where a scope stands. -/
def standing (scope : Scope Entity Owner) : Bool × Option Owner × Bool :=
  (scope.inLoop, scope.owner, scope.topLevel)

theorem standing_made {first second : Scope Entity Owner} (same : standing first = standing second)
    (kind : Kind Owner) : standing (kind.made first) = standing (kind.made second) := by
  simp only [standing, Prod.mk.injEq] at same
  cases kind <;> simp [standing, Kind.made, Scope.block, Scope.loop, same]

/-- A scope of some kind stands where it was made to stand, within the scope around it. -/
def Stands (forest : Forest Entity Owner) (kind : Kind Owner) (scope : Scope Entity Owner) : Prop :=
  ∃ outer : Scope Entity Owner, standing scope = standing (kind.made outer) ∧
    ∀ around ∈ kind.around?, ∃ other : Member Entity Owner,
      forest.members[around]? = some other ∧ standing other.scope = standing outer

/-- A member of a forest is what a history tells of a scope of some kind. -/
structure Fits (history : List (Action Entity Owner)) (forest : Forest Entity Owner)
    (number : Nat) (kind : Kind Owner) (member : Member Entity Owner) : Prop where
  parent : member.parent = kind.around?
  before : ∀ around ∈ kind.around?, around < number
  bindings : ∀ name, member.scope.find? name = declared? history number name
  stands : Stands forest kind member.scope

/-- A forest holds what a history tells. -/
structure Holds (history : List (Action Entity Owner)) (forest : Forest Entity Owner) : Prop where
  size : forest.members.size = (kinds history).length
  fits : ∀ number kind, (kinds history)[number]? = some kind →
    ∃ member, forest.members[number]? = some member ∧ Fits history forest number kind member
  unborn : ∀ number, (kinds history).length ≤ number → ∀ name, declared? history number name = none

section

variable {history : List (Action Entity Owner)} {forest : Forest Entity Owner}
  {action : Action Entity Owner} {number place : Nat} {kind : Kind Owner}
  {member : Member Entity Owner}

/-- A forest has the scopes of another one, standing where they stood. -/
def Keeps (forest grown : Forest Entity Owner) : Prop :=
  ∀ (number : Nat) (member : Member Entity Owner), forest.members[number]? = some member →
    ∃ other : Member Entity Owner, grown.members[number]? = some other ∧
      standing other.scope = standing member.scope

theorem Keeps.refl (forest : Forest Entity Owner) : Keeps forest forest :=
  fun _ member found => ⟨member, found, rfl⟩

theorem Stands.mono {grown : Forest Entity Owner} {scope : Scope Entity Owner}
    (stands : Stands forest kind scope) (keeps : Keeps forest grown) : Stands grown kind scope := by
  obtain ⟨outer, same, around⟩ := stands
  refine ⟨outer, same, fun other isAround => ?_⟩
  obtain ⟨found, isFound, stands⟩ := around other isAround
  obtain ⟨later, isLater, alike⟩ := keeps other found isFound
  exact ⟨later, isLater, alike.trans stands⟩

/-- What fits keeps fitting while nothing more is declared in its scope. -/
theorem Fits.mono {grown : Forest Entity Owner} (fits : Fits history forest number kind member)
    (keeps : Keeps forest grown) (silent : ∀ name, action.declares? number name = none) :
    Fits (history ++ [action]) grown number kind member where
  parent := fits.parent
  before := fits.before
  bindings name := by rw [declared?_snoc, silent, Option.or_none, fits.bindings]
  stands := fits.stands.mono keeps

theorem holds_nil : Holds ([] : List (Action Entity Owner)) ⟨#[]⟩ where
  size := rfl
  fits _ _ found := by cases found
  unborn _ _ _ := rfl

theorem act_create (forest : Forest Entity Owner) (kind : Kind Owner) :
    forest.act (.create kind) = match kind.around? with
      | none => forest.addRoot
      | some around => forest.addInside around kind.made := by
  cases kind <;> rfl

/-- A forest with one more scope, at its end. -/
theorem Holds.push (holds : Holds history forest) (kind : Kind Owner) (outer : Scope Entity Owner)
    (around : ∀ around ∈ kind.around?, ∃ other, forest.members[around]? = some other ∧
      standing other.scope = standing outer) :
    Holds (history ++ [.create kind]) ⟨forest.members.push ⟨kind.around?, kind.made outer⟩⟩ := by
  have same : kinds (history ++ [.create kind]) = kinds history ++ [kind] := kinds_snoc
  have stay (number : Nat) (member : Member Entity Owner)
      (found : forest.members[number]? = some member) :
      (forest.members.push ⟨kind.around?, kind.made outer⟩)[number]? = some member := by
    rw [Array.getElem?_push, if_neg, found]
    have := (Array.getElem?_eq_some_iff.mp found).1
    omega
  have keeps : Keeps forest ⟨forest.members.push ⟨kind.around?, kind.made outer⟩⟩ :=
    fun number member found => ⟨member, stay number member found, rfl⟩
  refine ⟨by simp [same, holds.size], fun number created found => ?_,
    fun number beyond name => ?_⟩
  · rw [same, List.getElem?_append] at found
    split at found
    · obtain ⟨member, isMember, fits⟩ := holds.fits number created found
      exact ⟨member, stay number member isMember, fits.mono keeps fun _ => rfl⟩
    · next beyond =>
      rw [List.getElem?_singleton] at found
      split at found <;> cases found
      obtain rfl : number = forest.members.size := by rw [holds.size]; omega
      refine ⟨_, Array.getElem?_push_size, rfl, fun inside isAround => ?_, fun name => ?_,
        outer, rfl, fun inside isAround => ?_⟩
      · obtain ⟨other, isOther, -⟩ := around inside isAround
        exact (Array.getElem?_eq_some_iff.mp isOther).1
      · rw [declared?_snoc, holds.unborn _ holds.size.ge]
        cases kind <;> rfl
      · obtain ⟨other, isOther, stands⟩ := around inside isAround
        exact ⟨other, stay inside other isOther, stands⟩
  · rw [same, List.length_append] at beyond
    rw [declared?_snoc, holds.unborn number (by omega)]
    rfl

theorem Holds.create (holds : Holds history forest)
    (within : ∀ around ∈ kind.around?, around < (kinds history).length) :
    Holds (history ++ [.create kind]) (forest.act (.create kind)) := by
  rw [act_create]
  cases isAround : kind.around? with
  | none =>
    have isRoot : kind.made (.root : Scope Entity Owner) = .root := by
      cases kind <;> first | rfl | cases isAround
    have pushed := holds.push kind .root (by simp [isAround])
    rwa [isAround, isRoot] at pushed
  | some around =>
    obtain ⟨member, isMember, -⟩ := holds.fits around _
      (List.getElem?_eq_getElem (within around isAround))
    have pushed := holds.push kind member.scope (by
      rintro _ same
      cases isAround.symm.trans same
      exact ⟨member, isMember, rfl⟩)
    rw [isAround] at pushed
    simpa only [addInside, isMember] using pushed

/-- A declaration in a scope that has the name fails, and otherwise binds it. -/
theorem Holds.declare_eq (holds : Holds history forest)
    (within : place < (kinds history).length) (cause : String → Cause) (name : String)
    (entity : Entity) (position : Position) :
    ∃ member, forest.members[place]? = some member ∧
      forest.declare place cause name entity position =
        match declared? history place name with
        | some _ => .error ⟨cause name, position⟩
        | none => .ok ⟨forest.members.setIfInBounds place { member with
            scope := { member.scope with bindings := member.scope.bindings ++ [(name, entity)] } }⟩ := by
  obtain ⟨member, isMember, fits⟩ := holds.fits place _ (List.getElem?_eq_getElem within)
  refine ⟨member, isMember, ?_⟩
  rw [declare, isMember, ← fits.bindings]
  dsimp only
  unfold Scope.declare
  cases member.scope.find? name <;> rfl

/-- A forest with one more binding, at the end of a scope. -/
theorem Holds.bind (holds : Holds history forest) {cause : String → Cause} {name : String}
    {entity : Entity} {position : Position} (isMember : forest.members[place]? = some member) :
    Holds (history ++ [.declare place cause name entity position])
      ⟨forest.members.setIfInBounds place { member with
        scope := { member.scope with bindings := member.scope.bindings ++ [(name, entity)] } }⟩ := by
  have same : kinds (history ++ [.declare place cause name entity position]) = kinds history := by
    rw [kinds_snoc]
    exact List.append_nil _
  have inside : place < forest.members.size := (Array.getElem?_eq_some_iff.mp isMember).1
  have keeps : Keeps forest ⟨forest.members.setIfInBounds place { member with
      scope := { member.scope with bindings := member.scope.bindings ++ [(name, entity)] } }⟩ := by
    intro number other found
    rcases eq_or_ne place number with rfl | apart
    · cases isMember.symm.trans found
      exact ⟨_, Array.getElem?_setIfInBounds_self_of_lt inside, rfl⟩
    · exact ⟨other, (Array.getElem?_setIfInBounds_ne apart).trans found, rfl⟩
  refine ⟨by simp [same, holds.size], fun number kind found => ?_, fun number beyond asked => ?_⟩
  · obtain ⟨other, isOther, fits⟩ := holds.fits number kind (same ▸ found)
    rcases eq_or_ne place number with rfl | apart
    · cases isMember.symm.trans isOther
      refine ⟨_, Array.getElem?_setIfInBounds_self_of_lt inside, fits.parent, fits.before,
        fun asked => ?_, fits.stands.mono keeps⟩
      rw [Scope.find?_append, fits.bindings, declared?_snoc]
      simp [Action.declares?, eq_comm]
    · refine ⟨other, (Array.getElem?_setIfInBounds_ne apart).trans isOther, fits.mono keeps ?_⟩
      exact fun asked => if_neg fun named => apart named.1
  · rw [same] at beyond
    rw [declared?_snoc, holds.unborn number beyond, Option.none_or]
    exact if_neg fun named => by rw [← holds.size] at beyond; omega

/-- An action that changes neither the forest nor what is declared. -/
theorem Holds.still (holds : Holds history forest) (noKind : action.kind? = none)
    (silent : ∀ number name,
      declared? (history ++ [action]) number name = declared? history number name) :
    Holds (history ++ [action]) forest := by
  have same : kinds (history ++ [action]) = kinds history := by simp [kinds_snoc, noKind]
  refine ⟨by rw [same, holds.size], fun number kind found => ?_, fun number beyond name => ?_⟩
  · obtain ⟨member, isMember, fits⟩ := holds.fits number kind (same ▸ found)
    exact ⟨member, isMember, fits.parent, fits.before,
      fun name => (fits.bindings name).trans (silent number name).symm, fits.stands⟩
  · rw [silent, holds.unborn number (same ▸ beyond)]

/-- Every action keeps the forest what the history tells. -/
theorem Holds.act (holds : Holds history forest)
    (within : ∀ place ∈ action.place?, place < (kinds history).length) :
    Holds (history ++ [action]) (forest.act action) := by
  cases action with
  | create kind => exact holds.create within
  | lookup place name => exact holds.still rfl fun _ _ => by simp [declared?_snoc, Action.declares?]
  | declare place cause name entity position =>
    obtain ⟨member, isMember, declares⟩ :=
      holds.declare_eq (within place rfl) cause name entity position
    rw [Forest.act, declares]
    cases isDeclared : declared? history place name with
    | none => exact holds.bind isMember
    | some earlier =>
      refine holds.still rfl fun number asked => ?_
      rw [declared?_snoc, Action.declares?]
      split
      · next named =>
        obtain ⟨rfl, rfl⟩ := named
        rw [isDeclared, Option.some_or]
      · exact Option.or_none

theorem holds_grow (valid : Valid history) : Holds history (grow history) := by
  induction valid with
  | nil => exact holds_nil
  | snoc valid within holds =>
    rw [grow_snoc]
    exact holds.act within

/-! ## Paths -/

theorem Path.unique {kinds : List (Kind Owner)} {path other : List Nat}
    (first : Path kinds number path) (second : Path kinds number other) : other = path := by
  induction first generalizing other with
  | root isRoot =>
    cases second with
    | root => rfl
    | inside isKind isAround _ =>
      cases isRoot.symm.trans isKind
      cases isAround
  | inside isKind isAround _ ih =>
    cases second with
    | root isRoot =>
      cases isRoot.symm.trans isKind
      cases isAround
    | inside isOther isOuter further =>
      cases isKind.symm.trans isOther
      cases isAround.symm.trans isOuter
      rw [ih further]

/-- Every scope has a path, since the scope around a scope has a smaller number. -/
theorem Holds.exists_path (holds : Holds history forest) (place : Nat)
    (within : place < (kinds history).length) : ∃ path, Path (kinds history) place path := by
  induction place using Nat.strongRecOn with
  | ind place ih =>
    have isKind := List.getElem?_eq_getElem within
    obtain ⟨member, -, fits⟩ := holds.fits place _ isKind
    cases isAround : ((kinds history)[place]).around? with
    | none =>
      refine ⟨[place], .root ?_⟩
      rw [isKind]
      cases isCreated : (kinds history)[place] <;> rw [isCreated] at isAround <;>
        first | rfl | cases isAround
    | some around =>
      have smaller := fits.before around isAround
      obtain ⟨path, isPath⟩ := ih around smaller (smaller.trans within)
      exact ⟨place :: path, .inside isKind isAround isPath⟩

/-- The scopes around a place are those on its path. -/
theorem Holds.lookup_eq (holds : Holds history forest) {path : List Nat}
    (isPath : Path (kinds history) place path) (name : String) :
    forest.lookup place name = path.findSome? fun number => declared? history number name := by
  induction isPath with
  | root isRoot =>
    obtain ⟨⟨parent, scope⟩, isMember, fits⟩ := holds.fits _ _ isRoot
    obtain rfl : parent = none := fits.parent
    rw [lookup, scopes, isMember]
    simp [Scopes.lookup, ← fits.bindings]
  | @inside number around kind path isKind isAround _ ih =>
    obtain ⟨⟨parent, scope⟩, isMember, fits⟩ := holds.fits _ _ isKind
    obtain rfl : parent = some around := fits.parent.trans isAround
    rw [lookup, scopes, isMember]
    simp only [if_pos (fits.before around isAround), Scopes.lookup, List.findSome?_cons,
      ← fits.bindings]
    rw [← ih]
    rfl

theorem not_loops_nil (kinds : List (Kind Owner)) : ¬ Loops kinds [] := by
  rintro ⟨inner, number, outer, same, -⟩
  simp at same

/-- A loop is the innermost scope, or it is further out and no function is entered. -/
theorem loops_cons {kinds : List (Kind Owner)} {path : List Nat}
    (isKind : kinds[number]? = some kind) :
    Loops kinds (number :: path) ↔ kind.isLoop = true ∨ kind.owner? = none ∧ Loops kinds path := by
  constructor
  · rintro ⟨_ | ⟨nearer, inner⟩, found, outer, same, isLoop, outside⟩
    · cases same
      exact .inl (by simpa [isKind] using isLoop)
    · cases same
      refine .inr ⟨by simpa [isKind] using outside number List.mem_cons_self, inner, found, outer,
        rfl, isLoop, fun nearer member => outside nearer (List.mem_cons_of_mem _ member)⟩
  · rintro (isLoop | ⟨noOwner, inner, found, outer, rfl, isLoop, outside⟩)
    · exact ⟨[], number, path, rfl, by simp [isKind, isLoop], fun _ member => by cases member⟩
    · refine ⟨number :: inner, found, outer, rfl, isLoop, fun nearer member => ?_⟩
      rcases List.mem_cons.mp member with rfl | member
      · simp [isKind, noOwner]
      · exact outside nearer member

/-- A scope stands where its path says. -/
theorem Holds.standing_eq (holds : Holds history forest) {path : List Nat}
    (isPath : Path (kinds history) place path) :
    ∃ member, forest.members[place]? = some member ∧
      (member.scope.inLoop = true ↔ Loops (kinds history) path) ∧
        member.scope.owner = path.findSome? (fun number => (kinds history)[number]?.bind Kind.owner?) ∧
          member.scope.topLevel = (kinds history)[place]?.any Kind.isRoot := by
  induction isPath with
  | root isRoot =>
    obtain ⟨member, isMember, fits⟩ := holds.fits _ _ isRoot
    obtain ⟨outer, stands, -⟩ := fits.stands
    simp only [standing, Kind.made, Scope.root, Prod.mk.injEq] at stands
    refine ⟨member, isMember, ?_, ?_, ?_⟩
    · simp [stands, loops_cons isRoot, Kind.isLoop, not_loops_nil]
    · simp [stands, isRoot, Kind.owner?]
    · simp [stands, isRoot, Kind.isRoot]
  | @inside number around kind path isKind isAround isPath ih =>
    obtain ⟨member, isMember, fits⟩ := holds.fits _ _ isKind
    obtain ⟨other, isOther, inLoop, owner, -⟩ := ih
    obtain ⟨outer, stands, within⟩ := fits.stands
    obtain ⟨found, isFound, same⟩ := within around isAround
    cases isOther.symm.trans isFound
    rw [← standing_made same] at stands
    simp only [standing, Prod.mk.injEq] at stands
    obtain ⟨loops, owns, outermost⟩ := stands
    refine ⟨member, isMember, ?_, ?_, ?_⟩
    · rw [loops_cons isKind, ← inLoop, loops]
      cases kind with
      | root => cases isAround
      | _ => simp [Kind.made, Kind.isLoop, Kind.owner?, Scope.block, Scope.loop, Scope.functionBody]
    · rw [List.findSome?_cons, isKind, ← owner, owns]
      cases kind with
      | root => cases isAround
      | _ => rfl
    · rw [isKind, outermost]
      cases kind with
      | root => cases isAround
      | _ => rfl

end

/-- After any history, a name means in a scope what it was first declared as in the nearest
scope on its path that has it. A declaration fails just if its own scope has the name, and
then changes nothing; so the first one is the one that succeeds. A scope is in a loop if
one is on its path before the body of a function, belongs to the function whose body comes
first on its path, and is an outermost one only if it was made so. -/
theorem resolves_lexically {history : List (Action Entity Owner)} (valid : Valid history)
    {place : Nat} (within : place < (kinds history).length) :
    ∃ path, (∀ other, Path (kinds history) place other ↔ other = path) ∧
      (∀ name, (grow history).lookup place name =
        path.findSome? fun number => declared? history number name) ∧
      (∀ cause name entity position,
        let after := grow (history ++ [.declare place cause name entity position])
        let result := (grow history).declare place cause name entity position
        if (declared? history place name).isSome then
          result = .error ⟨cause name, position⟩ ∧ after = grow history
        else result = .ok after) ∧
      ∃ member, (grow history).members[place]? = some member ∧
        (member.scope.inLoop = true ↔ Loops (kinds history) path) ∧
        member.scope.owner =
          path.findSome? (fun number => (kinds history)[number]?.bind Kind.owner?) ∧
        member.scope.topLevel = (kinds history)[place]?.any Kind.isRoot := by
  have holds := holds_grow valid
  obtain ⟨path, isPath⟩ := holds.exists_path place within
  refine ⟨path, fun other => ⟨isPath.unique, fun same => same ▸ isPath⟩, holds.lookup_eq isPath,
    fun cause name entity position => ?_, holds.standing_eq isPath⟩
  obtain ⟨member, -, declares⟩ := holds.declare_eq within cause name entity position
  cases isDeclared : declared? history place name <;>
    simp [grow_snoc, act, declares, isDeclared]

/-- The scopes of a function, of a loop with a block in it, and of another loop. A name is
declared in the function when they exist, then in the other loop, and in vain once more. -/
def lateHistory : List (Action Nat Nat) :=
  [.create .root, .create (.functionBody 0 7), .create (.loop 1), .create (.block 2),
    .create (.loop 1), .declare 1 .alreadyDeclared "x" 1 ⟨1, 1⟩,
    .declare 4 .alreadyDeclared "x" 2 ⟨2, 1⟩, .declare 1 .alreadyDeclared "x" 3 ⟨3, 1⟩]

theorem resolves_lexically_lateHistory :
    Valid lateHistory ∧ 3 < (kinds lateHistory).length ∧
      Path (kinds lateHistory) 3 [3, 2, 1, 0] ∧ Loops (kinds lateHistory) [3, 2, 1, 0] ∧
        (grow lateHistory).lookup 3 "x" = some 1 := by
  have valid : Valid lateHistory := by
    have grown (count : Nat) (bound : count < lateHistory.length)
        (valid : Valid (lateHistory.take count))
        (within : ∀ place ∈ lateHistory[count].place?,
          place < (kinds (lateHistory.take count)).length) :
        Valid (lateHistory.take (count + 1)) := by
      rw [← List.take_concat_get' _ _ bound]
      exact valid.snoc within
    refine grown 7 ?_ (grown 6 ?_ (grown 5 ?_ (grown 4 ?_ (grown 3 ?_ (grown 2 ?_ (grown 1 ?_
      (grown 0 ?_ .nil ?_) ?_) ?_) ?_) ?_) ?_) ?_) ?_ <;> decide
  have isPath : Path (kinds lateHistory) 3 [3, 2, 1, 0] :=
    .inside rfl rfl (.inside rfl rfl (.inside rfl rfl (.root rfl)))
  obtain ⟨path, isOnly, looksUp, -, member, isMember, loops, -⟩ :=
    resolves_lexically valid (show 3 < (kinds lateHistory).length by decide)
  obtain rfl := (isOnly _).mp isPath
  exact ⟨valid, by decide, isPath, loops.mp (by cases isMember; rfl), looksUp "x"⟩

end Forest

end GlyphCompiler
