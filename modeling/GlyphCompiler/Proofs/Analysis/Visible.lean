/-
# The functions that can be seen from a place

A function can be seen inside its own body, and wherever a scope around the place
gives it a name. Only a function that can be seen can get a result.
-/

import GlyphCompiler.Proofs.Analysis.Yields

namespace GlyphCompiler

namespace Analysis

/-- The function that a name means, if it means one. -/
def functionOf : Entity → Option Function
  | .function function => some function
  | _ => none

/-- The functions that can be seen from a place: those whose bodies are around it, and
those that have a name there. -/
def visible (scopes : Scopes) : List Function :=
  scopes.flatMap fun scope =>
    scope.owner.toList ++ scope.bindings.filterMap fun binding => functionOf binding.2

theorem mem_visible_of_owner {scopes : Scopes} {function : Function}
    (owns : scopes.innermost.owner = some function) : function ∈ visible scopes := by
  cases scopes with
  | nil => cases owns
  | cons scope scopes =>
    have owner : scope.owner = some function := owns
    simp [visible, owner]

theorem mem_visible_of_lookup {scopes : Scopes} {name : String} {function : Function}
    (found : scopes.lookup name = some (.function function)) : function ∈ visible scopes := by
  obtain ⟨scope, member, here⟩ := List.exists_of_findSome?_eq_some found
  have bound : (name, Entity.function function) ∈ scope.bindings := by
    obtain ⟨before, after, split, -⟩ := List.lookup_eq_some_iff.mp here
    simp [split]
  refine List.mem_flatMap.mpr ⟨scope, member, List.mem_append_right _ ?_⟩
  exact List.mem_filterMap.mpr ⟨_, bound, rfl⟩

theorem declare_eq_ok {scopes declared : Scopes} {cause : String → Cause} {name : String}
    {entity : Entity} {position : Position}
    (done : scopes.declare cause name entity position = .ok declared) :
    declared = { scopes.innermost with
      bindings := scopes.innermost.bindings ++ [(name, entity)] } :: scopes.tail := by
  unfold GlyphCompiler.Scopes.declare Scope.declare at done
  split at done
  · cases done
  · cases done
    rfl

/-- A declaration makes what it declares visible. -/
theorem mem_visible_declare {scopes declared : Scopes} {cause : String → Cause} {name : String}
    {entity : Entity} {position : Position}
    (done : scopes.declare cause name entity position = .ok declared) (function : Function) :
    function ∈ visible declared ↔ function ∈ visible scopes ∨ entity = .function function := by
  rw [declare_eq_ok done]
  have meant : functionOf entity = some function ↔ entity = .function function := by
    cases entity <;> simp [functionOf]
  cases scopes with
  | nil =>
    rw [← meant]
    cases entity <;> simp [visible, GlyphCompiler.Scopes.innermost, Scope.root, functionOf, eq_comm]
  | cons scope scopes =>
    simp only [visible, GlyphCompiler.Scopes.innermost, List.headD_cons, List.tail_cons,
      List.flatMap_cons, List.filterMap_append, List.mem_append, ← meant]
    simp only [List.mem_filterMap, List.mem_singleton, exists_eq_left]
    grind

/-- What has a name at a place. -/
def entities (scopes : Scopes) : List Entity :=
  scopes.flatMap fun scope => scope.bindings.map Prod.snd

theorem mem_entities_of_lookup {scopes : Scopes} {name : String} {entity : Entity}
    (found : scopes.lookup name = some entity) : entity ∈ entities scopes := by
  obtain ⟨scope, member, here⟩ := List.exists_of_findSome?_eq_some found
  obtain ⟨before, after, split, -⟩ := List.lookup_eq_some_iff.mp here
  exact List.mem_flatMap.mpr ⟨scope, member, by simp [split]⟩

/-- A declaration gives a name to nothing but what it declares. -/
theorem mem_entities_declare {scopes declared : Scopes} {cause : String → Cause} {name : String}
    {entity other : Entity} {position : Position}
    (done : scopes.declare cause name entity position = .ok declared)
    (member : other ∈ entities declared) : other = entity ∨ other ∈ entities scopes := by
  rw [declare_eq_ok done] at member
  cases scopes with
  | nil =>
    left
    simpa [entities, GlyphCompiler.Scopes.innermost, Scope.root] using member
  | cons scope scopes =>
    simp only [entities, GlyphCompiler.Scopes.innermost, List.headD_cons, List.tail_cons,
      List.flatMap_cons, List.map_append, List.mem_append, List.map_cons, List.map_nil,
      List.mem_singleton] at member ⊢
    grind

@[simp]
theorem entities_block (scopes : Scopes) : entities scopes.block = entities scopes := rfl

@[simp]
theorem entities_loop (scopes : Scopes) : entities scopes.loop = entities scopes := rfl

@[simp]
theorem entities_functionBody (scopes : Scopes) (owner : Function) :
    entities (scopes.functionBody owner) = entities scopes := rfl

/-- A declaration leaves the loop around a place as it is. -/
theorem inLoop_declare {scopes declared : Scopes} {cause : String → Cause} {name : String}
    {entity : Entity} {position : Position}
    (done : scopes.declare cause name entity position = .ok declared) :
    declared.innermost.inLoop = scopes.innermost.inLoop := by
  rw [declare_eq_ok done]
  rfl

/-- A declaration changes no owner. -/
theorem owner_declare {scopes declared : Scopes} {cause : String → Cause} {name : String}
    {entity : Entity} {position : Position}
    (done : scopes.declare cause name entity position = .ok declared) :
    declared.innermost.owner = scopes.innermost.owner := by
  rw [declare_eq_ok done]
  rfl

@[simp]
theorem mem_visible_block {scopes : Scopes} {function : Function} :
    function ∈ visible scopes.block ↔ function ∈ visible scopes := by
  constructor
  · intro member
    obtain owns | outside : scopes.innermost.owner = some function ∨ function ∈ visible scopes := by
      simpa [visible, GlyphCompiler.Scopes.block, Scope.block] using member
    · exact mem_visible_of_owner owns
    · exact outside
  · intro member
    exact List.mem_append_right _ member

@[simp]
theorem mem_visible_loop {scopes : Scopes} {function : Function} :
    function ∈ visible scopes.loop ↔ function ∈ visible scopes :=
  mem_visible_block

@[simp]
theorem mem_visible_functionBody {scopes : Scopes} {owner function : Function} :
    function ∈ visible (scopes.functionBody owner) ↔
      function = owner ∨ function ∈ visible scopes := by
  simp [visible, GlyphCompiler.Scopes.functionBody, Scope.functionBody, eq_comm]

@[simp]
theorem owner_block (scopes : Scopes) :
    scopes.block.innermost.owner = scopes.innermost.owner := rfl

@[simp]
theorem owner_loop (scopes : Scopes) :
    scopes.loop.innermost.owner = scopes.innermost.owner := rfl

@[simp]
theorem owner_functionBody (scopes : Scopes) (function : Function) :
    (scopes.functionBody function).innermost.owner = some function := rfl

/-- Functions that have been declared ahead of some statements: there is one for each
statement that declares one, they can be seen beside the functions around them, they are
all that gets a name, and they are numbered on from a state. -/
structure Opens (around : Scopes) (written : List Surface.Stmt) (before : State) (scopes : Scopes)
    (opened : List Function) (after : State) : Prop where
  count : opened.length = written.countP declaresFunction
  visible : ∀ function, function ∈ visible scopes ↔
    function ∈ Analysis.visible around ∨ function ∈ opened
  named : ∀ entity ∈ entities scopes,
    (∃ function ∈ opened, entity = .function function) ∨ entity ∈ entities around
  owner : scopes.innermost.owner = around.innermost.owner
  inLoop : scopes.innermost.inLoop = around.innermost.inLoop
  ids : opened.flatMap idsOf = List.range' before.nextId (opened.flatMap idsOf).length
  names : opened.flatMap namesOf = written.flatMap functionNames
  inferred : ∀ function ∈ opened, function.inferred = true → function.result = .any
  changeable : ∀ function ∈ opened, ∀ parameter ∈ function.parameters, parameter.mutable = true
  after : after = before.numbering (opened.flatMap idsOf).length

theorem opens_nil (scopes : Scopes) (state : State) : Opens scopes [] state scopes [] state where
  count := rfl
  visible := by simp
  named _ member := .inr member
  owner := rfl
  inLoop := rfl
  ids := rfl
  names := rfl
  inferred := by simp
  changeable := nofun
  after := rfl

/-- A statement that declares no function opens nothing. -/
theorem Opens.skip {around scopes : Scopes} {statement : Surface.Stmt}
    {written : List Surface.Stmt} {before after : State} {opened : List Function}
    (noFunction : declaresFunction statement = false)
    (opens : Opens around written before scopes opened after) :
    Opens around (statement :: written) before scopes opened after :=
  { opens with
    count := by rw [opens.count, List.countP_cons_of_neg (by simp [noFunction])]
    names := by
      have noNames : functionNames statement = [] := by
        cases statement with
        | function => cases noFunction
        | conjureBinding => cases noFunction
        | _ => rfl
      rw [opens.names, List.flatMap_cons, noNames, List.nil_append] }

theorem opens_cons {around declared scopes : Scopes} {statement : Surface.Stmt}
    {written : List Surface.Stmt} {before middle after : State}
    {function : Function} {opened : List Function}
    (declares : declaresFunction statement = true)
    (visible : ∀ other, other ∈ visible declared ↔ other ∈ visible around ∨ other = function)
    (named : ∀ entity ∈ entities declared, entity = .function function ∨ entity ∈ entities around)
    (owner : declared.innermost.owner = around.innermost.owner)
    (inLoop : declared.innermost.inLoop = around.innermost.inLoop)
    (ids : idsOf function = List.range' before.nextId (idsOf function).length)
    (names : namesOf function = functionNames statement)
    (inferred : function.inferred = true → function.result = .any)
    (changeable : ∀ parameter ∈ function.parameters, parameter.mutable = true)
    (numbered : middle = before.numbering (idsOf function).length)
    (opens : Opens declared written middle scopes opened after) :
    Opens around (statement :: written) before scopes (function :: opened) after where
  count := by rw [List.length_cons, opens.count, List.countP_cons_of_pos declares]
  visible other := by
    rw [opens.visible, visible]
    grind
  named entity member := by
    obtain ⟨other, isOpened, same⟩ | outside := opens.named entity member
    · exact .inl ⟨other, List.mem_cons_of_mem _ isOpened, same⟩
    · exact (named entity outside).imp_left fun same => ⟨function, List.mem_cons_self, same⟩
  owner := opens.owner.trans owner
  inLoop := opens.inLoop.trans inLoop
  ids := by
    have rest : opened.flatMap idsOf =
        List.range' (before.nextId + (idsOf function).length) (opened.flatMap idsOf).length := by
      simpa [numbered, State.numbering] using opens.ids
    rw [List.flatMap_cons, List.length_append, ← List.range'_append_1, ← ids, ← rest]
  names := by rw [List.flatMap_cons, List.flatMap_cons, names, opens.names]
  inferred := by
    simpa using ⟨inferred, opens.inferred⟩
  changeable := List.forall_mem_cons.mpr ⟨changeable, opens.changeable⟩
  after := by
    rw [opens.after, numbered]
    simp [State.numbering, Nat.add_assoc]

theorem opens_of_yields_declareAhead {region result : Region} {written : List Surface.Stmt}
    {before after : State} (yields : Yields (declareAhead region written) before result after) :
    ∃ opened, result.ahead = region.ahead ++ opened ∧
      Opens region.scopes written before result.scopes opened after := by
  induction written generalizing region before with
  | nil =>
    simp [declareAhead] at yields
    obtain ⟨rfl, rfl⟩ := yields
    exact ⟨[], by simp, opens_nil _ _⟩
  | cons statement written ih =>
    simp only [declareAhead, yields_bind] at yields
    obtain ⟨declares, middle, first, rest⟩ := yields
    obtain ⟨noFunction, rfl, rfl⟩ | ⟨isFunction, position, function, rfl, ids, names, inferred,
      changeable, numbered⟩ :=
      yields_declared first
    · obtain ⟨opened, ahead, opens⟩ := ih rest
      exact ⟨opened, ahead, opens.skip noFunction⟩
    · simp only [yields_bind, yields_orReject] at rest
      obtain ⟨scopes, _, ⟨declared, rfl⟩, rest⟩ := rest
      obtain ⟨opened, ahead, opens⟩ := ih rest
      refine ⟨function :: opened, by simp [ahead], ?_⟩
      refine opens_cons isFunction ?_ (fun entity => mem_entities_declare declared)
        (owner_declare declared) (inLoop_declare declared) ids names inferred changeable numbered opens
      intro other
      rw [mem_visible_declare declared]
      simp [eq_comm]

/-- A list of statements begins with the functions that it declares. -/
theorem opens_of_yields_enter {scopes : Scopes} {written : List Surface.Stmt} {before after : State}
    {region : Region} (yields : Yields (enter scopes written) before region after) :
    Opens scopes written before region.scopes region.ahead after := by
  obtain ⟨opened, ahead, opens⟩ := opens_of_yields_declareAhead yields
  rw [List.nil_append] at ahead
  rw [ahead]
  exact opens

/-- The parameters of a function do not change which functions can be seen, and they are
all that gets a name. -/
theorem visible_of_yields_declareParameters {scopes result : Scopes}
    {parameters : List (Surface.Parameter × Variable)} {before after : State}
    (yields : Yields (declareParameters scopes parameters) before result after) :
    (∀ function, function ∈ visible result ↔ function ∈ visible scopes) ∧
      (∀ entity ∈ entities result,
        (∃ parameter ∈ parameters.map Prod.snd, entity = .value parameter) ∨
          entity ∈ entities scopes) ∧
      result.innermost.owner = scopes.innermost.owner ∧
      result.innermost.inLoop = scopes.innermost.inLoop ∧ after = before := by
  induction parameters generalizing scopes with
  | nil =>
    simp [declareParameters] at yields
    obtain ⟨rfl, rfl⟩ := yields
    exact ⟨fun _ => .rfl, fun _ => .inr, rfl, rfl, rfl⟩
  | cons parameter parameters ih =>
    simp only [declareParameters, yields_bind, yields_orReject] at yields
    obtain ⟨declared, _, ⟨done, rfl⟩, rest⟩ := yields
    obtain ⟨visible, named, owner, inLoop, same⟩ := ih rest
    refine ⟨fun function => ?_, fun entity member => ?_, owner.trans (owner_declare done),
      inLoop.trans (inLoop_declare done), same⟩
    · rw [visible, mem_visible_declare done]
      simp
    · obtain ⟨other, listed, isOther⟩ | outside := named entity member
      · exact .inl ⟨other, List.mem_cons_of_mem _ listed, isOther⟩
      · exact (mem_entities_declare done outside).imp_left fun same =>
          ⟨parameter.2, List.mem_cons_self, same⟩

/-- In the body of a function its parameters have names. -/
theorem named_of_yields_declareParameters {scopes result : Scopes} {function : Function}
    {written : List Surface.Parameter} {before after : State}
    (yields : Yields (declareParameters scopes (written.zip function.parameters))
      before result after) (entity : Entity) (member : entity ∈ entities result) :
    (∃ parameter ∈ function.parameters, entity = .value parameter) ∨ entity ∈ entities scopes := by
  obtain ⟨-, named, -⟩ := visible_of_yields_declareParameters yields
  refine (named entity member).imp_left ?_
  rintro ⟨parameter, listed, same⟩
  obtain ⟨pair, isPair, rfl⟩ := List.mem_map.mp listed
  exact ⟨pair.2, (List.of_mem_zip isPair).2, same⟩

end Analysis

end GlyphCompiler
