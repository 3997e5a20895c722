/-
# Subscripts of accepted programs

An index that is known is checked against the length of an array whose elements are known,
and against zero. What passes is between two bounds: it is the position of an element just
if it is a whole number.
-/

import GlyphCompiler.Proofs.Analysis.Noting
import GlyphCompiler.Proofs.Program.Accesses

namespace GlyphCompiler

namespace Analysis

section

variable {source : String} {program : Program}

/-- When a program is accepted, every node of it has its place among the constants that are
noted in the end. -/
theorem exists_placed_run (accepted : analyze source = .ok program) :
    ∃ final : State, (ofSource source).run .initial = .ok program final ∧
      (final.constants.map Prod.fst).Nodup ∧
        ∀ node ∈ walkStmts program.body, Placed (settled final final.constants) node := by
  obtain ⟨written, body, final, ran, analyzes, -, isBody⟩ := exists_analyzesBody accepted
  obtain ⟨noted, isFinal, once, -⟩ := analyzes.keeps.constants
  refine ⟨final, ran, ?_, fun node visited => ?_⟩
  · rw [isFinal]
    simpa [State.initial] using once
  · rw [isBody] at visited
    obtain ⟨statement, isStatement, below⟩ := mem_walkStmts.mp visited
    rw [settleBody_eq_map] at isStatement
    obtain ⟨raw, isRaw, rfl⟩ := List.mem_map.mp isStatement
    have outside : Named [.root] State.initial.constants := nofun
    exact analyzes.placed outside List.suffix_rfl raw isRaw node below

/-- The constants of an accepted program have numbers of their own, and every node has its
place. -/
theorem placed_of_analyze (accepted : analyze source = .ok program) :
    ∃ constants : List (Nat × Expr), (constants.map Prod.fst).Nodup ∧
      ∀ node ∈ walkStmts program.body, Placed constants node := by
  obtain ⟨final, -, once, placed⟩ := exists_placed_run accepted
  refine ⟨settled final final.constants, ?_, placed⟩
  rw [ids_settled]
  exact once

/-- Constants of accepted programs are written only where they are declared. -/
theorem writesOnce_of_analyze (accepted : analyze source = .ok program) : program.WritesOnce := by
  intro position target value declared constant node visited writes
  obtain ⟨constants, -, placed⟩ := placed_of_analyze accepted
  have isScoped := scoped_of_analyze accepted
  -- What is assigned to is named, and a constant is not assigned to.
  have notAssigned {other : Variable} (used : .value other ∈ node.uses)
      (changeable : other.mutable = true) (same : target.id = other.id) :
      node = .stmt (.declare position target value) := by
    have owned : .value target ∈ program.owners :=
      isScoped.uses_of_mem declared List.mem_cons_self
    have distinct := declaredAmong_eq (walkStmts program.body) ▸ isScoped.distinct
    cases Owner.eq_of_id_eq distinct owned (isScoped.uses_of_mem visited used) same
    exact absurd constant (changeable ▸ nofun)
  cases node with
  | expr expression => cases writes
  | stmt statement =>
    cases statement with
    | declare otherPosition other first =>
      exact isScoped.eq_of_declares visited declared writes List.mem_cons_self
    | function otherPosition function body =>
      exact isScoped.eq_of_declares visited declared (List.mem_append_left _ writes)
        List.mem_cons_self
    | assign otherPosition other first =>
      exact notAssigned List.mem_cons_self (placed _ visited) (List.mem_singleton.mp writes)
    | step otherPosition step other =>
      exact notAssigned List.mem_cons_self (placed _ visited) (List.mem_singleton.mp writes)
    | _ => cases writes

/-- A known index of an array whose elements are known is within bounds. -/
theorem inBounds_of_analyze (accepted : analyze source = .ok program) {info : Info}
    {base index : Expr} {elements : List Expr} {place : Number}
    (visited : .expr (.subscript info base index) ∈ walkStmts program.body)
    (known : Elements program base elements) (isPlace : index.staticValue = .ok (.number place)) :
    place.isNegative = false ∧ (Number.int elements.length).le place = false := by
  obtain ⟨constants, once, placed⟩ := placed_of_analyze accepted
  obtain ⟨earlier, suffix, noted, inExtent⟩ := placed _ visited
  obtain ⟨notNegative, within⟩ := inExtent place isPlace
  exact ⟨notNegative, within _ (extent_of_elements once placed known earlier suffix noted).1⟩

end

end Analysis

/-- In an accepted program a known index of an array whose elements are known is the position
of an element just if it is a whole number. So it is in every run, on every platform: where
the subscript is evaluated, the array has as many elements as are known, the index is the
known one, and an element is found at it just if it is a whole number. -/
theorem isPosition_iff_isWhole_of_analyze {source : String} {program : Program}
    (accepted : analyze source = .ok program) :
    (∀ info base index elements place,
      .expr (.subscript info base index) ∈ walkStmts program.body →
        Elements program base elements → index.staticValue = .ok (.number place) →
          ((∃ position < elements.length, place.eq (.int (position : Nat)) = true) ↔
            place.isWhole = true)) ∧
      ∀ (platform : Platform) (fuel : Nat), ∀ access ∈ platform.accesses program fuel,
        (∃ info, .expr (.subscript info access.base access.index) ∈ walkStmts program.body) ∧
          ∀ elements, Elements program access.base elements →
            ∃ contents, access.array = .array contents ∧ contents.length = elements.length ∧
              ∀ place, access.index.staticValue = .ok (.number place) →
                access.place = .number place ∧
                  ((Content.elementAt? contents place).isSome = true ↔ place.isWhole = true) := by
  constructor
  · intro info base index elements place visited known isPlace
    obtain ⟨notNegative, within⟩ := Analysis.inBounds_of_analyze accepted visited known isPlace
    exact Number.exists_position_iff notNegative within
  · intro platform fuel access member
    have reads := Platform.reads_of_mem_accesses (Analysis.writesOnce_of_analyze accepted) member
    obtain ⟨info, visited⟩ := reads.stands
    refine ⟨⟨info, visited⟩, fun elements known => ?_⟩
    obtain ⟨contents, isArray, length⟩ := reads.base.fits.length known
    refine ⟨contents, isArray, length, fun place isPlace => ?_⟩
    obtain ⟨notNegative, within⟩ := Analysis.inBounds_of_analyze accepted visited known isPlace
    refine ⟨reads.index.known _ _ isPlace rfl, ?_⟩
    rw [Content.isSome_elementAt?_iff, length]
    exact Number.exists_position_iff notNegative within

/-- The element of a constant array is read: its place is a position of the array that is
known, and an element is found there in a run on the bare platform. -/
theorem isPosition_iff_isWhole_of_analyze_accessing :
    analyze accessingSource = .ok accessingProgram ∧
      (∃ position < 1, (Number.int 0).eq (.int (position : Nat)) = true) ∧
        ∃ access ∈ Platform.bare.accesses accessingProgram 0, ∃ contents,
          access.array = .array contents ∧ contents.length = 1 ∧
            (Content.elementAt? contents (.int 0)).isSome = true := by
  obtain ⟨positions, runs⟩ := isPosition_iff_isWhole_of_analyze analyze_accessingSource
  have stands := map_subset_walkStmts accessingProgram.body
  have visited := children_subset_walkStmts (stands (.tail _ List.mem_cons_self)) List.mem_cons_self
  have known : Elements accessingProgram
      (.reference ⟨⟨constantArray.type, ⟨2, 10⟩⟩, constantArray⟩) constantElements :=
    .constant (stands List.mem_cons_self) rfl .array
  refine ⟨analyze_accessingSource, (positions _ _ _ _ (.int 0) visited known rfl).mpr rfl, ?_⟩
  have read : (Platform.bare.accesses accessingProgram 0).head? =
      some ⟨_, _, .array [.number (.int 1)], .number (.int 0)⟩ := rfl
  refine ⟨_, List.mem_of_head? read, ?_⟩
  obtain ⟨-, reads⟩ := runs Platform.bare 0 _ (List.mem_of_head? read)
  obtain ⟨contents, isArray, length, found⟩ := reads _ known
  exact ⟨contents, isArray, length, (found (.int 0) rfl).2.mpr rfl⟩

end GlyphCompiler
