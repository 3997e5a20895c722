/-
# Reading parse trees piece by piece

The children of a node are read one by one, and what is made of them is made of each: so
whatever comes of them comes of one of them.
-/

import GlyphCompiler.Surface.OfTree

namespace GlyphCompiler

namespace Surface

namespace Assemble

/-- What is read of some children is read of one of them. -/
theorem exists_of_mem_mapM {Piece : Type} {read : Option Construct → Option Piece}
    {children : List (Option Construct)} {pieces : List Piece}
    (reads : children.mapM read = some pieces) {piece : Piece} (member : piece ∈ pieces) :
    ∃ child ∈ children, read child = some piece := by
  induction children generalizing pieces with
  | nil =>
    cases reads
    cases member
  | cons child children ih =>
    simp only [List.mapM_cons, Option.bind_eq_bind, Option.bind_eq_some_iff, Option.pure_def,
      Option.some.injEq] at reads
    obtain ⟨first, isFirst, rest, areRest, rfl⟩ := reads
    obtain rfl | later := List.mem_cons.mp member
    · exact ⟨child, List.mem_cons_self, isFirst⟩
    · obtain ⟨other, listed, isOther⟩ := ih areRest later
      exact ⟨other, List.mem_cons_of_mem _ listed, isOther⟩

/-- What some trees are read as is read of one of them. -/
theorem exists_of_mem_ofTrees? {kept : List (Option Tree)} {constructs : List (Option Construct)}
    (reads : ofTrees? kept = some constructs) {construct : Construct}
    (member : some construct ∈ constructs) :
    ∃ tree, some tree ∈ kept ∧ ofTree? tree = some construct := by
  induction kept generalizing constructs with
  | nil =>
    cases reads
    cases member
  | cons child kept ih =>
    cases child with
    | none =>
      obtain ⟨rest, areRest, same⟩ := Option.bind_eq_some_iff.mp reads
      cases same
      obtain ⟨tree, listed, isRead⟩ := ih areRest (by simpa using member)
      exact ⟨tree, List.mem_cons_of_mem _ listed, isRead⟩
    | some tree =>
      obtain ⟨first, isFirst, reads⟩ := Option.bind_eq_some_iff.mp reads
      obtain ⟨rest, areRest, same⟩ := Option.bind_eq_some_iff.mp reads
      cases same
      obtain same | later := List.mem_cons.mp member
      · cases same
        exact ⟨tree, List.mem_cons_self, isFirst⟩
      · obtain ⟨other, listed, isRead⟩ := ih areRest later
        exact ⟨other, List.mem_cons_of_mem _ listed, isRead⟩

end Assemble

end Surface

end GlyphCompiler
