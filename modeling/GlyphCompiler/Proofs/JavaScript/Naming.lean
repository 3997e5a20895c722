/-
# Giving names

Whatever is written names its variables and functions one after another. A name is
given where its owner is first written, and stays from then on.
-/

import GlyphCompiler.JavaScript.Emit
import GlyphCompiler.Proofs.Program.Owners

namespace GlyphCompiler

namespace JavaScript

namespace Names

/-- The name of a number, if one is given. -/
def name? (names : Names) (id : Nat) : Option String :=
  names.given.lookup id

/-- The name that comes next for an owner. -/
def fresh (names : Names) (owner : Owner) : String :=
  owner.name ++ "_" ++ toString (names.given.length + 1)

/-- Name an owner, if it has no name yet. -/
def give (names : Names) (owner : Owner) : Names :=
  if (names.name? owner.id).isSome then names else ⟨(owner.id, names.fresh owner) :: names.given⟩

/-- Name everything that is used. -/
def giveAll (names : Names) (uses : List Owner) : Names :=
  uses.foldl give names

/-- Names as one table has them. -/
def Agrees (names : Names) (table : Nat → String) : Prop :=
  ∀ id, ∀ name ∈ names.name? id, table id = name

/-- The names that are given, as a table. -/
def table (names : Names) (id : Nat) : String :=
  (names.name? id).getD "_"

variable {names : Names} {table : Nat → String} {owner : Owner} {uses : List Owner}

@[simp]
theorem giveAll_nil (names : Names) : names.giveAll [] = names := rfl

@[simp]
theorem giveAll_cons (names : Names) (owner : Owner) (uses : List Owner) :
    names.giveAll (owner :: uses) = (names.give owner).giveAll uses := rfl

theorem giveAll_append (names : Names) (uses more : List Owner) :
    names.giveAll (uses ++ more) = (names.giveAll uses).giveAll more :=
  List.foldl_append

theorem agrees_table (names : Names) : names.Agrees names.table := by
  intro id name given
  rw [Names.table, given, Option.getD_some]

/-- A name that is given stays. -/
theorem name?_give {id : Nat} {name : String} (given : name ∈ names.name? id) :
    name ∈ (names.give owner).name? id := by
  unfold give
  split
  · exact given
  · next unnamed =>
    have other : (id == owner.id) = false := by
      rw [beq_eq_false_iff_ne]
      rintro rfl
      rw [Option.mem_def] at given
      simp [given] at unnamed
    rw [name?, List.lookup_cons, other]
    exact given

theorem name?_giveAll {id : Nat} {name : String} (given : name ∈ names.name? id) :
    name ∈ (names.giveAll uses).name? id := by
  induction uses generalizing names with
  | nil => exact given
  | cons owner uses ih => exact ih (name?_give given)

/-- What is used has a name. -/
theorem isSome_name?_give (names : Names) (owner : Owner) : ((names.give owner).name? owner.id).isSome := by
  unfold give
  split
  · next named => exact named
  · simp [name?]

theorem isSome_name?_giveAll (member : owner ∈ uses) : ((names.giveAll uses).name? owner.id).isSome := by
  induction uses generalizing names with
  | nil => cases member
  | cons first uses ih =>
    obtain rfl | member := List.mem_cons.mp member
    · obtain ⟨name, given⟩ := Option.isSome_iff_exists.mp (isSome_name?_give names owner)
      have stays : name ∈ ((names.give owner).giveAll uses).name? owner.id := name?_giveAll given
      exact Option.isSome_iff_exists.mpr ⟨name, stays⟩
    · exact ih member

/-- A table that has the later names has the earlier ones. -/
theorem Agrees.earlier (agrees : (names.giveAll uses).Agrees table) : names.Agrees table :=
  fun id name given => agrees id name (name?_giveAll given)

end Names

/-- What the emitter writes for a variable or function: its name, given now if it has none. -/
theorem nameOf_eq (owner : Owner) (names : Names) :
    (nameOf owner.id owner.name).run names =
      .ok ((names.give owner).table owner.id, names.give owner) := by
  unfold nameOf Names.table Names.give Names.fresh Names.name?
  simp only [StateT.run_bind, StateT.run_get, pure_bind]
  cases given : names.given.lookup owner.id with
  | some known =>
    simp only [given, Option.isSome_some, if_true, Option.getD_some]
    rfl
  | none =>
    simp only [Option.isSome_none, Bool.false_eq_true, if_false, List.lookup_cons_self,
      Option.getD_some]
    rfl

end JavaScript

end GlyphCompiler
