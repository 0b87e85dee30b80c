import Mathlib.Data.List.Basic
import Mathlib.Data.List.Infix
import Mathlib.Data.List.Nodup

namespace Xv6
namespace Radix

open List

/-!
# Trees of tables in a store

A store has a table at every address, and a table has an entry for every index.
An entry may point to another table, so that a path of indices leads from a root
through a chain of tables.  The tables that paths of at most `depth` indices lead
to form a tree if no two paths lead to the same one.

Two writes are considered: one to a table at the full depth, where entries are
not followed, and one that hangs a new table into an entry that points nowhere.
Neither disturbs any other path.  The store is otherwise arbitrary, so nothing is
said about addresses outside the tree.
-/

variable {Addr Index Entry : Type}

abbrev Store (Addr Index Entry : Type) := Addr -> Index -> Entry

variable (child : Entry -> Option Addr)

/-- The table that a path leads to. -/
def descend (store : Store Addr Index Entry) : Addr -> List Index -> Option Addr
  | addr, [] => some addr
  | addr, index :: path => (child (store addr index)).bind fun next => descend store next path

/-- Some path of at most `depth` indices leads to the table. -/
def Reaches (store : Store Addr Index Entry) (root : Addr) (depth : Nat) (addr : Addr) : Prop :=
  ∃ path : List Index, path.length ≤ depth ∧ descend child store root path = some addr

/-- No table is reached twice. -/
def Distinct (store : Store Addr Index Entry) (root : Addr) (depth : Nat) : Prop :=
  forall first second addr, first.length ≤ depth -> second.length ≤ depth ->
    descend child store root first = some addr -> descend child store root second = some addr ->
    first = second

variable {child} {store other : Store Addr Index Entry} {root addr fresh : Addr}
variable {path : List Index} {index : Index} {depth : Nat}

theorem descend_append (rest : List Index) : descend child store root (path ++ rest) =
      (descend child store root path).bind fun next => descend child store next rest := by
  induction path generalizing root with
  | nil => rfl
  | cons index path ih =>
    simp only [cons_append, descend]
    cases child (store root index) with
    | none => rfl
    | some next => exact ih

/-- A path depends only on the entries it passes. -/
theorem descend_congr (same : ∀ before index after addr, path = before ++ index :: after ->
      descend child store root before = some addr ->
      child (other addr index) = child (store addr index)) :
    descend child other root path = descend child store root path := by
  induction path generalizing root with
  | nil => rfl
  | cons index path ih =>
    have first : child (other root index) = child (store root index) :=
      same [] index path root rfl rfl
    simp only [descend, first]
    cases points : child (store root index) with
    | none => rfl
    | some next =>
      apply ih
      intro before later after addr split here
      apply same (index :: before) later after addr
      · rw [split, cons_append]
      · simp only [descend, points, Option.bind_some]
        exact here

theorem reaches_root : Reaches child store root depth root := ⟨[], Nat.zero_le _, rfl⟩

/-! ## The store elsewhere -/

/-- Nothing changes if the tables of the tree stay as they are. -/
theorem descend_of_tables (same : ∀ addr, Reaches child store root depth addr ->
      other addr = store addr) (short : path.length ≤ depth) :
    descend child other root path = descend child store root path := by
  apply descend_congr
  intro before index after addr split here
  have shorter : before.length ≤ depth := by
    rw [split, length_append] at short
    omega
  rw [same addr ⟨before, shorter, here⟩]

/-! ## A write to a table at the full depth -/

section Leaf

variable (distinct : Distinct child store root depth) (full : path.length = depth)
  (here : descend child store root path = some addr)
  (away : forall table, Reaches child store root depth table -> table ≠ addr ->
    other table = store table)

include distinct full here away

theorem descend_of_leaf {second : List Index} (short : second.length ≤ depth) :
    descend child other root second = descend child store root second := by
  apply descend_congr
  intro before index after table split reached
  have shorter : before.length < depth := by
    rw [split, length_append, length_cons] at short
    omega
  have different : table ≠ addr := by
    rintro rfl
    have same := distinct before path table (by omega) (by omega) reached here
    rw [same] at shorter
    omega
  rw [away table ⟨before, by omega, reached⟩ different]

theorem Distinct.leaf : Distinct child other root depth := by
  intro first second table short short' reached reached'
  rw [descend_of_leaf distinct full here away short] at reached
  rw [descend_of_leaf distinct full here away short'] at reached'
  exact distinct first second table short short' reached reached'

theorem reaches_leaf_iff (table : Addr) :
    Reaches child other root depth table <-> Reaches child store root depth table := by
  constructor
  · rintro ⟨second, short, reached⟩
    rw [descend_of_leaf distinct full here away short] at reached
    exact ⟨second, short, reached⟩
  · rintro ⟨second, short, reached⟩
    refine ⟨second, short, ?_⟩
    rwa [descend_of_leaf distinct full here away short]

end Leaf

/-! ## A new table -/

section Attach

variable (distinct : Distinct child store root depth) (above : path.length < depth)
  (here : descend child store root path = some addr)
  (empty : child (store addr index) = none)
  (unreached : ¬ Reaches child store root depth fresh)
  (points : child (other addr index) = some fresh)
  (away : forall table entry, Reaches child store root depth table ->
    ¬ (table = addr ∧ entry = index) -> other table entry = store table entry)
  (blank : forall entry, child (other fresh entry) = none)

include distinct above here away

/-- Paths that do not go through the new table. -/
theorem descend_of_attach {second : List Index} (short : second.length ≤ depth)
    (elsewhere : ¬ path ++ [index] <+: second) :
    descend child other root second = descend child store root second := by
  apply descend_congr
  intro before entry after table split reached
  have shorter : before.length < depth := by
    rw [split, length_append, length_cons] at short
    omega
  rw [away table entry ⟨before, by omega, reached⟩]
  rintro ⟨rfl, rfl⟩
  have same := distinct before path table (by omega) (by omega) reached here
  apply elsewhere
  rw [split, same]
  exact ⟨after, by simp⟩

include points

theorem descend_attached : descend child other root (path ++ [index]) = some fresh := by
  have before : descend child other root path = some addr := by
    rw [descend_of_attach distinct above here away (by omega), here]
    intro longer
    have length := longer.length_le
    rw [length_append, length_singleton] at length
    omega
  rw [descend_append, before]
  simp [descend, points]

include empty blank

/-- What a path leads to afterwards. -/
theorem descend_attach_some {second : List Index} {table : Addr} (short : second.length ≤ depth) :
    descend child other root second = some table <-> descend child store root second = some table ∨
        (second = path ++ [index] ∧ table = fresh) := by
  have attached := descend_attached distinct above here points away
  by_cases through : path ++ [index] <+: second
  · obtain ⟨rest, rfl⟩ := through
    have before : descend child store root (path ++ [index] ++ rest) = none := by
      rw [append_assoc, descend_append, here]
      simp [descend, empty]
    rw [before, descend_append, attached]
    cases rest with
    | nil => simp [descend, eq_comm]
    | cons entry rest => simp [descend, blank]
  · rw [descend_of_attach distinct above here away short through]
    constructor
    · exact Or.inl
    · rintro (reached | ⟨rfl, _⟩)
      · exact reached
      · exact absurd (prefix_refl _) through

theorem reaches_attach_iff (table : Addr) : Reaches child other root depth table <->
      Reaches child store root depth table ∨ table = fresh := by
  constructor
  · rintro ⟨second, short, reached⟩
    rcases (descend_attach_some distinct above here empty points away blank short).mp reached
      with old | ⟨_, new⟩
    · exact Or.inl ⟨second, short, old⟩
    · exact Or.inr new
  · rintro (⟨second, short, reached⟩ | rfl)
    · refine ⟨second, short, ?_⟩
      exact (descend_attach_some distinct above here empty points away blank short).mpr
        (Or.inl reached)
    · refine ⟨path ++ [index], ?_, descend_attached distinct above here points away⟩
      rw [length_append, length_singleton]
      omega

include unreached

theorem Distinct.attach : Distinct child other root depth := by
  intro first second table short short' reached reached'
  have cases := @descend_attach_some _ _ _ _ _ _ _ _ _ _ _ _ distinct above here empty points away
    blank
  rcases (cases short).mp reached with old | ⟨atEnd, new⟩
  · rcases (cases short').mp reached' with old' | ⟨_, new'⟩
    · exact distinct first second table short short' old old'
    · subst new'
      exact absurd ⟨first, short, old⟩ unreached
  · rcases (cases short').mp reached' with old' | ⟨atEnd', _⟩
    · subst new
      exact absurd ⟨second, short', old'⟩ unreached
    · rw [atEnd, atEnd']

end Attach

end Radix
end Xv6
