import Xv6.Paging.Entries
import Mathlib.Data.Finset.Basic
import Mathlib.Data.Multiset.AddSub

namespace Xv6
namespace Paging

open Conc Option

/-!
# Page tables as trees

A page table is a tree of different table pages, three levels deep.  `walk` finds
the entry of a virtual address in it, and hangs in the tables that are missing.
Every page of memory has one owner: what a page table gains, the free list loses,
and pages that belong to neither are not touched.
-/

/-! ## Virtual addresses -/

/-- The index of `va` in a table of the given level. -/
def index (level va : Nat) : Fin 512 := ⟨PX level va, PX_lt level va⟩

/-- The way from a table of a level down to the last table. -/
def pathFrom (va : Nat) : Nat -> List (Fin 512)
  | 0 => []
  | level + 1 => index (level + 1) va :: pathFrom va level

theorem length_pathFrom (va level : Nat) : (pathFrom va level).length = level := by
  induction level with
  | zero => rfl
  | succ level ih => rw [pathFrom, List.length_cons, ih]

/-- Addresses on one page have one way. -/
theorem index_congr {va va' : Nat} (same : va / PGSIZE = va' / PGSIZE) (level : Nat) :
    index level va = index level va' := by
  apply Fin.ext
  change PX level va = PX level va'
  rw [PX_eq, PX_eq, Nat.pow_add, ← Nat.div_div_eq_div_mul, ← Nat.div_div_eq_div_mul]
  exact congrArg (fun page => page / 2 ^ (9 * level) % 512) same

theorem pathFrom_congr {va va' : Nat} (same : va / PGSIZE = va' / PGSIZE) (level : Nat) :
    pathFrom va level = pathFrom va' level := by
  induction level with
  | zero => rfl
  | succ level ih => rw [pathFrom, pathFrom, index_congr same, ih]

/-- The addresses of Sv39, of which the kernel uses the lower half. -/
def SV39 : Nat := 2 ^ 39

theorem lt_sv39 {va : Nat} (low : va < MAXVA) : va < SV39 := by
  unfold MAXVA at low
  unfold SV39
  omega

theorem page_of_indices {va : Nat} (low : va < SV39) :
    va / PGSIZE = ((index 2 va).val * 512 + (index 1 va).val) * 512 + (index 0 va).val := by
  change va / PGSIZE = (PX 2 va * 512 + PX 1 va) * 512 + PX 0 va
  rw [PX_eq, PX_eq, PX_eq, PGSIZE]
  unfold SV39 at low
  omega

/-- Different pages have different ways. -/
theorem page_of_path {va va' : Nat} (low : va < SV39) (low' : va' < SV39)
    (way : pathFrom va 2 = pathFrom va' 2) (last : index 0 va = index 0 va') :
    va / PGSIZE = va' / PGSIZE := by
  simp only [pathFrom, List.cons.injEq, and_true] at way
  rw [page_of_indices low, page_of_indices low', way.1, way.2, last]

/-! ## Translations -/

abbrev descend (byte : Bytes) (root : Nat) (path : List (Fin 512)) : Option Nat :=
  Radix.descend pointer (entries byte) root path

/-- The last table on the way of an address. -/
def tableOf (byte : Bytes) (root va : Nat) : Option Nat := descend byte root (pathFrom va 2)

/-- The entry that a page table has for an address, if it is valid. -/
def translation (byte : Bytes) (root va : Nat) : Option Nat :=
  ((tableOf byte root va).map fun table => entries byte table (index 0 va)).filter
    fun entry => entry &&& PTE_V != 0

theorem translation_eq_some_iff {byte : Bytes} {root va entry : Nat} :
    translation byte root va = some entry <-> ∃ table, tableOf byte root va = some table ∧
      entries byte table (index 0 va) = entry ∧ entry &&& PTE_V ≠ 0 := by
  unfold translation
  cases tableOf byte root va with
  | none => simp
  | some table => simp [filter_eq_some_iff]

theorem translation_congr {byte : Bytes} {root va va' : Nat} (same : va / PGSIZE = va' / PGSIZE) :
    translation byte root va = translation byte root va' := by
  rw [translation, translation, tableOf, tableOf, pathFrom_congr same, index_congr same]

/-! ## Trees -/

/-- The pages in `tables` are different tables that form a tree at `root`. -/
structure Tree (byte : Bytes) (root : Nat) (tables : Finset Nat) : Prop where
  aligned : root % PGSIZE = 0
  distinct : Radix.Distinct pointer (entries byte) root 2
  reached : forall page, page ∈ tables <-> Radix.Reaches pointer (entries byte) root 2 page
  pointers : forall path table entry, path.length < 2 -> descend byte root path = some table ->
    entries byte table entry &&& PTE_V ≠ 0 ->
    entries byte table entry &&& (PTE_R ||| PTE_W ||| PTE_X) = 0

variable {byte byte' : Bytes} {root : Nat} {tables : Finset Nat} {path : List (Fin 512)}

theorem descend_aligned (aligned : root % PGSIZE = 0) {table : Nat}
    (here : descend byte root path = some table) : table % PGSIZE = 0 := by
  induction path generalizing root with
  | nil =>
    cases here
    exact aligned
  | cons index path ih =>
    obtain ⟨next, points, rest⟩ := bind_eq_some_iff.mp here
    exact ih (pointer_aligned points) rest

section

variable (tree : Tree byte root tables)

include tree

theorem Tree.mem_aligned {page : Nat} (member : page ∈ tables) : page % PGSIZE = 0 := by
  obtain ⟨path, _, here⟩ := (tree.reached page).mp member
  exact descend_aligned tree.aligned here

theorem Tree.mem_of_descend {table : Nat} (short : path.length ≤ 2)
    (here : descend byte root path = some table) : table ∈ tables :=
  (tree.reached table).mpr ⟨path, short, here⟩

theorem Tree.table_mem {va table : Nat} (here : tableOf byte root va = some table) :
    table ∈ tables :=
  tree.mem_of_descend (le_of_eq (length_pathFrom va 2)) here

section

variable (same : forall x, pgRoundDown x ∈ tables -> byte' x = byte x)

include same

/-- A tree depends only on its own pages. -/
theorem Tree.entries_eq {table : Nat} (member : table ∈ tables) :
    entries byte' table = entries byte table := by
  funext entry
  exact entries_congr (tree.mem_aligned member) (fun x here => same x (here ▸ member)) entry

theorem Tree.descend_eq (short : path.length ≤ 2) :
    descend byte' root path = descend byte root path :=
  Radix.descend_of_tables
    (fun _ reached => tree.entries_eq same ((tree.reached _).mpr reached)) short

theorem Tree.congr : Tree byte' root tables where
  aligned := tree.aligned
  distinct := by
    intro first second table short short' here here'
    exact tree.distinct first second table short short'
      ((tree.descend_eq same short).symm.trans here)
      ((tree.descend_eq same short').symm.trans here')
  reached := by
    intro page
    rw [tree.reached]
    apply exists_congr
    intro path
    apply and_congr_right
    intro short
    exact Iff.of_eq (congrArg (· = some page) (tree.descend_eq same short).symm)
  pointers := by
    intro path table entry short here
    rw [tree.descend_eq same (by omega)] at here
    rw [tree.entries_eq same (tree.mem_of_descend (by omega) here)]
    exact tree.pointers path table entry short here

theorem Tree.translation_eq (va : Nat) : translation byte' root va = translation byte root va := by
  have way : tableOf byte' root va = tableOf byte root va :=
    tree.descend_eq same (le_of_eq (length_pathFrom va 2))
  rw [translation, translation, way]
  cases here : tableOf byte root va with
  | none => rw [map_none, map_none]
  | some table =>
    rw [map_some, map_some, tree.entries_eq same (tree.table_mem here)]

end

/-- The entry of another page is another entry. -/
theorem Tree.slot_injective {va va' table : Nat} (low : va < SV39) (low' : va' < SV39)
    (here : tableOf byte root va = some table) (here' : tableOf byte root va' = some table)
    (last : index 0 va = index 0 va') : va / PGSIZE = va' / PGSIZE := by
  apply page_of_path low low' _ last
  exact tree.distinct _ _ table (le_of_eq (length_pathFrom va 2))
    (le_of_eq (length_pathFrom va' 2)) here here'

end

/-! ## An empty page table -/

section Blank

variable (zero : forall e, entries byte root e = 0)

include zero

theorem descend_blank {table : Nat} (here : descend byte root path = some table) :
    path = [] ∧ table = root := by
  cases path with
  | nil =>
    cases here
    exact ⟨rfl, rfl⟩
  | cons entry path =>
    rw [descend, Radix.descend, zero, pointer_zero] at here
    cases here

theorem Tree.blank (aligned : root % PGSIZE = 0) : Tree byte root {root} where
  aligned := aligned
  distinct := by
    intro first second table _ _ here here'
    rw [(descend_blank zero here).1, (descend_blank zero here').1]
  reached := by
    intro page
    rw [Finset.mem_singleton]
    constructor
    · rintro rfl
      exact Radix.reaches_root
    · rintro ⟨path, _, here⟩
      exact (descend_blank zero here).2
  pointers := by
    intro path table entry _ here _
    rw [(descend_blank zero here).2, zero, Nat.zero_and]

theorem translation_blank (va : Nat) : translation byte root va = none := by
  have nowhere : tableOf byte root va = none := by
    cases here : tableOf byte root va with
    | none => rfl
    | some table => cases (descend_blank zero here).1
  rw [translation, nowhere, map_none, filter_none]

end Blank

/-! ## Writing an entry of the last level -/

section Leaf

variable {va table value : Nat} (tree : Tree byte root tables)
  (here : tableOf byte root va = some table)

include tree here

theorem Tree.away : ∀ other, Radix.Reaches pointer (entries byte) root 2 other -> other ≠ table ->
    entries (byte.setWord (table + 8 * (index 0 va).val) 8 value) other = entries byte other := by
  intro other reached different
  funext entry
  apply entries_setWord_other (tree.mem_aligned (tree.table_mem here))
    (tree.mem_aligned ((tree.reached other).mpr reached))
  exact fun same => different same.1

theorem Tree.descend_setLeaf (short : path.length ≤ 2) :
    descend (byte.setWord (table + 8 * (index 0 va).val) 8 value) root path =
      descend byte root path :=
  Radix.descend_of_leaf tree.distinct (length_pathFrom va 2) here (tree.away here) short

theorem Tree.setLeaf : Tree (byte.setWord (table + 8 * (index 0 va).val) 8 value) root tables where
  aligned := tree.aligned
  distinct := tree.distinct.leaf (length_pathFrom va 2) here (tree.away here)
  reached := by
    intro page
    rw [tree.reached, Radix.reaches_leaf_iff tree.distinct (length_pathFrom va 2) here
      (tree.away here)]
  pointers := by
    intro path other entry short reached
    rw [tree.descend_setLeaf here (by omega)] at reached
    have different : other ≠ table := by
      rintro rfl
      have same := tree.distinct path (pathFrom va 2) other (by omega)
        (le_of_eq (length_pathFrom va 2)) reached here
      rw [same, length_pathFrom] at short
      omega
    rw [tree.away here other ⟨path, by omega, reached⟩ different]
    exact tree.pointers path other entry short reached

theorem Tree.tableOf_setLeaf (va' : Nat) :
    tableOf (byte.setWord (table + 8 * (index 0 va).val) 8 value) root va' =
      tableOf byte root va' :=
  tree.descend_setLeaf here (le_of_eq (length_pathFrom va' 2))

/-- One translation changes. -/
theorem Tree.translation_setLeaf_self (small : value < 256 ^ 8) {va' : Nat}
    (same : va' / PGSIZE = va / PGSIZE) :
    translation (byte.setWord (table + 8 * (index 0 va).val) 8 value) root va' =
      if value &&& PTE_V ≠ 0 then some value else none := by
  have stored : entries (byte.setWord (table + 8 * (index 0 va).val) 8 value) table (index 0 va) =
      value := entries_setWord_self small
  rw [translation_congr same, translation, tree.tableOf_setLeaf here, here, map_some, stored,
    filter_some]
  simp only [bne_iff_ne]

theorem Tree.translation_setLeaf_other {va' : Nat} (low : va < SV39) (low' : va' < SV39)
    (different : va' / PGSIZE ≠ va / PGSIZE) :
    translation (byte.setWord (table + 8 * (index 0 va).val) 8 value) root va' =
      translation byte root va' := by
  rw [translation, translation, tree.tableOf_setLeaf here]
  cases reached : tableOf byte root va' with
  | none => rw [map_none, map_none]
  | some other =>
    rw [map_some, map_some, entries_setWord_other
      (tree.mem_aligned (tree.table_mem here)) (tree.mem_aligned (tree.table_mem reached))]
    rintro ⟨rfl, last⟩
    exact different (tree.slot_injective low' low reached here last)

end Leaf

end Paging
end Xv6
