import Xv6.Paging.Tree
import Mathlib.Algebra.Order.Group.Multiset
import Mathlib.Data.Multiset.UnionInter

namespace Xv6
namespace Paging

open Conc List Option Multiset

/-!
# `walk`

Without `alloc` it only reads.  With `alloc` it adds the tables that are missing
on the way of one address; they come from the front of the free list, and no
translation changes.  It fails only when the free list has run out.
-/

variable {stop : Ram -> Prop} {ram : Ram} {root : Nat} {goal : Option Nat -> Ram -> Prop}
  {page : Nat}

/-! ## Reading -/

theorem meets_walkFrom (va level table : Nat)
    (next : goal ((descend ram.byte table (pathFrom va level)).map (· + 8 * PX 0 va)) ram) :
    Meets () stop (walkFrom va false level table) goal ram := by
  induction level generalizing table with
  | zero => exact next
  | succ level ih =>
    simp only [walkFrom, meets_do, meets_load]
    have read : entries ram.byte table (index (level + 1) va) =
      ram.byte.word (table + 8 * PX (level + 1) va) 8 := rfl
    by_cases valid : ram.byte.word (table + 8 * PX (level + 1) va) 8 &&& PTE_V ≠ 0
    · rw [if_pos valid]
      apply ih
      have points : pointer (entries ram.byte table (index (level + 1) va)) =
        some (PTE2PA (ram.byte.word (table + 8 * PX (level + 1) va) 8)) := if_pos valid
      simpa only [pathFrom, Radix.descend, points, bind_some] using next
    · rw [if_neg valid, if_pos (by decide)]
      have nowhere : pointer (entries ram.byte table (index (level + 1) va)) = none :=
        if_neg valid
      rw [meets_pure]
      simpa only [pathFrom, Radix.descend, nowhere, bind_none, map_none] using next

/-- `walk` without `alloc`. -/
theorem meets_walk {va : Nat} (low : va < MAXVA)
    (next : goal ((tableOf ram.byte root va).map (· + 8 * PX 0 va)) ram) :
    Meets () stop (walk root va false) goal ram := by
  rw [walk, if_neg (by omega)]
  exact meets_walkFrom va 2 root next

/-! ## A new table -/

section Attach

variable {byte : Bytes} {tables : Finset Nat} {path : List (Fin 512)} {table fresh : Nat}
  {entry : Fin 512} (tree : Tree byte root tables) (short : path.length < 2)
  (here : descend byte root path = some table)
  (invalid : entries byte table entry &&& PTE_V = 0) (aligned : fresh % PGSIZE = 0)
  (inWord : fresh < 2 ^ 64) (unused : fresh ∉ tables) (zero : forall e, entries byte fresh e = 0)

/-- The memory with a pointer to the new table. -/
def linkTable (byte : Bytes) (table : Nat) (entry : Fin 512) (fresh : Nat) : Bytes :=
  byte.setWord (table + 8 * entry.val) 8 (PA2PTE fresh ||| PTE_V)

theorem attached_eq (fresh : Nat) : PA2PTE fresh ||| PTE_V = PA2PTE fresh ||| 0 ||| PTE_V := by
  rw [Nat.or_zero]

include inWord in
theorem attach_entry :
    entries (linkTable byte table entry fresh) table entry = PA2PTE fresh ||| PTE_V := by
  apply entries_setWord_self
  rw [attached_eq]
  exact entry_lt (by decide) inWord

include aligned inWord in
theorem attach_points : pointer (entries (linkTable byte table entry fresh) table entry) =
    some fresh := by
  rw [attach_entry inWord, pointer, if_pos]
  · rw [attached_eq, entry_pa (by decide) inWord, pgRoundDown_of_aligned aligned]
  · rw [attached_eq]
    exact entry_valid (by decide)

include tree short here

theorem Tree.attach_other {other : Nat} {e : Fin 512} (aligned' : other % PGSIZE = 0)
    (different : ¬ (other = table ∧ e = entry)) :
    entries (linkTable byte table entry fresh) other e = entries byte other e :=
  entries_setWord_other (tree.mem_aligned (tree.mem_of_descend (by omega) here)) aligned' different

theorem Tree.attach_away : ∀ other e, Radix.Reaches pointer (entries byte) root 2 other ->
    ¬ (other = table ∧ e = entry) ->
    entries (linkTable byte table entry fresh) other e = entries byte other e :=
  fun other _ reached => tree.attach_other short here
    (tree.mem_aligned ((tree.reached other).mpr reached))

include unused aligned zero in
theorem Tree.attach_zero (e : Fin 512) :
    entries (linkTable byte table entry fresh) fresh e = 0 := by
  rw [tree.attach_other short here aligned, zero]
  rintro ⟨rfl, _⟩
  exact unused (tree.mem_of_descend (by omega) here)

include invalid aligned inWord unused zero

theorem Tree.descend_attach {second : List (Fin 512)} {other : Nat} (short' : second.length ≤ 2) :
    descend (linkTable byte table entry fresh) root second = some other <->
      descend byte root second = some other ∨ (second = path ++ [entry] ∧ other = fresh) := by
  apply Radix.descend_attach_some tree.distinct short here _ (attach_points aligned inWord)
    (tree.attach_away short here) _ short'
  · exact (pointer_none_iff _).mpr invalid
  · intro e
    rw [tree.attach_zero short here aligned unused zero, pointer_zero]

theorem Tree.attach : Tree (linkTable byte table entry fresh) root (insert fresh tables) where
  aligned := tree.aligned
  distinct := by
    apply tree.distinct.attach short here _ _ (attach_points aligned inWord)
      (tree.attach_away short here)
    · intro e
      rw [tree.attach_zero short here aligned unused zero, pointer_zero]
    · exact (pointer_none_iff _).mpr invalid
    · rwa [← tree.reached]
  reached := by
    intro page
    rw [Finset.mem_insert, tree.reached, or_comm]
    symm
    apply Radix.reaches_attach_iff tree.distinct short here _ (attach_points aligned inWord)
      (tree.attach_away short here)
    · intro e
      rw [tree.attach_zero short here aligned unused zero, pointer_zero]
    · exact (pointer_none_iff _).mpr invalid
  pointers := by
    intro second other e short' reached valid
    rcases (tree.descend_attach short here invalid aligned inWord unused zero (by omega)).mp reached
      with old | ⟨_, rfl⟩
    · by_cases same : other = table ∧ e = entry
      · obtain ⟨rfl, rfl⟩ := same
        rw [attach_entry inWord, and_flags (by decide), attached_eq, entry_flags (by decide)]
        rfl
      · rw [tree.attach_away short here other e ⟨second, by omega, old⟩ same] at valid ⊢
        exact tree.pointers second other e short' old valid
    · rw [tree.attach_zero short here aligned unused zero, Nat.zero_and]

theorem Tree.translation_attach (va : Nat) :
    translation (linkTable byte table entry fresh) root va = translation byte root va := by
  apply Option.ext
  intro value
  rw [translation_eq_some_iff, translation_eq_some_iff]
  have cases := fun other => @Tree.descend_attach root byte tables path table fresh entry tree short
    here invalid aligned inWord unused zero (pathFrom va 2) other (le_of_eq (length_pathFrom va 2))
  -- The changed entry is above the last level.
  have same : ∀ other, tableOf byte root va = some other ->
      entries (linkTable byte table entry fresh) other (index 0 va) =
        entries byte other (index 0 va) := by
    intro other reached
    apply tree.attach_away short here other _ ⟨_, le_of_eq (length_pathFrom va 2), reached⟩
    rintro ⟨rfl, _⟩
    have equal := tree.distinct _ _ other (le_of_eq (length_pathFrom va 2)) (by omega) reached here
    rw [← equal, length_pathFrom] at short
    omega
  constructor
  · rintro ⟨other, reached, stored, valid⟩
    rcases (cases other).mp reached with old | ⟨_, rfl⟩
    · exact ⟨other, old, (same other old).symm.trans stored, valid⟩
    · rw [tree.attach_zero short here aligned unused zero] at stored
      subst stored
      exact absurd (Nat.zero_and _) valid
  · rintro ⟨other, reached, stored, valid⟩
    exact ⟨other, (cases other).mpr (Or.inl reached), (same other reached).trans stored, valid⟩

end Attach

/-! ## Owners of pages -/

/-- A page is free or used, and not twice. -/
structure Sound (image : Image) (ram : Ram) (used : Multiset Nat) : Prop where
  once : ((ram.freelist : Multiset Nat) + used).Nodup
  freeable : forall page, page ∈ ram.freelist -> Freeable image page

variable {image : Image} {used : Multiset Nat}

theorem Sound.unused (sound : Sound image ram used) (free : page ∈ ram.freelist) : page ∉ used :=
  disjoint_left.mp (nodup_add.mp sound.once).2.2 free

theorem Freeable.lt (freeable : Freeable image page) : page < 2 ^ 64 := by
  have high := freeable.2.2
  unfold PHYSTOP KERNBASE at high
  omega

/-- A page table grows by pages from the front of the free list, and no other
memory changes. -/
structure Draws (tables : Finset Nat) (ram : Ram) (tables' : Finset Nat) (ram' : Ram) : Prop where
  taken : ∃ taken : List Nat, ram.freelist = taken ++ ram'.freelist ∧
    tables'.val = (taken : Multiset Nat) + tables.val
  frame : forall x, pgRoundDown x ∉ tables -> pgRoundDown x ∉ ram.freelist ->
    ram'.byte x = ram.byte x

variable {tables tables' tables'' : Finset Nat} {ram' ram'' : Ram}

theorem Draws.mem_cases (draws : Draws tables ram tables' ram') (member : page ∈ tables') :
    page ∈ tables ∨ page ∈ ram.freelist := by
  obtain ⟨taken, free, grown⟩ := draws.taken
  rw [← Finset.mem_val, grown, mem_add, mem_coe] at member
  rw [free, mem_append]
  exact member.symm.imp id Or.inl

theorem Draws.free_subset (draws : Draws tables ram tables' ram') (member : page ∈ ram'.freelist) :
    page ∈ ram.freelist := by
  obtain ⟨taken, free, _⟩ := draws.taken
  rw [free, mem_append]
  exact Or.inr member

theorem Draws.trans (first : Draws tables ram tables' ram')
    (second : Draws tables' ram' tables'' ram'') : Draws tables ram tables'' ram'' where
  taken := by
    obtain ⟨taken, free, grown⟩ := first.taken
    obtain ⟨taken', free', grown'⟩ := second.taken
    refine ⟨taken ++ taken', ?_, ?_⟩
    · rw [free, free', append_assoc]
    · rw [grown', grown, ← coe_add]
      exact (add_left_comm _ _ _).trans (add_assoc _ _ _).symm
  frame := by
    intro x outside unfree
    rw [second.frame x, first.frame x outside unfree]
    · exact fun member => (first.mem_cases member).elim outside unfree
    · exact fun member => unfree (first.free_subset member)

/-- Pages keep having one owner. -/
theorem Draws.sound (draws : Draws tables ram tables' ram')
    (sound : Sound image ram (tables.val + used)) : Sound image ram' (tables'.val + used) where
  once := by
    obtain ⟨taken, free, grown⟩ := draws.taken
    have once := sound.once
    rw [free, ← coe_add] at once
    rw [grown]
    convert once using 1
    rw [add_comm (taken : Multiset Nat) (ram'.freelist : Multiset Nat)]
    simp only [add_assoc]
  freeable := fun page member => sound.freeable page (draws.free_subset member)

/-- What `walk` with `alloc` may do to a page table and to memory. -/
structure Extends (root : Nat) (tables : Finset Nat) (ram : Ram) (tables' : Finset Nat)
    (ram' : Ram) : Prop extends Draws tables ram tables' ram' where
  tree : Tree ram'.byte root tables'
  same : forall va, translation ram'.byte root va = translation ram.byte root va
  paths : forall path table, path.length ≤ 2 -> descend ram.byte root path = some table ->
    descend ram'.byte root path = some table
  idle : ram.freelist = [] -> ram' = ram

theorem Extends.refl (tree : Tree ram.byte root tables) : Extends root tables ram tables ram where
  taken := ⟨[], rfl, (zero_add tables.val).symm⟩
  frame := fun _ _ _ => rfl
  tree := tree
  same := fun _ => rfl
  paths := fun _ _ _ here => here
  idle := fun _ => rfl

theorem Extends.trans (first : Extends root tables ram tables' ram')
    (second : Extends root tables' ram' tables'' ram'') :
    Extends root tables ram tables'' ram'' where
  toDraws := first.toDraws.trans second.toDraws
  tree := second.tree
  same := fun va => (second.same va).trans (first.same va)
  paths := fun path table short here =>
    second.paths path table short (first.paths path table short here)
  idle := by
    intro empty
    have same := first.idle empty
    rw [second.idle (by rw [same, empty]), same]

/-! ## Allocating -/

section

variable (tree : Tree ram.byte root tables) (sound : Sound image ram (tables.val + used))

include tree sound

/-- A missing table is taken from the free list. -/
theorem Tree.extends {path : List (Fin 512)} {table fresh : Nat} {rest : List Nat} {entry : Fin 512}
    (short : path.length < 2) (here : descend ram.byte root path = some table)
    (invalid : entries ram.byte table entry &&& PTE_V = 0) (free : ram.freelist = fresh :: rest)
    {after : Ram} (result : after = ((ram.take fresh rest).setByte
      ((ram.take fresh rest).byte.fill fresh PGSIZE 0)).setByte
        (linkTable ((ram.take fresh rest).byte.fill fresh PGSIZE 0) table entry fresh)) :
    Extends root tables ram (insert fresh tables) after ∧
      descend after.byte root (path ++ [entry]) = some fresh := by
  have first : fresh ∈ ram.freelist := by
    rw [free]
    exact mem_cons_self
  have freeable := sound.freeable fresh first
  have unused : fresh ∉ tables :=
    fun member => sound.unused first (mem_add.mpr (Or.inl member))
  have blanked : ∀ x, pgRoundDown x ≠ fresh ->
      (ram.take fresh rest).byte.fill fresh PGSIZE 0 x = ram.byte x := by
    intro x different
    rw [fill_page freeable.1 different]
    exact fill_page freeable.1 different
  have same : ∀ x, pgRoundDown x ∈ tables ->
      (ram.take fresh rest).byte.fill fresh PGSIZE 0 x = ram.byte x :=
    fun x member => blanked x fun equal => unused (equal ▸ member)
  have member := tree.mem_of_descend (by omega) here
  have blankTree := tree.congr same
  have blankHere := (tree.descend_eq same (le_of_lt short)).trans here
  have blankInvalid : entries ((ram.take fresh rest).byte.fill fresh PGSIZE 0) table entry &&&
      PTE_V = 0 := by
    rw [tree.entries_eq same member, invalid]
  have zero : ∀ e, entries ((ram.take fresh rest).byte.fill fresh PGSIZE 0) fresh e = 0 :=
    entries_fill_zero
  subst result
  refine ⟨⟨⟨?_, ?_⟩, ?_, ?_, ?_, ?_⟩, ?_⟩
  · refine ⟨[fresh], free, ?_⟩
    rw [Finset.insert_val_of_notMem unused]
    rfl
  · intro x outside unfree
    refine (setWord_page (tree.mem_aligned member) ?_ entry).trans (blanked x ?_)
    · exact fun equal => outside (equal ▸ member)
    · exact fun equal => unfree (equal ▸ first)
  · exact blankTree.attach short blankHere blankInvalid freeable.1 freeable.lt unused zero
  · intro va
    refine (blankTree.translation_attach short blankHere blankInvalid freeable.1 freeable.lt unused
      zero va).trans ?_
    exact tree.translation_eq same va
  · intro second other short' reached
    exact (blankTree.descend_attach short blankHere blankInvalid freeable.1 freeable.lt unused zero
      short').mpr (Or.inl ((tree.descend_eq same short').trans reached))
  · intro empty
    rw [free] at empty
    cases empty
  · exact (blankTree.descend_attach short blankHere blankInvalid freeable.1 freeable.lt unused zero
      (by rw [length_append, length_singleton]; omega)).mpr (Or.inr ⟨rfl, rfl⟩)

theorem Tree.walkFrom {va level table : Nat} {path : List (Fin 512)}
    (way : path ++ pathFrom va level = pathFrom va 2)
    (here : descend ram.byte root path = some table)
    (failed : ∀ tables' ram', Extends root tables ram tables' ram' -> ram'.freelist = [] ->
      tableOf ram'.byte root va = none -> goal none ram')
    (found : ∀ tables' ram' last, Extends root tables ram tables' ram' ->
      tableOf ram'.byte root va = some last -> goal (some (last + 8 * PX 0 va)) ram') :
    Meets () stop (Paging.walkFrom va true level table) goal ram := by
  induction level generalizing ram tables path table with
  | zero =>
    apply found tables ram table (Extends.refl tree)
    rw [tableOf, ← way, pathFrom, append_nil, here]
  | succ level ih =>
    have levels := congrArg List.length way
    rw [length_append, length_pathFrom, length_pathFrom] at levels
    have longer : (path ++ [index (level + 1) va]) ++ pathFrom va level = pathFrom va 2 := by
      rw [← way, append_assoc]
      rfl
    simp only [Paging.walkFrom, meets_do, meets_load]
    by_cases valid : ram.byte.word (table + 8 * PX (level + 1) va) 8 &&& PTE_V ≠ 0
    · rw [if_pos valid]
      have points : pointer (entries ram.byte table (index (level + 1) va)) =
        some (PTE2PA (ram.byte.word (table + 8 * PX (level + 1) va) 8)) := if_pos valid
      refine ih tree sound longer ?_ failed found
      rw [descend, Radix.descend_append, show Radix.descend pointer (entries ram.byte) root path =
        some table from here, bind_some, Radix.descend, points]
      rfl
    · rw [if_neg valid, if_neg (by decide)]
      have invalid : entries ram.byte table (index (level + 1) va) &&& PTE_V = 0 :=
        not_not.mp valid
      simp only [meets_do]
      apply meets_kalloc
      · intro empty
        apply failed tables ram (Extends.refl tree) empty
        rw [tableOf, ← way, descend, Radix.descend_append,
          show Radix.descend pointer (entries ram.byte) root path = some table from here,
          bind_some, pathFrom, Radix.descend, (pointer_none_iff _).mpr invalid]
        rfl
      · intro fresh rest free
        simp only [meets_do, meets_memset, meets_store]
        obtain ⟨grown, there⟩ := tree.extends sound (by omega) here invalid free rfl
        refine ih grown.tree (grown.sound sound) longer there ?_ ?_
        · exact fun tables' ram' further => failed tables' ram' (grown.trans further)
        · exact fun tables' ram' last further => found tables' ram' last (grown.trans further)

/-- `walk` with `alloc`. -/
theorem Tree.walk {va : Nat} (low : va < MAXVA)
    (failed : ∀ tables' ram', Extends root tables ram tables' ram' -> ram'.freelist = [] ->
      tableOf ram'.byte root va = none -> goal none ram')
    (found : ∀ tables' ram' last, Extends root tables ram tables' ram' ->
      tableOf ram'.byte root va = some last -> goal (some (last + 8 * PX 0 va)) ram') :
    Meets () stop (Paging.walk root va true) goal ram := by
  rw [Paging.walk, if_neg (by omega)]
  exact tree.walkFrom sound (nil_append (pathFrom va 2)) rfl failed found

end

end Paging
end Xv6
