import Xv6.Fs.Layout
import Mathlib.Data.Finset.Card
import Mathlib.Data.Finset.Range
import Mathlib.Logic.Function.Basic

namespace Xv6
namespace Fs

open Function Finset

/-!
# Blocks and their owners

The block pointers of an inode are numbered: the direct ones first, then the
pointer to the indirect block, then the entries of the indirect block.  With
this numbering a file is a partial map from slots to blocks, and what the block
allocator has to guarantee is that no block is found in two slots of the
volume.  This file is about volumes only; no kernel code occurs in it.
-/

def SLOTS : Nat := NDIRECT + 1 + NINDIRECT

/-- The slot of the `bn`-th block of a file. -/
def slotOf (bn : Nat) : Nat := if bn < NDIRECT then bn else bn + 1

theorem slotOf_ne_indirect (bn : Nat) : slotOf bn ≠ NDIRECT := by
  unfold slotOf
  split <;> omega

theorem slotOf_injective {bn other : Nat} (same : slotOf bn = slotOf other) : bn = other := by
  unfold slotOf at same
  split at same <;> split at same <;> omega

theorem slotOf_lt {bn : Nat} (inside : bn < MAXFILE) : slotOf bn < SLOTS := by
  unfold slotOf SLOTS
  unfold MAXFILE at inside
  split <;> omega

/-- The block in a slot, or zero. -/
def Dinode.pointer (node : Dinode) (data : Nat -> Bytes) (slot : Nat) : Nat :=
  if slot ≤ NDIRECT then node.addrs slot
  else if node.addrs NDIRECT = 0 ∨ SLOTS ≤ slot then 0
  else (data (node.addrs NDIRECT)).word (4 * (slot - (NDIRECT + 1))) 4

namespace Volume

/-- The block in a slot of an inode.  A free inode has no blocks. -/
def pointer (vol : Volume) (inum slot : Nat) : Nat :=
  if (vol.node inum).type = 0 then 0 else (vol.node inum).pointer vol.data slot

/-- Every block below the size of the inode is there. -/
def Filled (vol : Volume) (inum : Nat) : Prop :=
  forall bn, bn * BSIZE < (vol.node inum).size -> vol.pointer inum (slotOf bn) ≠ 0

/-- Every block has one owner and is marked as used. -/
structure Owned (sb : Superblock) (vol : Volume) : Prop where
  number : forall inum, (vol.node inum).type ≠ 0 -> inum < sb.ninodes
  data : forall inum slot, vol.pointer inum slot ≠ 0 -> sb.IsData (vol.pointer inum slot)
  marked : forall inum slot, vol.pointer inum slot ≠ 0 -> vol.used (vol.pointer inum slot) = true
  once : forall inum slot other slot', vol.pointer inum slot ≠ 0 ->
    vol.pointer inum slot = vol.pointer other slot' -> inum = other ∧ slot = slot'
  reserved : forall block, block < sb.size -> ¬ sb.IsData block -> vol.used block = true

/-- Also, there are no holes. -/
structure Consistent (sb : Superblock) (vol : Volume) : Prop extends Owned sb vol where
  filled : forall inum, (vol.node inum).type ≠ 0 -> vol.Filled inum

section Pointers

variable {vol : Volume} {inum slot : Nat}

section

variable (allocated : (vol.node inum).type ≠ 0)

include allocated

theorem pointer_of_allocated : vol.pointer inum slot = (vol.node inum).pointer vol.data slot :=
  if_neg allocated

theorem pointer_direct (direct : slot ≤ NDIRECT) :
    vol.pointer inum slot = (vol.node inum).addrs slot := by
  rw [pointer_of_allocated allocated, Dinode.pointer, if_pos direct]

theorem pointer_indirect (indirect : NDIRECT < slot) (inside : slot < SLOTS)
    (present : (vol.node inum).addrs NDIRECT ≠ 0) :
    vol.pointer inum slot =
      (vol.data ((vol.node inum).addrs NDIRECT)).word (4 * (slot - (NDIRECT + 1))) 4 := by
  rw [pointer_of_allocated allocated, Dinode.pointer, if_neg (by omega), if_neg]
  rintro (absent | outside)
  · exact present absent
  · omega

end

theorem pointer_beyond (outside : SLOTS ≤ slot) : vol.pointer inum slot = 0 := by
  have far : ¬ slot ≤ NDIRECT := by
    unfold SLOTS at outside
    omega
  unfold pointer Dinode.pointer
  rw [if_neg far, if_pos (Or.inr outside), ite_self]

theorem slot_lt (present : vol.pointer inum slot ≠ 0) : slot < SLOTS := by
  by_contra outside
  exact present (pointer_beyond (by omega))

/-- An entry of an indirect block exists only below an indirect block. -/
theorem indirect_present (indirect : NDIRECT < slot) (present : vol.pointer inum slot ≠ 0) :
    vol.pointer inum NDIRECT ≠ 0 := by
  intro absent
  apply present
  unfold pointer at absent ⊢
  split
  · rfl
  · next allocated =>
      rw [if_neg allocated, Dinode.pointer, if_pos (le_refl _)] at absent
      rw [Dinode.pointer, if_neg (by omega), if_pos (Or.inl absent)]

/-- The pointers of an inode depend on its type, its addresses and the bytes of
its indirect block. -/
theorem pointer_congr {vol vol' : Volume} {inum : Nat}
    (type : (vol'.node inum).type = 0 <-> (vol.node inum).type = 0)
    (addrs : ∀ index, index ≤ NDIRECT -> (vol'.node inum).addrs index = (vol.node inum).addrs index)
    (bytes : vol.pointer inum NDIRECT ≠ 0 ->
      vol'.data (vol.pointer inum NDIRECT) = vol.data (vol.pointer inum NDIRECT)) (slot : Nat) :
    vol'.pointer inum slot = vol.pointer inum slot := by
  by_cases free : (vol.node inum).type = 0
  · rw [pointer, if_pos (type.mpr free), pointer, if_pos free]
  · have free' : (vol'.node inum).type ≠ 0 := fun h => free (type.mp h)
    rw [pointer_direct free (le_refl _)] at bytes
    rw [pointer_of_allocated free, pointer_of_allocated free', Dinode.pointer, Dinode.pointer,
      addrs NDIRECT (le_refl _)]
    split_ifs with direct absent
    · exact addrs slot direct
    · rfl
    · rw [bytes fun h => absent (Or.inl h)]

end Pointers

/-! ## A block for a slot -/

/-- Mark a block as used and clear it. -/
def take (vol : Volume) (block : Nat) : Volume :=
  { vol with
    used := Function.update vol.used block true
    data := Function.update vol.data block Bytes.zero }

/-- Allocate a block for a slot of an inode. -/
def attach (vol : Volume) (inum slot block : Nat) : Volume :=
  if slot ≤ NDIRECT then
    { vol.take block with
      node := Function.update vol.node inum
        { vol.node inum with addrs := Function.update (vol.node inum).addrs slot block } }
  else
    let indirect := (vol.node inum).addrs NDIRECT
    { vol.take block with
      data := Function.update (vol.take block).data indirect
        (((vol.take block).data indirect).setWord (4 * (slot - (NDIRECT + 1))) 4 block) }

/-- A block that the allocator can return. -/
structure Fresh (sb : Superblock) (vol : Volume) (block : Nat) : Prop where
  inside : block < sb.size
  free : vol.used block = false

/-- A slot of an allocated inode that has no block but can get one. -/
structure Vacant (vol : Volume) (inum slot : Nat) : Prop where
  allocated : (vol.node inum).type ≠ 0
  inside : slot < SLOTS
  empty : vol.pointer inum slot = 0
  indirect : NDIRECT < slot -> vol.pointer inum NDIRECT ≠ 0

section Attach

variable {sb : Superblock} {vol : Volume} {inum slot block : Nat}

section

variable (owned : Owned sb vol) (fresh : Fresh sb vol block)

include owned fresh

theorem Owned.not_fresh {other slot' : Nat} (present : vol.pointer other slot' ≠ 0) :
    vol.pointer other slot' ≠ block := by
  intro same
  have marked := owned.marked other slot' present
  rw [same, fresh.free] at marked
  cases marked

theorem Owned.fresh_data : sb.IsData block := by
  by_contra reserved
  have marked := owned.reserved block fresh.inside reserved
  rw [fresh.free] at marked
  cases marked

theorem Fresh.ne_zero : block ≠ 0 := by
  intro zero
  have data := owned.fresh_data fresh
  rw [zero] at data
  exact Superblock.zero_not_data data

end

theorem attach_node_type (other : Nat) :
    ((vol.attach inum slot block).node other).type = (vol.node other).type := by
  unfold attach
  split
  · by_cases same : other = inum
    · subst same
      simp only [update_self]
    · simp only [update_of_ne same]
  · rfl

theorem attach_used (other : Nat) : (vol.attach inum slot block).used other =
    if other = block then true else vol.used other := by
  have taken : (vol.attach inum slot block).used = (vol.take block).used := by
    unfold attach
    split <;> rfl
  rw [taken]
  exact update_apply _ _ _ _

section

variable (owned : Owned sb vol) (vacant : Vacant vol inum slot)

include owned vacant

/-- What `attach` does to the pointers of the volume when the slot is direct. -/
theorem attach_pointer_direct (fresh : Fresh sb vol block) (direct : slot ≤ NDIRECT)
    (other slot' : Nat) :
    (vol.attach inum slot block).pointer other slot' =
      if other = inum ∧ slot' = slot then block else vol.pointer other slot' := by
  have data : ∀ j, vol.pointer j NDIRECT ≠ 0 ->
      (vol.attach inum slot block).data (vol.pointer j NDIRECT) =
        vol.data (vol.pointer j NDIRECT) := by
    intro j present
    rw [attach, if_pos direct]
    exact update_of_ne (owned.not_fresh fresh present) _ _
  by_cases same : other = inum
  · subst same
    have allocated' : ((vol.attach other slot block).node other).type ≠ 0 := by
      rw [attach_node_type]
      exact vacant.allocated
    have addrs : ((vol.attach other slot block).node other).addrs =
        update (vol.node other).addrs slot block := by
      rw [attach, if_pos direct]
      simp only [update_self]
    by_cases low : slot' ≤ NDIRECT
    · rw [pointer_direct allocated' low, addrs, update_apply, pointer_direct vacant.allocated low]
      simp only [true_and]
    · rw [if_neg (by omega), pointer_of_allocated allocated',
        pointer_of_allocated vacant.allocated, Dinode.pointer, Dinode.pointer, if_neg low,
        if_neg low, addrs, update_apply]
      by_cases outside : SLOTS ≤ slot'
      · rw [if_pos (Or.inr outside), if_pos (Or.inr outside)]
      · by_cases top : NDIRECT = slot
        · -- The new indirect block is empty, and there was none before.
          subst top
          have none : (vol.node other).addrs NDIRECT = 0 := by
            rw [← pointer_direct vacant.allocated (le_refl _)]
            exact vacant.empty
          rw [if_pos rfl, if_neg, attach, if_pos direct]
          · simp only [take, update_self, Bytes.word_zero]
            rw [if_pos (Or.inl none)]
          · rintro (zero | far)
            · exact fresh.ne_zero owned zero
            · exact outside far
        · rw [if_neg top]
          by_cases none : (vol.node other).addrs NDIRECT = 0
          · rw [if_pos (Or.inl none), if_pos (Or.inl none)]
          · have present : vol.pointer other NDIRECT ≠ 0 := by
              rwa [pointer_direct vacant.allocated (le_refl _)]
            have bytes := data other present
            rw [pointer_direct vacant.allocated (le_refl _)] at bytes
            rw [bytes]
  · rw [if_neg fun h => same h.1]
    apply pointer_congr
    · rw [attach_node_type]
    · intro index _
      rw [attach, if_pos direct]
      simp only [update_of_ne same]
    · exact data other

/-- What `attach` does to the pointers of the volume when the slot is an entry
of the indirect block. -/
theorem attach_pointer_indirect (fresh : Fresh sb vol block) (indirect : NDIRECT < slot)
    (other slot' : Nat) :
    (vol.attach inum slot block).pointer other slot' =
      if other = inum ∧ slot' = slot then block else vol.pointer other slot' := by
  have far : ¬ slot ≤ NDIRECT := by omega
  have here := vacant.indirect indirect
  have top := @pointer_direct vol inum NDIRECT vacant.allocated (le_refl _)
  have nodes : (vol.attach inum slot block).node = vol.node := by
    rw [attach, if_neg far]
    rfl
  have otherData : ∀ b, b ≠ block -> b ≠ vol.pointer inum NDIRECT ->
      (vol.attach inum slot block).data b = vol.data b := by
    intro b old different
    rw [attach, if_neg far]
    rw [top] at different
    simp only [take, update_of_ne different, update_of_ne old]
  have hereData : (vol.attach inum slot block).data ((vol.node inum).addrs NDIRECT) =
      (vol.data ((vol.node inum).addrs NDIRECT)).setWord (4 * (slot - (NDIRECT + 1))) 4
        block := by
    have old := owned.not_fresh fresh here
    rw [top] at old
    rw [attach, if_neg far]
    simp only [take, update_self, update_of_ne old]
  by_cases same : other = inum
  · subst same
    have allocated' : ((vol.attach other slot block).node other).type ≠ 0 := by
      rw [nodes]
      exact vacant.allocated
    by_cases low : slot' ≤ NDIRECT
    · rw [if_neg (by omega), pointer_direct allocated' low, nodes,
        ← pointer_direct vacant.allocated low]
    · by_cases outside : SLOTS ≤ slot'
      · have inside := vacant.inside
        rw [if_neg (by omega), pointer_beyond outside, pointer_beyond outside]
      · have present : (vol.node other).addrs NDIRECT ≠ 0 := by rwa [← top]
        rw [pointer_indirect allocated' (by omega) (by omega) (by rwa [nodes]), nodes, hereData]
        by_cases hit : slot' = slot
        · have small : block < 256 ^ 4 := by
            have bounded := sb.bounded
            have inside := fresh.inside
            omega
          rw [if_pos ⟨rfl, hit⟩, hit, Bytes.word_setWord_same small]
        · rw [if_neg fun h => hit h.2, Bytes.word_setWord_disjoint (by omega),
            pointer_indirect vacant.allocated (by omega) (by omega) present]
  · rw [if_neg fun h => same h.1]
    apply pointer_congr
    · rw [nodes]
    · intro index _
      rw [nodes]
    · intro present
      refine otherData _ (owned.not_fresh fresh present) ?_
      intro shared
      exact same (owned.once other NDIRECT inum NDIRECT present shared).1

theorem attach_pointer (fresh : Fresh sb vol block) (other slot' : Nat) :
    (vol.attach inum slot block).pointer other slot' =
      if other = inum ∧ slot' = slot then block else vol.pointer other slot' := by
  rcases Nat.lt_or_ge NDIRECT slot with indirect | direct
  · exact attach_pointer_indirect owned vacant fresh indirect other slot'
  · exact attach_pointer_direct owned vacant fresh direct other slot'

theorem attach_pointer_self (fresh : Fresh sb vol block) :
    (vol.attach inum slot block).pointer inum slot = block := by
  rw [attach_pointer owned vacant fresh, if_pos ⟨rfl, rfl⟩]

theorem attach_pointer_ne (fresh : Fresh sb vol block) {other slot' : Nat}
    (different : ¬ (other = inum ∧ slot' = slot)) :
    (vol.attach inum slot block).pointer other slot' = vol.pointer other slot' := by
  rw [attach_pointer owned vacant fresh, if_neg different]

theorem Owned.attach (fresh : Fresh sb vol block) : Owned sb (vol.attach inum slot block) where
  number := by
    intro other allocated
    rw [attach_node_type] at allocated
    exact owned.number other allocated
  data := by
    intro other slot'
    rw [attach_pointer owned vacant fresh]
    split
    · exact fun _ => owned.fresh_data fresh
    · exact owned.data other slot'
  marked := by
    intro other slot'
    rw [attach_pointer owned vacant fresh, attach_used]
    split
    · exact fun _ => if_pos rfl
    · intro present
      split
      · rfl
      · exact owned.marked other slot' present
  once := by
    intro other slot' other' slot''
    rw [attach_pointer owned vacant fresh, attach_pointer owned vacant fresh]
    split_ifs with first second second
    · rw [first.1, first.2, second.1, second.2]
      exact fun _ _ => ⟨rfl, rfl⟩
    · intro nonzero same
      exact (owned.not_fresh fresh (same ▸ nonzero) same.symm).elim
    · intro nonzero same
      exact (owned.not_fresh fresh nonzero same).elim
    · exact owned.once other slot' other' slot''
  reserved := by
    intro other inside reserved
    rw [attach_used]
    split
    · rfl
    · exact owned.reserved other inside reserved

end

/-- The bytes of a block that is neither the new one nor the indirect block of
the inode stay the same. -/
theorem attach_data {other : Nat} (old : other ≠ block)
    (different : NDIRECT < slot -> other ≠ (vol.node inum).addrs NDIRECT) :
    (vol.attach inum slot block).data other = vol.data other := by
  unfold Volume.attach
  split
  · exact update_of_ne old _ _
  · have apart := different (by omega)
    simp only [take, update_of_ne apart, update_of_ne old]

/-- The new block is empty. -/
theorem attach_data_new (owned : Owned sb vol) (vacant : Vacant vol inum slot)
    (fresh : Fresh sb vol block) : (vol.attach inum slot block).data block = Bytes.zero := by
  unfold Volume.attach
  split
  · exact update_self _ _ _
  · have here := vacant.indirect (by omega)
    have old := owned.not_fresh fresh here
    rw [pointer_direct vacant.allocated (le_refl _)] at old
    simp only [take, update_of_ne old.symm, update_self]

theorem attach_node_other {other : Nat} (different : other ≠ inum) :
    (vol.attach inum slot block).node other = vol.node other := by
  unfold Volume.attach
  split
  · exact update_of_ne different _ _
  · rfl

theorem attach_node_self : (vol.attach inum slot block).node inum =
    { vol.node inum with addrs := ((vol.attach inum slot block).node inum).addrs } := by
  unfold Volume.attach
  split
  · simp only [update_self]
  · rfl

/-! ## Free blocks -/

/-- The number of free blocks. -/
def free (sb : Superblock) (vol : Volume) : Nat :=
  ((Finset.range sb.size).filter fun block => vol.used block = false).card

theorem free_attach (fresh : Fresh sb vol block) :
    (vol.attach inum slot block).free sb + 1 = vol.free sb := by
  have erased : (Finset.range sb.size).filter
      (fun b => (vol.attach inum slot block).used b = false) =
        ((Finset.range sb.size).filter fun b => vol.used b = false).erase block := by
    ext b
    simp only [mem_filter, mem_range, mem_erase, attach_used]
    by_cases new : b = block <;> simp [new]
  have member : block ∈ (Finset.range sb.size).filter fun b => vol.used b = false := by
    simp [fresh.inside, fresh.free]
  rw [free, erased]
  exact card_erase_add_one member

end Attach

end Volume
end Fs
end Xv6
