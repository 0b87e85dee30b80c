import Xv6.Fs.ByteArray

namespace Xv6
namespace Fs

open Function

/-!
# Consistent volumes

The changes that the kernel makes to a volume, one inode at a time: other fields
of an inode, a new inode, a write, and the truncation of an inode.  Each of them
keeps the volume consistent.
-/

namespace Volume

/-- Replace one inode. -/
def setNode (vol : Volume) (inum : Nat) (node : Dinode) : Volume :=
  { vol with node := Function.update vol.node inum node }

section SetNode

variable {sb : Superblock} {vol : Volume} {inum : Nat} {node : Dinode} {other : Nat}

theorem setNode_self : (vol.setNode inum node).node inum = node := update_self _ _ _

theorem setNode_other (different : other ≠ inum) :
    (vol.setNode inum node).node other = vol.node other := update_of_ne different _ _

theorem setNode_pointer_other (different : other ≠ inum) (slot : Nat) :
    (vol.setNode inum node).pointer other slot = vol.pointer other slot := by
  apply pointer_congr
  · rw [setNode_other different]
  · intro index _
    rw [setNode_other different]
  · exact fun _ => rfl

/-- If the pointers stay the same, ownership does. -/
theorem Owned.of_pointers {new : Volume} (owned : vol.Owned sb) (used : new.used = vol.used)
    (pointers : ∀ inum slot, new.pointer inum slot = vol.pointer inum slot)
    (number : ∀ inum, (new.node inum).type ≠ 0 -> inum < sb.ninodes) : new.Owned sb where
  number := number
  data := by
    intro inum slot
    rw [pointers]
    exact owned.data inum slot
  marked := by
    intro inum slot
    rw [pointers, used]
    exact owned.marked inum slot
  once := by
    intro inum slot other slot'
    rw [pointers, pointers]
    exact owned.once inum slot other slot'
  reserved := by
    intro block
    rw [used]
    exact owned.reserved block

theorem Consistent.of_pointers {new : Volume} (consistent : vol.Consistent sb)
    (used : new.used = vol.used)
    (pointers : ∀ inum slot, new.pointer inum slot = vol.pointer inum slot)
    (number : ∀ inum, (new.node inum).type ≠ 0 -> inum < sb.ninodes)
    (filled : ∀ inum, (new.node inum).type ≠ 0 -> new.Filled inum) :
    new.Consistent sb where
  toOwned := consistent.toOwned.of_pointers used pointers number
  filled := filled

theorem setNode_pointer (type : node.type = (vol.node inum).type)
    (addrs : node.addrs = (vol.node inum).addrs) (other slot : Nat) :
    (vol.setNode inum node).pointer other slot = vol.pointer other slot := by
  by_cases same : other = inum
  · subst same
    apply pointer_congr
    · rw [setNode_self, type]
    · intro index _
      rw [setNode_self, addrs]
    · exact fun _ => rfl
  · exact setNode_pointer_other same slot

/-- Other link counts and device numbers. -/
theorem Consistent.relabel (consistent : vol.Consistent sb)
    (allocated : (vol.node inum).type ≠ 0) (type : node.type = (vol.node inum).type)
    (addrs : node.addrs = (vol.node inum).addrs) (size : node.size = (vol.node inum).size) :
    (vol.setNode inum node).Consistent sb := by
  have pointers := @setNode_pointer vol inum node type addrs
  have types : ∀ other, ((vol.setNode inum node).node other).type ≠ 0 ->
      (vol.node other).type ≠ 0 := by
    intro other allocated'
    by_cases same : other = inum
    · exact same ▸ allocated
    · rwa [setNode_other same] at allocated'
  refine consistent.of_pointers rfl pointers
    (fun other allocated' => consistent.number other (types other allocated')) ?_
  intro other allocated' bn below
  rw [pointers]
  refine consistent.filled other (types other allocated') bn ?_
  by_cases same : other = inum
  · subst same
    rwa [setNode_self, size] at below
  · rwa [setNode_other same] at below

/-- Other link counts and device numbers do not change what is in a file. -/
theorem setNode_contents (type : node.type = (vol.node inum).type)
    (addrs : node.addrs = (vol.node inum).addrs) (size : node.size = (vol.node inum).size)
    (other : Nat) : (vol.setNode inum node).contents other = vol.contents other := by
  have same : ((vol.setNode inum node).node other).size = (vol.node other).size := by
    by_cases here : other = inum
    · rw [here, setNode_self, size]
    · rw [setNode_other here]
  unfold contents byte
  simp only [same, setNode_pointer type addrs other]
  rfl

/-- An inode without blocks can take the place of one without blocks. -/
theorem Consistent.setEmpty (consistent : vol.Consistent sb)
    (empty : ∀ slot, vol.pointer inum slot = 0) (number : node.type ≠ 0 -> inum < sb.ninodes)
    (addrs : ∀ index, index ≤ NDIRECT -> node.addrs index = 0) (size : node.size = 0) :
    (vol.setNode inum node).Consistent sb := by
  have none : ∀ slot, (vol.setNode inum node).pointer inum slot = 0 := by
    intro slot
    rw [pointer, setNode_self, Dinode.pointer]
    split_ifs with free low absent
    · rfl
    · exact addrs slot low
    · rfl
    · exact (absent (Or.inl (addrs NDIRECT (le_refl _)))).elim
  have pointers : ∀ other slot,
      (vol.setNode inum node).pointer other slot = vol.pointer other slot := by
    intro other slot
    by_cases same : other = inum
    · rw [same, none, empty]
    · exact setNode_pointer_other same slot
  refine consistent.of_pointers rfl pointers ?_ ?_
  · intro other allocated
    by_cases same : other = inum
    · subst same
      rw [setNode_self] at allocated
      exact number allocated
    · rw [setNode_other same] at allocated
      exact consistent.number other allocated
  · intro other allocated bn below
    by_cases same : other = inum
    · subst same
      rw [setNode_self, size] at below
      omega
    · rw [setNode_other same] at allocated below
      rw [pointers]
      exact consistent.filled other allocated bn below

end SetNode

/-! ## Writes -/

/-- A write keeps the volume consistent once the size covers it. -/
theorem Grown.consistent {sb : Superblock} {inum off tot : Nat} {slots : Finset Nat}
    {old new : Volume} (grown : Grown sb inum slots old new) (covers : Covers new inum off tot)
    (consistent : old.Consistent sb) (allocated : (old.node inum).type ≠ 0)
    (inside : off ≤ (old.node inum).size) :
    (new.resize inum (max (old.node inum).size (off + tot))).Consistent sb := by
  have filled := grown.filled covers (consistent.filled inum allocated) inside
  have types : ∀ other, ((new.resize inum (max (old.node inum).size (off + tot))).node other).type =
        (old.node other).type := by
    intro other
    by_cases same : other = inum
    · subst same
      simp only [resize, update_self]
      rw [grown.node]
    · refine congrArg Dinode.type ((update_of_ne same _ _).trans ?_)
      exact grown.others other same
  refine ⟨grown.owned.of_pointers rfl (resize_pointer new inum _) ?_, ?_⟩
  · intro other allocated'
    rw [types] at allocated'
    exact consistent.number other allocated'
  · intro other allocated'
    by_cases same : other = inum
    · exact same ▸ filled
    · rw [types] at allocated'
      intro bn below
      have node : (new.resize inum (max (old.node inum).size (off + tot))).node other =
          old.node other := (update_of_ne same _ _).trans (grown.others other same)
      rw [node] at below
      rw [resize_pointer, grown.foreign other _ same]
      exact consistent.filled other allocated' bn below

/-! ## Truncation -/

/-- All blocks of one inode have been freed. -/
structure Truncated (inum : Nat) (old new : Volume) : Prop where
  type : (new.node inum).type = (old.node inum).type
  nlink : (new.node inum).nlink = (old.node inum).nlink
  size : (new.node inum).size = 0
  addrs : forall index, index ≤ NDIRECT -> (new.node inum).addrs index = 0
  others : forall other, other ≠ inum -> new.node other = old.node other
  data : new.data = old.data
  used : forall block, new.used block = true <-> old.used block = true ∧
    forall slot, old.pointer inum slot ≠ 0 -> old.pointer inum slot ≠ block

section Truncated

variable {sb : Superblock} {inum : Nat} {old new : Volume}

section

variable (truncated : Truncated inum old new)

include truncated

theorem Truncated.pointer_self (slot : Nat) : new.pointer inum slot = 0 := by
  rw [pointer, Dinode.pointer]
  split_ifs with free low absent
  · rfl
  · exact truncated.addrs slot low
  · rfl
  · exact (absent (Or.inl (truncated.addrs NDIRECT (le_refl _)))).elim

theorem Truncated.pointer_other (different : other ≠ inum) (slot : Nat) :
    new.pointer other slot = old.pointer other slot := by
  apply pointer_congr
  · rw [truncated.others other different]
  · intro index _
    rw [truncated.others other different]
  · intro _
    rw [truncated.data]

theorem Truncated.consistent (consistent : old.Consistent sb) : new.Consistent sb := by
  -- Whatever is still pointed to belongs to another inode.
  have other_of : ∀ other slot, new.pointer other slot ≠ 0 -> other ≠ inum := by
    rintro other slot present rfl
    exact present (truncated.pointer_self slot)
  have same_of : ∀ other slot, new.pointer other slot ≠ 0 ->
      new.pointer other slot = old.pointer other slot := fun other slot present =>
    truncated.pointer_other (other_of other slot present) slot
  have types : ∀ other, (new.node other).type = (old.node other).type := by
    intro other
    by_cases here : other = inum
    · rw [here, truncated.type]
    · rw [truncated.others other here]
  refine ⟨⟨?_, ?_, ?_, ?_, ?_⟩, ?_⟩
  · intro other allocated
    rw [types] at allocated
    exact consistent.number other allocated
  · intro other slot present
    have same := same_of other slot present
    rw [same] at present ⊢
    exact consistent.data other slot present
  · intro other slot present
    have here := other_of other slot present
    have same := same_of other slot present
    rw [same] at present ⊢
    refine (truncated.used _).mpr ⟨consistent.marked other slot present, ?_⟩
    intro slot' present' same
    exact here (consistent.once inum slot' other slot present' same).1.symm
  · intro other slot other' slot' present same
    have present' : new.pointer other' slot' ≠ 0 := same ▸ present
    have left := same_of other slot present
    have right := same_of other' slot' present'
    rw [left] at present same
    rw [right] at same
    exact consistent.once other slot other' slot' present same
  · intro block inside reserved
    refine (truncated.used block).mpr ⟨consistent.reserved block inside reserved, ?_⟩
    intro slot present same
    exact reserved (same ▸ consistent.data inum slot present)
  · intro other allocated bn below
    by_cases here : other = inum
    · rw [here, truncated.size] at below
      omega
    · rw [types] at allocated
      rw [truncated.others other here] at below
      rw [truncated.pointer_other here]
      exact consistent.filled other allocated bn below

end

end Truncated

end Volume
end Fs
end Xv6
