import Xv6.Fs.Blocks
import Mathlib.Order.Interval.Finset.Nat

namespace Xv6
namespace Fs

open Function Finset

/-!
# How a write changes a volume

A write to a range of a file attaches blocks to the slots of that range and
stores bytes in them.  `Grown` is what holds between the volume at the start and
at any point of the write, whatever the bytes are; `Holds` says which bytes the
blocks of the file contain.
-/

/-- The file blocks that a range of bytes touches. -/
def blocksOf (off n : Nat) : Finset Nat := (Finset.Ico off (off + n)).image (· / BSIZE)

/-- The slots that a range of bytes needs. -/
def slotsOf (off n : Nat) : Finset Nat :=
  (blocksOf off n).image slotOf ∪ if NDIRECT * BSIZE < off + n ∧ 0 < n then {NDIRECT} else ∅

/-- A range of bytes needs its blocks and perhaps the indirect block. -/
theorem card_slotsOf_le (off n : Nat) :
    (slotsOf off n).card ≤ (off + n - 1) / BSIZE - off / BSIZE + 2 := by
  have blocks : (blocksOf off n).card ≤ (off + n - 1) / BSIZE - off / BSIZE + 1 := by
    have inside : blocksOf off n ⊆ Finset.Icc (off / BSIZE) ((off + n - 1) / BSIZE) := by
      intro block member
      obtain ⟨pos, range, rfl⟩ := mem_image.mp member
      rw [mem_Ico] at range
      exact mem_Icc.mpr ⟨Nat.div_le_div_right range.1, Nat.div_le_div_right (by omega)⟩
    have card := card_le_card inside
    rw [Nat.card_Icc] at card
    omega
  have slots := card_image_le (s := blocksOf off n) (f := slotOf)
  have union := card_union_le ((blocksOf off n).image slotOf)
    (if NDIRECT * BSIZE < off + n ∧ 0 < n then {NDIRECT} else ∅)
  have indirect : (if NDIRECT * BSIZE < off + n ∧ 0 < n then {NDIRECT} else ∅ :
      Finset Nat).card ≤ 1 := by
    split <;> simp
  unfold slotsOf
  omega

theorem mem_slotsOf {off n pos : Nat} (low : off ≤ pos) (high : pos < off + n) :
    slotOf (pos / BSIZE) ∈ slotsOf off n := by
  refine mem_union_left _ (mem_image_of_mem _ ?_)
  exact mem_image_of_mem _ (mem_Ico.mpr ⟨low, high⟩)

theorem indirect_mem_slotsOf {off n pos : Nat} (low : off ≤ pos) (high : pos < off + n)
    (far : NDIRECT ≤ pos / BSIZE) : NDIRECT ∈ slotsOf off n := by
  have reach : NDIRECT * BSIZE ≤ pos := (Nat.le_div_iff_mul_le (by decide)).mp far
  refine mem_union_right _ ?_
  rw [if_pos ⟨by omega, by omega⟩]
  exact mem_singleton_self _

namespace Volume

/-- The byte at a position of a file. -/
def byte (vol : Volume) (inum pos : Nat) : UInt8 :=
  vol.data (vol.pointer inum (slotOf (pos / BSIZE))) (pos % BSIZE)

/-- The bytes of a file. -/
def contents (vol : Volume) (inum : Nat) : List UInt8 :=
  (List.range (vol.node inum).size).map (vol.byte inum)

/-- A file without holes is not longer than its slots allow. -/
theorem Filled.size_le {vol : Volume} {inum : Nat} (filled : vol.Filled inum) :
    (vol.node inum).size ≤ MAXFILE * BSIZE := by
  by_contra longer
  have inside := slot_lt (filled MAXFILE (by omega))
  exact absurd inside (by decide)

/-- The number of the given slots that have no block. -/
def missing (vol : Volume) (inum : Nat) (slots : Finset Nat) : Nat :=
  (slots.filter fun slot => vol.pointer inum slot = 0).card

/-- A later volume in which blocks have been attached to some slots of one inode
and the blocks of this inode have been written. -/
structure Grown (sb : Superblock) (inum : Nat) (slots : Finset Nat) (old new : Volume) : Prop where
  owned : new.Owned sb
  node : new.node inum = { old.node inum with addrs := (new.node inum).addrs }
  others : forall other, other ≠ inum -> new.node other = old.node other
  kept : forall slot, old.pointer inum slot ≠ 0 -> new.pointer inum slot = old.pointer inum slot
  foreign : forall other slot, other ≠ inum -> new.pointer other slot = old.pointer other slot
  fresh : forall slot, old.pointer inum slot = 0 -> new.pointer inum slot ≠ 0 ->
    old.used (new.pointer inum slot) = false
  used : forall block, old.used block = true -> new.used block = true
  data : forall block, old.used block = true ->
    (forall slot, old.pointer inum slot ≠ 0 -> old.pointer inum slot ≠ block) ->
    new.data block = old.data block
  count : old.free sb + new.missing inum slots = new.free sb + old.missing inum slots

/-- The first `put` bytes at `off` are those of the source, the others are the
old ones, and blocks that are new are zero elsewhere. -/
def Holds (inum off put : Nat) (src : Nat -> UInt8) (old new : Volume) : Prop :=
  forall pos, new.pointer inum (slotOf (pos / BSIZE)) ≠ 0 -> new.byte inum pos =
    if off ≤ pos ∧ pos < off + put then src (pos - off)
    else if old.pointer inum (slotOf (pos / BSIZE)) = 0 then 0
    else old.byte inum pos

/-- The blocks of a range of bytes are there. -/
def Covers (vol : Volume) (inum off n : Nat) : Prop :=
  forall pos, off ≤ pos -> pos < off + n -> vol.pointer inum (slotOf (pos / BSIZE)) ≠ 0

variable {sb : Superblock} {inum : Nat} {slots : Finset Nat} {old new : Volume} {src : Nat -> UInt8}

theorem Grown.refl (owned : old.Owned sb) : Grown sb inum slots old old where
  owned := owned
  node := rfl
  others := fun _ _ => rfl
  kept := fun _ _ => rfl
  foreign := fun _ _ _ => rfl
  fresh := fun _ zero nonzero => absurd zero nonzero
  used := fun _ => id
  data := fun _ _ _ => rfl
  count := rfl

theorem Holds.refl {off : Nat} : Holds inum off 0 src old old := by
  intro pos present
  rw [if_neg (by omega), if_neg present]

theorem Covers.zero {off : Nat} : Covers old inum off 0 := by
  intro pos low high
  omega

section Attach

variable {slot block : Nat}

theorem missing_attach (owned : new.Owned sb) (vacant : Vacant new inum slot)
    (fresh : Fresh sb new block) (member : slot ∈ slots) :
    (new.attach inum slot block).missing inum slots + 1 = new.missing inum slots := by
  have erased : slots.filter (fun s => (new.attach inum slot block).pointer inum s = 0) =
      (slots.filter fun s => new.pointer inum s = 0).erase slot := by
    ext s
    simp only [mem_filter, mem_erase]
    by_cases here : s = slot
    · subst here
      simp [attach_pointer_self owned vacant fresh, fresh.ne_zero owned]
    · simp [attach_pointer_ne owned vacant fresh fun h => here h.2, here]
  have inside : slot ∈ slots.filter fun s => new.pointer inum s = 0 :=
    mem_filter.mpr ⟨member, vacant.empty⟩
  rw [missing, erased]
  exact card_erase_add_one inside

theorem Grown.attach (grown : Grown sb inum slots old new) (vacant : Vacant new inum slot)
    (fresh : Fresh sb new block) (member : slot ∈ slots) :
    Grown sb inum slots old (new.attach inum slot block) where
  owned := grown.owned.attach vacant fresh
  node := by
    rw [attach_node_self, grown.node]
  others := by
    intro other different
    rw [attach_node_other different]
    exact grown.others other different
  kept := by
    intro s present
    have nonzero : new.pointer inum s ≠ 0 := by rwa [grown.kept s present]
    have different : s ≠ slot := by
      intro same
      rw [same, vacant.empty] at nonzero
      exact nonzero rfl
    rw [attach_pointer_ne grown.owned vacant fresh fun h => different h.2]
    exact grown.kept s present
  foreign := by
    intro other s different
    rw [attach_pointer_ne grown.owned vacant fresh fun h => different h.1]
    exact grown.foreign other s different
  fresh := by
    intro s empty present
    by_cases here : s = slot
    · rw [here, attach_pointer_self grown.owned vacant fresh]
      by_contra marked
      have used := grown.used block (by simpa using marked)
      rw [fresh.free] at used
      cases used
    · rw [attach_pointer_ne grown.owned vacant fresh fun h => here h.2] at present ⊢
      exact grown.fresh s empty present
  used := by
    intro b marked
    rw [attach_used, grown.used b marked, ite_self]
  data := by
    intro b marked foreign
    have here : b ≠ block := by
      intro same
      have used := grown.used b marked
      rw [same, fresh.free] at used
      cases used
    rw [attach_data here]
    · exact grown.data b marked foreign
    · -- A block of another owner is not the indirect block of this inode.
      intro indirect same
      have top : new.pointer inum NDIRECT = b := by
        rw [pointer_direct vacant.allocated (le_refl _), same]
      by_cases before : old.pointer inum NDIRECT = 0
      · have unused := grown.fresh NDIRECT before (vacant.indirect indirect)
        rw [top, marked] at unused
        cases unused
      · exact foreign NDIRECT before ((grown.kept NDIRECT before).symm.trans top)
  count := by
    have fewer := missing_attach grown.owned vacant fresh member
    have taken := @free_attach sb new inum slot block fresh
    have count := grown.count
    omega

/-- A new block holds no bytes of the source, so attaching it keeps what the
file holds. -/
theorem Holds.attach {off put : Nat} (grown : Grown sb inum slots old new)
    (holds : Holds inum off put src old new) (covers : Covers new inum off put)
    (vacant : Vacant new inum slot) (fresh : Fresh sb new block) :
    Holds inum off put src old (new.attach inum slot block) := by
  intro pos
  unfold byte
  by_cases here : slotOf (pos / BSIZE) = slot
  · rw [here, attach_pointer_self grown.owned vacant fresh]
    intro _
    have outside : ¬ (off ≤ pos ∧ pos < off + put) := by
      rintro ⟨low, high⟩
      have present := covers pos low high
      rw [here, vacant.empty] at present
      exact present rfl
    have absent : old.pointer inum slot = 0 := by
      by_contra present
      have kept := grown.kept slot present
      rw [vacant.empty] at kept
      exact present kept.symm
    rw [attach_data_new grown.owned vacant fresh, if_neg outside, if_pos absent]
    rfl
  · rw [attach_pointer_ne grown.owned vacant fresh fun h => here h.2]
    intro present
    rw [attach_data (grown.owned.not_fresh fresh present)]
    · exact holds pos present
    · intro _ same
      rw [← pointer_direct vacant.allocated (le_refl _)] at same
      have twice := (grown.owned.once inum _ inum _ present same).2
      exact slotOf_ne_indirect _ twice

theorem Covers.attach {off n : Nat} (owned : new.Owned sb) (covers : Covers new inum off n)
    (vacant : Vacant new inum slot) (fresh : Fresh sb new block) :
    Covers (new.attach inum slot block) inum off n := by
  intro pos low high
  have present := covers pos low high
  have different : slotOf (pos / BSIZE) ≠ slot := by
    intro same
    rw [same, vacant.empty] at present
    exact present rfl
  rw [attach_pointer_ne owned vacant fresh fun h => different h.2]
  exact present

end Attach

/-! ## Bytes for a block -/

/-- Replace the bytes of a block. -/
def store (vol : Volume) (block : Nat) (bytes : Bytes) : Volume :=
  { vol with data := Function.update vol.data block bytes }

section Store

variable {bn : Nat} {bytes : Bytes}

section

variable (owned : new.Owned sb) (present : new.pointer inum (slotOf bn) ≠ 0)

include owned present

/-- Storing bytes in a block of a file changes no pointers. -/
theorem store_pointer (other slot : Nat) :
    (new.store (new.pointer inum (slotOf bn)) bytes).pointer other slot =
      new.pointer other slot := by
  apply pointer_congr
  · rfl
  · exact fun _ _ => rfl
  · intro indirect
    apply update_of_ne
    intro same
    exact slotOf_ne_indirect bn (owned.once inum _ other _ present same.symm).2

theorem Owned.store : (new.store (new.pointer inum (slotOf bn)) bytes).Owned sb where
  number := owned.number
  data := by
    intro other slot
    rw [store_pointer owned present]
    exact owned.data other slot
  marked := by
    intro other slot
    rw [store_pointer owned present]
    exact owned.marked other slot
  once := by
    intro other slot other' slot'
    rw [store_pointer owned present, store_pointer owned present]
    exact owned.once other slot other' slot'
  reserved := owned.reserved

theorem store_byte_here {pos : Nat} (here : pos / BSIZE = bn) :
    (new.store (new.pointer inum (slotOf bn)) bytes).byte inum pos = bytes (pos % BSIZE) := by
  rw [byte, store_pointer owned present, here]
  simp only [Volume.store, update_self]

theorem store_byte_other {pos : Nat} (nonzero : new.pointer inum (slotOf (pos / BSIZE)) ≠ 0)
    (elsewhere : pos / BSIZE ≠ bn) :
    (new.store (new.pointer inum (slotOf bn)) bytes).byte inum pos = new.byte inum pos := by
  have apart : new.pointer inum (slotOf (pos / BSIZE)) ≠ new.pointer inum (slotOf bn) := by
    intro same
    exact elsewhere (slotOf_injective (owned.once inum _ inum _ nonzero same).2)
  rw [byte, store_pointer owned present]
  simp only [Volume.store, update_of_ne apart]
  rfl

end

theorem Grown.store (grown : Grown sb inum slots old new)
    (present : new.pointer inum (slotOf bn) ≠ 0) :
    Grown sb inum slots old (new.store (new.pointer inum (slotOf bn)) bytes) where
  owned := grown.owned.store present
  node := grown.node
  others := grown.others
  kept := by
    intro slot
    rw [store_pointer grown.owned present]
    exact grown.kept slot
  foreign := by
    intro other slot
    rw [store_pointer grown.owned present]
    exact grown.foreign other slot
  fresh := by
    intro slot
    rw [store_pointer grown.owned present]
    exact grown.fresh slot
  used := grown.used
  data := by
    intro block marked foreign
    rw [← grown.data block marked foreign]
    apply update_of_ne
    intro same
    by_cases before : old.pointer inum (slotOf bn) = 0
    · have unused := grown.fresh (slotOf bn) before present
      rw [← same, marked] at unused
      cases unused
    · exact foreign (slotOf bn) before ((grown.kept _ before).symm.trans same.symm)
  count := by
    have count := grown.count
    simp only [missing, store_pointer grown.owned present] at count ⊢
    exact count

/-- Storing the next bytes of the source. -/
theorem Holds.store {off put more : Nat} (grown : Grown sb inum slots old new)
    (holds : Holds inum off put src old new) (present : new.pointer inum (slotOf bn) ≠ 0)
    (here : ∀ pos, pos / BSIZE = bn -> bytes (pos % BSIZE) =
      if off + put ≤ pos ∧ pos < off + put + more then src (pos - off) else new.byte inum pos)
    (elsewhere : ∀ pos, off + put ≤ pos -> pos < off + put + more -> pos / BSIZE = bn) :
    Holds inum off (put + more) src old (new.store (new.pointer inum (slotOf bn)) bytes) := by
  intro pos
  rw [store_pointer grown.owned present]
  intro nonzero
  have before := holds pos nonzero
  by_cases inside : pos / BSIZE = bn
  · rw [store_byte_here grown.owned present inside, here pos inside]
    by_cases now : off + put ≤ pos ∧ pos < off + put + more
    · rw [if_pos now, if_pos (by omega)]
    · rw [if_neg now, before]
      split_ifs <;> first | rfl | omega
  · have outside : ¬ (off + put ≤ pos ∧ pos < off + put + more) := fun h =>
      inside (elsewhere pos h.1 h.2)
    rw [store_byte_other grown.owned present nonzero inside, before]
    split_ifs <;> first | rfl | omega

theorem Covers.store {off n more : Nat} (owned : new.Owned sb) (covers : Covers new inum off n)
    (present : new.pointer inum (slotOf bn) ≠ 0)
    (elsewhere : ∀ pos, off + n ≤ pos -> pos < off + n + more -> pos / BSIZE = bn) :
    Covers (new.store (new.pointer inum (slotOf bn)) bytes) inum off (n + more) := by
  intro pos low high
  rw [store_pointer owned present]
  by_cases before : pos < off + n
  · exact covers pos low before
  · rwa [elsewhere pos (by omega) (by omega)]

end Store

end Volume
end Fs
end Xv6
