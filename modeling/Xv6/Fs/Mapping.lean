import Xv6.Fs.Rules

namespace Xv6
namespace Fs

open Conc Function State

/-!
# Mapping file blocks to disk blocks

`bmap` gives a file block its disk block, and allocates that block and the
indirect block above it if they are missing.  Its effect is a sequence of
attachments of fresh blocks to vacant slots, and its rule says that whatever
such attachments preserve is preserved by `bmap`.
-/

/-- The volume as the kernel sees it while it works on one inode: the copy in
the table in place of the inode on the disk. -/
def State.seen (state : State) (ip : Entry) : Volume :=
  { state.disk with
    node := Function.update state.disk.node (state.entry ip).inum (state.entry ip).node }

/-- Allocate a block and store it in a slot of an inode. -/
def State.attach (sb : Superblock) (state : State) (ip : Entry) (slot block : Nat) : State :=
  if slot ≤ NDIRECT then
    (state.allocated sb block).edit ip fun node =>
      { node with addrs := Function.update node.addrs slot block }
  else
    let indirect := (state.entry ip).node.addrs NDIRECT
    ((state.allocated sb block).setData indirect
      (((state.allocated sb block).disk.data indirect).setWord (4 * (slot - (NDIRECT + 1))) 4
        block)).logBlock indirect

section Seen

variable {state : State} {ip : Entry} {change : Dinode -> Dinode}

@[simp] theorem seen_node_self :
    (state.seen ip).node (state.entry ip).inum = (state.entry ip).node :=
  update_self _ _ _

theorem seen_node_other {inum : Nat} (different : inum ≠ (state.entry ip).inum) :
    (state.seen ip).node inum = state.disk.node inum :=
  update_of_ne different _ _

@[simp] theorem edit_entry_self : (state.edit ip change).entry ip =
      { state.entry ip with node := change (state.entry ip).node } :=
  update_self _ _ _

theorem edit_entry_other {jp : Entry} (different : jp ≠ ip) :
    (state.edit ip change).entry jp = state.entry jp :=
  update_of_ne different _ _

/-- Changing the copy in the table changes one inode of the volume. -/
theorem seen_edit : (state.edit ip change).seen ip = { state.seen ip with
      node := update (state.seen ip).node (state.entry ip).inum
        (change (state.entry ip).node) } := by
  simp only [State.seen, edit_entry_self, update_idem]
  rfl

/-- Writing the copy back does not change the volume. -/
theorem seen_flush : (state.flush ip).seen ip = state.seen ip := by
  simp only [State.seen, State.flush, update_idem]

@[simp] theorem seen_data : (state.seen ip).data = state.disk.data := rfl

@[simp] theorem seen_used : (state.seen ip).used = state.disk.used := rfl

section Pointers

variable {slot : Nat} (allocated : (state.entry ip).node.type ≠ 0)

include allocated

theorem seen_allocated : ((state.seen ip).node (state.entry ip).inum).type ≠ 0 := by
  rwa [seen_node_self]

theorem seen_pointer_direct (direct : slot ≤ NDIRECT) :
    (state.seen ip).pointer (state.entry ip).inum slot = (state.entry ip).node.addrs slot := by
  rw [Volume.pointer_direct (seen_allocated allocated) direct, seen_node_self]

theorem seen_pointer_indirect (indirect : NDIRECT < slot) (inside : slot < SLOTS)
    (present : (state.entry ip).node.addrs NDIRECT ≠ 0) :
    (state.seen ip).pointer (state.entry ip).inum slot =
      (state.disk.data ((state.entry ip).node.addrs NDIRECT)).word
        (4 * (slot - (NDIRECT + 1))) 4 := by
  rw [Volume.pointer_indirect (seen_allocated allocated) indirect inside
    (by rwa [seen_node_self]), seen_node_self, seen_data]

end Pointers

end Seen

section Attach

variable {sb : Superblock} {state : State} {ip : Entry} {slot block : Nat}

theorem attach_entry_other {jp : Entry} (different : jp ≠ ip) :
    (state.attach sb ip slot block).entry jp = state.entry jp := by
  unfold State.attach
  split
  · exact edit_entry_other different
  · rfl

theorem attach_entry_self : (state.attach sb ip slot block).entry ip =
    { state.entry ip with node := ((state.attach sb ip slot block).entry ip).node } := by
  unfold State.attach
  split
  · rw [edit_entry_self]
    rfl
  · rfl

theorem attach_inum (jp : Entry) :
    ((state.attach sb ip slot block).entry jp).inum = (state.entry jp).inum := by
  by_cases same : jp = ip
  · rw [same, attach_entry_self]
  · rw [attach_entry_other same]

theorem seen_attach : (state.attach sb ip slot block).seen ip =
    (state.seen ip).attach (state.entry ip).inum slot block := by
  unfold State.attach Volume.attach
  split
  · rw [seen_edit]
    simp only [State.seen, update_self]
    rfl
  · simp only [seen_node_self]
    rfl

theorem mem_attach_log {other : Nat} : other ∈ (state.attach sb ip slot block).log <->
    (NDIRECT < slot ∧ other = (state.entry ip).node.addrs NDIRECT) ∨ other = block ∨
      other = sb.BBLOCK block ∨ other ∈ state.log := by
  rw [← mem_allocated_log]
  unfold State.attach
  split
  · next direct =>
      have near : ¬ NDIRECT < slot := by omega
      simp only [near, false_and, false_or]
      rfl
  · next indirect =>
      have far : NDIRECT < slot := by omega
      simp only [far, true_and]
      exact mem_listBlock

theorem nodup_attach (distinct : state.log.Nodup) : (state.attach sb ip slot block).log.Nodup := by
  unfold State.attach
  split
  · exact nodup_allocated distinct
  · exact nodup_listBlock (nodup_allocated distinct)

/-- What `attach` leaves alone. -/
theorem attach_nodes : (state.attach sb ip slot block).disk.node = state.disk.node := by
  unfold State.attach
  split <;> simp only [State.logBlock, setData, State.allocated, setUsed, State.edit, setInode]

theorem attach_steady : Steady state (state.attach sb ip slot block) := by
  unfold State.attach
  constructor <;> split <;> simp only [State.logBlock, setData, State.allocated,
    setUsed, State.edit, setInode]

end Attach

/-! ## The rule for `bmap` -/

/-- The slots that the `bn`-th block of a file needs. -/
def Needs (bn slot : Nat) : Prop := slot = slotOf bn ∨ (NDIRECT ≤ bn ∧ slot = NDIRECT)

section Bmap

variable {sb : Superblock} {ip : Entry} {bn : Nat} {stop : State -> Prop}
  {goal : Nat -> State -> Prop}

/-- What `bmap` can rely on while it runs. -/
structure Mappable (sb : Superblock) (ip : Entry) (state : State) : Prop where
  running : 1 ≤ state.outstanding
  allocated : (state.entry ip).node.type ≠ 0
  owned : (state.seen ip).Owned sb

theorem Mappable.vacant {state : State} (mappable : Mappable sb ip state) {slot : Nat}
    (direct : slot ≤ NDIRECT) (absent : (state.entry ip).node.addrs slot = 0) :
    Volume.Vacant (state.seen ip) (state.entry ip).inum slot where
  allocated := seen_allocated mappable.allocated
  inside := by
    unfold SLOTS
    omega
  empty := by rw [seen_pointer_direct mappable.allocated direct, absent]
  indirect := fun far => absurd far (by omega)

section

variable (inv : State -> Prop) (mappable : forall state, inv state -> Mappable sb ip state)
  (room : forall state slot block, inv state -> Needs bn slot ->
    Volume.Vacant (state.seen ip) (state.entry ip).inum slot ->
    Volume.Fresh sb (state.seen ip) block ->
    Room stop sb (state.allocated sb block).log.length)
  (grow : forall state slot block, inv state -> Needs bn slot ->
    Volume.Vacant (state.seen ip) (state.entry ip).inum slot ->
    Volume.Fresh sb (state.seen ip) block -> inv (state.attach sb ip slot block))
  (full : forall state slot, inv state -> Needs bn slot ->
    Volume.Vacant (state.seen ip) (state.entry ip).inum slot ->
    (forall block, block < sb.size -> state.disk.used block = true) ->
    stop { state with panicked := some .ballocOutOfBlocks })

include mappable room grow full

/-- The pointers that are stored in the inode itself. -/
theorem meets_addrOf {slot : Nat} {state : State} (start : inv state) (direct : slot ≤ NDIRECT)
    (needed : Needs bn slot)
    (done : ∀ state, inv state -> (state.entry ip).node.addrs slot ≠ 0 ->
      goal ((state.entry ip).node.addrs slot) state) :
    Meets () stop (addrOf sb ip slot) goal state := by
  simp only [addrOf, meets_do, meets_look]
  split
  · next absent =>
      have vacant : Volume.Vacant (state.seen ip) (state.entry ip).inum slot :=
        (mappable state start).vacant direct absent
      simp only [meets_do, meets_change, meets_pure]
      refine meets_balloc (mappable state start).running
        (fun block fresh => room state slot block start needed vacant ⟨fresh.inside, fresh.free⟩)
        (fun block found => ?_) (full state slot start needed vacant)
      have fresh : Volume.Fresh sb (state.seen ip) block := ⟨found.inside, found.free⟩
      have grown := grow state slot block start needed vacant fresh
      rw [State.attach, if_pos direct] at grown
      have result := done _ grown
      rw [edit_entry_self] at result
      simp only [update_self] at result
      exact result (fresh.ne_zero (mappable state start).owned)
  · next present => exact done state start present

/-- What attaching fresh blocks to vacant slots preserves is preserved by
`bmap`, and in the end the slot is not vacant. -/
theorem meets_bmap {state : State} (inside : bn < MAXFILE) (start : inv state)
    (done : ∀ state, inv state -> (state.seen ip).pointer (state.entry ip).inum (slotOf bn) ≠ 0 ->
      goal ((state.seen ip).pointer (state.entry ip).inum (slotOf bn)) state) :
    Meets () stop (bmap sb ip bn) goal state := by
  unfold bmap
  split
  · next low =>
      have slot : slotOf bn = bn := if_pos low
      refine meets_addrOf inv mappable room grow full start (by omega) (Or.inl slot.symm)
        fun after held present => ?_
      have result := done after held
      rw [slot, seen_pointer_direct (mappable after held).allocated (by omega)] at result
      exact result present
  · next high =>
      have slot : slotOf bn = bn + 1 := if_neg high
      have within : bn - NDIRECT < NINDIRECT := by
        unfold MAXFILE at inside
        omega
      rw [if_pos within]
      simp only [meets_do]
      refine meets_addrOf inv mappable room grow full start (le_refl _) (Or.inr ⟨by omega, rfl⟩)
        fun state held present => ?_
      have entry : (state.seen ip).pointer (state.entry ip).inum (slotOf bn) =
          (state.disk.data ((state.entry ip).node.addrs NDIRECT)).word (4 * (bn - NDIRECT)) 4 := by
        rw [slot, seen_pointer_indirect (mappable state held).allocated (by omega)
          (by unfold SLOTS; omega) present, Nat.add_sub_add_right]
      simp only [meets_look]
      split
      · next absent =>
          have vacant : Volume.Vacant (state.seen ip) (state.entry ip).inum (slotOf bn) := by
            refine ⟨seen_allocated (mappable state held).allocated, slotOf_lt inside,
              by rw [entry, absent], fun _ => ?_⟩
            rwa [seen_pointer_direct (mappable state held).allocated (le_refl _)]
          simp only [meets_do]
          have roomy := fun block => room state (slotOf bn) block held (Or.inl rfl) vacant
          refine meets_balloc (mappable state held).running
            (fun block fresh => roomy block ⟨fresh.inside, fresh.free⟩) (fun block found => ?_)
            (full state (slotOf bn) held (Or.inl rfl) vacant)
          have fresh : Volume.Fresh sb (state.seen ip) block := ⟨found.inside, found.free⟩
          simp only [meets_change]
          refine meets_log_write ⟨(mappable state held).running, roomy block fresh⟩ ?_
          have grown := grow state (slotOf bn) block held (Or.inl rfl) vacant fresh
          have pointer := Volume.attach_pointer_self (mappable state held).owned vacant fresh
          rw [← @seen_attach sb, ← @attach_inum sb state ip (slotOf bn) block] at pointer
          have result := done _ grown (by
            rw [pointer]
            exact fresh.ne_zero (mappable state held).owned)
          rw [pointer, State.attach, if_neg (by omega), slot, Nat.add_sub_add_right] at result
          exact result
      · next present =>
          rw [meets_pure, ← entry]
          exact done state held (by rwa [entry])

end

/-- A block that is there is found without a change. -/
theorem meets_bmap_present {state : State} (allocated : (state.entry ip).node.type ≠ 0)
    (present : (state.seen ip).pointer (state.entry ip).inum (slotOf bn) ≠ 0)
    (next : goal ((state.seen ip).pointer (state.entry ip).inum (slotOf bn)) state) :
    Meets () stop (bmap sb ip bn) goal state := by
  unfold bmap addrOf
  split
  · next low =>
      have slot : slotOf bn = bn := if_pos low
      rw [slot, seen_pointer_direct allocated (by omega)] at present next
      simp only [meets_do, meets_look]
      rwa [if_neg present]
  · next high =>
      have slot : slotOf bn = bn + 1 := if_neg high
      have inside : bn + 1 < SLOTS := slot ▸ Volume.slot_lt present
      have within : bn - NDIRECT < NINDIRECT := by
        unfold SLOTS at inside
        omega
      have above : (state.entry ip).node.addrs NDIRECT ≠ 0 := by
        rw [← seen_pointer_direct allocated (le_refl _)]
        exact Volume.indirect_present (by omega) present
      rw [slot, seen_pointer_indirect allocated (by omega) inside above,
        Nat.add_sub_add_right] at present next
      rw [if_pos within]
      simp only [meets_do, meets_look]
      rw [if_neg above]
      simp only [meets_pure]
      rw [if_neg present]
      exact next

end Bmap

end Fs
end Xv6
