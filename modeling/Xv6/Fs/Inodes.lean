import Xv6.Fs.Operation

namespace Xv6
namespace Fs

open Conc Function State Finset

/-!
# Operations on inodes

The routines that change an inode on the disk: `iupdate` after a change of the
copy in the table, `ialloc`, `itrunc` and `iput`.  An inode block is listed in
the log for each of them, and the bitmap when blocks are freed.
-/

section Refresh

variable {sb : Superblock} {ip : Entry} {old new : State} {jp : Entry}

/-- The copy of one inode changes, in the table and on the disk. -/
structure Refreshed (ip : Entry) (old new : State) : Prop where
  self : new.entry ip =
    { old.entry ip with node := new.disk.node (old.entry ip).inum }
  other : forall jp, jp ≠ ip -> new.entry jp = old.entry jp
  nodes : forall inum, inum ≠ (old.entry ip).inum -> new.disk.node inum = old.disk.node inum

section

variable (refreshed : Refreshed ip old new)

include refreshed

theorem Refreshed.settled (settled : Settled old) (referenced : 0 < (old.entry ip).ref)
    (typed : (new.disk.node (old.entry ip).inum).type ≠ 0) : Settled new := by
  have same : ∀ jp, (new.entry jp).ref = (old.entry jp).ref ∧
      (new.entry jp).inum = (old.entry jp).inum ∧
      (new.entry jp).valid = (old.entry jp).valid := by
    intro jp
    by_cases here : jp = ip
    · rw [here, refreshed.self]
      exact ⟨rfl, rfl, rfl⟩
    · rw [refreshed.other jp here]
      exact ⟨rfl, rfl, rfl⟩
  refine ⟨?_, ?_, ?_⟩
  · intro jp kp
    rw [(same jp).1, (same kp).1, (same jp).2.1, (same kp).2.1]
    exact settled.unique jp kp
  · intro jp
    rw [(same jp).1, (same jp).2.1, (same jp).2.2]
    intro positive valid
    by_cases here : jp = ip
    · rw [here, refreshed.self]
    · rw [refreshed.other jp here, settled.clean jp positive valid]
      refine (refreshed.nodes _ fun shared => here ?_).symm
      exact settled.unique jp ip positive referenced shared
  · intro jp
    rw [(same jp).1, (same jp).2.2]
    intro positive valid
    by_cases here : jp = ip
    · rw [here, refreshed.self]
      exact typed
    · rw [refreshed.other jp here]
      exact settled.typed jp positive valid

theorem Refreshed.ref (jp : Entry) : (new.entry jp).ref = (old.entry jp).ref := by
  by_cases here : jp = ip
  · rw [here, refreshed.self]
  · rw [refreshed.other jp here]

theorem Refreshed.inum (jp : Entry) : (new.entry jp).inum = (old.entry jp).inum := by
  by_cases here : jp = ip
  · rw [here, refreshed.self]
  · rw [refreshed.other jp here]

theorem Refreshed.held {p : Pid} (held : Held p jp old) : Held p jp new := by
  by_cases here : jp = ip
  · subst here
    refine ⟨?_, ?_, ?_⟩ <;> rw [refreshed.self]
    · exact held.referenced
    · exact held.valid
    · exact held.locked
  · exact held.of_entry (refreshed.other jp here)

end

end Refresh

/-! ## `iupdate` -/

section Update

variable {sb : Superblock} {stop : State -> Prop} {past : List (List Nat)} {blocks : Finset Nat}
  {state : State} {count : Nat} {p : Pid} {ip : Entry} {edit : Dinode -> Dinode}
  {goal : Unit -> State -> Prop}

/-- The state after a change of an inode has been written to the disk. -/
def State.updated (state : State) (sb : Superblock) (ip : Entry) (edit : Dinode -> Dinode) :
    State :=
  ((state.edit ip edit).flush ip).logBlock (sb.IBLOCK (state.entry ip).inum)

theorem updated_disk : (state.updated sb ip edit).disk =
    state.disk.setNode (state.entry ip).inum (edit (state.entry ip).node) := by
  change (state.edit ip edit).seen ip = _
  rw [State.seen, edit_entry_self]
  rfl

theorem updated_entry_self : (state.updated sb ip edit).entry ip =
    { state.entry ip with node := edit (state.entry ip).node } :=
  edit_entry_self

theorem updated_entry_other (different : jp ≠ ip) :
    (state.updated sb ip edit).entry jp = state.entry jp :=
  edit_entry_other different

theorem updated_steady : Steady state (state.updated sb ip edit) := ⟨rfl, rfl, rfl, rfl, rfl, rfl⟩

theorem updated_refreshed : Refreshed ip state (state.updated sb ip edit) where
  self := by
    rw [updated_disk, Volume.setNode_self]
    exact updated_entry_self
  other := fun jp different => updated_entry_other different
  nodes := by
    intro inum different
    rw [updated_disk]
    exact Volume.setNode_other different

theorem meets_updated (writable : Writable stop sb state)
    (next : goal () (state.updated sb ip edit)) :
    Meets () stop (iupdate sb ip) goal (state.edit ip edit) := by
  refine meets_iupdate ⟨writable.running, writable.room⟩ ?_
  have number : ((state.edit ip edit).entry ip).inum = (state.entry ip).inum := by
    rw [edit_entry_self]
  rw [number]
  exact next

/-- A field other than the type, the size and the addresses is changed. -/
theorem Op.iupdate (op : Op sb past blocks state) (fits : Fits stop sb past count)
    (within : blocks.card ≤ count) (held : Held p ip state)
    (allowed : sb.IBLOCK (state.entry ip).inum ∈ blocks)
    (same : ∀ node, (edit node).type = node.type ∧ (edit node).addrs = node.addrs ∧
      (edit node).size = node.size)
    (next : Op sb past blocks (state.updated sb ip edit) -> goal () (state.updated sb ip edit)) :
    Meets () stop (iupdate sb ip) goal (state.edit ip edit) := by
  obtain ⟨type, addrs, size⟩ := same (state.entry ip).node
  have typed := op.settled.typed ip held.referenced held.valid
  have clean := op.settled.clean ip held.referenced held.valid
  refine meets_updated (op.writable fits within) (next (op.step updated_steady ?_ ?_ ?_))
  · refine updated_refreshed.settled op.settled held.referenced ?_
    rw [updated_disk, Volume.setNode_self, type]
    exact typed
  · rw [updated_disk]
    rw [clean] at typed type addrs size ⊢
    exact op.consistent.relabel typed type addrs size
  · exact op.spent.list (mem_union_right _ allowed)

end Update

/-! ## `itrunc` -/

/-- Some blocks of an inode have been freed, and some of its addresses have
been cleared in the table. -/
structure Freeing (sb : Superblock) (blocks : Finset Nat) (ip : Entry) (old : State)
    (gone : Nat -> Prop) (addrs : Nat -> Nat) (new : State) : Prop where
  self : new.entry ip =
    { old.entry ip with node := { (old.entry ip).node with addrs := addrs } }
  other : forall jp, jp ≠ ip -> new.entry jp = old.entry jp
  disk : new.disk = { old.disk with used := new.disk.used }
  used : forall block, new.disk.used block = true <-> old.disk.used block = true ∧
    forall slot, gone slot -> old.disk.pointer (old.entry ip).inum slot ≠ 0 ->
      old.disk.pointer (old.entry ip).inum slot ≠ block
  spent : Spent sb blocks new.log
  steady : Steady old new

section Truncate

variable {sb : Superblock} {stop : State -> Prop} {past : List (List Nat)}
  {blocks : Finset Nat} {old new : State} {count : Nat} {ip : Entry}
  {gone : Nat -> Prop} {addrs : Nat -> Nat}

theorem Freeing.start (op : Op sb past blocks old) :
    Freeing sb blocks ip old (fun _ => False) (old.entry ip).node.addrs old where
  self := rfl
  other := fun _ _ => rfl
  disk := rfl
  used := fun _ => ⟨fun marked => ⟨marked, fun _ impossible => impossible.elim⟩, And.left⟩
  spent := op.spent
  steady := Steady.refl old

/-- Only slots with a block matter. -/
theorem Freeing.slots {gone' : Nat -> Prop} (freeing : Freeing sb blocks ip old gone addrs new)
    (same : ∀ slot, old.disk.pointer (old.entry ip).inum slot ≠ 0 ->
      (gone slot <-> gone' slot)) : Freeing sb blocks ip old gone' addrs new :=
  { freeing with
    used := by
      intro block
      rw [freeing.used]
      constructor
      · rintro ⟨marked, apart⟩
        exact ⟨marked, fun slot here present => apart slot ((same slot present).mpr here) present⟩
      · rintro ⟨marked, apart⟩
        exact ⟨marked, fun slot here present => apart slot ((same slot present).mp here) present⟩ }

theorem Freeing.clear (freeing : Freeing sb blocks ip old gone addrs new) (index : Nat) :
    Freeing sb blocks ip old gone (update addrs index 0)
      (new.edit ip fun node => { node with addrs := update node.addrs index 0 }) :=
  { freeing with
    self := by
      rw [edit_entry_self, freeing.self]
    other := by
      intro jp different
      rw [edit_entry_other different, freeing.other jp different]
    steady := freeing.steady.trans ⟨rfl, rfl, rfl, rfl, rfl, rfl⟩ }

section

variable (op : Op sb past blocks old) (fits : Fits stop sb past count)

include op fits

theorem Freeing.writable (within : blocks.card ≤ count)
    (freeing : Freeing sb blocks ip old gone addrs new) : Writable stop sb new where
  running := by
    rw [freeing.steady.outstanding]
    exact op.running
  room := by
    have length := freeing.spent.length_le
    exact fits.room.mono (by omega)

/-- One more block is freed. -/
theorem Freeing.bfree (within : blocks.card ≤ count)
    (freeing : Freeing sb blocks ip old gone addrs new) {slot : Nat}
    (present : old.disk.pointer (old.entry ip).inum slot ≠ 0) (remains : ¬ gone slot)
    (next : ∀ after, Freeing sb blocks ip old (fun other => gone other ∨ other = slot)
      addrs after -> goal () after) :
    Meets () stop (bfree sb (old.disk.pointer (old.entry ip).inum slot)) goal new := by
  have isData := op.consistent.data _ slot present
  have marked : new.disk.used (old.disk.pointer (old.entry ip).inum slot) = true := by
    refine (freeing.used _).mpr ⟨op.consistent.marked _ slot present, ?_⟩
    intro other here present' same
    have shared := (op.consistent.once _ other _ slot present' same).2
    exact remains (shared ▸ here)
  refine meets_bfree (freeing.writable op fits within) marked (next _ ?_)
  refine ⟨freeing.self, freeing.other, ?_, ?_, ?_, ?_⟩
  · rw [State.logBlock, setUsed, freeing.disk]
  · intro block
    change update new.disk.used _ false block = true <-> _
    by_cases here : block = old.disk.pointer (old.entry ip).inum slot
    · rw [here, update_self]
      constructor
      · intro impossible
        cases impossible
      · rintro ⟨_, apart⟩
        exact (apart slot (Or.inr rfl) present rfl).elim
    · rw [update_of_ne here, freeing.used]
      constructor
      · rintro ⟨before, apart⟩
        refine ⟨before, ?_⟩
        rintro other (freed | rfl) present'
        · exact apart other freed present'
        · exact fun same => here same.symm
      · rintro ⟨before, apart⟩
        exact ⟨before, fun other freed => apart other (Or.inl freed)⟩
  · exact freeing.spent.list (mem_union_left _ (BBLOCK_mem isData.2))
  · exact freeing.steady.trans ⟨rfl, rfl, rfl, rfl, rfl, rfl⟩

/-- The loop over the direct blocks. -/
theorem Op.itruncDirect (within : blocks.card ≤ count) (referenced : 0 < (old.entry ip).ref)
    (valid : (old.entry ip).valid = true)
    (next : ∀ addrs after, Freeing sb blocks ip old (· < NDIRECT) addrs after ->
      (∀ index, index < NDIRECT -> addrs index = 0) ->
      addrs NDIRECT = (old.entry ip).node.addrs NDIRECT -> goal () after) :
    Meets () stop (Prog.forEach (itruncDirect sb ip) (List.range NDIRECT)) goal old := by
  have clean := op.settled.clean ip referenced valid
  have typed := op.settled.typed ip referenced valid
  rw [clean] at typed
  refine (meets_forEach_range (fun turn after => ∃ addrs,
    Freeing sb blocks ip old (· < turn) addrs after ∧
    (∀ index, index < turn -> addrs index = 0) ∧
    ∀ index, turn ≤ index -> addrs index = (old.entry ip).node.addrs index) ?_ ?_).mono ?_
  · rintro turn new inside ⟨addrs, freeing, cleared, kept⟩
    have pointer : old.disk.pointer (old.entry ip).inum turn = addrs turn := by
      rw [Volume.pointer_direct typed (by omega), kept turn (le_refl _), clean]
    have field : (new.entry ip).node.addrs turn = addrs turn := by rw [freeing.self]
    simp only [Fs.itruncDirect, meets_do, meets_look]
    rw [field]
    split
    · next absent =>
        rw [meets_pure]
        refine ⟨addrs, freeing.slots ?_, ?_, fun index later => kept index (by omega)⟩
        · intro slot present
          have other : slot ≠ turn := by
            rintro rfl
            exact present (pointer.trans absent)
          omega
        · intro index before
          rcases Nat.lt_succ_iff_lt_or_eq.mp before with earlier | rfl
          · exact cleared index earlier
          · exact absent
    · next present =>
        simp only [meets_do]
        rw [← pointer] at present ⊢
        refine freeing.bfree op fits within present (lt_irrefl turn) ?_
        intro after freed
        rw [meets_change]
        refine ⟨_, (freed.clear turn).slots fun slot _ => by omega, ?_, ?_⟩
        · intro index before
          by_cases here : index = turn
          · rw [here, update_self]
          · rw [update_of_ne here]
            exact cleared index (by omega)
        · intro index later
          rw [update_of_ne (by omega)]
          exact kept index (by omega)
  · refine ⟨_, (Freeing.start op).slots fun slot _ => ?_, fun index impossible => ?_,
      fun _ _ => rfl⟩
    · exact ⟨False.elim, fun impossible => absurd impossible (Nat.not_lt_zero slot)⟩
    · exact absurd impossible (Nat.not_lt_zero index)
  · rintro _ after ⟨addrs, freeing, cleared, kept⟩
    exact next addrs after freeing cleared (kept NDIRECT (le_refl _))

/-- The loop over the entries of the indirect block. -/
theorem Freeing.indirect (within : blocks.card ≤ count)
    (typed : (old.disk.node (old.entry ip).inum).type ≠ 0)
    (freeing : Freeing sb blocks ip old (· < NDIRECT) addrs new) {indirect : Nat}
    (here : old.disk.pointer (old.entry ip).inum NDIRECT = indirect) (present : indirect ≠ 0)
    (next : ∀ after, Freeing sb blocks ip old (· ≠ NDIRECT) addrs after -> goal () after) :
    Meets () stop (Prog.forEach (fun j =>
      if (old.disk.data indirect).word (4 * j) 4 = 0 then pure ()
      else Fs.bfree sb ((old.disk.data indirect).word (4 * j) 4)) (List.range NINDIRECT))
      goal new := by
  have top := here
  rw [Volume.pointer_direct typed (le_refl _)] at top
  have pointer : ∀ j, j < NINDIRECT -> old.disk.pointer (old.entry ip).inum (NDIRECT + 1 + j) =
      (old.disk.data indirect).word (4 * j) 4 := by
    intro j inside
    rw [Volume.pointer_indirect typed (by omega) (by unfold SLOTS; omega) (top ▸ present), top,
      Nat.add_sub_cancel_left]
  refine (meets_forEach_range (fun turn after => Freeing sb blocks ip old
    (fun slot => slot < NDIRECT ∨ NDIRECT < slot ∧ slot < NDIRECT + 1 + turn) addrs after)
    ?_ ?_).mono ?_
  · intro turn after inside freeing
    rw [← pointer turn inside]
    split
    · next absent =>
        rw [meets_pure]
        refine freeing.slots fun slot present' => ?_
        have other : slot ≠ NDIRECT + 1 + turn := by
          rintro rfl
          exact present' absent
        omega
    · next present' =>
        refine freeing.bfree op fits within present' (by omega) fun later freed => ?_
        exact freed.slots fun slot _ => by omega
  · exact freeing.slots fun slot _ => by omega
  · intro _ after freeing
    refine next after (freeing.slots fun slot present' => ?_)
    have inside := Volume.slot_lt present'
    unfold SLOTS at inside
    constructor
    · rintro (low | high) <;> omega
    · intro other
      omega

end

/-- All blocks have been freed. -/
theorem Freeing.truncated (clean : (old.entry ip).node = old.disk.node (old.entry ip).inum)
    (freeing : Freeing sb blocks ip old (fun _ => True) addrs new)
    (cleared : ∀ index, index ≤ NDIRECT -> addrs index = 0) :
    Volume.Truncated (old.entry ip).inum old.disk
      (new.updated sb ip fun node => { node with size := 0 }).disk := by
  have number : (new.entry ip).inum = (old.entry ip).inum := by rw [freeing.self]
  rw [updated_disk, number]
  have node : ((new.disk.setNode (old.entry ip).inum { (new.entry ip).node with size := 0 }).node
      (old.entry ip).inum) = { old.disk.node (old.entry ip).inum with
        addrs := addrs, size := 0 } := by
    rw [Volume.setNode_self, freeing.self, clean]
  refine ⟨?_, ?_, ?_, ?_, ?_, ?_, ?_⟩
  · rw [node]
  · rw [node]
  · rw [node]
  · rw [node]
    exact cleared
  · intro other different
    rw [Volume.setNode_other different, freeing.disk]
  · change new.disk.data = _
    rw [freeing.disk]
  · intro block
    change new.disk.used block = true <-> _
    rw [freeing.used]
    simp only [true_implies]

/-- `itrunc` frees all blocks of the inode. -/
theorem Op.itrunc (op : Op sb past blocks old) (fits : Fits stop sb past count)
    (within : blocks.card ≤ count) (referenced : 0 < (old.entry ip).ref)
    (valid : (old.entry ip).valid = true) (allowed : sb.IBLOCK (old.entry ip).inum ∈ blocks)
    (next : ∀ after, Op sb past blocks after -> Steady old after -> Refreshed ip old after ->
      Volume.Truncated (old.entry ip).inum old.disk after.disk -> goal () after) :
    Meets () stop (itrunc sb ip) goal old := by
  have clean := op.settled.clean ip referenced valid
  have typed := op.settled.typed ip referenced valid
  rw [clean] at typed
  -- What is left to do once all blocks are free.
  have finish : ∀ addrs after, Freeing sb blocks ip old (fun _ => True) addrs after ->
      (∀ index, index ≤ NDIRECT -> addrs index = 0) ->
      Meets () stop (Fs.iupdate sb ip) goal
        (after.edit ip fun node => { node with size := 0 }) := by
    intro addrs after freeing cleared
    have number : (after.entry ip).inum = (old.entry ip).inum := by rw [freeing.self]
    have truncated := freeing.truncated clean cleared
    have refreshed : Refreshed ip old
        (after.updated sb ip fun node => { node with size := 0 }) := by
      refine ⟨?_, ?_, truncated.others⟩
      · rw [updated_disk, number, Volume.setNode_self, updated_entry_self, freeing.self]
      · intro jp different
        rw [updated_entry_other different, freeing.other jp different]
    have steady : Steady old (after.updated sb ip fun node => { node with size := 0 }) :=
      freeing.steady.trans updated_steady
    refine meets_updated (freeing.writable op fits within) ?_
    refine next _ (op.step steady ?_ (truncated.consistent op.consistent) ?_) steady refreshed
      truncated
    · refine refreshed.settled op.settled referenced ?_
      rw [truncated.type]
      exact typed
    · refine freeing.spent.list (mem_union_right _ ?_)
      rw [number]
      exact allowed
  simp only [Fs.itrunc, meets_do]
  refine op.itruncDirect fits within referenced valid fun addrs new freeing cleared top => ?_
  have pointer : old.disk.pointer (old.entry ip).inum NDIRECT = addrs NDIRECT := by
    rw [Volume.pointer_direct typed (le_refl _), top, clean]
  have field : (new.entry ip).node.addrs NDIRECT = addrs NDIRECT := by rw [freeing.self]
  simp only [meets_look]
  rw [field]
  split
  · next absent =>
      simp only [meets_do, meets_change]
      refine finish addrs new (freeing.slots fun slot present => ?_) ?_
      · refine ⟨fun _ => trivial, fun _ => ?_⟩
        by_contra high
        rcases Nat.lt_or_ge NDIRECT slot with indirect | low
        · exact Volume.indirect_present indirect present (pointer.trans absent)
        · have here : slot = NDIRECT := by omega
          exact present (here ▸ pointer.trans absent)
      · intro index inside
        rcases Nat.lt_or_eq_of_le inside with below | rfl
        · exact cleared index below
        · exact absent
  · next present =>
      simp only [meets_do, meets_look, meets_change]
      have data : new.disk.data = old.disk.data := by rw [freeing.disk]
      rw [data]
      refine freeing.indirect op fits within typed pointer present fun middle freed => ?_
      rw [← pointer] at present ⊢
      refine freed.bfree op fits within present (fun different => different rfl) ?_
      intro last all
      refine finish _ _ ((all.clear NDIRECT).slots fun slot _ => ?_) ?_
      · exact ⟨fun _ => trivial, fun _ => ne_or_eq slot NDIRECT⟩
      · intro index inside
        by_cases here : index = NDIRECT
        · rw [here, update_self]
        · rw [update_of_ne here]
          exact cleared index (by omega)

end Truncate

/-! ## `iput` -/

/-- The last reference to an inode without links. -/
def Last (ip : Entry) (state : State) : Prop :=
  (state.entry ip).ref = 1 ∧ (state.entry ip).valid = true ∧ (state.entry ip).node.nlink = 0

/-- What `iput` does: it changes the disk only for the last reference to an inode
without links. -/
structure Put (ip : Entry) (old new : State) : Prop where
  other : forall jp, jp ≠ ip -> new.entry jp = old.entry jp
  inum : forall jp, (new.entry jp).inum = (old.entry jp).inum
  ref : (new.entry ip).ref = (old.entry ip).ref - 1
  steady : Steady old new
  disk : ¬ Last ip old -> new.disk = old.disk

section Put

variable {sb : Superblock} {stop : State -> Prop} {past : List (List Nat)}
  {blocks : Finset Nat} {old new : State} {count : Nat} {p : Pid} {ip : Entry}

theorem Put.held (put : Put ip old new) (different : jp ≠ ip) (held : Held p jp old) :
    Held p jp new :=
  held.of_entry (put.other jp different)

/-- An entry without references does not matter. -/
theorem Settled.forget (settled : Settled old) (referenced : 0 < (old.entry ip).ref)
    (unused : (new.entry ip).ref = 0) (other : ∀ jp, jp ≠ ip -> new.entry jp = old.entry jp)
    (nodes : ∀ inum, inum ≠ (old.entry ip).inum ->
      new.disk.node inum = old.disk.node inum) : Settled new := by
  have elsewhere : ∀ jp, 0 < (new.entry jp).ref -> jp ≠ ip := by
    rintro jp positive rfl
    omega
  refine ⟨?_, ?_, ?_⟩
  · intro jp kp first second
    have left := other jp (elsewhere jp first)
    have right := other kp (elsewhere kp second)
    rw [left] at first ⊢
    rw [right] at second ⊢
    exact settled.unique jp kp first second
  · intro jp positive
    have here := elsewhere jp positive
    rw [other jp here] at positive ⊢
    intro valid
    rw [settled.clean jp positive valid]
    exact (nodes _ fun same => here (settled.unique jp ip positive referenced same)).symm
  · intro jp positive
    have here := elsewhere jp positive
    rw [other jp here] at positive ⊢
    exact settled.typed jp positive

/-- The end of `iput` for an inode that becomes free. -/
def State.discard (state : State) (sb : Superblock) (ip : Entry) : State :=
  (((state.updated sb ip fun node => { node with type := 0 }).invalidate ip).releasesleep ip).drop
    ip

theorem discard_entry_other (different : jp ≠ ip) :
    (old.discard sb ip).entry jp = old.entry jp := by
  simp only [State.discard, State.drop, State.releasesleep, State.invalidate, setInode,
    update_of_ne different, updated_entry_other different]

theorem discard_ref : ((old.discard sb ip).entry ip).ref = (old.entry ip).ref - 1 := by
  simp only [State.discard, State.drop, State.releasesleep, State.invalidate, setInode,
    update_self, updated_entry_self]

theorem discard_inum : ((old.discard sb ip).entry ip).inum = (old.entry ip).inum := by
  simp only [State.discard, State.drop, State.releasesleep, State.invalidate, setInode,
    update_self, updated_entry_self]

theorem discard_disk : (old.discard sb ip).disk = old.disk.setNode (old.entry ip).inum
    { (old.entry ip).node with type := 0 } :=
  @updated_disk sb old ip _

theorem discard_steady : Steady old (old.discard sb ip) := ⟨rfl, rfl, rfl, rfl, rfl, rfl⟩

/-- The entry is given up, so what it says about the inode does not matter. -/
theorem Op.discard (op : Op sb past blocks old) (one : (old.entry ip).ref = 1)
    (allowed : sb.IBLOCK (old.entry ip).inum ∈ blocks)
    (node : (old.entry ip).node = old.disk.node (old.entry ip).inum)
    (empty : ∀ slot, old.disk.pointer (old.entry ip).inum slot = 0)
    (addrs : ∀ index, index ≤ NDIRECT -> (old.disk.node (old.entry ip).inum).addrs index = 0)
    (size : (old.disk.node (old.entry ip).inum).size = 0) :
    Op sb past blocks (old.discard sb ip) := by
  have referenced : 0 < (old.entry ip).ref := by omega
  refine op.step discard_steady ?_ ?_ ?_
  · refine op.settled.forget referenced (by rw [discard_ref, one]) ?_ ?_
    · exact fun jp different => discard_entry_other different
    · intro inum different
      rw [discard_disk, Volume.setNode_other different]
  · rw [discard_disk, node]
    exact op.consistent.setEmpty empty (fun impossible => (impossible rfl).elim) addrs size
  · exact op.spent.list (mem_union_right _ allowed)

/-- `iput` frees the inode if this was its last reference and it has no links.
Its inode block is then listed in the log. -/
theorem Op.iput (op : Op sb past blocks old) (fits : Fits stop sb past count)
    (within : blocks.card ≤ count) (allowed : Last ip old -> sb.IBLOCK (old.entry ip).inum ∈ blocks)
    (next : ∀ after, Op sb past blocks after -> Put ip old after -> goal () after) :
    Meets () stop (iput sb p ip) goal old := by
  simp only [Fs.iput, meets_do, meets_look]
  split
  · next last =>
      obtain ⟨one, valid, unlinked⟩ := last
      have referenced : 0 < (old.entry ip).ref := by omega
      have allowed := allowed ⟨one, valid, unlinked⟩
      split
      · exact op.panics fits within (by decide)
      · have acquired : (old.acquiresleep p ip).entry ip =
            { old.entry ip with lock := some p } := update_self _ _ _
        have begun : Op sb past blocks (old.acquiresleep p ip) := by
          refine op.retable ?_ rfl rfl ⟨rfl, rfl, rfl, rfl, rfl, rfl⟩
          exact op.settled.setInode (fun _ => ⟨referenced, rfl⟩) fun _ _ =>
            ⟨op.settled.clean ip referenced valid, op.settled.typed ip referenced valid⟩
        simp only [meets_do, meets_change]
        refine begun.itrunc fits within (by rwa [acquired]) (by rwa [acquired])
          (by rwa [acquired]) fun middle truncating steady refreshed truncated => ?_
        have self := refreshed.self
        rw [acquired] at self truncated
        have number : (middle.entry ip).inum = (old.entry ip).inum := by rw [self]
        refine meets_updated (truncating.writable fits within) ?_
        refine next (middle.discard sb ip) (truncating.discard ?_ ?_ ?_ ?_ ?_ ?_) ?_
        · rw [self]
          exact one
        · rwa [number]
        · rw [self]
        · rw [number]
          exact truncated.pointer_self
        · rw [number]
          exact truncated.addrs
        · rw [number]
          exact truncated.size
        · have locking : Steady old (old.acquiresleep p ip) := ⟨rfl, rfl, rfl, rfl, rfl, rfl⟩
          have other : ∀ jp, jp ≠ ip -> (middle.discard sb ip).entry jp = old.entry jp := by
            intro jp different
            rw [discard_entry_other different, refreshed.other jp different]
            exact update_of_ne different _ _
          refine ⟨other, fun jp => ?_, ?_, locking.trans (steady.trans discard_steady),
            fun spared => (spared ⟨one, valid, unlinked⟩).elim⟩
          · by_cases here : jp = ip
            · rw [here, discard_inum, number]
            · rw [other jp here]
          · rw [discard_ref, self]
  · simp only [meets_change]
    refine next _ op.drop ⟨fun jp different => update_of_ne different _ _,
      setInode_field Inode.inum (by rfl), ?_, ⟨rfl, rfl, rfl, rfl, rfl, rfl⟩, fun _ => rfl⟩
    rw [State.drop, setInode_entry_self]

end Put

/-! ## `ialloc` -/

section Ialloc

variable {sb : Superblock} {stop : State -> Prop} {past : List (List Nat)}
  {blocks : Finset Nat} {state : State} {count inum : Nat} {type : Int}

/-- The state after an inode has been allocated on the disk. -/
def State.ialloced (state : State) (sb : Superblock) (type : Int) (inum : Nat) : State :=
  (state.setNode inum (Dinode.fresh type)).logBlock (sb.IBLOCK inum)

theorem ialloced_steady : Steady state (state.ialloced sb type inum) :=
  ⟨rfl, rfl, rfl, rfl, rfl, rfl⟩

theorem Op.ialloced (op : Op sb past blocks state) (inside : inum < sb.ninodes)
    (free : (state.disk.node inum).type = 0) :
    Op sb past (insert (sb.IBLOCK inum) blocks) (state.ialloced sb type inum) := by
  have unused : ∀ ip, 0 < (state.entry ip).ref -> (state.entry ip).valid = true ->
      (state.entry ip).inum ≠ inum := by
    rintro ip positive valid rfl
    have typed := op.settled.typed ip positive valid
    rw [op.settled.clean ip positive valid] at typed
    exact typed free
  refine op.step ialloced_steady ⟨op.settled.unique, ?_, op.settled.typed⟩ ?_ ?_
  · intro ip positive valid
    refine (op.settled.clean ip positive valid).trans ?_
    exact (update_of_ne (unused ip positive valid) _ _).symm
  · refine op.consistent.setEmpty ?_ (fun _ => inside) (fun _ _ => rfl) rfl
    intro slot
    exact if_pos free
  · refine (op.spent.mono (subset_insert _ _)).list ?_
    exact mem_union_right _ (mem_insert_self _ _)

theorem Op.ialloc (op : Op sb past blocks state) (fits : Fits stop sb past count)
    (within : blocks.card + 1 ≤ count) {goal : Entry -> State -> Prop}
    (next : ∀ inum ip after, Op sb past (insert (sb.IBLOCK inum) blocks) after ->
      Got inum (state.ialloced sb type inum) ip after -> goal ip after) :
    Meets () stop (ialloc sb type) goal state := by
  have card := fun inum => card_insert_le (sb.IBLOCK inum) blocks
  simp only [Fs.ialloc]
  refine (meets_firstSome
    (fun items after => after = state ∧ ∀ inum, inum ∈ items -> inum < sb.ninodes)
    (fun inum after => inum < sb.ninodes ∧ (state.disk.node inum).type = 0 ∧
      after = state.ialloced sb type inum) ?_ ?_).seq ?_
  · rintro inum items after ⟨rfl, range⟩
    have inside := range inum List.mem_cons_self
    simp only [iallocAt, meets_do, meets_look]
    split
    · next free =>
        simp only [meets_do, meets_change]
        have writable := op.writable fits (by omega)
        exact meets_log_write ⟨writable.running, writable.room⟩
          ((meets_pure _).mpr ⟨inside, free, rfl⟩)
    · rw [meets_pure]
      exact ⟨rfl, fun other member => range other (List.mem_cons_of_mem _ member)⟩
  · refine ⟨rfl, fun inum member => ?_⟩
    rw [List.range_eq_range', List.drop_range', List.mem_range'_1] at member
    omega
  · intro result after held
    cases result with
    | none =>
      rcases held with ⟨rfl, _⟩
      exact op.panics fits (by omega) (by decide)
    | some inum =>
      obtain ⟨inside, free, rfl⟩ := held
      exact (op.ialloced inside free).iget fits ((card inum).trans within) (next inum)

end Ialloc

end Fs
end Xv6
