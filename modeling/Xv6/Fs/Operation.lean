import Xv6.Fs.Consistency

namespace Xv6
namespace Fs

open Conc Function

/-!
# Operations

What holds between the statements of an operation: the volume is consistent, the
inode table agrees with it, and the log lists the bitmap and a known set of other
blocks.  A rule for a routine says how this set can grow.  The rules do not say
that the routine returns; a panic is allowed as long as the log is not longer
than an operation may make it.
-/

/-- The inode table agrees with the disk. -/
structure Settled (state : State) : Prop where
  unique : forall ip jp, 0 < (state.entry ip).ref -> 0 < (state.entry jp).ref ->
    (state.entry ip).inum = (state.entry jp).inum -> ip = jp
  clean : forall ip, 0 < (state.entry ip).ref -> (state.entry ip).valid = true ->
    (state.entry ip).node = state.disk.node (state.entry ip).inum
  typed : forall ip, 0 < (state.entry ip).ref -> (state.entry ip).valid = true ->
    (state.entry ip).node.type ≠ 0

/-- The log lists bitmap blocks and blocks of the given set. -/
structure Spent (sb : Superblock) (blocks : Finset Nat) (log : List Nat) : Prop where
  distinct : log.Nodup
  listed : forall block, block ∈ log -> block ∈ bitmapBlocks sb ∪ blocks

/-- What holds between the statements of a system call. -/
structure Calm (sb : Superblock) (past : List (List Nat)) (blocks : Finset Nat) (state : State) :
    Prop where
  settled : Settled state
  consistent : state.disk.Consistent sb
  spent : Spent sb blocks state.log
  committed : state.transactions = past
  alive : state.panicked = none

/-- A running operation. -/
structure Op (sb : Superblock) (past : List (List Nat)) (blocks : Finset Nat) (state : State) :
    Prop extends Calm sb past blocks state where
  running : 1 ≤ state.outstanding

/-- A run may stop with the bitmap and `count` other blocks in the log, or it
matters only that it does not stop in `bfree`. -/
def Fits (stop : State -> Prop) (sb : Superblock) (past : List (List Nat)) (count : Nat) : Prop :=
  (forall state, state.panicked ≠ some .freeingFreeBlock -> stop state) ∨
  (2 * maps sb + count ≤ MAXOPBLOCKS ∧
    forall state, state.log.length ≤ MAXOPBLOCKS -> state.transactions = past -> stop state)

section Budget

variable {sb : Superblock} {stop : State -> Prop} {past : List (List Nat)} {blocks : Finset Nat}
  {state : State} {count : Nat} {after : State} {more : Finset Nat} {log : List Nat}

theorem Spent.length_le (spent : Spent sb blocks log) : log.length ≤ maps sb + blocks.card := by
  have card := length_le_card spent.distinct spent.listed
  have union := Finset.card_union_le (bitmapBlocks sb) blocks
  have bitmap := card_bitmapBlocks_le sb
  omega

theorem Spent.mono (spent : Spent sb blocks log) (larger : blocks ⊆ more) : Spent sb more log where
  distinct := spent.distinct
  listed := fun block member => Finset.union_subset_union_right larger (spent.listed block member)

theorem Spent.list {block : Nat} (spent : Spent sb blocks log)
    (allowed : block ∈ bitmapBlocks sb ∪ blocks) : Spent sb blocks (State.listBlock log block) where
  distinct := nodup_listBlock spent.distinct
  listed := by
    intro other member
    rcases mem_listBlock.mp member with rfl | before
    · exact allowed
    · exact spent.listed other before

theorem Fits.room (fits : Fits stop sb past count) : Room stop sb (2 * maps sb + count) := by
  rcases fits with tolerant | ⟨bound, _⟩
  · refine Or.inl fun state why => tolerant state ?_
    rw [why]
    decide
  · have roomy := sb.roomy
    refine Or.inr ?_
    unfold logLimit LOGSIZE
    unfold MAXOPBLOCKS at *
    omega

/-- A run may stop while the log is short enough. -/
theorem Fits.stops (fits : Fits stop sb past count) (short : after.log.length ≤ 2 * maps sb + count)
    (committed : after.transactions = past) (elsewhere : after.panicked ≠ some .freeingFreeBlock) :
    stop after := by
  rcases fits with tolerant | ⟨bound, tolerant⟩
  · exact tolerant after elsewhere
  · exact tolerant after (by omega) committed

section

variable (op : Calm sb past blocks state) (fits : Fits stop sb past count)

include op fits

theorem Calm.stops (within : blocks.card ≤ count) (log : after.log = state.log)
    (steady : after.transactions = state.transactions)
    (elsewhere : after.panicked ≠ some .freeingFreeBlock) : stop after := by
  have length := op.spent.length_le
  refine fits.stops ?_ (steady.trans op.committed) elsewhere
  rw [log]
  omega

theorem Calm.blocked (within : blocks.card ≤ count) : stop state := by
  refine op.stops fits within rfl rfl ?_
  rw [op.alive]
  exact fun impossible => nomatch impossible

theorem Calm.panics (within : blocks.card ≤ count) {α : Type} {goal : α -> State -> Prop}
    {why : Panic} (elsewhere : why ≠ .freeingFreeBlock) : Meets () stop (panic why) goal state :=
  (meets_panic why).mpr (op.stops fits within rfl rfl fun same => elsewhere (Option.some.inj same))

end

theorem Op.writable (op : Op sb past blocks state) (fits : Fits stop sb past count)
    (within : blocks.card ≤ count) : Writable stop sb state where
  running := op.running
  room := by
    have length := op.spent.length_le
    exact fits.room.mono (by omega)

theorem Op.mono (op : Op sb past blocks state) (larger : blocks ⊆ more) : Op sb past more state :=
  { op with spent := op.spent.mono larger }

theorem Op.step (op : Op sb past blocks state) (steady : Steady state after)
    (settled : Settled after) (consistent : after.disk.Consistent sb)
    (spent : Spent sb more after.log) : Op sb past more after where
  settled := settled
  consistent := consistent
  spent := spent
  committed := steady.transactions.trans op.committed
  alive := steady.panicked.trans op.alive
  running := steady.outstanding ▸ op.running

/-- A change of the table that keeps it in agreement with the disk. -/
theorem Calm.retable (calm : Calm sb past blocks state) (settled : Settled after)
    (disk : after.disk = state.disk) (log : after.log = state.log) (steady : Steady state after) :
    Calm sb past blocks after where
  settled := settled
  consistent := disk ▸ calm.consistent
  spent := log ▸ calm.spent
  committed := steady.transactions.trans calm.committed
  alive := steady.panicked.trans calm.alive

theorem Op.retable (op : Op sb past blocks state) (settled : Settled after)
    (disk : after.disk = state.disk) (log : after.log = state.log) (steady : Steady state after) :
    Op sb past blocks after :=
  ⟨op.toCalm.retable settled disk log steady, steady.outstanding ▸ op.running⟩

/-- Open files and processes do not matter. -/
theorem Calm.elsewhere (calm : Calm sb past blocks state) (entry : after.entry = state.entry)
    (disk : after.disk = state.disk) (log : after.log = state.log)
    (transactions : after.transactions = state.transactions)
    (panicked : after.panicked = state.panicked) : Calm sb past blocks after where
  settled := by
    refine ⟨?_, ?_, ?_⟩
    · rw [entry]
      exact calm.settled.unique
    · rw [entry, disk]
      exact calm.settled.clean
    · rw [entry]
      exact calm.settled.typed
  consistent := disk ▸ calm.consistent
  spent := log ▸ calm.spent
  committed := transactions.trans calm.committed
  alive := panicked.trans calm.alive

end Budget

/-! ## Referenced and locked inodes -/

/-- Process `p` has a reference to the inode and has locked it. -/
structure Held (p : Pid) (ip : Entry) (state : State) : Prop where
  referenced : 0 < (state.entry ip).ref
  valid : (state.entry ip).valid = true
  locked : (state.entry ip).lock = some p

section Table

variable {sb : Superblock} {stop : State -> Prop} {past : List (List Nat)} {blocks : Finset Nat}
  {state : State} {count : Nat} {p : Pid} {ip : Entry} {goal : Unit -> State -> Prop}
  {inode : Inode}

theorem Held.of_entry (held : Held p ip state) (same : after.entry ip = state.entry ip) :
    Held p ip after := by
  refine ⟨?_, ?_, ?_⟩ <;> rw [same]
  · exact held.referenced
  · exact held.valid
  · exact held.locked

theorem setInode_entry_self : (state.setInode ip inode).entry ip = inode :=
  update_self _ _ _

theorem setInode_entry_other {jp : Entry} (different : jp ≠ ip) :
    (state.setInode ip inode).entry jp = state.entry jp :=
  update_of_ne different _ _

/-- A field that a change of one entry leaves alone. -/
theorem setInode_field {α : Type} (field : Inode -> α) (same : field inode = field (state.entry ip))
    (jp : Entry) : field ((state.setInode ip inode).entry jp) = field (state.entry jp) := by
  by_cases here : jp = ip
  · rw [here, setInode_entry_self, same]
  · rw [setInode_entry_other here]

/-- The volume that the kernel sees through an entry in agreement with the disk
is the disk. -/
theorem seen_of_clean (clean : (state.entry ip).node = state.disk.node (state.entry ip).inum) :
    state.seen ip = state.disk := by
  have same := update_eq_self (state.entry ip).inum state.disk.node
  rw [← clean] at same
  exact congrArg (fun node => { state.disk with node := node }) same

theorem Settled.seen_eq (settled : Settled state) (referenced : 0 < (state.entry ip).ref)
    (valid : (state.entry ip).valid = true) : state.seen ip = state.disk :=
  seen_of_clean (settled.clean ip referenced valid)

/-- A change of one entry that keeps its number. -/
theorem Settled.setInode (settled : Settled state)
    (number : 0 < inode.ref -> 0 < (state.entry ip).ref ∧ inode.inum = (state.entry ip).inum)
    (clean : 0 < inode.ref -> inode.valid = true ->
      inode.node = state.disk.node inode.inum ∧ inode.node.type ≠ 0) :
    Settled (state.setInode ip inode) := by
  have self := @setInode_entry_self state ip inode
  have other := fun jp => @setInode_entry_other state ip inode jp
  refine ⟨?_, ?_, ?_⟩
  · intro jp kp first second same
    by_cases left : jp = ip <;> by_cases right : kp = ip
    · rw [left, right]
    · rw [left, self] at first same
      rw [other kp right] at second same
      obtain ⟨referenced, inum⟩ := number first
      exact left.trans (settled.unique ip kp referenced second (inum.symm.trans same))
    · rw [right, self] at second same
      rw [other jp left] at first same
      obtain ⟨referenced, inum⟩ := number second
      exact (settled.unique jp ip first referenced (same.trans inum)).trans right.symm
    · rw [other jp left] at first same
      rw [other kp right] at second same
      exact settled.unique jp kp first second same
  · intro jp
    by_cases here : jp = ip
    · rw [here, self]
      exact fun referenced valid => (clean referenced valid).1
    · rw [other jp here]
      exact settled.clean jp
  · intro jp
    by_cases here : jp = ip
    · rw [here, self]
      exact fun referenced valid => (clean referenced valid).2
    · rw [other jp here]
      exact settled.typed jp

/-- The state after `ilock`. -/
def State.locked (state : State) (p : Pid) (ip : Entry) : State :=
  state.setInode ip { state.entry ip with
    lock := some p, valid := true, node := state.disk.node (state.entry ip).inum }

theorem locked_entry_self : (state.locked p ip).entry ip = { state.entry ip with
    lock := some p, valid := true, node := state.disk.node (state.entry ip).inum } :=
  update_self _ _ _

theorem locked_entry_other {jp : Entry} (different : jp ≠ ip) :
    (state.locked p ip).entry jp = state.entry jp :=
  update_of_ne different _ _

theorem locked_steady : Steady state (state.locked p ip) := ⟨rfl, rfl, rfl, rfl, rfl, rfl⟩

theorem releasesleep_steady : Steady state (state.releasesleep ip) := ⟨rfl, rfl, rfl, rfl, rfl, rfl⟩

theorem Held.of_locked (referenced : 0 < (state.entry ip).ref) : Held p ip (state.locked p ip) := by
  refine ⟨?_, ?_, ?_⟩ <;> rw [locked_entry_self]
  exact referenced

/-- `ilock` on an entry in agreement with the disk. -/
theorem meets_ilock (clean : 0 < (state.entry ip).ref -> (state.entry ip).valid = true ->
      (state.entry ip).node = state.disk.node (state.entry ip).inum)
    (unused : (state.entry ip).ref < 1 -> stop { state with panicked := some .ilock })
    (waits : (state.entry ip).lock ≠ none -> stop state)
    (untyped : (state.disk.node (state.entry ip).inum).type = 0 ->
      stop { state.locked p ip with panicked := some .ilockNoType })
    (enter : 0 < (state.entry ip).ref -> (state.entry ip).lock = none ->
      ((state.entry ip).valid = true ∨ (state.disk.node (state.entry ip).inum).type ≠ 0) ->
      goal () (state.locked p ip)) :
    Meets () stop (ilock p ip) goal state := by
  simp only [ilock, meets_do, meets_look]
  split
  · next absent => exact unused absent
  · next positive =>
      have referenced : 0 < (state.entry ip).ref := by omega
      simp only [meets_do, meets_await]
      split
      · next free =>
          have unlocked := Option.isNone_iff_eq_none.mp free
          have acquired : (state.acquiresleep p ip).entry ip =
              { state.entry ip with lock := some p } := update_self _ _ _
          simp only [meets_look]
          split
          · next valid =>
              rw [acquired] at valid
              have same : state.acquiresleep p ip = state.locked p ip := by
                rw [State.locked, ← clean referenced valid, ← valid]
                rfl
              simp only [meets_pure]
              rw [same]
              exact enter referenced unlocked (Or.inl valid)
          · simp only [meets_do, meets_change, meets_look]
            have same : (state.acquiresleep p ip).load ip = state.locked p ip := by
              simp only [State.load, acquired, State.locked]
              simp only [State.acquiresleep, State.setInode, update_idem]
            rw [same, locked_entry_self]
            split
            · next free => exact (meets_panic _).mpr (untyped free)
            · next typed => exact enter referenced unlocked (Or.inr typed)
      · next taken =>
          apply waits
          intro unlocked
          exact taken (Option.isNone_iff_eq_none.mpr unlocked)

/-- `ilock` either stops or locks an inode that nobody has locked. -/
theorem Calm.ilock (calm : Calm sb past blocks state) (fits : Fits stop sb past count)
    (within : blocks.card ≤ count)
    (next : Calm sb past blocks (state.locked p ip) -> (state.entry ip).lock = none ->
      Held p ip (state.locked p ip) -> goal () (state.locked p ip)) :
    Meets () stop (ilock p ip) goal state := by
  refine meets_ilock (calm.settled.clean ip) ?_ (fun _ => calm.blocked fits within) ?_ ?_
  · refine fun _ => calm.stops fits within rfl rfl ?_
    intro impossible
    cases impossible
  · refine fun _ => calm.stops fits within rfl rfl ?_
    intro impossible
    cases impossible
  · intro referenced free known
    have typed : (state.disk.node (state.entry ip).inum).type ≠ 0 := by
      rcases known with valid | typed
      · rw [← calm.settled.clean ip referenced valid]
        exact calm.settled.typed ip referenced valid
      · exact typed
    refine next (calm.retable ?_ rfl rfl locked_steady) free (Held.of_locked referenced)
    exact calm.settled.setInode (fun _ => ⟨referenced, rfl⟩) fun _ _ => ⟨rfl, typed⟩

/-- `iunlock` releases the lock that the process holds. -/
theorem Calm.iunlock (calm : Calm sb past blocks state) (fits : Fits stop sb past count)
    (within : blocks.card ≤ count)
    (next : Calm sb past blocks (state.releasesleep ip) -> goal () (state.releasesleep ip)) :
    Meets () stop (iunlock p ip) goal state := by
  simp only [Fs.iunlock, meets_do, meets_look]
  split
  · simp only [meets_change]
    refine next (calm.retable ?_ rfl rfl releasesleep_steady)
    exact calm.settled.setInode (fun referenced => ⟨referenced, rfl⟩) fun referenced valid =>
      ⟨calm.settled.clean ip referenced valid, calm.settled.typed ip referenced valid⟩
  · exact calm.panics fits within (by decide)

section

variable (op : Op sb past blocks state)

include op

theorem Op.ilock (fits : Fits stop sb past count) (within : blocks.card ≤ count)
    (next : Op sb past blocks (state.locked p ip) -> (state.entry ip).lock = none ->
      Held p ip (state.locked p ip) -> goal () (state.locked p ip)) :
    Meets () stop (ilock p ip) goal state :=
  op.toCalm.ilock fits within fun calm => next ⟨calm, op.running⟩

theorem Op.iunlock (fits : Fits stop sb past count) (within : blocks.card ≤ count)
    (next : Op sb past blocks (state.releasesleep ip) -> goal () (state.releasesleep ip)) :
    Meets () stop (iunlock p ip) goal state :=
  op.toCalm.iunlock fits within fun calm => next ⟨calm, op.running⟩

/-- `ip->ref--` keeps the table in agreement with the disk. -/
theorem Op.drop : Op sb past blocks (state.drop ip) := by
  refine op.retable ?_ rfl rfl ⟨rfl, rfl, rfl, rfl, rfl, rfl⟩
  have positive : ∀ {ref : Nat}, 0 < ref - 1 -> 0 < ref := by
    intro ref more
    omega
  exact op.settled.setInode (fun more => ⟨positive more, rfl⟩) fun more valid =>
    ⟨op.settled.clean ip (positive more) valid, op.settled.typed ip (positive more) valid⟩

/-- So does another reference to an inode in the table. -/
theorem Op.hold (referenced : 0 < (state.entry ip).ref) : Op sb past blocks (state.hold ip) := by
  refine op.retable ?_ rfl rfl ⟨rfl, rfl, rfl, rfl, rfl, rfl⟩
  exact op.settled.setInode (fun _ => ⟨referenced, rfl⟩) fun _ valid =>
    ⟨op.settled.clean ip referenced valid, op.settled.typed ip referenced valid⟩

/-- And an inode number that is not in the table yet. -/
theorem Op.recycle {inum : Nat}
    (absent : ∀ jp, 0 < (state.entry jp).ref -> (state.entry jp).inum ≠ inum) :
    Op sb past blocks (state.recycle ip inum) := by
  have self : (state.recycle ip inum).entry ip =
      { state.entry ip with inum := inum, ref := 1, valid := false } := update_self _ _ _
  have other : ∀ jp, jp ≠ ip -> (state.recycle ip inum).entry jp = state.entry jp :=
    fun jp different => update_of_ne different _ _
  refine op.retable ⟨?_, ?_, ?_⟩ rfl rfl ⟨rfl, rfl, rfl, rfl, rfl, rfl⟩
  · intro jp kp first second same
    by_cases left : jp = ip <;> by_cases right : kp = ip
    · rw [left, right]
    · rw [left, self, other kp right] at same
      rw [other kp right] at second
      exact (absent kp second same.symm).elim
    · rw [right, self, other jp left] at same
      rw [other jp left] at first
      exact (absent jp first same).elim
    · rw [other jp left] at first same
      rw [other kp right] at second same
      exact op.settled.unique jp kp first second same
  · intro jp
    by_cases here : jp = ip
    · rw [here, self]
      exact fun _ invalid => nomatch invalid
    · rw [other jp here]
      exact op.settled.clean jp
  · intro jp
    by_cases here : jp = ip
    · rw [here, self]
      exact fun _ invalid => nomatch invalid
    · rw [other jp here]
      exact op.settled.typed jp

/-- What `iget` can do. -/
inductive Got (inum : Nat) (old : State) : Entry -> State -> Prop where
  | found (ip : Entry) : 0 < (old.entry ip).ref -> (old.entry ip).inum = inum ->
      Got inum old ip (old.hold ip)
  | fresh (ip : Entry) : (old.entry ip).ref = 0 ->
      (forall jp, 0 < (old.entry jp).ref -> (old.entry jp).inum ≠ inum) ->
      Got inum old ip (old.recycle ip inum)

theorem Op.iget (fits : Fits stop sb past count) (within : blocks.card ≤ count) {inum : Nat}
    {goal : Entry -> State -> Prop}
    (next : ∀ ip after, Op sb past blocks after -> Got inum state ip after -> goal ip after) :
    Meets () stop (iget inum) goal state := by
  simp only [Fs.iget, meets_do, meets_look]
  cases hit : inTable state inum with
  | some ip =>
    have here := List.find?_some hit
    rw [Bool.and_eq_true, decide_eq_true_eq, beq_iff_eq] at here
    simp only [meets_do, meets_change, meets_pure]
    exact next ip _ (op.hold here.1) (.found ip here.1 here.2)
  | none =>
    have absent : ∀ jp, 0 < (state.entry jp).ref -> (state.entry jp).inum ≠ inum := by
      intro jp referenced same
      have miss := List.find?_eq_none.mp hit jp (List.mem_finRange jp)
      rw [Bool.and_eq_true, decide_eq_true_eq, beq_iff_eq] at miss
      exact miss ⟨referenced, same⟩
    simp only [meets_do, meets_look]
    cases free : emptyEntry state with
    | some ip =>
      have empty := List.find?_some free
      rw [beq_iff_eq] at empty
      simp only [meets_do, meets_change, meets_pure]
      exact next ip _ (op.recycle absent) (.fresh ip empty absent)
    | none => exact op.panics fits within (by decide)

end

end Table

end Fs
end Xv6
