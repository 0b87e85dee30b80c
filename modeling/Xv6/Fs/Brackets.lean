import Xv6.Fs.Paths

namespace Xv6
namespace Fs

open Conc

/-!
# Between `begin_op` and `end_op`

A system call runs one or more operations.  Between them no operation is running
and the log is empty.  What an operation may write is laid down once for all
operations of a call: either few enough blocks, or anything.
-/

/-- No operation is running. -/
structure Quiet (sb : Superblock) (state : State) : Prop where
  settled : Settled state
  consistent : state.disk.Consistent sb
  idle : state.outstanding = 0
  empty : state.log = []
  alive : state.panicked = none

/-- What holds for every operation of a call: `good` is kept of the committed
transactions, and an operation that can list the blocks in `base` and eight others
stays within what `stop` and `good` allow. -/
structure Regime (sb : Superblock) (stop : State -> Prop) (good : List (List Nat) -> Prop)
    (base : Finset Nat) (count : Nat) : Prop where
  room : base.card + 8 ≤ count
  fits : forall past, good past -> Fits stop sb past count
  commit : forall past blocks log, good past -> Spent sb blocks log -> blocks.card ≤ count ->
    good (log :: past)

section Brackets

variable {sb : Superblock} {stop : State -> Prop} {good : List (List Nat) -> Prop}
  {base blocks : Finset Nat} {count : Nat} {past : List (List Nat)} {state : State} {p : Pid}
  {goal : Unit -> State -> Prop} {after : State}

section

variable (quiet : Quiet sb state)

include quiet

theorem Quiet.calm : Calm sb state.transactions base state where
  settled := quiet.settled
  consistent := quiet.consistent
  spent := by
    rw [quiet.empty]
    exact ⟨List.nodup_nil, fun block member => by cases member⟩
  committed := rfl
  alive := quiet.alive

theorem Quiet.op : Op sb state.transactions base state.beginOp :=
  ⟨quiet.calm.elsewhere rfl rfl rfl rfl rfl, Nat.le_add_left 1 _⟩

/-- Open files and processes do not matter. -/
theorem Quiet.elsewhere (entry : after.entry = state.entry) (disk : after.disk = state.disk)
    (log : after.log = state.log) (outstanding : after.outstanding = state.outstanding)
    (transactions : after.transactions = state.transactions)
    (panicked : after.panicked = state.panicked) : Quiet sb after := by
  have calm : Calm sb state.transactions ∅ after :=
    quiet.calm.elsewhere entry disk log transactions panicked
  exact ⟨calm.settled, calm.consistent, outstanding.trans quiet.idle, log.trans quiet.empty,
    calm.alive⟩

/-- An operation can begin when none is running. -/
theorem Quiet.begin_op
    (next : Op sb state.transactions base state.beginOp -> state.beginOp.outstanding = 1 ->
      goal () state.beginOp) : Meets () stop begin_op goal state := by
  have free : state.mayBegin = true := by
    rw [State.mayBegin, quiet.empty, quiet.idle]
    decide
  simp only [Fs.begin_op, meets_await]
  rw [if_pos free]
  refine next quiet.op ?_
  rw [State.beginOp, quiet.idle]

end

/-- No operation is running, and the committed transactions are good. -/
structure AtRest (sb : Superblock) (good : List (List Nat) -> Prop) (state : State) : Prop where
  quiet : Quiet sb state
  good : good state.transactions

/-- The last operation commits. -/
theorem Op.end_op (op : Op sb past blocks state) (regime : Regime sb stop good base count)
    (before : good past) (within : blocks.card ≤ count) (one : state.outstanding = 1)
    (next : AtRest sb good (state.endOp sb) -> (state.endOp sb).file = state.file ->
      goal () (state.endOp sb)) : Meets () stop (end_op sb) goal state := by
  simp only [Fs.end_op, meets_change]
  have done : state.endOp sb = { state with
      outstanding := 0
      home := Volume.install sb state.log state.disk state.home
      log := []
      transactions := state.log :: state.transactions } := if_pos one
  refine next ⟨?_, ?_⟩ (by rw [done])
  · rw [done]
    exact ⟨⟨op.settled.unique, op.settled.clean, op.settled.typed⟩, op.consistent, rfl, rfl,
      op.alive⟩
  · rw [done]
    change good (state.log :: state.transactions)
    rw [op.committed]
    exact regime.commit past blocks state.log before op.spent within

/-- What a call needs of the file structures: a free one has no type, and an offset
has 32 bits. -/
structure FilesOk (state : State) : Prop where
  closed : forall f, (state.file f).ref = 0 -> (state.file f).type = .fdNone
  offset : forall f, (state.file f).off < 2 ^ 32

theorem FilesOk.same (files : FilesOk state) (same : after.file = state.file) : FilesOk after := by
  refine ⟨?_, ?_⟩ <;> rw [same]
  · exact files.closed
  · exact files.offset

/-- A state in which process `p` can make a call. -/
structure Callable (sb : Superblock) (good : List (List Nat) -> Prop) (base : Finset Nat)
    (p : Pid) (state : State) : Prop extends AtRest sb good state where
  safe : Named state ∨ Everywhere sb base
  cwd : forall ip, (state.proc p).cwd = some ip -> 0 < (state.entry ip).ref
  files : FilesOk state

end Brackets

/-! ## Dropping a locked inode -/

section Drop

variable {sb : Superblock} {stop : State -> Prop} {past : List (List Nat)}
  {blocks : Finset Nat} {state : State} {count : Nat} {p : Pid} {ip : Entry}

theorem Op.iunlockput (op : Op sb past blocks state) (fits : Fits stop sb past count)
    (within : blocks.card ≤ count) (allowed : sb.IBLOCK (state.entry ip).inum ∈ blocks)
    (next : ∀ after, Op sb past blocks after -> Steady state after ->
      Put ip (state.releasesleep ip) after -> goal () after) :
    Meets () stop (iunlockput sb p ip) goal state := by
  simp only [Fs.iunlockput, meets_do]
  refine op.iunlock fits within fun op' => ?_
  refine op'.iput fits within (fun _ => ?_) fun after op'' put => ?_
  · have same := @setInode_field state ip { state.entry ip with lock := none } Nat
      Inode.inum rfl ip
    exact same.symm ▸ allowed
  · exact next after op'' (releasesleep_steady.trans put.steady) put

theorem Put.held_released {jp : Entry} (put : Put ip (state.releasesleep ip) after)
    (different : jp ≠ ip) (held : Held p jp state) : Held p jp after :=
  put.held different (held.of_entry (setInode_entry_other different))

theorem Put.inum_released (put : Put ip (state.releasesleep ip) after) (jp : Entry) :
    (after.entry jp).inum = (state.entry jp).inum :=
  (put.inum jp).trans (setInode_field Inode.inum (by rfl) jp)

end Drop

end Fs
end Xv6
