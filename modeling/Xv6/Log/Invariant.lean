import Xv6.Log.Model
import Xv6.Conc.RelyGuarantee

namespace Xv6
namespace Log

open Conc

/-!
# What holds in every state of the log

The disk is read through `recovered`: the contents that a recovery starting
from this disk would install.  The invariant says that these contents are the
logical contents at the last commit point, whatever the kernel was doing,
except in a block of which a modified buffer was released without `log_write`.
Everything else in it explains why the single statements keep that equation:
who may have modified which buffer, and which buffers are pinned.
-/

variable (geometry : Geometry)

/-- The contents of a block after a recovery from this disk. -/
def recovered (disk : Disk) (block : Nat) : Block :=
  if block ∈ header (disk geometry.start) then
    disk (geometry.slot ((header (disk geometry.start)).idxOf block))
  else disk block

/-- The disk contents after a list of updates. -/
def replay (base : Disk) (history : List Update) : Disk :=
  history.foldl (fun disk update => Function.update disk update.block update.data) base

/-- A list of block numbers that a header may hold. -/
structure GoodHeader (blocks : List Nat) : Prop where
  nodup : blocks.Nodup
  outside : forall block, block ∈ blocks -> ¬ geometry.InArea block
  fits : blocks.length ≤ geometry.size - 1

/-- What holds of the buffer that a block has. -/
structure GoodBuf (state : State) (block : Nat) (buffer : Buf) : Prop where
  refcnt : buffer.refcnt = buffer.holders.length
  pin_once : buffer.holders.count .log ≤ 1
  lock_ref : forall process, buffer.lock = some process -> .proc process ∈ buffer.holders
  clean : forall data, block ∉ state.leaked -> buffer.data = some data ->
    state.dirty block = none -> .log ∉ buffer.holders -> data = state.disk block
  dirty : forall process, state.dirty block = some process ->
    buffer.lock = some process ∧
      (process ∈ state.ops ∧ ¬ geometry.InArea block ∨ state.committer = some process)
  pinned_logged : .log ∈ buffer.holders ->
    block ∈ state.lh ∨ ∃ process, state.lock = some process ∧ process ∈ state.ops
  logged_pinned : state.installing = false -> block ∈ state.lh -> .log ∈ buffer.holders

structure Inv (base : Disk) (state : State) : Prop where
  buffer : forall block, GoodBuf geometry state block (state.buf block)
  leaked_outside : forall block, block ∈ state.leaked -> ¬ geometry.InArea block
  outstanding : state.outstanding = state.ops.length
  ops_nodup : state.ops.Nodup
  committing : state.ready = true -> (state.committing = true <-> state.committer ≠ none)
  committer_alone : state.committer ≠ none -> state.ops = []
  lh_good : GoodHeader geometry state.lh
  head_good : GoodHeader geometry (header (state.disk geometry.start))
  idle_empty : state.lock = none -> state.ready = true -> state.committing = false ->
    state.ops = [] -> state.lh = []
  idle_not_installing : state.committer = none -> state.installing = false
  idle_head : state.committer = none -> header (state.disk geometry.start) = []
  crash_safe : forall block, ¬ geometry.InArea block -> block ∉ state.leaked ->
    recovered geometry state.disk block = state.durable block
  current : state.ready = true -> forall block, ¬ geometry.InArea block ->
    block ∉ state.leaked -> state.logical block = replay base state.history block
  committed : forall block, ¬ geometry.InArea block -> block ∉ state.leaked ->
    state.durable block = replay base (state.history.take state.stable) block
  stable_le : state.stable ≤ state.history.length
  down_stable : state.ready = false -> state.stable = state.history.length
  down_committer : state.ready = false -> state.committer ≠ none
  op_fresh : forall process, process ∈ state.ops -> state.opOf process < state.nextOp
  op_inj : forall first second, first ∈ state.ops -> second ∈ state.ops ->
    state.opOf first = state.opOf second -> first = second
  update_fresh : forall update, update ∈ state.history -> update.op < state.nextOp
  stable_inactive : forall update, update ∈ state.history.take state.stable ->
    forall process, process ∈ state.ops -> update.op ≠ state.opOf process
  stable_split : forall early late, early ∈ state.history.take state.stable ->
    late ∈ state.history.drop state.stable -> early.op ≠ late.op

/-- What one statement of a process does to the state, with what the process
knows when it executes it. -/
inductive LStep (process : Proc) (state : State) : State -> Prop where
  | recycle (victim : Nat) : LStep process state (state.recycle victim)
  | bref (block : Nat) : LStep process state (state.bref (.proc process) block)
  | lockBuf (block : Nat) (free : (state.buf block).lock = none)
      (ref : .proc process ∈ (state.buf block).holders) :
      LStep process state (state.setBuf block { state.buf block with lock := some process })
  | load (block : Nat) (held : (state.buf block).lock = some process) :
      LStep process state (state.load block)
  | fill (block : Nat) (data : Block) (held : (state.buf block).lock = some process)
      (mine : state.committer = some process)
      (same : state.ready = true -> ¬ geometry.InArea block -> data = state.logical block) :
      LStep process state (state.fill process block data)
  | writeBack (block : Nat) (held : (state.buf block).lock = some process)
      (mine : state.committer = some process)
      (good : GoodHeader geometry (header ((state.writeBack block).disk geometry.start)))
      (quiet : forall other, ¬ geometry.InArea other ->
        recovered geometry (state.writeBack block).disk other =
          recovered geometry state.disk other) :
      LStep process state (state.writeBack block)
  | commitPoint (held : (state.buf geometry.start).lock = some process)
      (mine : state.committer = some process)
      (ready : state.ready = true)
      (nonempty : state.lh ≠ [])
      (head : header ((state.writeBack geometry.start).disk geometry.start) = state.lh)
      (full : forall other, ¬ geometry.InArea other -> other ∉ state.leaked ->
        recovered geometry (state.writeBack geometry.start).disk other = state.logical other) :
      LStep process state (state.writeHeadBack geometry)
  | unlockBuf (block : Nat) (held : (state.buf block).lock = some process)
      (own : forall marker, state.dirty block = some marker ->
        process ∈ state.ops ∧ ¬ geometry.InArea block) :
      LStep process state (state.unlockBuf block)
  | bunref (block : Nat) (ref : .proc process ∈ (state.buf block).holders)
      (unlocked : (state.buf block).lock ≠ some process) :
      LStep process state (state.bunref (.proc process) block)
  | pin (block : Nat) (locked : state.lock = some process) (active : process ∈ state.ops)
      (once : .log ∉ (state.buf block).holders) :
      LStep process state (state.bref .log block)
  | unpin (block : Nat) (mine : state.committer = some process)
      (installing : state.installing = true)
      (pinned : .log ∈ (state.buf block).holders)
      (written : state.logical block = state.disk block) :
      LStep process state (state.bunref .log block)
  | acquire (free : state.lock = none) : LStep process state { state with lock := some process }
  | release (locked : state.lock = some process)
      (logged : forall block, .log ∈ (state.buf block).holders -> block ∈ state.lh)
      (empty : state.ready = true -> state.committing = false -> state.ops = [] -> state.lh = []) :
      LStep process state { state with lock := none }
  | begin (locked : state.lock = some process) (ready : state.ready = true)
      (quiet : state.committing = false) (new : process ∉ state.ops)
      (logged : forall block, .log ∈ (state.buf block).holders -> block ∈ state.lh)
      (room : state.lh.length + (state.outstanding + 1) * MAXOPBLOCKS ≤ LOGSIZE)
      (empty : state.ops = [] -> state.lh = []) :
      LStep process state (state.enter process)
  | leave (locked : state.lock = some process) (active : process ∈ state.ops)
      (clean : forall block, state.dirty block ≠ some process)
      (logged : forall block, .log ∈ (state.buf block).holders -> block ∈ state.lh) :
      LStep process state
        { state with
          outstanding := state.outstanding - 1
          ops := state.ops.erase process }
  | startCommit (locked : state.lock = some process) (idle : state.committer = none)
      (last : state.ops = []) :
      LStep process state { state with committing := true, committer := some process }
  | append (block : Nat) (locked : state.lock = some process) (active : process ∈ state.ops)
      (held : (state.buf block).lock = some process) (outside : ¬ geometry.InArea block)
      (room : state.lh.length < geometry.size - 1)
      (pinned : .log ∈ (state.buf block).holders) :
      LStep process state (state.append process block)
  | panic (active : process ∈ state.ops)
      (full : LOGSIZE ≤ state.lh.length ∨ geometry.size - 1 ≤ state.lh.length) :
      LStep process state { state with panicked := some .tooBigATransaction }
  | update (block : Nat) (data : Block) (active : process ∈ state.ops)
      (held : (state.buf block).lock = some process) (outside : ¬ geometry.InArea block) :
      LStep process state (state.update process block data)
  | readHead (mine : state.committer = some process) (down : state.ready = false)
      (installing : state.installing = true)
      (same : state.logical geometry.start = state.disk geometry.start)
      (unpinned : forall block, .log ∉ (state.buf block).holders) :
      LStep process state { state with lh := header (state.logical geometry.start) }
  | clearHead (mine : state.committer = some process)
      (unpinned : forall block, .log ∉ (state.buf block).holders) :
      LStep process state { state with lh := [], installing := false }
  | finish (mine : state.committer = some process) (locked : state.lock = some process)
      (ready : state.ready = true) (clear : header (state.disk geometry.start) = [])
      (installed : state.installing = false)
      (undirty : forall block, state.dirty block ≠ some process) :
      LStep process state { state with committing := false, committer := none }
  | ready (mine : state.committer = some process) (down : state.ready = false)
      (clear : header (state.disk geometry.start) = [])
      (installed : state.installing = false)
      (quiet : state.committing = false) (empty : state.lh = [])
      (undirty : forall block, state.dirty block ≠ some process)
      (clean : forall block, block ∉ state.leaked -> state.logical block = state.disk block) :
      LStep process state { state with ready := true, committer := none }

/-- A block whose contents no other process changes under the committer. -/
def State.Tracked (state : State) (block : Nat) : Prop :=
  block ∉ state.leaked ∨ .log ∈ (state.buf block).holders

/-- What a process may rely on while others step. -/
structure Rely (process : Proc) (state now : State) : Prop where
  ops : process ∈ now.ops <-> process ∈ state.ops
  lock : now.lock = some process <-> state.lock = some process
  held : forall block, (now.buf block).lock = some process <-> (state.buf block).lock = some process
  refs : forall block, (now.buf block).holders.count (.proc process) =
    (state.buf block).holders.count (.proc process)
  dirty : forall block, now.dirty block = some process <-> state.dirty block = some process
  committer : now.committer = some process <-> state.committer = some process
  data : forall block, (state.buf block).lock = some process ->
    (now.buf block).data = (state.buf block).data
  ready : state.ready = true -> now.ready = true
  log : state.lock = some process -> now.committing = state.committing ∧
    now.outstanding = state.outstanding ∧ now.ops = state.ops
  quiet_log : state.lock = some process -> state.ready = true -> state.committing = false ->
    now.lh = state.lh ∧ forall block, .log ∈ (now.buf block).holders <->
      .log ∈ (state.buf block).holders
  mine : state.committer = some process -> now.disk = state.disk ∧ now.lh = state.lh ∧
    now.installing = state.installing ∧ now.ready = state.ready ∧
    now.committing = state.committing ∧ now.leaked = state.leaked
  mine_pins : state.committer = some process -> forall block,
    .log ∈ (now.buf block).holders <-> .log ∈ (state.buf block).holders
  mine_logical : state.committer = some process -> forall block, state.Tracked block ->
    now.logical block = state.logical block

def logLogic (base : Disk) (pre : Label -> Proc -> State -> Prop)
    (post : Label -> Proc -> State -> Int -> State -> Prop) :
    Logic State Proc Proc Label where
  inv := Inv geometry base
  rely := Rely
  guar := fun process _ => LStep geometry process
  pre := pre
  post := post

end Log
end Xv6
