import Xv6.Conc.Machine
import Xv6.Param
import Mathlib.Data.List.Basic

namespace Xv6
namespace Log

open Conc

/-!
# The redo log of `kernel/log.c`

The model contains the disk, the buffer cache as far as the log relies on it
(`kernel/bio.c`), the in-memory log, and any number of processes that run file
system operations.  One disk block write is one step; a crash may come between
any two steps, keeps the disk and loses everything else.

The cache is indexed by block number.  Which unreferenced buffer `bget`
recycles is left to the environment, and a buffer may also be recycled when
none has to be, so every replacement order of the real cache is covered.
-/

/-- The 32-bit words of one disk block. -/
abbrev Block := Nat -> Nat

abbrev Disk := Nat -> Block

abbrev Proc := Nat

/-- `log.start` and `log.size`, read from the superblock by `initlog`.  The
log has at least its header block. -/
structure Geometry where
  start : Nat
  size : Nat
  size_pos : 0 < size

/-- The header block and the log blocks after it. -/
def Geometry.InArea (geometry : Geometry) (block : Nat) : Prop :=
  geometry.start ≤ block ∧ block < geometry.start + geometry.size

instance (geometry : Geometry) (block : Nat) : Decidable (geometry.InArea block) :=
  inferInstanceAs (Decidable (_ ∧ _))

/-- `struct logheader` in a block: word zero is `n`, word `i + 1` is
`block[i]`.  The list holds the first `n` block numbers. -/
def header (block : Block) : List Nat :=
  (List.range (block 0)).map (fun index => block (index + 1))

/-- The header fields overwritten from the in-memory list.  Words behind the
first `n` block numbers keep what they held. -/
def setHeader (block : Block) (lh : List Nat) : Block
  | 0 => lh.length
  | index + 1 => lh.getD index (block (index + 1))

/-- Who accounts for one unit of a buffer's `refcnt`. -/
inductive Holder where
  | proc (process : Proc)
  | log
  deriving DecidableEq

/-- `struct buf` for one block number.  `data` is `none` while the block is
not cached or not `valid`.  `holders` is ghost state: the references that
`refcnt` counts. -/
structure Buf where
  data : Option Block
  refcnt : Nat
  lock : Option Proc
  holders : List Holder

def Buf.empty : Buf := ⟨none, 0, none, []⟩

/-- One change that an operation makes to a block, in the order of the run. -/
structure Update where
  op : Nat
  block : Nat
  data : Block

/-- One execution of `log_write`: the operation, the block, and what
`log.committing` was at that time. -/
structure LogCall where
  op : Nat
  block : Nat
  committing : Bool

/-- The panics of `begin_op`, `end_op` and `log_write`. -/
inductive Panic where
  | tooBigATransaction
  | logWriteOutsideOfTrans
  | logCommitting
  deriving DecidableEq

/-- The kernel and the disk.  The fields from `ops` on are ghost state: the
processes inside an operation and the number of each one's operation, the
process that commits or recovers, whether its blocks are being installed, which
modified buffer has not been passed to `log_write`, all updates so far and how
many of them the last commit point made durable, the logical contents at that
point, the executions of `log_write` so far, and the blocks of which a buffer
was released when it had been modified and not passed to `log_write`. -/
structure State where
  disk : Disk
  buf : Nat -> Buf
  lock : Option Proc
  outstanding : Nat
  committing : Bool
  lh : List Nat
  ready : Bool
  panicked : Option Panic
  ops : List Proc
  opOf : Proc -> Nat
  nextOp : Nat
  committer : Option Proc
  installing : Bool
  dirty : Nat -> Option Proc
  history : List Update
  stable : Nat
  durable : Disk
  calls : List LogCall
  leaked : List Nat

namespace State

def setBuf (state : State) (block : Nat) (buffer : Buf) : State :=
  { state with buf := Function.update state.buf block buffer }

def setDirty (state : State) (block : Nat) (process : Option Proc) : State :=
  { state with dirty := Function.update state.dirty block process }

/-- The contents a reader sees: the cached copy over the disk. -/
def logical (state : State) (block : Nat) : Block :=
  (state.buf block).data.getD (state.disk block)

end State

/-- What an operation may do next with its buffers. -/
inductive Action where
  | bread (block : Nat)
  | modify (block : Nat) (data : Block)
  | logWrite (block : Nat)
  | brelse (block : Nat)
  | finish

inductive Label where
  | boot
  | process
  | beginLoop
  | opLoop (held : List Nat)
  | idle

abbrev LogProg := Prog State Proc Proc Label

/-! ## Buffers -/

/-- An unreferenced buffer is given to another block. -/
def State.recycle (state : State) (victim : Nat) : State :=
  if (state.buf victim).refcnt = 0 then
    state.setBuf victim { state.buf victim with data := none }
  else state

def State.bref (state : State) (holder : Holder) (block : Nat) : State :=
  state.setBuf block
    { state.buf block with
      refcnt := (state.buf block).refcnt + 1
      holders := holder :: (state.buf block).holders }

def State.bunref (state : State) (holder : Holder) (block : Nat) : State :=
  state.setBuf block
    { state.buf block with
      refcnt := (state.buf block).refcnt - 1
      holders := (state.buf block).holders.erase holder }

def bget (block : Nat) : LogProg Unit := do
  let victim ← Prog.any Nat
  Prog.modify (fun _ state => state.recycle victim)
  Prog.modify (fun process state => state.bref (.proc process) block)
  -- acquiresleep(&b->lock)
  Prog.await (fun _ state => (state.buf block).lock.isNone)
    (fun process state => state.setBuf block { state.buf block with lock := some process })

/-- The buffer is filled from the disk unless it is valid. -/
def State.load (state : State) (block : Nat) : State :=
  state.setBuf block { state.buf block with data := some (state.logical block) }

def bread (block : Nat) : LogProg Unit := do
  bget block
  Prog.modify (fun _ state => state.load block)

/-- `virtio_disk_rw(b, 1)`, the only statement that changes the disk. -/
def State.writeBack (state : State) (block : Nat) : State :=
  { state with
    disk := Function.update state.disk block (state.logical block)
    dirty := Function.update state.dirty block none }

def bwrite (block : Nat) : LogProg Unit :=
  Prog.await (fun process state => (state.buf block).lock = some process)
    (fun _ state => state.writeBack block)

/-- `releasesleep(&b->lock)`. -/
def State.unlockBuf (state : State) (block : Nat) : State :=
  let unlocked := state.setBuf block { state.buf block with lock := none }
  if state.dirty block = none then unlocked
  else { unlocked.setDirty block none with leaked := block :: state.leaked }

def brelse (block : Nat) : LogProg Unit := do
  Prog.await (fun process state => (state.buf block).lock = some process)
    (fun _ state => state.unlockBuf block)
  Prog.modify (fun process state => state.bunref (.proc process) block)

def bpin (block : Nat) : LogProg Unit :=
  Prog.modify (fun _ state => state.bref .log block)

def bunpin (block : Nat) : LogProg Unit :=
  Prog.modify (fun _ state => state.bunref .log block)

/-- Overwrite the data of a buffer the process has locked. -/
def State.fill (state : State) (process : Proc) (block : Nat) (data : Block) : State :=
  (state.setBuf block { state.buf block with data := some data }).setDirty block (some process)

/-! ## The log -/

def acquire : LogProg Unit :=
  Prog.await (fun _ state => state.lock.isNone)
    (fun process state => { state with lock := some process })

def release : LogProg Unit :=
  Prog.modify (fun _ state => { state with lock := none })

/-- `sleep(&log, &log.lock)`: the lock is dropped and taken again.  A wakeup
without cause is allowed, so no order of wakeups is lost. -/
def sleepOnLog : LogProg Unit := do
  release
  acquire

section

variable (geometry : Geometry)

/-- The block of the log that holds the copy of `log.lh.block[tail]`. -/
def Geometry.slot (tail : Nat) : Nat := geometry.start + tail + 1

/-- Copy committed blocks from log to their home location. -/
def installTrans (recovering : Bool) : LogProg Unit := do
  let n ← Prog.read (fun _ state => state.lh.length)
  Prog.forEach (fun tail => do
    bread (geometry.slot tail)
    let home ← Prog.read (fun _ state => state.lh.getD tail 0)
    bread home
    Prog.modify (fun process state =>
      state.fill process home (state.logical (geometry.slot tail)))
    bwrite home
    if recovering = false then
      bunpin home
    brelse (geometry.slot tail)
    brelse home) (List.range n)

/-- Read the log header from disk into the in-memory log header. -/
def readHead : LogProg Unit := do
  bread geometry.start
  Prog.modify (fun _ state => { state with lh := header (state.logical geometry.start) })
  brelse geometry.start

/-- The write of the header block.  With `n > 0` this is the commit point. -/
def State.writeHeadBack (state : State) : State :=
  let written := state.writeBack geometry.start
  if state.lh = [] then written
  else
    { written with
      installing := true
      stable := state.history.length
      durable := state.logical }

/-- Write in-memory log header to disk. -/
def writeHead : LogProg Unit := do
  bread geometry.start
  Prog.modify (fun process state =>
    state.fill process geometry.start (setHeader (state.logical geometry.start) state.lh))
  Prog.await (fun process state => (state.buf geometry.start).lock = some process)
    (fun _ state => state.writeHeadBack geometry)
  brelse geometry.start

def clearHead : LogProg Unit :=
  Prog.modify (fun _ state => { state with lh := [], installing := false })

def recoverFromLog : LogProg Unit := do
  readHead geometry
  installTrans geometry true
  clearHead
  writeHead geometry

/-- Copy modified blocks from cache to log. -/
def writeLog : LogProg Unit := do
  let n ← Prog.read (fun _ state => state.lh.length)
  Prog.forEach (fun tail => do
    bread (geometry.slot tail)
    let home ← Prog.read (fun _ state => state.lh.getD tail 0)
    bread home
    Prog.modify (fun process state =>
      state.fill process (geometry.slot tail) (state.logical home))
    bwrite (geometry.slot tail)
    brelse home
    brelse (geometry.slot tail)) (List.range n)

def commit : LogProg Unit := do
  if (← Prog.read (fun _ state => state.lh.length)) > 0 then
    writeLog geometry
    writeHead geometry
    installTrans geometry false
    clearHead
    writeHead geometry

/-- The state change with which `begin_op` admits an operation. -/
def State.enter (state : State) (process : Proc) : State :=
  { state with
    outstanding := state.outstanding + 1
    ops := process :: state.ops
    opOf := Function.update state.opOf process state.nextOp
    nextOp := state.nextOp + 1 }

/-- The body of the `while(1)` in `begin_op`. -/
def beginLoop : LogProg Int := do
  if ← Prog.read (fun _ state => state.committing) then
    sleepOnLog
    Prog.invoke .beginLoop
  else if (← Prog.read (fun _ state =>
      state.lh.length + (state.outstanding + 1) * MAXOPBLOCKS)) > LOGSIZE then
    sleepOnLog
    Prog.invoke .beginLoop
  else
    Prog.modify (fun process state => state.enter process)
    release
    pure 0

def beginOp : LogProg Unit := do
  acquire
  let _ ← Prog.invoke .beginLoop
  pure ()

def panic (message : Panic) : LogProg Unit := do
  Prog.modify (fun _ state => { state with panicked := some message })
  Prog.halt

def endOp : LogProg Unit := do
  acquire
  Prog.modify (fun process state =>
    { state with
      outstanding := state.outstanding - 1
      ops := state.ops.erase process })
  if ← Prog.read (fun _ state => state.committing) then
    panic .logCommitting
  let doCommit ← Prog.read (fun _ state => state.outstanding == 0)
  if doCommit then
    Prog.modify (fun process state =>
      { state with committing := true, committer := some process })
  release
  if doCommit then
    commit geometry
    acquire
    Prog.modify (fun _ state => { state with committing := false, committer := none })
    release

/-- The append at the end of `log_write`; the block is no longer dirty once it
is in the list. -/
def State.append (state : State) (process : Proc) (block : Nat) : State :=
  { state with
    lh := if block ∈ state.lh then state.lh else state.lh ++ [block]
    dirty := Function.update state.dirty block none
    calls := ⟨state.opOf process, block, state.committing⟩ :: state.calls }

def logWrite (block : Nat) : LogProg Unit := do
  acquire
  if ← Prog.read (fun _ state =>
      decide (state.lh.length ≥ LOGSIZE) || decide (state.lh.length ≥ geometry.size - 1)) then
    panic .tooBigATransaction
  if (← Prog.read (fun _ state => state.outstanding)) < 1 then
    panic .logWriteOutsideOfTrans
  let absorbed ← Prog.read (fun _ state => decide (block ∈ state.lh))
  if absorbed = false then
    bpin block
  Prog.modify (fun process state => state.append process block)
  release

/-! ## Processes -/

/-- An operation modifies a buffer it holds. -/
def State.update (state : State) (process : Proc) (block : Nat) (data : Block) : State :=
  { state.fill process block data with
    history := state.history ++ [⟨state.opOf process, block, data⟩] }

/-- What an operation does between `begin_op` and `end_op`: it may hold any
number of buffers, modify those it holds and pass them to `log_write` or not.
It does not touch the log area. -/
def opLoop (held : List Nat) : LogProg Int := do
  match ← Prog.any Action with
  | .bread block =>
    if block ∈ held then Prog.invoke (.opLoop held)
    else
      bread block
      Prog.invoke (.opLoop (block :: held))
  | .modify block data =>
    if block ∈ held ∧ ¬ geometry.InArea block then
      Prog.modify (fun process state => state.update process block data)
      Prog.invoke (.opLoop held)
    else Prog.invoke (.opLoop held)
  | .logWrite block =>
    if block ∈ held ∧ ¬ geometry.InArea block then
      logWrite geometry block
      Prog.invoke (.opLoop held)
    else Prog.invoke (.opLoop held)
  | .brelse block =>
    if block ∈ held then
      brelse block
      Prog.invoke (.opLoop (held.erase block))
    else Prog.invoke (.opLoop held)
  | .finish =>
    if held = [] then pure 0
    else Prog.invoke (.opLoop held)

/-- A process reads blocks or runs an operation, over and over.  File system
calls start only after recovery. -/
def process : LogProg Int := do
  Prog.await (fun _ state => state.ready) (fun _ state => state)
  match ← Prog.any (Option Nat) with
  | some block =>
    bread block
    brelse block
    Prog.invoke .process
  | none =>
    beginOp
    let _ ← Prog.invoke (.opLoop [])
    endOp geometry
    Prog.invoke .process

/-- The first process runs `fsinit`, hence `initlog`, before anything else. -/
def boot : LogProg Int := do
  recoverFromLog geometry
  Prog.modify (fun _ state => { state with ready := true, committer := none })
  Prog.invoke .process

def code : Label -> LogProg Int
  | .boot => boot geometry
  | .process => process geometry
  | .beginLoop => beginLoop
  | .opLoop held => opLoop geometry held
  | .idle => pure 0

def machine : Machine State Proc Proc Label where
  code := code geometry
  runs := fun _ process place => place = process
  interruptible := fun _ _ => False
  handler := .idle

/-- The state in which the kernel finds itself after a reset.  The disk is all
that is left; the ghost state remembers the updates that are durable. -/
def State.booted (disk : Disk) (opOf : Proc -> Nat) (nextOp : Nat) (history : List Update)
    (durable : Disk) (calls : List LogCall) (leaked : List Nat) : State where
  disk := disk
  buf := fun _ => Buf.empty
  lock := none
  outstanding := 0
  committing := false
  lh := []
  ready := false
  panicked := none
  ops := []
  opOf := opOf
  nextOp := nextOp
  committer := some 0
  installing := true
  dirty := fun _ => none
  history := history
  stable := history.length
  durable := durable
  calls := calls
  leaked := leaked

/-- A crash. -/
def State.reset (state : State) : State :=
  .booted state.disk state.opOf state.nextOp (state.history.take state.stable) state.durable
    state.calls state.leaked

/-- A computer with this disk that has not yet started. -/
def State.init (disk : Disk) : State :=
  .booted disk (fun _ => 0) 0 [] disk [] []

/-- After a reset process `0` boots and every other process waits for it. -/
def bootPool : Proc -> LogProg Unit
  | 0 => .call .boot (fun _ => .ret ())
  | _ + 1 => .call .process (fun _ => .ret ())

/-- One step of some process, or a crash. -/
inductive SysStep : Config State Proc Proc Label -> Config State Proc Proc Label -> Prop where
  | step {before after : Config State Proc Proc Label} (process : Proc)
      (taken : (machine geometry).Step process before after) : SysStep before after
  | crash (before : Config State Proc Proc Label) : SysStep before (before.1.reset, bootPool)

/-- Everything that can happen to a computer that starts with this disk. -/
def Reachable (disk : Disk) (config : Config State Proc Proc Label) : Prop :=
  Relation.ReflTransGen (SysStep geometry) (State.init disk, bootPool) config

end

end Log
end Xv6
