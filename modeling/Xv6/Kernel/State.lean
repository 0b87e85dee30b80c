import Xv6.Proc.Record
import Mathlib.Logic.Function.Basic

namespace Xv6
namespace Kernel

/-!
# The state shared by the kernel threads

Every hart has a scheduler thread and every process a kernel thread.  They
share the process table, the spinlocks, the clock, the pipes and the
`struct cpu` of each hart.

Some fields are bookkeeping: no statement of the kernel reads them.  They say
which thread a hart executes, which locks it holds or spins for, and how far a
thread has come inside a function whose intermediate states matter to the
invariants.  Each is documented where it is declared.
-/

/-- The kernel side of a process, or the scheduler of a hart. -/
inductive Thread (H : Type) where
  | sched (hart : H)
  | proc (slot : Slot)
  deriving DecidableEq

/-- The spinlocks.  Every lock that the functions below do not name is some
`other` one: buffer cache, log, sleep locks, console and drivers. -/
inductive Lock where
  | wait
  | ticks
  | pid
  | kmem
  | ftable
  | itable
  | proc (slot : Slot)
  | pipe (pipe : Nat)
  | other (address : Nat)
  deriving DecidableEq, Repr

/-- How far a hart has come with the trap it handles: not in one, entered, or
past the given number of slots in `update_clock_ticks`. -/
inductive Trap where
  | none
  | entered
  | ticking (visited : Nat)
  deriving DecidableEq, Repr

/-- What the system call in which a process is has done so far. -/
structure Call where
  /-- The process has called `exit`. -/
  exiting : Bool
  /-- The pid and the status of the child that `wait` has freed, until it returns. -/
  got : Option (Int × Int)
  /-- What `wait` has copied out to the address of the status. -/
  out : Option Int

def Call.idle : Call := ⟨false, none, none⟩

/-- What `wait` returns is the child it has freed, with its status copied out if
there is an address for it, or else -1. -/
def Delivered (got : Option (Int × Int)) (out : Option Int) (addr : Bool) (value : Int) : Prop :=
  value = -1 ∧ got = none ∧ out = none ∨
    ∃ status, got = some (value, status) ∧ out = if addr then some status else none

/-- `struct cpu` and the interrupt enable bit of the hart. -/
structure Cpu (H : Type) where
  proc : Option Slot
  noff : Nat
  intena : Bool
  sie : Bool
  /-- The thread whose statements the hart executes. -/
  cur : Thread H
  /-- The spinlocks acquired on this hart and not yet released. -/
  held : List Lock
  /-- A `push_off` that no lock accounts for: with the lock on which the hart
  spins, or without one in `myproc` and at the end of `release`. -/
  want : Option (Option Lock)
  /-- The scheduler of the hart is inside its call of `swtch`. -/
  away : Bool
  /-- The process already marked RUNNING that is not yet `c->proc`. -/
  dispatch : Option Slot
  /-- A pid handed out by `allocpid` and not yet stored. -/
  resv : Option Int
  /-- A child has been given to `initproc`, which is still to be woken. -/
  owed : Bool
  trap : Trap
  /-- A timer trap has found the quantum not used up and has not ended. -/
  window : Bool
  /-- The hart executes user code. -/
  user : Bool
  /-- The system call of the process that the hart executes. -/
  call : Call

/-- Bookkeeping for the kernel thread of one slot. -/
structure Task where
  /-- The thread is switched out, or has been switched to and has not resumed. -/
  susp : Bool
  /-- The process whose `fork` is building this one. -/
  owner : Option Slot
  /-- The channel of the call of `sleep` that has released its lock and has
  not been woken since. -/
  doze : Option Chan
  /-- How many calls of `sleep` have released their lock. -/
  naps : Nat
  /-- The variable `intena` of the call of `sched` that has not returned. -/
  saved : Option Bool
  call : Call

/-- `struct pipe` without the bytes. -/
structure Pipe where
  nread : Nat
  nwrite : Nat
  readopen : Bool
  writeopen : Bool
  /-- What `nread` sleepers wait for may have happened since the last
  completed `wakeup` of them. -/
  readersOwed : Bool
  /-- The same for the sleepers on `nwrite`. -/
  writersOwed : Bool
  /-- A `pipewrite` has returned early, with bytes stored since it last called
  `wakeup`. -/
  cut : Bool

def PIPESIZE : Nat := 512

/-- `pi->nread == pi->nwrite`. -/
def Pipe.empty (pipe : Pipe) : Bool := pipe.nread == pipe.nwrite

/-- `pi->nwrite == pi->nread + PIPESIZE`. -/
def Pipe.full (pipe : Pipe) : Bool := pipe.nwrite == uint32 (pipe.nread + PIPESIZE)

/-- What `pipealloc` leaves behind. -/
def Pipe.fresh : Pipe where
  nread := 0
  nwrite := 0
  readopen := true
  writeopen := true
  readersOwed := false
  writersOwed := false
  cut := false

/-- Moments of a run, named by process identifiers. -/
inductive Event (H : Type) where
  | fork (parent child : Int)
  | exit (pid status : Int)
  /-- A `wait` of `parent` has freed `child`, which had exited with `status`. -/
  | reap (parent child status : Int)
  /-- A `wait` has returned `value`; `status` is what it has copied out, to an
  address other than 0 if `addr`. -/
  | waited (pid : Int) (addr : Bool) (value : Int) (status : Option Int)
  /-- A hart finished a timer trap, with or without calling `yield`. -/
  | timer (hart : H) (yielded : Bool)

/-- A completed `wakeup`: its channel, the number of naps of every process
when it began, and the process it ran in. -/
structure Woken where
  chan : Chan
  marks : Slot -> Nat
  self : Option Slot

structure State (H : Type) where
  cpu : H -> Cpu H
  /-- The hart recorded in a taken lock. -/
  lock : Lock -> Option H
  proc : Slot -> Proc
  task : Slot -> Task
  ticks : Nat
  nextpid : Int
  /-- How many pids have been handed out, that of the first process included. -/
  issued : Nat
  pipe : Nat -> Pipe
  /-- The events so far, latest first. -/
  log : List (Event H)
  woken : List Woken
  /-- A test of `release`, `pop_off` or `sched` has failed. -/
  panicked : Bool

/-- The first process takes the first slot and keeps it. -/
def initproc : Slot := 0

variable {H : Type}

namespace Cpu

/-- `push_off` after `old = intr_get()`, at the start of `acquire` or in `myproc`. -/
def pushOff (cpu : Cpu H) (old : Bool) (lock : Option Lock) : Cpu H :=
  { cpu with
    sie := false
    intena := if cpu.noff = 0 then old else cpu.intena
    noff := cpu.noff + 1
    want := some lock }

def popOff (cpu : Cpu H) : Cpu H :=
  { cpu with
    noff := cpu.noff - 1
    sie := if cpu.noff = 1 ∧ cpu.intena = true then true else cpu.sie
    want := none }

/-- The successful test-and-set of `acquire`. -/
def grab (cpu : Cpu H) (lock : Lock) : Cpu H :=
  { cpu with want := none, held := lock :: cpu.held }

/-- `release` up to its `pop_off`. -/
def unlock (cpu : Cpu H) (lock : Lock) : Cpu H :=
  { cpu with held := cpu.held.erase lock, want := some none }

/-- Interrupts are switched on: `intr_on`, or the end of `kerneltrap`. -/
def enable (cpu : Cpu H) : Cpu H :=
  { cpu with sie := true, trap := .none, window := false }

/-- `usertrapret`. -/
def enterUser (cpu : Cpu H) : Cpu H :=
  { cpu with sie := false, user := true, trap := .none, window := false }

/-- The hardware takes a trap, from the kernel or from user code. -/
def trapped (cpu : Cpu H) : Cpu H :=
  { cpu with sie := false, user := false, trap := .entered }

end Cpu

namespace State

variable [DecidableEq H]

def setCpu (state : State H) (hart : H) (cpu : Cpu H) : State H :=
  { state with cpu := Function.update state.cpu hart cpu }

def setLock (state : State H) (lock : Lock) (holder : Option H) : State H :=
  { state with lock := Function.update state.lock lock holder }

def setProc (state : State H) (slot : Slot) (proc : Proc) : State H :=
  { state with proc := Function.update state.proc slot proc }

def setTask (state : State H) (slot : Slot) (task : Task) : State H :=
  { state with task := Function.update state.task slot task }

def setPipe (state : State H) (index : Nat) (pipe : Pipe) : State H :=
  { state with pipe := Function.update state.pipe index pipe }

def note (state : State H) (event : Event H) : State H :=
  { state with log := event :: state.log }

/-- Bookkeeping for the process that the hart executes. -/
def setCall (state : State H) (hart : H) (slot : Slot) (call : Call) : State H :=
  (state.setCpu hart { state.cpu hart with call := call }).setTask slot
    { state.task slot with call := call }

def panic (state : State H) : State H := { state with panicked := true }

/-! ## Spinlocks and traps -/

def pushOff (state : State H) (hart : H) (old : Bool) (lock : Option Lock) : State H :=
  state.setCpu hart ((state.cpu hart).pushOff old lock)

def popOff (state : State H) (hart : H) : State H :=
  state.setCpu hart (state.cpu hart).popOff

def grab (state : State H) (hart : H) (lock : Lock) : State H :=
  (state.setCpu hart ((state.cpu hart).grab lock)).setLock lock (some hart)

def unlock (state : State H) (hart : H) (lock : Lock) : State H :=
  (state.setCpu hart ((state.cpu hart).unlock lock)).setLock lock none

def enable (state : State H) (hart : H) : State H :=
  state.setCpu hart (state.cpu hart).enable

def enterUser (state : State H) (hart : H) : State H :=
  state.setCpu hart (state.cpu hart).enterUser

def trapped (state : State H) (hart : H) : State H :=
  state.setCpu hart (state.cpu hart).trapped

/-- A timer trap found the quantum not used up. -/
def spared (state : State H) (hart : H) : State H :=
  state.setCpu hart { state.cpu hart with window := true }

/-- The end of the handling of a timer interrupt. -/
def timerDone (state : State H) (hart : H) (yielded : Bool) : State H :=
  (state.setCpu hart { state.cpu hart with trap := .none, window := false }).note
    (.timer hart yielded)

/-! ## The clock -/

/-- `ticks++`. -/
def tickStart (state : State H) (hart : H) : State H :=
  { state.setCpu hart { state.cpu hart with trap := .ticking 0 } with
    ticks := uint32 (state.ticks + 1) }

/-- One iteration of `update_clock_ticks`. -/
def tick (state : State H) (hart : H) (slot : Slot) : State H :=
  (state.setCpu hart { state.cpu hart with trap := .ticking (slot.val + 1) }).setProc slot
    (state.proc slot).ticked

/-! ## Switching -/

def markRunning (state : State H) (hart : H) (slot : Slot) : State H :=
  (state.setCpu hart { state.cpu hart with dispatch := some slot }).setProc slot
    { state.proc slot with state := .running }

def clearTicks (state : State H) (slot : Slot) : State H :=
  state.setProc slot { state.proc slot with tickcounter := 0 }

/-- `c->proc = p`. -/
def setCurrent (state : State H) (hart : H) (slot : Slot) : State H :=
  state.setCpu hart { state.cpu hart with proc := some slot, dispatch := none }

/-- `swtch` from the scheduler of a hart to a process. -/
def swtchIn (state : State H) (hart : H) (slot : Slot) : State H :=
  state.setCpu hart { state.cpu hart with cur := .proc slot, away := true }

/-- `swtch` from a process to the scheduler of its hart. -/
def swtchOut (state : State H) (hart : H) (slot : Slot) : State H :=
  (state.setCpu hart { state.cpu hart with
    cur := .sched hart, trap := .none, window := false, call := .idle }).setTask slot
      { state.task slot with susp := true, saved := some (state.cpu hart).intena }

/-- The return of `swtch` in `sched`, with the assignment to `intena`. -/
def resumed (state : State H) (hart : H) (slot : Slot) (intena : Bool) : State H :=
  (state.setCpu hart { state.cpu hart with
    intena := intena, call := (state.task slot).call }).setTask slot
      { state.task slot with susp := false }

/-- The `swtch` to a new thread, which starts in `forkret`. -/
def begun (state : State H) (hart : H) : State H :=
  match (state.cpu hart).proc with
  | some slot => state.resumed hart slot (state.cpu hart).intena
  | none => state

/-- The return of `swtch` in `scheduler`, with the new average. -/
def cameBack (state : State H) (hart : H) (slot : Slot) : State H :=
  (state.setCpu hart { state.cpu hart with away := false }).setProc slot (state.proc slot).averaged

/-- `c->proc = 0`. -/
def clearCurrent (state : State H) (hart : H) : State H :=
  state.setCpu hart { state.cpu hart with proc := none }

/-! ## Sleeping and waking -/

/-- `release(lk)` inside `sleep`, up to its `pop_off`. -/
def doze (state : State H) (hart : H) (slot : Slot) (chan : Chan) (lock : Lock) : State H :=
  (state.unlock hart lock).setTask slot
    { state.task slot with doze := some chan, naps := (state.task slot).naps + 1 }

/-- `p->state = RUNNABLE` in `wakeup` and `kill`. -/
def wake (state : State H) (slot : Slot) : State H :=
  (state.setProc slot { state.proc slot with state := .runnable }).setTask slot
    { state.task slot with doze := none }

/-- `p->readyTime = ticks`. -/
def setReady (state : State H) (slot : Slot) : State H :=
  state.setProc slot { state.proc slot with readyTime := state.ticks }

/-- The end of `wakeup`: what was owed to the sleepers has been delivered. -/
def woke (state : State H) (hart : H) (chan : Chan) (marks : Slot -> Nat) : State H :=
  let settled :=
    match chan with
    | .proc slot =>
      if slot = initproc then state.setCpu hart { state.cpu hart with owed := false }
      else state
    | .nread index => state.setPipe index { state.pipe index with readersOwed := false }
    | .nwrite index => state.setPipe index { state.pipe index with writersOwed := false }
    | .ticks => state
    | .other _ => state
  { settled with woken := ⟨chan, marks, (state.cpu hart).proc⟩ :: state.woken }

/-- The end of `wakeup` writes only what is owed. -/
theorem woke_eq (state : State H) (hart : H) (chan : Chan) (marks : Slot -> Nat) :
    ∃ owed pipes, state.woke hart chan marks =
      { state.setCpu hart { state.cpu hart with owed := owed } with
        pipe := pipes, woken := ⟨chan, marks, (state.cpu hart).proc⟩ :: state.woken } := by
  have still : state.setCpu hart { state.cpu hart with owed := (state.cpu hart).owed } = state := by
    rw [State.setCpu, Function.update_eq_self]
  cases chan with
  | proc slot =>
    simp only [woke]
    split
    · exact ⟨false, state.pipe, rfl⟩
    · exact ⟨_, state.pipe, by rw [still]⟩
  | _ => exact ⟨_, _, by rw [still]; rfl⟩

/-! ## The life of a process -/

def takePid (state : State H) (hart : H) : State H :=
  { state.setCpu hart { state.cpu hart with resv := some state.nextpid } with
    nextpid := int32 (state.nextpid + 1)
    issued := state.issued + 1 }

/-- The assignments of `allocproc`.  The new thread waits to be dispatched. -/
def alloc (state : State H) (hart : H) (slot : Slot) (pid : Int) : State H :=
  ((state.setCpu hart { state.cpu hart with resv := none }).setProc slot
    ((state.proc slot).allocated pid state.ticks)).setTask slot
      { state.task slot with
        susp := true, owner := (state.cpu hart).proc, saved := none, call := .idle }

/-- The assignments of `freeproc`. -/
def free (state : State H) (slot : Slot) : State H :=
  (state.setProc slot (state.proc slot).freed).setTask slot
    { state.task slot with owner := none }

/-- `np->parent = p` in `fork`. -/
def link (state : State H) (child parent : Slot) : State H :=
  (state.setProc child { state.proc child with parent := some parent }).note
    (.fork (state.proc parent).pid (state.proc child).pid)

/-- `np->state = RUNNABLE` in `fork`. -/
def publish (state : State H) (child : Slot) : State H :=
  (state.setProc child { state.proc child with state := .runnable }).setTask child
    { state.task child with owner := none }

/-- `pp->parent = initproc` in `reparent`. -/
def adopt (state : State H) (hart : H) (child : Slot) : State H :=
  (state.setCpu hart { state.cpu hart with owed := true }).setProc child
    { state.proc child with parent := some initproc }

/-- `p->ttime = ticks` at the start of `exit`. -/
def exitCalled (state : State H) (hart : H) (slot : Slot) (status : Int) : State H :=
  ((state.setCall hart slot { (state.task slot).call with exiting := true }).setProc slot
    { state.proc slot with ttime := int32 state.ticks }).note (.exit (state.proc slot).pid status)

/-- The status of a child is copied out. -/
def copyStatus (state : State H) (hart : H) (slot child : Slot) : State H :=
  state.setCall hart slot { (state.task slot).call with out := some (state.proc child).xstate }

/-- `freeproc` in `wait`. -/
def reap (state : State H) (hart : H) (slot child : Slot) : State H :=
  ((state.free child).setCall hart slot { (state.task slot).call with
    got := some ((state.proc child).pid, (state.proc child).xstate) }).note
      (.reap (state.proc slot).pid (state.proc child).pid (state.proc child).xstate)

/-- `p->trapframe->a0` is set to what `wait` has returned. -/
def returned (state : State H) (hart : H) (slot : Slot) (addr : Bool) (value : Int) : State H :=
  (state.setCall hart slot { (state.task slot).call with got := none, out := none }).note
    (.waited (state.proc slot).pid addr value (state.task slot).call.out)

end State

end Kernel
end Xv6
