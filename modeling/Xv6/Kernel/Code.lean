import Xv6.Kernel.State
import Xv6.Conc.Machine

namespace Xv6
namespace Kernel

open Conc

/-!
# The kernel's code

The functions of `spinlock.c`, `proc.c`, `trap.c` and `pipe.c`, statement by
statement.  A `push_off` is two steps, as an interrupt can come after its
`intr_get`; what follows it in `acquire` is the successful test-and-set, and a
`release` is the store to the lock and a `pop_off`.  The assignments with which
`allocproc` and `freeproc` fill and clear a record, `ticked` and the fields
`fork` copies are one step each, as they happen under the lock of the slot.  A
panic stops the thread; those of `release`, `pop_off` and `sched` are recorded.

Memory, files and devices enter through the locks they take, the channels they
sleep on and the arbitrary outcome of a call.  `busy` is any such activity of
a system call that is not described here.
-/

/-- The loops, and the code at which a thread is entered. -/
inductive Label where
  | scheduler
  | forkret
  | user
  | kerneltrap
  | busy
  | waitLoop (self : Slot) (addr perf : Bool)
  | sleepLoop (ticks0 : Nat) (n : Nat)
  | writeLoop (self : Slot) (pipe : Nat) (left : Nat) (unsaid : Bool)
  | readLoop (self : Slot) (pipe : Nat) (n : Nat)

variable {H : Type} [DecidableEq H]

abbrev KProg (H : Type) (α : Type) := Prog (State H) (Thread H) H Label α

def slots : List Slot := List.finRange NPROC

/-! ## Spinlocks -/

/-- A statement behind a test that panics if it fails. -/
def orPanic (test : H -> State H -> Bool) (update : H -> State H -> State H) : KProg H Unit :=
  .act (fun hart state =>
      if test hart state then some (true, update hart state) else some (false, state.panic))
    (fun passed => if passed then .ret () else Prog.halt)

/-- The lock is the one for which the caller goes on to spin. -/
def push_off (lock : Option Lock) : KProg H Unit := do
  let old ← Prog.read (fun hart state => (state.cpu hart).sie)
  Prog.modify (fun hart state => state.pushOff hart old lock)

def pop_off : KProg H Unit :=
  orPanic (fun hart state => !(state.cpu hart).sie && decide (1 ≤ (state.cpu hart).noff))
    (fun hart state => state.popOff hart)

/-- The panic on a lock this hart already holds is the same as the wait: the
test-and-set never succeeds. -/
def acquire (lock : Lock) : KProg H Unit := do
  push_off (some lock)
  Prog.await (fun _ state => (state.lock lock).isNone) (fun hart state => state.grab hart lock)

def holding (lock : Lock) (hart : H) (state : State H) : Bool := state.lock lock == some hart

def release (lock : Lock) : KProg H Unit := do
  orPanic (holding lock) (fun hart state => state.unlock hart lock)
  pop_off

/-- A function that takes a lock and gives it back. -/
def touch (lock : Lock) : KProg H Unit := do
  acquire lock
  release lock

def myproc : KProg H (Option Slot) := do
  push_off none
  let p ← Prog.read (fun hart state => (state.cpu hart).proc)
  pop_off
  pure p

/-- `myproc()` where the source goes on to dereference it. -/
def curproc : KProg H Slot := do
  match ← myproc with
  | some slot => pure slot
  | none => Prog.halt

def killed (slot : Slot) : KProg H Bool := Prog.read (fun _ state => (state.proc slot).killed)

/-! ## Giving up the processor -/

def sched : KProg H Unit := do
  let p ← curproc
  orPanic (fun hart state => holding (.proc p) hart state &&
    (state.cpu hart).noff == 1 && (state.proc p).state != .running && !(state.cpu hart).sie)
    (fun _ state => state)
  let intena ← Prog.read (fun hart state => (state.cpu hart).intena)
  Prog.modify (fun hart state => state.swtchOut hart p)
  Prog.modify (fun hart state => state.resumed hart p intena)

def yield : KProg H Unit := do
  let p ← curproc
  acquire (.proc p)
  Prog.onlyIf (← Prog.read (fun _ state => (state.proc p).state != .runnable))
    (Prog.modify (fun _ state => state.setReady p))
  Prog.modify (fun _ state =>
    state.setProc p { state.proc p with state := .runnable })
  sched
  release (.proc p)

def sleep (chan : Chan) (lock : Lock) : KProg H Unit := do
  let p ← curproc
  acquire (.proc p)
  -- `release(lk)`
  orPanic (holding lock) (fun hart state => state.doze hart p chan lock)
  pop_off
  Prog.modify (fun _ state => state.setProc p { state.proc p with chan := some chan })
  Prog.modify (fun _ state =>
    state.setProc p { state.proc p with sleepTime := state.ticks })
  Prog.modify (fun _ state => state.setProc p { state.proc p with state := .sleeping })
  sched
  Prog.modify (fun _ state => state.setProc p { state.proc p with chan := none })
  release (.proc p)
  acquire lock

def wakeupVisit (chan : Chan) (p : Slot) : KProg H Unit := do
  if (← myproc) = some p then
    pure ()
  else
    acquire (.proc p)
    Prog.onlyIf (← Prog.read (fun _ state =>
        (state.proc p).state == .sleeping && (state.proc p).chan == some chan)) do
      Prog.modify (fun _ state => state.wake p)
      Prog.modify (fun _ state => state.setReady p)
    release (.proc p)

def wakeup (chan : Chan) : KProg H Unit := do
  let marks ← Prog.read (fun _ state slot => (state.task slot).naps)
  Prog.forEach (wakeupVisit chan) slots
  Prog.modify (fun hart state => state.woke hart chan marks)

/-! ## Requests on other processes -/

def killVisit (pid : Int) (p : Slot) : KProg H (Option Unit) := do
  acquire (.proc p)
  if ← Prog.read (fun _ state => (state.proc p).pid == pid) then
    Prog.modify (fun _ state => state.setProc p { state.proc p with killed := true })
    Prog.onlyIf (← Prog.read (fun _ state => (state.proc p).state == .sleeping)) do
      Prog.modify (fun _ state => state.wake p)
      Prog.modify (fun _ state => state.setReady p)
    release (.proc p)
    pure (some ())
  else
    release (.proc p)
    pure none

def kill (pid : Int) : KProg H Int := do
  match ← Prog.firstSome (killVisit pid) slots with
  | some () => pure 0
  | none => pure (-1)

def traceVisit (mask pid : Int) (p : Slot) : KProg H Unit := do
  acquire (.proc p)
  Prog.onlyIf (← Prog.read (fun _ state => (state.proc p).pid == pid))
    (Prog.modify (fun _ state => state.setProc p { state.proc p with mask := mask }))
  release (.proc p)

def trace (mask pid : Int) : KProg H Int := do
  Prog.forEach (traceVisit mask pid) slots
  pure 0

def set_priority (prio : Int) : KProg H Int := do
  if prio ≠ TEST_HIGH_PRIORITY ∧ prio ≠ HIGH_PRIORITY ∧ prio ≠ NORMAL_PRIORITY ∧
      prio ≠ LOW_PRIORITY ∧ prio ≠ TEST_LOW_PRIORITY then
    pure (-1)
  else
    let p ← curproc
    acquire (.proc p)
    Prog.modify (fun _ state => state.setProc p { state.proc p with priority := prio })
    release (.proc p)
    pure 0

/-! ## Creating a process -/

/-- Some number of calls of `kalloc` or `kfree`. -/
def kmems : KProg H Unit := do
  let count ← Prog.any Nat
  Prog.forEach (fun _ => touch .kmem) (List.replicate count ())

def allocpid : KProg H Int := do
  acquire .pid
  let pid ← Prog.read (fun _ state => state.nextpid)
  Prog.modify (fun hart state => state.takePid hart)
  release .pid
  pure pid

/-- The bookkeeping for a child that is freed in `wait` names its parent. -/
def freeproc (p : Slot) (reaper : Option Slot) : KProg H Unit := do
  kmems
  Prog.modify (fun hart state =>
    match reaper with
    | some self => state.reap hart self p
    | none => state.free p)

def findUnused (p : Slot) : KProg H (Option Slot) := do
  acquire (.proc p)
  if ← Prog.read (fun _ state => (state.proc p).state == .unused) then
    pure (some p)
  else
    release (.proc p)
    pure none

def allocproc : KProg H (Option Slot) := do
  match ← Prog.firstSome findUnused slots with
  | none => pure none
  | some p =>
    let pid ← allocpid
    Prog.modify (fun hart state => state.alloc hart p pid)
    kmems
    if ← Prog.any Bool then
      Prog.spawn (.proc p) .forkret (.ret ())
      pure (some p)
    else
      freeproc p none
      release (.proc p)
      pure none

def fork : KProg H Int := do
  let p ← curproc
  match ← allocproc with
  | none => pure (-1)
  | some np =>
    -- `uvmcopy`
    kmems
    if ← Prog.any Bool then
      Prog.modify (fun _ state =>
        state.setProc np ((state.proc np).forked (state.proc p)))
      Prog.forEach (fun _ => touch .ftable) (List.replicate (← Prog.any Nat) ())
      touch .itable
      let pid ← Prog.read (fun _ state => (state.proc np).pid)
      release (.proc np)
      acquire .wait
      Prog.modify (fun _ state => state.link np p)
      release .wait
      acquire (.proc np)
      Prog.modify (fun _ state => state.publish np)
      Prog.modify (fun _ state => state.setReady np)
      release (.proc np)
      pure pid
    else
      freeproc np none
      release (.proc np)
      pure (-1)

/-! ## Pipes -/

/-- Close one end and wake those who wait at the other. -/
def closeEnd (pi : Nat) : Bool -> KProg H Unit
  | true => do
    Prog.modify (fun _ state => state.setPipe pi
      { state.pipe pi with writeopen := false, readersOwed := true })
    wakeup (.nread pi)
  | false => do
    Prog.modify (fun _ state => state.setPipe pi
      { state.pipe pi with readopen := false, writersOwed := true })
    wakeup (.nwrite pi)

def pipeclose (pi : Nat) (writable : Bool) : KProg H Unit := do
  acquire (.pipe pi)
  closeEnd pi writable
  if ← Prog.read (fun _ state =>
      !(state.pipe pi).readopen && !(state.pipe pi).writeopen) then
    release (.pipe pi)
    touch .kmem
  else
    release (.pipe pi)

/-- The loop of `pipewrite` with `left` bytes to go.  The bookkeeping `unsaid`
says whether it has stored bytes since it last called `wakeup`. -/
def writeLoop (self : Slot) (pi left : Nat) (unsaid : Bool) : KProg H Int := do
  if left = 0 then
    wakeup (.nread pi)
    release (.pipe pi)
    pure 0
  else if (← Prog.read (fun _ state => !(state.pipe pi).readopen)) || (← killed self) then
    Prog.onlyIf unsaid
      (Prog.modify (fun _ state => state.setPipe pi { state.pipe pi with cut := true }))
    release (.pipe pi)
    pure (-1)
  else if ← Prog.read (fun _ state => (state.pipe pi).full) then
    wakeup (.nread pi)
    sleep (.nwrite pi) (.pipe pi)
    Prog.invoke (.writeLoop self pi left false)
  else if ← Prog.any Bool then
    Prog.modify (fun _ state => state.setPipe pi { state.pipe pi with
      nwrite := uint32 ((state.pipe pi).nwrite + 1), readersOwed := true })
    Prog.invoke (.writeLoop self pi (left - 1) true)
  else
    -- `copyin` failed
    wakeup (.nread pi)
    release (.pipe pi)
    pure 0

def pipewrite (pi n : Nat) : KProg H Int := do
  let p ← curproc
  acquire (.pipe pi)
  Prog.invoke (.writeLoop p pi n false)

/-- The loop of `piperead` that copies at most `n` bytes out. -/
def readBytes (pi n : Nat) : KProg H (Option Unit) :=
  Prog.firstSome (fun _ => do
    if ← Prog.read (fun _ state => (state.pipe pi).empty) then
      pure (some ())
    else
      Prog.modify (fun _ state => state.setPipe pi { state.pipe pi with
        nread := uint32 ((state.pipe pi).nread + 1), writersOwed := true })
      -- `copyout` may fail
      if ← Prog.any Bool then pure none else pure (some ())) (List.replicate n ())

/-- The loop of `piperead` that waits for data, and what follows it. -/
def readLoop (self : Slot) (pi n : Nat) : KProg H Int := do
  if ← Prog.read (fun _ state => (state.pipe pi).empty && (state.pipe pi).writeopen) then
    if ← killed self then
      release (.pipe pi)
      pure (-1)
    else
      sleep (.nread pi) (.pipe pi)
      Prog.invoke (.readLoop self pi n)
  else
    let _ ← readBytes pi n
    wakeup (.nwrite pi)
    release (.pipe pi)
    pure 0

def piperead (pi n : Nat) : KProg H Int := do
  let p ← curproc
  acquire (.pipe pi)
  Prog.invoke (.readLoop p pi n)

/-! ## Other kernel activity -/

/-- One step of activity outside the functions modelled here. -/
inductive Activity where
  | done
  | leaf (lock : Lock)
  /-- `iput` looks at a sleep lock under `itable.lock`. -/
  | nested (address : Nat)
  | sleeps (address chan : Nat)
  | wakes (address chan : Nat)

def busy : KProg H Int := do
  match ← Prog.any Activity with
  | .done => pure 0
  | .leaf lock =>
    Prog.onlyIf (lock = .kmem ∨ lock = .ftable ∨ lock = .itable) (touch lock)
    Prog.invoke .busy
  | .nested address =>
    acquire .itable
    touch (.other address)
    release .itable
    Prog.invoke .busy
  | .sleeps address chan =>
    acquire (.other address)
    sleep (.other chan) (.other address)
    release (.other address)
    Prog.invoke .busy
  | .wakes address chan =>
    acquire (.other address)
    wakeup (.other chan)
    release (.other address)
    Prog.invoke .busy

/-- What `fileclose` finds: the file stays open, or its last reference was to
a pipe or to an inode. -/
inductive Closing where
  | shared
  | pipe (pi : Nat) (writable : Bool)
  | inode

def fileclose : KProg H Unit := do
  touch .ftable
  match ← Prog.any Closing with
  | .shared => pure ()
  | .pipe pi writable => pipeclose pi writable
  | .inode => let _ ← Prog.invoke .busy

/-! ## Exit and wait -/

def reparentVisit (p pp : Slot) : KProg H Unit := do
  Prog.onlyIf (← Prog.read (fun _ state => (state.proc pp).parent == some p)) do
    Prog.modify (fun hart state => state.adopt hart pp)
    wakeup (.proc initproc)

def reparent (p : Slot) : KProg H Unit := Prog.forEach (reparentVisit p) slots

/-- `wakeup(p->parent)`; nobody sleeps on the null address. -/
def wakeupParent : Option Slot -> KProg H Unit
  | some parent => wakeup (.proc parent)
  | none => pure ()

def exit (status : Int) : KProg H Unit := do
  let p ← curproc
  Prog.modify (fun hart state => state.exitCalled hart p status)
  if p = initproc then
    Prog.halt
  else
    Prog.forEach (fun _ => fileclose) (List.replicate (← Prog.any Nat) ())
    -- `begin_op`, `iput` and `end_op`
    let _ ← Prog.invoke .busy
    acquire .wait
    reparent p
    wakeupParent (← Prog.read (fun _ state => (state.proc p).parent))
    acquire (.proc p)
    Prog.modify (fun _ state => state.setProc p { state.proc p with xstate := status })
    Prog.modify (fun _ state => state.setProc p { state.proc p with state := .zombie })
    release .wait
    sched
    Prog.halt

/-- One iteration of the scan of `wait_extension`: the value to return, if the
scan ends here.  A failed copy of the `perf` structure, which returns with
both locks held, stops the process. -/
def waitVisit (p : Slot) (addr perf : Bool) (np : Slot) : KProg H (Option Int) := do
  if ← Prog.read (fun _ state => (state.proc np).parent == some p) then
    acquire (.proc np)
    if ← Prog.read (fun _ state => (state.proc np).state == .zombie) then
      let pid ← Prog.read (fun _ state => (state.proc np).pid)
      if addr && (← Prog.any Bool) then
        release (.proc np)
        release .wait
        pure (some (-1))
      else
        Prog.onlyIf addr (Prog.modify (fun hart state => state.copyStatus hart p np))
        if perf && (← Prog.any Bool) then
          Prog.halt
        else
          freeproc np (some p)
          release (.proc np)
          release .wait
          pure (some pid)
    else
      release (.proc np)
      pure none
  else
    pure none

/-- The loop of `wait_extension`.  The table is scanned under `wait_lock`, so
`havekids` is the presence of a child at any moment of the scan. -/
def waitLoop (p : Slot) (addr perf : Bool) : KProg H Int := do
  match ← Prog.firstSome (waitVisit p addr perf) slots with
  | some value => pure value
  | none =>
    let havekids ← Prog.read (fun _ state =>
      slots.any (fun np => (state.proc np).parent == some p))
    if !havekids || (← killed p) then
      release .wait
      pure (-1)
    else
      sleep (.proc p) .wait
      Prog.invoke (.waitLoop p addr perf)

/-- `wait` is the case without `perf`, `wait_stat` the case with it. -/
def wait_extension (addr perf : Bool) : KProg H Int := do
  let p ← curproc
  acquire .wait
  Prog.invoke (.waitLoop p addr perf)

/-! ## The clock -/

def tickVisit (p : Slot) : KProg H Unit := do
  acquire (.proc p)
  Prog.modify (fun hart state => state.tick hart p)
  release (.proc p)

def update_clock_ticks : KProg H Unit := Prog.forEach tickVisit slots

def clockintr : KProg H Unit := do
  acquire .ticks
  Prog.modify (fun hart state => state.tickStart hart)
  update_clock_ticks
  wakeup .ticks
  release .ticks

/-- The loop of `sys_sleep`. -/
def sleepLoop (ticks0 n : Nat) : KProg H Int := do
  if ← Prog.read (fun _ state => decide (uint32 (state.ticks + 2 ^ 32 - ticks0) < n)) then
    let p ← curproc
    if ← killed p then
      release .ticks
      pure (-1)
    else
      sleep .ticks .ticks
      Prog.invoke (.sleepLoop ticks0 n)
  else
    release .ticks
    pure 0

def sys_sleep (n : Nat) : KProg H Int := do
  acquire .ticks
  let ticks0 ← Prog.read (fun _ state => state.ticks)
  Prog.invoke (.sleepLoop ticks0 n)

/-! ## Traps -/

inductive Syscall where
  | fork
  | exit (status : Int)
  | wait (addr perf : Bool)
  | kill (pid : Int)
  | trace (mask pid : Int)
  | set_priority (prio : Int)
  | sleep (n : Nat)
  | uptime
  | pipewrite (pi n : Nat)
  | piperead (pi n : Nat)
  | close
  | other

/-- The value that a call returns matters here for `wait` only. -/
def syscall (call : Syscall) : KProg H Unit := do
  let p ← curproc
  match call with
  | .fork => let _ ← fork
  | .exit status => exit status
  | .wait addr perf =>
    let value ← wait_extension addr perf
    Prog.modify (fun hart state => state.returned hart p addr value)
  | .kill pid => let _ ← kill pid
  | .trace mask pid => let _ ← trace mask pid
  | .set_priority prio => let _ ← set_priority prio
  | .sleep n => let _ ← sys_sleep n
  | .uptime => touch .ticks
  | .pipewrite pi n => let _ ← pipewrite pi n
  | .piperead pi n => let _ ← piperead pi n
  | .close => fileclose
  | .other => let _ ← Prog.invoke .busy

/-- The interrupts `devintr` knows: the timer, and a device whose driver wakes
some sleeper under some lock. -/
inductive Irq where
  | timer
  | device (address chan : Nat)

/-- `devintr` returns 2. -/
def Irq.isTimer : Irq -> Bool
  | .timer => true
  | .device _ _ => false

inductive Cause where
  | syscall (call : Syscall)
  | irq (irq : Irq)
  | fault

structure Setting (H : Type) where
  hart0 : H
  build : Build

variable (setting : Setting H)

def devintr : Irq -> KProg H Unit
  | .timer => do
    Prog.onlyIf (← Prog.read (fun hart _ => decide (hart = setting.hart0))) clockintr
  | .device address chan => do
    acquire (.other address)
    wakeup (.other chan)
    release (.other address)

/-- A condition on the quantum, evaluated in one step.  The bookkeeping
records a negative outcome. -/
def quantumTest (test : H -> State H -> Bool) : KProg H Bool :=
  .act (fun hart state =>
    if test hart state then some (true, state) else some (false, state.spared hart)) .ret

/-- The part of `usertrap` and `kerneltrap` that is compiled unless the build
is FCFS. -/
def preempt (test : H -> State H -> Bool) : KProg H Unit := do
  if setting.build = .FCFS then
    pure ()
  else
    let full ← quantumTest test
    Prog.onlyIf full yield
    Prog.modify (fun hart state => state.timerDone hart full)

/-- `myproc()->tickcounter == QUANTUM`. -/
def userFull (hart : H) (state : State H) : Bool :=
  match (state.cpu hart).proc with
  | some p => (state.proc p).tickcounter == QUANTUM
  | none => false

/-- `myproc() != 0 && myproc()->state == RUNNING && myproc()->tickcounter == QUANTUM`. -/
def kernelFull (hart : H) (state : State H) : Bool :=
  match (state.cpu hart).proc with
  | some p => (state.proc p).state == .running && (state.proc p).tickcounter == QUANTUM
  | none => false

def usertrapret : KProg H Int := do
  Prog.modify (fun hart state => state.enterUser hart)
  Prog.invoke .user

/-- The end of `usertrap`, from the second test of `p->killed`. -/
def usertrapEnd (p : Slot) (timer : Bool) : KProg H Int := do
  Prog.onlyIf (← killed p) (exit (-1))
  Prog.onlyIf timer (preempt setting userFull)
  usertrapret

/-- User code up to the next trap, and `usertrap`. -/
def user : KProg H Int := do
  let cause ← Prog.any Cause
  Prog.modify (fun hart state => state.trapped hart)
  let p ← curproc
  match cause with
  | .syscall call =>
    Prog.onlyIf (← killed p) (exit (-1))
    Prog.modify (fun hart state => state.enable hart)
    syscall call
    usertrapEnd setting p false
  | .irq irq =>
    devintr setting irq
    usertrapEnd setting p irq.isTimer
  | .fault =>
    Prog.modify (fun _ state => state.setProc p { state.proc p with killed := true })
    usertrapEnd setting p false

def kerneltrap : KProg H Int := do
  let irq ← Prog.any Irq
  Prog.modify (fun hart state => state.trapped hart)
  devintr setting irq
  Prog.onlyIf irq.isTimer (preempt setting kernelFull)
  Prog.modify (fun hart state => state.enable hart)
  pure 0

def forkret : KProg H Int := do
  Prog.modify (fun hart state => state.begun hart)
  let p ← curproc
  release (.proc p)
  -- `fsinit`, in the first process
  let _ ← Prog.invoke .busy
  usertrapret

/-! ## The scheduler -/

/-- The common end of all four variants: switch to the chosen process and
record its burst when it has switched back. -/
def runProcess (p : Slot) : KProg H Unit := do
  Prog.modify (fun hart state => state.markRunning hart p)
  Prog.modify (fun _ state => state.clearTicks p)
  Prog.modify (fun hart state => state.setCurrent hart p)
  Prog.modify (fun hart state => state.swtchIn hart p)
  Prog.modify (fun hart state => state.cameBack hart p)
  Prog.modify (fun hart state => state.clearCurrent hart)

def runnable (p : Slot) : KProg H Bool :=
  Prog.read (fun _ state => (state.proc p).state == .runnable)

/-- An iteration of the DEFAULT loop. -/
def defaultVisit (p : Slot) : KProg H Unit := do
  acquire (.proc p)
  if ← runnable p then
    runProcess p
    release (.proc p)
  else
    release (.proc p)

/-- An iteration of the loop of the other variants, which keep the lock of the
candidate.  The two products that CFSD caches for the candidate cannot change
while its lock is held. -/
def scanVisit (before : Proc -> Proc -> Bool) (minP : Option Slot) (p : Slot) :
    KProg H (Option Slot) := do
  acquire (.proc p)
  if ← runnable p then
    match minP with
    | none => pure (some p)
    | some least =>
      if ← Prog.read (fun _ state => before (state.proc p) (state.proc least)) then
        release (.proc least)
        pure (some p)
      else
        release (.proc p)
        pure (some least)
  else
    release (.proc p)
    pure minP

def runLeast (before : Proc -> Proc -> Bool) : KProg H Unit := do
  match ← Prog.foldEach (scanVisit before) none slots with
  | none => pure ()
  | some p =>
    runProcess p
    release (.proc p)

def schedulerRound : Build -> KProg H Unit
  | .DEFAULT => Prog.forEach defaultVisit slots
  | .FCFS => runLeast fcfsBefore
  | .SRT => runLeast srtBefore
  | .CFSD => runLeast cfsdBefore

def scheduler : KProg H Int := do
  Prog.modify (fun hart state => state.enable hart)
  schedulerRound setting.build
  Prog.invoke .scheduler

/-! ## The machine -/

def code : Label -> KProg H Int
  | .scheduler => scheduler setting
  | .forkret => forkret
  | .user => user setting
  | .kerneltrap => kerneltrap setting
  | .busy => busy
  | .waitLoop p addr perf => waitLoop p addr perf
  | .sleepLoop ticks0 n => sleepLoop ticks0 n
  | .writeLoop p pi left unsaid => writeLoop p pi left unsaid
  | .readLoop p pi n => readLoop p pi n

/-- In user mode a trap is the next step of the process itself, so kernel
interrupts are taken only where the enable bit is set. -/
def machine : Machine (State H) (Thread H) H Label where
  code := code setting
  runs := fun state thread hart => (state.cpu hart).cur = thread
  interruptible := fun state hart => (state.cpu hart).sie = true
  handler := .kerneltrap

instance (state : State H) (thread : Thread H) (hart : H) :
    Decidable ((machine setting).runs state thread hart) :=
  inferInstanceAs (Decidable ((state.cpu hart).cur = thread))

/-- A hart on its way into `scheduler`. -/
def bootCpu (hart : H) : Cpu H where
  proc := none
  noff := 0
  intena := false
  sie := false
  cur := .sched hart
  held := []
  want := none
  away := false
  dispatch := none
  resv := none
  owed := false
  trap := .none
  window := false
  user := false
  call := .idle

/-- After `userinit` the table holds the first process. -/
def boot : State H where
  cpu := bootCpu
  lock := fun _ => none
  proc := fun slot => if slot = initproc then (Proc.zero.allocated 1 0).yielded 0 else .zero
  task := fun slot => ⟨slot = initproc, none, none, 0, none, .idle⟩
  ticks := 0
  nextpid := 2
  issued := 1
  pipe := fun _ => .fresh
  log := []
  woken := []
  panicked := false

def bootPool : Thread H -> KProg H Unit
  | .sched _ => .call .scheduler (fun _ => .ret ())
  | .proc slot => if slot = initproc then .call .forkret (fun _ => .ret ()) else .ret ()

def start : Config (State H) (Thread H) H Label := (boot, bootPool)

end Kernel
end Xv6
