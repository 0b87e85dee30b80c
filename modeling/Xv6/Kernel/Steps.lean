import Xv6.Kernel.Invariant

namespace Xv6
namespace Kernel

/-!
# What a statement can do

`Act` lists the effects a statement of a running thread can have on the shared
state, each with the circumstances under which the code executes it.  `KStep`
adds the two statements with which a thread resumes after a `swtch`.

Everything below the programs is proved from this list: the invariant, what a
step looks like to other threads, and every property of whole runs.  That the
programs take no other steps is proved once, in the verification of the code.
-/

variable {H : Type}

/-- No lock is held and no work is in progress that other parts of the kernel
would have to wait for. -/
structure Cpu.Quiet (cpu : Cpu H) : Prop where
  held : cpu.held = []
  want : cpu.want = none
  resv : cpu.resv = none
  owed : cpu.owed = false
  dispatch : cpu.dispatch = none
  user : cpu.user = false

/-- A trap that has advanced the counters has also tested the quantum, in the
builds that do so. -/
def Cpu.Settled (build : Build) (cpu : Cpu H) : Prop :=
  build ≠ .FCFS -> forall visited, cpu.trap = .ticking visited -> cpu.window = true

/-- The circumstances of the store to the lock in `release`. -/
structure Droppable (thread : Thread H) (hart : H) (lock : Lock) (state : State H) : Prop where
  member : lock ∈ (state.cpu hart).held
  want : (state.cpu hart).want = none
  dispatch : (state.cpu hart).dispatch = none
  resv : (state.cpu hart).resv = none ∨ ∃ other, other ∈ (state.cpu hart).held.erase lock
  owed : (state.cpu hart).owed = false ∨ lock ≠ .wait ∧ .wait ∈ (state.cpu hart).held
  /-- The lock of the current process is released by that process, which runs. -/
  current : forall slot, lock = .proc slot -> (state.cpu hart).proc = some slot ->
    thread = .proc slot ∧ (state.proc slot).state = .running ∧ (state.task slot).doze = none
  settled : forall pi, lock = .pipe pi -> (state.pipe pi).Settled

/-- What a process has checked before it sleeps on a channel. -/
def SleepReady (state : State H) (slot : Slot) (lock : Lock) : Chan -> Prop
  | .proc parent => parent = slot ∧ lock = .wait ∧
      forall child, (state.proc child).parent = some slot -> (state.proc child).state ≠ .zombie
  | .ticks => lock = .ticks
  | .nread pi => lock = .pipe pi ∧
      (state.pipe pi).empty = true ∧ (state.pipe pi).writeopen = true
  | .nwrite pi => lock = .pipe pi ∧
      (state.pipe pi).full = true ∧ (state.pipe pi).readopen = true
  | .other _ => True

/-- The updates of a pipe under its lock. -/
inductive PipeStep (pipe : Pipe) : Pipe -> Prop where
  | store (room : pipe.full = false) :
      PipeStep pipe { pipe with nwrite := uint32 (pipe.nwrite + 1), readersOwed := true }
  | take (data : pipe.empty = false) :
      PipeStep pipe { pipe with nread := uint32 (pipe.nread + 1), writersOwed := true }
  | closeWrite : PipeStep pipe { pipe with writeopen := false, readersOwed := true }
  | closeRead : PipeStep pipe { pipe with readopen := false, writersOwed := true }
  | cut : PipeStep pipe { pipe with cut := true }

/-- Updates of a record that leave everything the invariants speak about. -/
def Inert (before after : Proc) : Prop :=
  after = { before with
    mask := after.mask, priority := after.priority, killed := after.killed,
    ttime := after.ttime, readyTime := after.readyTime, sleepTime := after.sleepTime }

/-- What a completed `wakeup` has achieved: a process that still sleeps on the
channel does so since after the start, and on a channel with a lock of its
own, which the caller holds, nobody sleeps. -/
structure AllAwake (hart : H) (chan : Chan) (marks : Slot -> Nat) (state : State H) : Prop where
  past : forall slot, marks slot ≤ (state.task slot).naps
  later : forall slot, (state.cpu hart).proc ≠ some slot ->
    (state.task slot).doze = some chan -> marks slot < (state.task slot).naps
  nobody : forall lock, guardOf chan = some lock -> lock ∈ (state.cpu hart).held ∧
    forall slot, (state.task slot).doze ≠ some chan

variable [DecidableEq H]

inductive Act (build : Build) (thread : Thread H) (hart : H) (state : State H) :
    State H -> Prop where
  | want (old : Bool) (lock : Option Lock) (free : (state.cpu hart).want = none)
      (saw : (state.cpu hart).noff = 0 -> old = (state.cpu hart).sie)
      (spare : (state.cpu hart).window = false)
      (below : forall own, lock = some own ->
        forall other, other ∈ (state.cpu hart).held -> Below other own) :
      Act build thread hart state (state.pushOff hart old lock)
  | popOff (pushed : (state.cpu hart).want = some none)
      (idle : (state.cpu hart).held = [] -> (state.cpu hart).resv = none ∧
        (state.cpu hart).owed = false ∧ (state.cpu hart).dispatch = none) :
      Act build thread hart state (state.popOff hart)
  | grab (lock : Lock) (wants : (state.cpu hart).want = some (some lock))
      (free : state.lock lock = none) :
      Act build thread hart state (state.grab hart lock)
  | drop (lock : Lock) (ready : Droppable thread hart lock state) :
      Act build thread hart state (state.unlock hart lock)
  | doze (slot : Slot) (chan : Chan) (lock : Lock) (self : thread = .proc slot)
      (mine : .proc slot ∈ (state.cpu hart).held) (different : lock ≠ .proc slot)
      (ready : Droppable thread hart lock state)
      (running : (state.proc slot).state = .running)
      (checked : SleepReady state slot lock chan) :
      Act build thread hart state (state.doze hart slot chan lock)
  | enable (quiet : (state.cpu hart).Quiet) (settled : (state.cpu hart).Settled build) :
      Act build thread hart state (state.enable hart)
  | enterUser (slot : Slot) (self : thread = .proc slot) (quiet : (state.cpu hart).Quiet)
      (settled : (state.cpu hart).Settled build) :
      Act build thread hart state (state.enterUser hart)
  | trapped (taken : (state.cpu hart).sie = true ∨ (state.cpu hart).user = true)
      (unheld : (state.cpu hart).held = []) (free : (state.cpu hart).want = none) :
      Act build thread hart state (state.trapped hart)
  | spared (tests : build ≠ .FCFS) (quiet : (state.cpu hart).Quiet)
      (masked : (state.cpu hart).sie = false)
      (unused : forall slot, (state.cpu hart).proc = some slot ->
        (state.proc slot).state = .running -> (state.proc slot).tickcounter ≠ QUANTUM) :
      Act build thread hart state (state.spared hart)
  | timerDone (yielded : Bool) (quiet : (state.cpu hart).Quiet)
      (masked : (state.cpu hart).sie = false) (settled : (state.cpu hart).Settled build)
      (tested : yielded = false -> (state.cpu hart).window = true) :
      Act build thread hart state (state.timerDone hart yielded)
  | tickStart (held : .ticks ∈ (state.cpu hart).held) (off : (state.cpu hart).intena = false)
      (first : (state.cpu hart).trap = .entered) :
      Act build thread hart state (state.tickStart hart)
  | tick (slot : Slot) (held : .proc slot ∈ (state.cpu hart).held)
      (off : (state.cpu hart).intena = false)
      (cursor : (state.cpu hart).trap = .ticking slot.val)
      (dispatch : (state.cpu hart).dispatch = none)
      (idle : forall other, thread = .sched other -> (state.cpu hart).proc = none) :
      Act build thread hart state (state.tick hart slot)
  | markRunning (slot : Slot) (self : thread = .sched hart)
      (held : .proc slot ∈ (state.cpu hart).held) (want : (state.cpu hart).want = none)
      (idle : (state.cpu hart).proc = none) (none : (state.cpu hart).dispatch = none)
      (runnable : (state.proc slot).state = .runnable) :
      Act build thread hart state (state.markRunning hart slot)
  | clearTicks (slot : Slot) (dispatch : (state.cpu hart).dispatch = some slot) :
      Act build thread hart state (state.clearTicks slot)
  | setCurrent (slot : Slot) (dispatch : (state.cpu hart).dispatch = some slot) :
      Act build thread hart state (state.setCurrent hart slot)
  | swtchIn (slot : Slot) (self : thread = .sched hart)
      (current : (state.cpu hart).proc = some slot) (alone : (state.cpu hart).Parked slot)
      (running : (state.proc slot).state = .running)
      (cleared : (state.proc slot).tickcounter = 0) :
      Act build thread hart state (state.swtchIn hart slot)
  | swtchOut (slot : Slot) (self : thread = .proc slot)
      (held : (state.cpu hart).held = [.proc slot]) (want : (state.cpu hart).want = none)
      (resv : (state.cpu hart).resv = none) (owed : (state.cpu hart).owed = false)
      (dispatch : (state.cpu hart).dispatch = none) (user : (state.cpu hart).user = false)
      (leaves : (state.proc slot).state ≠ .running)
      (sleeps : forall chan, (state.task slot).doze = some chan ->
        (state.proc slot).state = .sleeping ∧ (state.proc slot).chan = some chan) :
      Act build thread hart state (state.swtchOut hart slot)
  | clearCurrent (slot : Slot) (self : thread = .sched hart)
      (current : (state.cpu hart).proc = some slot)
      (leaves : (state.proc slot).state ≠ .running) :
      Act build thread hart state (state.clearCurrent hart)
  | edit (slot : Slot) (proc : Proc) (held : .proc slot ∈ (state.cpu hart).held)
      (inert : Inert (state.proc slot) proc) :
      Act build thread hart state (state.setProc slot proc)
  | fault (slot : Slot) (self : thread = .proc slot) : Act build thread hart state
        (state.setProc slot { state.proc slot with killed := true })
  | setChan (slot : Slot) (chan : Option Chan) (self : thread = .proc slot)
      (held : .proc slot ∈ (state.cpu hart).held)
      (running : (state.proc slot).state = .running) :
      Act build thread hart state (state.setProc slot { state.proc slot with chan := chan })
  | setXstate (slot : Slot) (status : Int) (self : thread = .proc slot)
      (held : .proc slot ∈ (state.cpu hart).held)
      (running : (state.proc slot).state = .running) :
      Act build thread hart state (state.setProc slot { state.proc slot with xstate := status })
  | giveUp (slot : Slot) (self : thread = .proc slot) (held : .proc slot ∈ (state.cpu hart).held)
      (running : (state.proc slot).state = .running) :
      Act build thread hart state (state.setProc slot { state.proc slot with state := .runnable })
  | fallAsleep (slot : Slot) (chan : Chan) (self : thread = .proc slot)
      (held : .proc slot ∈ (state.cpu hart).held)
      (running : (state.proc slot).state = .running)
      (dozes : (state.task slot).doze = some chan)
      (chosen : (state.proc slot).chan = some chan) :
      Act build thread hart state (state.setProc slot { state.proc slot with state := .sleeping })
  | die (slot : Slot) (self : thread = .proc slot) (held : .proc slot ∈ (state.cpu hart).held)
      (family : .wait ∈ (state.cpu hart).held)
      (running : (state.proc slot).state = .running) (mortal : slot ≠ initproc)
      (childless : forall child, (state.proc child).parent ≠ some slot)
      (noticed : forall parent, (state.proc slot).parent = some parent ->
        (state.task parent).doze ≠ some (.proc parent))
      (called : .exit (state.proc slot).pid (state.proc slot).xstate ∈ state.log)
      (empty : (state.cpu hart).call.got = none) :
      Act build thread hart state (state.setProc slot { state.proc slot with state := .zombie })
  | wake (slot : Slot) (held : .proc slot ∈ (state.cpu hart).held)
      (sleeping : (state.proc slot).state = .sleeping) :
      Act build thread hart state (state.wake slot)
  | woke (chan : Chan) (marks : Slot -> Nat) (all : AllAwake hart chan marks state) :
      Act build thread hart state (state.woke hart chan marks)
  | takePid (held : .pid ∈ (state.cpu hart).held) (none : (state.cpu hart).resv = none) :
      Act build thread hart state (state.takePid hart)
  | alloc (slot : Slot) (pid : Int) (self : Slot) (mine : thread = .proc self)
      (different : slot ≠ self) (held : .proc slot ∈ (state.cpu hart).held)
      (free : (state.proc slot).state = .unused) (reserved : (state.cpu hart).resv = some pid) :
      Act build thread hart state (state.alloc hart slot pid)
  | discard (slot self : Slot) (mine : thread = .proc self)
      (held : .proc slot ∈ (state.cpu hart).held)
      (owner : (state.task slot).owner = some self)
      (unlinked : (state.proc slot).parent = none) :
      Act build thread hart state (state.free slot)
  | copyStatus (slot self : Slot) (mine : thread = .proc self) :
      Act build thread hart state (state.copyStatus hart self slot)
  | reap (slot self : Slot) (mine : thread = .proc self) (different : slot ≠ self)
      (held : .proc slot ∈ (state.cpu hart).held) (family : .wait ∈ (state.cpu hart).held)
      (dead : (state.proc slot).state = .zombie)
      (child : (state.proc slot).parent = some self)
      (empty : (state.cpu hart).call.got = none) :
      Act build thread hart state (state.reap hart self slot)
  | returned (self : Slot) (addr : Bool) (value : Int) (mine : thread = .proc self)
      (running : (state.proc self).state = .running)
      (delivers : Delivered (state.cpu hart).call.got (state.cpu hart).call.out addr value) :
      Act build thread hart state (state.returned hart self addr value)
  | copy (slot self : Slot) (mine : thread = .proc self) (held : .proc slot ∈ (state.cpu hart).held)
      (owner : (state.task slot).owner = some self) :
      Act build thread hart state (state.setProc slot ((state.proc slot).forked (state.proc self)))
  | link (slot self : Slot) (mine : thread = .proc self) (family : .wait ∈ (state.cpu hart).held)
      (owner : (state.task slot).owner = some self)
      (unlinked : (state.proc slot).parent = none)
      (running : (state.proc self).state = .running) :
      Act build thread hart state (state.link slot self)
  | publish (slot self : Slot) (mine : thread = .proc self)
      (held : .proc slot ∈ (state.cpu hart).held)
      (owner : (state.task slot).owner = some self)
      (linked : (state.proc slot).parent = some self) :
      Act build thread hart state (state.publish slot)
  | adopt (child slot : Slot) (self : thread = .proc slot) (family : .wait ∈ (state.cpu hart).held)
      (parent : (state.proc child).parent = some slot) (mortal : slot ≠ initproc)
      (status : Int) (called : .exit (state.proc slot).pid status ∈ state.log) :
      Act build thread hart state (state.adopt hart child)
  | exitCalled (slot : Slot) (status : Int) (self : thread = .proc slot)
      (running : (state.proc slot).state = .running)
      (first : (state.cpu hart).call = .idle) :
      Act build thread hart state (state.exitCalled hart slot status)
  | pipe (pi : Nat) (pipe : Pipe) (held : .pipe pi ∈ (state.cpu hart).held)
      (step : PipeStep (state.pipe pi) pipe) :
      Act build thread hart state (state.setPipe pi pipe)

/-- One step of a thread on a hart. -/
inductive KStep (build : Build) (thread : Thread H) (hart : H) (state : State H) :
    State H -> Prop where
  | act {after : State H} (active : Active thread hart state)
      (act : Act build thread hart state after) : KStep build thread hart state after
  | resume (slot : Slot) (intena : Bool) (self : thread = .proc slot)
      (cur : (state.cpu hart).cur = thread) (susp : (state.task slot).susp = true)
      (own : (state.task slot).saved = none ∨ (state.task slot).saved = some intena) :
      KStep build thread hart state (state.resumed hart slot intena)
  | back (slot : Slot) (self : thread = .sched hart) (cur : (state.cpu hart).cur = thread)
      (away : (state.cpu hart).away = true) (current : (state.cpu hart).proc = some slot) :
      KStep build thread hart state (state.cameBack hart slot)

end Kernel
end Xv6
