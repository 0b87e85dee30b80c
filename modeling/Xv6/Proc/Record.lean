import Xv6.Param
import Mathlib.Data.List.FinRange

namespace Xv6

/-!
# Process records

The fields of `struct proc` that scheduling, waiting and accounting read or
write, and what the single critical sections of `kernel/proc.c` do to one
record.  Memory, files and saved registers are not part of a record here.

Every function is one assignment sequence of the source on one slot; the
models of the whole table and of the kernel threads are built from them.
-/

/-- An index into `proc[NPROC]`. -/
abbrev Slot := Fin NPROC

inductive ProcState where
  | unused
  | used
  | sleeping
  | runnable
  | running
  | zombie
  deriving DecidableEq, Repr

/-- The addresses on which processes sleep: a process for `wait`, `&ticks`,
the two ends of a pipe, and any other object of the kernel. -/
inductive Chan where
  | proc (slot : Slot)
  | ticks
  | nread (pipe : Nat)
  | nwrite (pipe : Nat)
  | other (address : Nat)
  deriving DecidableEq, Repr

/-- The compile-time choice of the scheduling policy. -/
inductive Build where
  | DEFAULT
  | FCFS
  | SRT
  | CFSD
  deriving DecidableEq, Repr

/-- `struct proc`. -/
structure Proc where
  state : ProcState
  chan : Option Chan
  killed : Bool
  xstate : Int
  pid : Int
  mask : Int
  tickcounter : Int
  priority : Int
  ctime : Int
  ttime : Int
  stime : Int
  retime : Int
  rutime : Int
  averageBursttime : Int
  readyTime : Int
  sleepTime : Int
  parent : Option Slot
  deriving DecidableEq, Repr

namespace Proc

/-- A slot of the zeroed table at boot. -/
def zero : Proc where
  state := .unused
  chan := none
  killed := false
  xstate := 0
  pid := 0
  mask := 0
  tickcounter := 0
  priority := 0
  ctime := 0
  ttime := 0
  stime := 0
  retime := 0
  rutime := 0
  averageBursttime := 0
  readyTime := 0
  sleepTime := 0
  parent := none

/-- The assignments of `allocproc` after `found`.  The field `stime` keeps its
old value: its reset is commented out in the source. -/
def allocated (proc : Proc) (pid : Int) (ticks : Nat) : Proc :=
  { proc with
    pid := pid
    state := .used
    mask := 0
    tickcounter := 0
    priority := NORMAL_PRIORITY
    averageBursttime := QUANTUM * 100
    ctime := int32 ticks
    readyTime := ticks
    rutime := 0 }

/-- `freeproc`.  Again the reset of `stime` is commented out. -/
def freed (proc : Proc) : Proc :=
  { proc with
    pid := 0
    parent := none
    chan := none
    killed := false
    xstate := 0
    ctime := 0
    readyTime := 0
    ttime := 0
    retime := 0
    rutime := 0
    averageBursttime := 0
    state := .unused }

/-- What `fork` copies into the child before it drops the child's lock. -/
def forked (child parent : Proc) : Proc :=
  { child with
    mask := parent.mask
    priority := parent.priority
    tickcounter := 0
    averageBursttime := QUANTUM * 100 }

/-- The last critical section of `fork`. -/
def published (child : Proc) (ticks : Nat) : Proc :=
  { child with state := .runnable, readyTime := ticks }

/-- The body of the loop of the first `update_clock_ticks`. -/
def ticked (proc : Proc) : Proc :=
  match proc.state with
  | .sleeping => { proc with stime := int32 (proc.stime + 1) }
  | .running =>
    { proc with
      tickcounter := int32 (proc.tickcounter + 1)
      rutime := int32 (proc.rutime + 1) }
  | .runnable => { proc with retime := int32 (proc.retime + 1) }
  | _ => proc

/-- The assignments of `wakeup` and `kill` to a sleeper. -/
def awakened (proc : Proc) (ticks : Nat) : Proc :=
  { proc with state := .runnable, readyTime := ticks }

/-- The body of the loop of `wakeup`. -/
def wakeup (proc : Proc) (chan : Chan) (ticks : Nat) : Proc :=
  if proc.state = .sleeping ∧ proc.chan = some chan then proc.awakened ticks else proc

/-- The body of the loop of `kill` at a slot with the right `pid`. -/
def kill (proc : Proc) (ticks : Nat) : Proc :=
  if proc.state = .sleeping then { proc.awakened ticks with killed := true }
  else { proc with killed := true }

/-- What `yield` does before it calls `sched`. -/
def yielded (proc : Proc) (ticks : Nat) : Proc :=
  if proc.state ≠ .runnable then { proc with state := .runnable, readyTime := ticks }
  else proc

/-- What `sleep` does before it calls `sched`. -/
def slept (proc : Proc) (chan : Chan) (ticks : Nat) : Proc :=
  { proc with chan := some chan, sleepTime := ticks, state := .sleeping }

/-- What `exit` does before it calls `sched`. -/
def exited (proc : Proc) (status : Int) : Proc :=
  { proc with xstate := status, state := .zombie }

/-- What `scheduler` does before it switches to the process. -/
def dispatched (proc : Proc) : Proc :=
  { proc with state := .running, tickcounter := 0 }

/-- What `scheduler` does when the process has switched back.  Division of
C `int`s truncates towards zero. -/
def averaged (proc : Proc) : Proc :=
  { proc with
    averageBursttime := int32 (int32 (ALPHA * proc.tickcounter) +
      (int32 ((100 - ALPHA) * proc.averageBursttime)).tdiv 100) }

/-! ## Small facts about the record functions -/

/-- A tick changes only the counter of the state the process is in. -/
theorem ticked_eq (proc : Proc) : ∃ tickcounter stime retime rutime, proc.ticked =
      { proc with
        tickcounter := tickcounter, stime := stime, retime := retime, rutime := rutime } := by
  unfold ticked
  split
  · exact ⟨_, _, _, _, rfl⟩
  · exact ⟨_, _, _, _, rfl⟩
  · exact ⟨_, _, _, _, rfl⟩
  · exact ⟨proc.tickcounter, proc.stime, proc.retime, proc.rutime, rfl⟩

@[simp] theorem ticked_state (proc : Proc) : proc.ticked.state = proc.state := by
  rcases ticked_eq proc with ⟨_, _, _, _, same⟩
  rw [same]

theorem wakeup_cases (proc : Proc) (chan : Chan) (ticks : Nat) : proc.wakeup chan ticks = proc ∨
      proc.state = .sleeping ∧ proc.wakeup chan ticks = proc.awakened ticks := by
  unfold wakeup
  split
  · next asleep => exact Or.inr ⟨asleep.1, rfl⟩
  · exact Or.inl rfl

theorem kill_cases (proc : Proc) (ticks : Nat) : proc.kill ticks = { proc with killed := true } ∨
      proc.state = .sleeping ∧ proc.kill ticks = { proc.awakened ticks with killed := true } := by
  unfold kill
  split
  · next asleep => exact Or.inr ⟨asleep, rfl⟩
  · exact Or.inl rfl

variable {proc : Proc}

theorem wakeup_awake (awake : proc.state ≠ .sleeping) (chan : Chan) (ticks : Nat) :
    proc.wakeup chan ticks = proc := by
  rcases proc.wakeup_cases chan ticks with same | ⟨asleep, _⟩
  · exact same
  · exact (awake asleep).elim

theorem kill_awake (awake : proc.state ≠ .sleeping) (ticks : Nat) :
    proc.kill ticks = { proc with killed := true } := by
  rcases proc.kill_cases ticks with same | ⟨asleep, _⟩
  · exact same
  · exact (awake asleep).elim

/-- A process that gives up the processor was running. -/
theorem yielded_running (running : proc.state = .running) (ticks : Nat) :
    proc.yielded ticks = { proc with state := .runnable, readyTime := ticks } := by
  unfold yielded
  rw [if_pos (by rw [running]; simp)]

end Proc

/-! ## The scans of the scheduler -/

/-- `p->readyTime < minP->readyTime`. -/
def fcfsBefore (proc minP : Proc) : Bool := proc.readyTime < minP.readyTime

/-- `p->average_bursttime < minP->average_bursttime`. -/
def srtBefore (proc minP : Proc) : Bool := proc.averageBursttime < minP.averageBursttime

def rttUp (proc : Proc) : Int := int32 (proc.rutime * proc.priority)

def rttDown (proc : Proc) : Int := int32 (proc.rutime + proc.stime)

/-- `rtt_up * min_rtt_down < min_rtt_up * rtt_down`. -/
def cfsdBefore (proc minP : Proc) : Bool :=
  int32 (rttUp proc * rttDown minP) < int32 (rttUp minP * rttDown proc)

/-- One iteration of a selecting scan: the candidate is replaced only by a
runnable process that is strictly before it. -/
def scanStep (before : Proc -> Proc -> Bool) (table : Slot -> Proc) (minP : Option Slot)
    (slot : Slot) : Option Slot :=
  if (table slot).state = .runnable then
    match minP with
    | some least => if before (table slot) (table least) then some slot else some least
    | none => some slot
  else minP

/-- The candidate after the whole table has been scanned. -/
def scan (before : Proc -> Proc -> Bool) (table : Slot -> Proc) : Option Slot :=
  (List.finRange NPROC).foldl (scanStep before table) none

end Xv6
