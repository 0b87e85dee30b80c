import Xv6.Proc.Record

namespace Xv6
namespace Table

/-!
# The process table between critical sections

One step is one critical section on the process table: what a hart does while
it holds a `p->lock` (or `wait_lock`) without giving it up.  A clock interrupt
and a scan of the scheduler are one step each.  Between steps the harts may
interleave in any way.

A switch to the scheduler belongs to the critical section that ends in it,
because `p->lock` is held from `yield`, `sleep` or `exit` until `scheduler` has
updated the burst estimate and cleared `c->proc`.  In the same way the return
from `sched` belongs to the step that dispatches the process.

The table scans of `kill`, `trace` and `wakeup` visit one slot per step, and
whoever calls them may do so at any time, interrupt handlers included.
-/

variable {H : Type}

/-- The table, the clock and the current process of each hart.  `forking` is
the local variable `np` of a process inside `fork`, with the information
whether `np->parent` has been set. -/
structure State (H : Type) where
  ticks : Nat
  nextpid : Int
  initproc : Option Slot
  proc : Slot -> Proc
  cpu : H -> Option Slot
  forking : Slot -> Option (Slot × Bool)

/-- The kernel before `userinit`. -/
def State.boot : State H where
  ticks := 0
  nextpid := 1
  initproc := none
  proc := fun _ => Proc.zero
  cpu := fun _ => none
  forking := fun _ => none

/-- The critical sections.  A hart names the process that executes them. -/
inductive Event (H : Type) where
  | userinit (slot : Slot)
  | clockintr
  | wakeup (slot : Slot) (chan : Chan)
  | kill (slot : Slot) (pid : Int)
  | trace (slot : Slot) (mask pid : Int)
  | dispatch (hart : H) (slot : Slot)
  | yield (hart : H)
  | sleep (hart : H) (chan : Chan)
  | setPriority (hart : H) (prio : Int)
  | fault (hart : H)
  | allocproc (hart : H) (slot : Slot) (memory : Bool)
  | link (hart : H)
  | publish (hart : H)
  | exitBegin (hart : H)
  | exit (hart : H) (status : Int)
  | wait (hart : H) (slot : Slot)

/-- `struct perf`, in the order in which `wait_extension` copies it out. -/
structure Perf where
  ctime : Int
  ttime : Int
  stime : Int
  retime : Int
  rutime : Int
  averageBursttime : Int
  deriving DecidableEq

def Perf.of (proc : Proc) : Perf where
  ctime := proc.ctime
  ttime := proc.ttime
  stime := proc.stime
  retime := proc.retime
  rutime := proc.rutime
  averageBursttime := proc.averageBursttime

namespace State

def set (state : State H) (slot : Slot) (proc : Proc) : State H :=
  { state with proc := Function.update state.proc slot proc }

variable [DecidableEq H]

def setCpu (state : State H) (hart : H) (slot : Option Slot) : State H :=
  { state with cpu := Function.update state.cpu hart slot }

def setForking (state : State H) (slot : Slot) (child : Option (Slot × Bool)) : State H :=
  { state with forking := Function.update state.forking slot child }

/-- The slot as `allocproc` leaves it; a process number is used up. -/
def alloc (state : State H) (slot : Slot) : State H :=
  { state.set slot ((state.proc slot).allocated state.nextpid state.ticks) with
    nextpid := int32 (state.nextpid + 1) }

/-- The first process.  Nothing else runs before it. -/
def userinit (state : State H) (slot : Slot) : Option (State H) :=
  if state.initproc = none ∧ (state.proc slot).state = .unused then
    let allocated := state.alloc slot
    some
      { allocated.set slot ((allocated.proc slot).yielded state.ticks) with
        initproc := some slot }
  else none

/-- `ticks++`, `update_clock_ticks()` and `wakeup(&ticks)`. -/
def clockintr (state : State H) : State H :=
  let now := uint32 (state.ticks + 1)
  { state with
    ticks := now
    proc := fun slot => (state.proc slot).ticked.wakeup .ticks now }

def wakeup (state : State H) (slot : Slot) (chan : Chan) : State H :=
  state.set slot ((state.proc slot).wakeup chan state.ticks)

def kill (state : State H) (slot : Slot) (pid : Int) : Option (State H) :=
  if (state.proc slot).pid = pid then
    some (state.set slot ((state.proc slot).kill state.ticks))
  else none

def trace (state : State H) (slot : Slot) (mask pid : Int) : Option (State H) :=
  if (state.proc slot).pid = pid then
    some (state.set slot { state.proc slot with mask := mask })
  else none

/-- Which process a free hart may choose.  The round-robin scan of the default
policy can stand anywhere in the table. -/
def Chooses (build : Build) (table : Slot -> Proc) (slot : Slot) : Prop :=
  match build with
  | .DEFAULT => (table slot).state = .runnable
  | .FCFS => scan fcfsBefore table = some slot
  | .SRT => scan srtBefore table = some slot
  | .CFSD => scan cfsdBefore table = some slot

instance (build : Build) (table : Slot -> Proc) (slot : Slot) :
    Decidable (Chooses build table slot) :=
  match build with
  | .DEFAULT => inferInstanceAs (Decidable ((table slot).state = .runnable))
  | .FCFS => inferInstanceAs (Decidable (scan fcfsBefore table = some slot))
  | .SRT => inferInstanceAs (Decidable (scan srtBefore table = some slot))
  | .CFSD => inferInstanceAs (Decidable (scan cfsdBefore table = some slot))

/-- The scan, the switch, and the rest of `sched`'s caller.  A process that
returns into `sleep` clears `chan`; any other process has none. -/
def dispatch (state : State H) (build : Build) (hart : H) (slot : Slot) : Option (State H) :=
  if state.cpu hart = none ∧ Chooses build state.proc slot then
    some ((state.set slot { (state.proc slot).dispatched with chan := none }).setCpu
      hart (some slot))
  else none

/-- The process of `hart` switches to the scheduler with this record. -/
def sched (state : State H) (hart : H) (slot : Slot) (proc : Proc) : State H :=
  (state.set slot proc.averaged).setCpu hart none

def yield (state : State H) (hart : H) : Option (State H) := do
  let slot ← state.cpu hart
  some (state.sched hart slot ((state.proc slot).yielded state.ticks))

def sleep (state : State H) (hart : H) (chan : Chan) : Option (State H) := do
  let slot ← state.cpu hart
  some (state.sched hart slot ((state.proc slot).slept chan state.ticks))

def setPriority (state : State H) (hart : H) (prio : Int) : Option (State H) := do
  let slot ← state.cpu hart
  if prio ∈ [TEST_HIGH_PRIORITY, HIGH_PRIORITY, NORMAL_PRIORITY, LOW_PRIORITY,
      TEST_LOW_PRIORITY] then
    some (state.set slot { state.proc slot with priority := prio })
  else none

/-- An unexpected exception in user mode. -/
def fault (state : State H) (hart : H) : Option (State H) := do
  let slot ← state.cpu hart
  some (state.set slot { state.proc slot with killed := true })

/-- `fork` up to the release of the child's lock.  Without memory the slot is
freed again. -/
def allocproc (state : State H) (hart : H) (slot : Slot) (memory : Bool) : Option (State H) := do
  let parent ← state.cpu hart
  if state.forking parent = none ∧ (state.proc slot).state = .unused then
    let allocated := state.alloc slot
    if memory then
      some ((allocated.set slot ((allocated.proc slot).forked (state.proc parent))).setForking
          parent (some (slot, false)))
    else some (allocated.set slot (allocated.proc slot).freed)
  else none

/-- `np->parent = p`. -/
def link (state : State H) (hart : H) : Option (State H) := do
  let parent ← state.cpu hart
  match state.forking parent with
  | some (slot, false) =>
    some ((state.set slot { state.proc slot with parent := some parent }).setForking
      parent (some (slot, true)))
  | _ => none

/-- `np->state = RUNNABLE`. -/
def publish (state : State H) (hart : H) : Option (State H) := do
  let parent ← state.cpu hart
  match state.forking parent with
  | some (slot, true) =>
    some ((state.set slot ((state.proc slot).published state.ticks)).setForking parent none)
  | _ => none

/-- `p->ttime = ticks` at the beginning of `exit`. -/
def exitBegin (state : State H) (hart : H) : Option (State H) := do
  let slot ← state.cpu hart
  some (state.set slot { state.proc slot with ttime := int32 state.ticks })

/-- `reparent` for the children of one process. -/
def reparent (state : State H) (slot : Slot) : State H :=
  { state with
    proc := fun other =>
      if (state.proc other).parent = some slot then
        { state.proc other with parent := state.initproc }
      else state.proc other }

/-- The end of `exit`. -/
def exit (state : State H) (hart : H) (status : Int) : Option (State H) := do
  let slot ← state.cpu hart
  if state.initproc ≠ some slot ∧ state.forking slot = none then
    let orphaned := state.reparent slot
    some (orphaned.sched hart slot ((orphaned.proc slot).exited status))
  else none

/-- `wait_extension` at an exited child: what is copied out, and the table
afterwards. -/
def waitStat (state : State H) (hart : H) (slot : Slot) : Option (Perf × State H) := do
  let parent ← state.cpu hart
  if (state.proc slot).parent = some parent ∧ (state.proc slot).state = .zombie then
    some (Perf.of (state.proc slot), state.set slot (state.proc slot).freed)
  else none

end State

variable [DecidableEq H]

def step (build : Build) (event : Event H) (state : State H) : Option (State H) :=
  match event with
  | .userinit slot => state.userinit slot
  | .clockintr => some state.clockintr
  | .wakeup slot chan => some (state.wakeup slot chan)
  | .kill slot pid => state.kill slot pid
  | .trace slot mask pid => state.trace slot mask pid
  | .dispatch hart slot => state.dispatch build hart slot
  | .yield hart => state.yield hart
  | .sleep hart chan => state.sleep hart chan
  | .setPriority hart prio => state.setPriority hart prio
  | .fault hart => state.fault hart
  | .allocproc hart slot memory => state.allocproc hart slot memory
  | .link hart => state.link hart
  | .publish hart => state.publish hart
  | .exitBegin hart => state.exitBegin hart
  | .exit hart status => state.exit hart status
  | .wait hart slot => (state.waitStat hart slot).map Prod.snd

/-- The runs of the table, together with what an observer has noted along
them.  The observer sees every step but cannot influence it. -/
inductive Runs (build : Build) {O : Type} (observe : Event H -> State H -> State H -> O -> O)
    (start : O) : State H -> O -> Prop where
  | boot : Runs build observe start State.boot start
  | step {event : Event H} {before after : State H} {notes : O}
      (past : Runs build observe start before notes)
      (taken : step build event before = some after) :
      Runs build observe start after (observe event before after notes)

/-- Carry out a list of events. -/
def exec (build : Build) {O : Type} (observe : Event H -> State H -> State H -> O -> O) :
    List (Event H) -> State H -> O -> Option (State H × O)
  | [], state, notes => some (state, notes)
  | event :: events, state, notes => do
    let after ← step build event state
    exec build observe events after (observe event state after notes)

theorem Runs.exec {build : Build} {O : Type} {observe : Event H -> State H -> State H -> O -> O}
    {start notes notes' : O} {state after : State H} (past : Runs build observe start state notes)
    (events : List (Event H))
    (done : exec build observe events state notes = some (after, notes')) :
    Runs build observe start after notes' := by
  induction events generalizing state notes with
  | nil =>
    cases done
    exact past
  | cons event events ih =>
    rcases Option.bind_eq_some_iff.mp done with ⟨next, taken, rest⟩
    exact ih (past.step taken) rest

/-- A state that some run reaches. -/
def Reachable (build : Build) (state : State H) : Prop :=
  Runs build (fun _ _ _ notes => notes) () state ()

end Table
end Xv6
