import Xv6.Table.Steps

namespace Xv6
namespace Table

open Function Option

/-!
# What a forked process inherits from its slot

The initial values of a child are spread over `freeproc`, `allocproc` and
`fork`.  Of the fields that scheduling, accounting and signals read, all but two
are determined by the parent, the clock and the fact that the slot was freed.
The two are `killed`, which `kill` may set on a free slot because every free
slot has process number zero, and `stime`, which nobody resets.
-/

variable {H : Type}

/-- `fork` without interference by others. -/
def State.fork (state : State H) (hart : H) (slot : Slot) : Option (State H) := do
  let allocated ← state.allocproc hart slot true
  let linked ← allocated.link hart
  linked.publish hart

/-- The fields of the child that the rest of the kernel acts on. -/
structure Inherited where
  killed : Bool
  xstate : Int
  chan : Option Chan
  mask : Int
  priority : Int
  tickcounter : Int
  ctime : Int
  ttime : Int
  stime : Int
  retime : Int
  rutime : Int
  averageBursttime : Int
  readyTime : Int
  deriving DecidableEq

def Inherited.of (proc : Proc) : Inherited where
  killed := proc.killed
  xstate := proc.xstate
  chan := proc.chan
  mask := proc.mask
  priority := proc.priority
  tickcounter := proc.tickcounter
  ctime := proc.ctime
  ttime := proc.ttime
  stime := proc.stime
  retime := proc.retime
  rutime := proc.rutime
  averageBursttime := proc.averageBursttime
  readyTime := proc.readyTime

/-- The child of a successful `fork`. -/
theorem fork_child {state after : State H} {hart : H} {parent slot : Slot}
    (current : state.cpu hart = some parent) (forks : state.fork hart slot = some after) :
    (state.proc slot).state = .unused ∧
      after.proc slot = { ((state.proc slot).allocated state.nextpid state.ticks).forked
        (state.proc parent) with
          parent := some parent, state := .runnable, readyTime := state.ticks } := by
  rcases bind_eq_some_iff.mp forks with ⟨allocated, allocates, rest⟩
  rcases bind_eq_some_iff.mp rest with ⟨linked, links, publishes⟩
  simp only [State.allocproc, current, bind_eq_bind, bind_some,
    ite_none_right_eq_some, if_true, Option.some.injEq] at allocates
  rcases allocates with ⟨⟨_, free⟩, rfl⟩
  refine ⟨free, ?_⟩
  simp only [State.link, State.setForking, State.set, State.alloc, current, bind_eq_bind,
    bind_some, update_self, update_idem, Option.some.injEq] at links
  subst links
  simp only [State.publish, current, bind_eq_bind, bind_some,
    update_self, State.setForking, State.set, update_idem,
    Option.some.injEq] at publishes
  subst publishes
  simp only [update_self, Proc.published]

variable [DecidableEq H]

/-- The child's fields in terms of the parent, the clock and what the slot
still holds. -/
theorem fork_inherits {build : Build} {state after : State H} {hart : H} {parent slot : Slot}
    (reached : Reachable build state) (current : state.cpu hart = some parent)
    (forks : state.fork hart slot = some after) :
    Inherited.of (after.proc slot) =
      { killed := (state.proc slot).killed
        xstate := 0
        chan := none
        mask := (state.proc parent).mask
        priority := (state.proc parent).priority
        tickcounter := 0
        ctime := int32 state.ticks
        ttime := 0
        stime := (state.proc slot).stime
        retime := 0
        rutime := 0
        averageBursttime := QUANTUM * 100
        readyTime := state.ticks } := by
  rcases fork_child current forks with ⟨free, child⟩
  rcases reached.inv.free_clean slot free with ⟨chan, xstate, ttime, retime⟩
  rw [child]
  simp only [Inherited.of, Proc.forked, Proc.allocated, chan, xstate, ttime, retime]

/-- Two reachable kernels that agree on the parent, the clock and the slot
create the same child exactly when the slot holds the same `killed` and `stime`
in both. -/
theorem fork_independent_iff (build : Build) (first second : State H)
    (reachedFirst : Reachable build first) (reachedSecond : Reachable build second)
    (hart hart' : H) (parent slot : Slot) (current : first.cpu hart = some parent)
    (current' : second.cpu hart' = some parent) (same : first.proc parent = second.proc parent)
    (ticks : first.ticks = second.ticks) (_nextpid : first.nextpid = second.nextpid)
    (after after' : State H) (forks : first.fork hart slot = some after)
    (forks' : second.fork hart' slot = some after') :
    Inherited.of (after.proc slot) = Inherited.of (after'.proc slot) <->
      (first.proc slot).killed = (second.proc slot).killed ∧
        (first.proc slot).stime = (second.proc slot).stime := by
  rw [fork_inherits reachedFirst current forks, fork_inherits reachedSecond current' forks',
    same, ticks]
  simp only [Inherited.mk.injEq, true_and, and_true]

/-! ## Two kernels that differ only in the history of a free slot -/

/-- The first process runs and the second slot has never been used. -/
def fresh : List (Event Unit) := [.userinit 0, .dispatch () 0]

/-- The same after `kill(0)`. -/
def killedFree : List (Event Unit) := fresh ++ [.kill 1 0]

/-- A child that runs for one tick, exits and is reaped. -/
def childRan (status : Int) : List (Event Unit) :=
  fresh ++ [.allocproc () 1 true, .link (), .publish (), .sleep () (.proc 0), .dispatch () 1,
    .clockintr, .exitBegin (), .exit () status, .wakeup 0 (.proc 0), .dispatch () 0, .wait () 1]

/-- The same with a child that sleeps for the tick. -/
def childSlept : List (Event Unit) :=
  fresh ++ [.allocproc () 1 true, .link (), .publish (), .sleep () (.proc 0), .dispatch () 1,
    .sleep () (.other 0), .clockintr, .wakeup 1 (.other 0), .dispatch () 1,
    .exitBegin (), .exit () 0, .wakeup 0 (.proc 0), .dispatch () 0, .wait () 1]

/-- The kernel after these events. -/
def after (events : List (Event Unit)) : State Unit :=
  match exec .DEFAULT (fun _ _ _ notes => notes) events State.boot () with
  | some (state, _) => state
  | none => State.boot

theorem reachable_after (events : List (Event Unit)) : Reachable .DEFAULT (after events) := by
  have start : Reachable .DEFAULT (State.boot : State Unit) := Runs.boot
  unfold after
  split
  · next done => exact start.exec events done
  · exact start

/-- The kernel after these events and a `fork` into the second slot. -/
def afterFork (events : List (Event Unit)) : State Unit :=
  ((after events).fork () 1).getD (after events)

theorem afterFork_eq {events : List (Event Unit)} (done : ((after events).fork () 1).isSome) :
    (after events).fork () 1 = some (afterFork events) := by
  rcases isSome_iff_exists.mp done with ⟨state, forks⟩
  rw [afterFork, forks]
  rfl

/-- Two kernels in the same situation as far as `fork` is concerned. -/
structure Agree (first second : State Unit) : Prop where
  reachedFirst : Reachable .DEFAULT first
  reachedSecond : Reachable .DEFAULT second
  current : first.cpu () = some 0
  current' : second.cpu () = some 0
  parent : first.proc 0 = second.proc 0
  ticks : first.ticks = second.ticks
  nextpid : first.nextpid = second.nextpid

/-- A signal sent to process number zero, or a nap of the previous occupant,
shows in the next child of the slot. -/
theorem fork_depends_on_history :
    (∃ first second child child' : State Unit, Agree first second ∧
      first.fork () 1 = some child ∧ second.fork () 1 = some child' ∧
      (child.proc 1).killed = false ∧ (child'.proc 1).killed = true) ∧
    ∃ first second child child' : State Unit, Agree first second ∧
      first.fork () 1 = some child ∧ second.fork () 1 = some child' ∧
      (child.proc 1).stime = 0 ∧ (child'.proc 1).stime = 1 := by
  constructor
  · refine ⟨after fresh, after killedFree, afterFork fresh, afterFork killedFree,
      ⟨reachable_after _, reachable_after _, ?_, ?_, ?_, ?_, ?_⟩,
      afterFork_eq ?_, afterFork_eq ?_, ?_, ?_⟩ <;> decide +kernel
  · refine ⟨after (childRan 0), after childSlept, afterFork (childRan 0), afterFork childSlept,
      ⟨reachable_after _, reachable_after _, ?_, ?_, ?_, ?_, ?_⟩,
      afterFork_eq ?_, afterFork_eq ?_, ?_, ?_⟩ <;> decide +kernel

/-- The exit status of the previous occupant does not show. -/
theorem fork_forgets_status :
    Inherited.of ((afterFork (childRan 0)).proc 1) =
      Inherited.of ((afterFork (childRan 5)).proc 1) := by
  have agree : Inherited.of ((afterFork (childRan 0)).proc 1) =
      Inherited.of ((afterFork (childRan 5)).proc 1) <-> _ :=
    fork_independent_iff .DEFAULT (after (childRan 0)) (after (childRan 5)) (reachable_after _)
      (reachable_after _) () () 0 1 (by decide +kernel) (by decide +kernel) (by decide +kernel)
      (by decide +kernel) (by decide +kernel) _ _ (afterFork_eq (by decide +kernel))
      (afterFork_eq (by decide +kernel))
  exact agree.mpr (by decide +kernel)

end Table
end Xv6
