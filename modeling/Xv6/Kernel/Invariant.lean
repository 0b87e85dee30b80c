import Xv6.Kernel.Code

namespace Xv6
namespace Kernel

/-!
# The invariant of the kernel threads

`CpuOk` says what holds of one hart by itself: `noff` counts its locks,
interrupts are off while it holds one, and a lock it spins for is above those
it holds.  `Inv` adds how harts, processes and their threads fit together.

The central clause is `current`: the process a hart runs is RUNNING unless the
hart has the lock of that process.  The lock is handed through `swtch`, so it
belongs to the hart and not to the thread that took it.
-/

/-- The place of a lock in the order of acquisition.  Pipes and the locks that
are not named here are outside the order. -/
def Lock.rank : Lock -> Option Nat
  | .wait => some 0
  | .ticks => some 1
  | .proc slot => some (2 + slot.val)
  | .pid | .kmem | .ftable | .itable => some (2 + NPROC)
  | .pipe _ | .other _ => none

/-- The second lock may be acquired while the first is held. -/
def Below (first second : Lock) : Prop :=
  forall low high, first.rank = some low -> second.rank = some high -> low < high

/-- The lock with which a process must call `sleep` on a channel. -/
def guardOf : Chan -> Option Lock
  | .proc _ => some .wait
  | .ticks => some .ticks
  | .nread pi => some (.pipe pi)
  | .nwrite pi => some (.pipe pi)
  | .other _ => none

/-- The states of a process that is neither being built nor gone. -/
def Alive : ProcState -> Prop
  | .sleeping | .runnable | .running => True
  | .unused | .used | .zombie => False

variable {H : Type}

/-- Who takes a byte or closes the reading end also wakes the writers, and who
stores a byte or closes the writing end wakes the readers, unless `pipewrite`
returns early. -/
def Pipe.Settled (pipe : Pipe) : Prop :=
  pipe.writersOwed = false ∧ (pipe.readersOwed = true -> pipe.cut = true)

/-- A hart at either end of a `swtch`: it holds the lock of the process that
is switched to or from, and no other. -/
structure Cpu.Parked (cpu : Cpu H) (slot : Slot) : Prop where
  held : cpu.held = [.proc slot]
  want : cpu.want = none
  dispatch : cpu.dispatch = none
  resv : cpu.resv = none
  owed : cpu.owed = false
  trap : cpu.trap = .none
  window : cpu.window = false
  user : cpu.user = false
  call : cpu.call = .idle

structure CpuOk (hart : H) (cpu : Cpu H) : Prop where
  nodup : cpu.held.Nodup
  noff : cpu.noff = cpu.held.length + cpu.want.toList.length
  masked : cpu.sie = true -> cpu.noff = 0
  ranked : forall lock, cpu.want = some (some lock) ->
    forall other, other ∈ cpu.held -> Below other lock
  /-- Where interrupts are on, or will be when the last lock is released, no
  trap is in progress. -/
  calm : cpu.sie = true ∨ cpu.noff ≠ 0 ∧ cpu.intena = true ->
    cpu.trap = .none ∧ cpu.window = false ∧ cpu.user = false
  idle : cpu.sie = true -> cpu.resv = none ∧ cpu.owed = false ∧ cpu.dispatch = none
  scheduler : forall other, cpu.cur = .sched other -> other = hart
  process : forall slot, cpu.cur = .proc slot -> cpu.proc = some slot ∧ cpu.away = true
  dispatching : forall slot, cpu.dispatch = some slot ->
    .proc slot ∈ cpu.held ∧ cpu.cur = .sched hart ∧ cpu.proc = none
  switching : forall slot, cpu.cur = .sched hart -> cpu.proc = some slot -> .proc slot ∈ cpu.held
  back : cpu.away = true -> cpu.cur = .sched hart -> ∃ slot, cpu.proc = some slot ∧ cpu.Parked slot

structure Inv (state : State H) : Prop where
  cpu : forall hart, CpuOk hart (state.cpu hart)
  holder : forall lock hart, state.lock lock = some hart <-> lock ∈ (state.cpu hart).held
  exclusive : forall slot first second, (state.cpu first).proc = some slot ->
    (state.cpu second).proc = some slot -> first = second
  current : forall hart slot, (state.cpu hart).proc = some slot ->
    .proc slot ∈ (state.cpu hart).held ∨
      (state.proc slot).state = .running ∧ (state.cpu hart).cur = .proc slot
  running : forall slot, (state.proc slot).state = .running ->
    (∃ hart, (state.cpu hart).proc = some slot) ∨ ∃ hart, (state.cpu hart).dispatch = some slot
  /-- A process that a scheduler has marked RUNNING is still switched out. -/
  dispatched : forall hart slot, (state.cpu hart).dispatch = some slot ->
    (state.proc slot).state = .running ∧ (state.task slot).susp = true ∧
      forall other, (state.cpu other).proc ≠ some slot
  /-- A process that has switched to the scheduler has left RUNNING. -/
  left : forall hart slot, (state.cpu hart).away = true ->
    (state.cpu hart).cur = .sched hart -> (state.cpu hart).proc = some slot ->
    (state.proc slot).state ≠ .running
  parked : forall hart slot, (state.cpu hart).cur = .sched hart ->
    (state.cpu hart).proc = some slot -> (state.task slot).susp = true
  /-- A process that has been switched to and has not resumed. -/
  entering : forall hart slot, (state.task slot).susp = true -> (state.cpu hart).cur = .proc slot ->
    (state.cpu hart).Parked slot ∧ (state.proc slot).state = .running
  started : forall slot, (state.proc slot).state ≠ .unused ->
    (state.task slot).susp = true ∨ ∃ hart, (state.cpu hart).cur = .proc slot
  owned : forall child slot, (state.task child).owner = some slot ->
    (state.proc child).state = .used ∧
      ((state.proc child).parent = none ∨ (state.proc child).parent = some slot ∨
        (state.proc child).parent = some initproc)
  orphan : forall slot, (state.proc slot).state = .unused -> (state.proc slot).parent = none
  dozing : forall slot chan, (state.task slot).doze = some chan ->
    (state.proc slot).state = .sleeping ∧ (state.proc slot).chan = some chan ∨
      (state.task slot).susp = false ∧
        ∃ hart, (state.cpu hart).cur = .proc slot ∧ .proc slot ∈ (state.cpu hart).held
  asleep : forall slot, (state.proc slot).state = .sleeping ->
    ∃ chan, (state.task slot).doze = some chan ∧ (state.proc slot).chan = some chan
  settled : forall pi, state.lock (.pipe pi) = none -> (state.pipe pi).Settled
  calls : forall hart slot, (state.cpu hart).cur = .proc slot ->
    (state.task slot).susp = false -> (state.cpu hart).call = (state.task slot).call
  unbroken : state.panicked = false

/-- The thread executes on this hart, and not between the two ends of a
`swtch`. -/
def Active (thread : Thread H) (hart : H) (state : State H) : Prop :=
  (state.cpu hart).cur = thread ∧
    match thread with
    | .sched _ => (state.cpu hart).away = false
    | .proc slot => (state.task slot).susp = false

section Active

variable {state : State H} {hart other : H} {slot : Slot} {thread : Thread H}

/-- An active thread has resumed. -/
theorem Active.not_susp (active : Active thread hart state)
    (cur : (state.cpu hart).cur = .proc slot) : (state.task slot).susp = false := by
  have self : thread = .proc slot := active.1.symm.trans cur
  subst self
  exact active.2

theorem Active.not_away (active : Active thread hart state)
    (cur : (state.cpu hart).cur = .sched other) : (state.cpu hart).away = false := by
  have self : thread = .sched other := active.1.symm.trans cur
  subst self
  exact active.2

/-- The hart has the system call of the process that it executes. -/
theorem Active.call_eq (active : Active thread hart state) (inv : Inv state)
    (self : thread = .proc slot) : (state.task slot).call = (state.cpu hart).call :=
  have cur := active.1.trans self
  (inv.calls hart slot cur (active.not_susp cur)).symm

/-- Bookkeeping for a thread that goes on. -/
theorem Active.setTask {task : Task} (active : Active thread hart state)
    (resumed : thread = .proc slot -> task.susp = false) :
    Active thread hart (state.setTask slot task) := by
  refine ⟨active.1, ?_⟩
  cases thread with
  | sched owner => exact active.2
  | proc self =>
    by_cases same : self = slot
    · subst same
      simpa [State.setTask] using resumed rfl
    · simpa [State.setTask, Function.update_of_ne same] using active.2

theorem Active.free (active : Active thread hart state) (child : Slot) :
    Active thread hart (state.free child) :=
  active.setTask fun self => active.not_susp (active.1.trans self)

end Active

namespace Inv

variable {state : State H} {hart other : H} {slot : Slot} {lock : Lock} {thread : Thread H}

section

variable (inv : Inv state)

include inv

/-- A lock is held by at most one hart. -/
theorem held_unique (first : lock ∈ (state.cpu hart).held)
    (second : lock ∈ (state.cpu other).held) : hart = other := by
  have one := (inv.holder lock hart).mpr first
  have two := (inv.holder lock other).mpr second
  rw [one] at two
  exact Option.some.inj two

theorem holding [DecidableEq H] (held : lock ∈ (state.cpu hart).held) :
    holding lock hart state = true := by
  unfold Kernel.holding
  rw [(inv.holder lock hart).mpr held, beq_self_eq_true]

theorem free_of_none (free : state.lock lock = none) (hart : H) : lock ∉ (state.cpu hart).held := by
  intro member
  rw [(inv.holder lock hart).mpr member] at free
  cases free

/-- A thread executes on at most one hart. -/
theorem cur_unique (first : (state.cpu hart).cur = thread)
    (second : (state.cpu other).cur = thread) : hart = other := by
  cases thread with
  | sched owner =>
    rw [← (inv.cpu hart).scheduler owner first, ← (inv.cpu other).scheduler owner second]
  | proc slot =>
    exact inv.exclusive slot hart other ((inv.cpu hart).process slot first).1
      ((inv.cpu other).process slot second).1

/-- A process that does not run and whose lock is held here by another thread
is nobody's current process. -/
theorem not_current (held : .proc slot ∈ (state.cpu hart).held)
    (idle : (state.proc slot).state ≠ .running) (unowned : (state.cpu hart).proc ≠ some slot)
    (other : H) : (state.cpu other).proc ≠ some slot := by
  intro current
  rcases inv.current other slot current with theirs | ⟨running, _⟩
  · rw [inv.held_unique theirs held] at current
    exact unowned current
  · exact idle running

/-- The current process is RUNNING while its lock is not held. -/
theorem running_of_unheld (current : (state.cpu hart).proc = some slot)
    (unheld : .proc slot ∉ (state.cpu hart).held) :
    (state.proc slot).state = .running ∧ (state.cpu hart).cur = .proc slot := by
  rcases inv.current hart slot current with held | fits
  · exact (unheld held).elim
  · exact fits

/-- A thread that executes and does not hold its process's lock is awake. -/
theorem awake_of_unheld (cur : (state.cpu hart).cur = .proc slot)
    (unheld : .proc slot ∉ (state.cpu hart).held) : (state.task slot).doze = none := by
  have current := ((inv.cpu hart).process slot cur).1
  have running := (inv.running_of_unheld current unheld).1
  cases dozes : (state.task slot).doze with
  | none => rfl
  | some chan =>
    rcases inv.dozing slot chan dozes with ⟨asleep, _⟩ | ⟨_, there, executes, held⟩
    · rw [running] at asleep
      cases asleep
    · rw [inv.cur_unique executes cur] at held
      exact (unheld held).elim

end

end Inv

end Kernel
end Xv6
