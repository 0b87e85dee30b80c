import Xv6.Table.Model
import Xv6.Proc.Scan

namespace Xv6
namespace Table

open Function Option State

/-!
# What one step does to the table

A step other than the clock changes every record by at most one of the ways
listed in `Change`, and it does so only in a process state that allows it.
Everything about whole runs is derived from this list.
-/

variable {H : Type}

/-- How a step other than a clock interrupt may change one record of a table. -/
inductive Change (table : Slot -> Proc) (ticks : Nat) (proc : Proc) : Proc -> Prop where
  | keep : Change table ticks proc proc
  | wakeup (chan : Chan) : Change table ticks proc (proc.wakeup chan ticks)
  | kill : Change table ticks proc (proc.kill ticks)
  | mask (mask : Int) : Change table ticks proc { proc with mask := mask }
  | priority (prio : Int)
      (listed : prio ∈ [TEST_HIGH_PRIORITY, HIGH_PRIORITY, NORMAL_PRIORITY, LOW_PRIORITY,
        TEST_LOW_PRIORITY]) : Change table ticks proc { proc with priority := prio }
  | fault : Change table ticks proc { proc with killed := true }
  | link (parent : Option Slot) : Change table ticks proc { proc with parent := parent }
  | userinit (free : proc.state = .unused) (pid : Int) :
      Change table ticks proc ((proc.allocated pid ticks).yielded ticks)
  | alloc (free : proc.state = .unused) (pid : Int) (parent : Slot) :
      Change table ticks proc ((proc.allocated pid ticks).forked (table parent))
  | fail (free : proc.state = .unused) (pid : Int) :
      Change table ticks proc (proc.allocated pid ticks).freed
  | publish (used : proc.state = .used) : Change table ticks proc (proc.published ticks)
  | dispatch (runnable : proc.state = .runnable) :
      Change table ticks proc { proc.dispatched with chan := none }
  | yield (running : proc.state = .running) : Change table ticks proc (proc.yielded ticks).averaged
  | sleep (running : proc.state = .running) (chan : Chan) :
      Change table ticks proc (proc.slept chan ticks).averaged
  | exitBegin (running : proc.state = .running) (now : Int) :
      Change table ticks proc { proc with ttime := now }
  | exit (running : proc.state = .running) (parent : Option Slot) (status : Int) :
      Change table ticks proc ({ proc with parent := parent }.exited status).averaged
  | free (zombie : proc.state = .zombie) : Change table ticks proc proc.freed

/-- The fields that `freeproc` clears and `allocproc` does not set. -/
def Clean (proc : Proc) : Prop :=
  proc.chan = none ∧ proc.xstate = 0 ∧ proc.ttime = 0 ∧ proc.retime = 0

/-- What holds between critical sections: the current process of a hart runs
there and nowhere else, and a child under construction is in state `USED`. -/
structure Inv (state : State H) : Prop where
  cpu_running : forall hart slot, state.cpu hart = some slot -> (state.proc slot).state = .running
  cpu_inj : forall first second slot, state.cpu first = some slot ->
    state.cpu second = some slot -> first = second
  forking_used : forall parent child linked, state.forking parent = some (child, linked) ->
    (state.proc child).state = .used
  forking_inj : forall first second child one two, state.forking first = some (child, one) ->
    state.forking second = some (child, two) -> first = second
  free_clean : forall slot, (state.proc slot).state = .unused -> Clean (state.proc slot)

theorem inv_boot : Inv (State.boot : State H) where
  cpu_running := fun _ _ current => by cases current
  cpu_inj := fun _ _ _ current => by cases current
  forking_used := fun _ _ _ forks => by cases forks
  forking_inj := fun _ _ _ _ _ forks => by cases forks
  free_clean := fun _ _ => ⟨rfl, rfl, rfl, rfl⟩

/-! ## Inversion of a step -/

section Set

variable {state : State H} {slot other : Slot} {proc : Proc}

@[simp] theorem set_ticks : (state.set slot proc).ticks = state.ticks := rfl

theorem set_proc : (state.set slot proc).proc other =
    if other = slot then proc else state.proc other :=
  update_apply ..

theorem change_set (allowed : Change state.proc state.ticks (state.proc slot) proc) (other : Slot) :
    Change state.proc state.ticks (state.proc other) ((state.set slot proc).proc other) := by
  rw [set_proc]
  split
  · next same =>
      subst same
      exact allowed
  · exact .keep

end Set

theorem chooses_runnable {build : Build} {table : Slot -> Proc} {slot : Slot}
    (chosen : State.Chooses build table slot) : (table slot).state = .runnable := by
  cases build with
  | DEFAULT => exact chosen
  | FCFS | SRT | CFSD => exact scan_runnable _ chosen

section Inversion

variable {state after : State H} {hart : H}

theorem alloc_set (slot : Slot) (proc : Proc) : (state.alloc slot).set slot proc =
    { state.set slot proc with nextpid := int32 (state.nextpid + 1) } := by
  simp only [State.alloc, State.set, update_idem]

theorem alloc_proc (slot : Slot) : (state.alloc slot).proc slot =
    (state.proc slot).allocated state.nextpid state.ticks := by
  simp only [State.alloc, set_proc, if_pos]

variable [DecidableEq H] {build : Build} {event : Event H}

theorem change_exit (inv : Inv state) {slot : Slot} (current : state.cpu hart = some slot)
    (status : Int) (other : Slot) :
    Change state.proc state.ticks (state.proc other) (((state.reparent slot).sched hart slot
        (((state.reparent slot).proc slot).exited status)).proc other) := by
  have parents : ∀ child, ∃ parent,
      (state.reparent slot).proc child = { state.proc child with parent := parent } := by
    intro child
    unfold State.reparent
    dsimp only
    split
    · exact ⟨_, rfl⟩
    · exact ⟨(state.proc child).parent, rfl⟩
  simp only [State.sched, setCpu, set_proc]
  split
  · next same =>
      subst same
      rcases parents other with ⟨parent, shape⟩
      rw [shape]
      exact .exit (inv.cpu_running hart other current) parent status
  · rcases parents other with ⟨parent, shape⟩
    rw [shape]
    exact .link parent

/-! ## The invariant over a step -/

section Free

variable {table : Slot -> Proc} {ticks : Nat} {proc proc' : Proc}

omit [DecidableEq H]

/-- A record that is free after a change was freed by it, or was free before. -/
theorem Change.free_cases (change : Change table ticks proc proc')
    (free : proc'.state = .unused) : (proc'.pid = 0 ∧ Clean proc') ∨
      (proc.state = .unused ∧ proc'.pid = proc.pid ∧ (Clean proc -> Clean proc')) := by
  cases change with
  | wakeup chan =>
    rcases proc.wakeup_cases chan ticks with same | ⟨_, awake⟩
    · rw [same] at free ⊢
      exact Or.inr ⟨free, rfl, id⟩
    · rw [awake] at free
      cases free
  | kill =>
    rcases proc.kill_cases ticks with same | ⟨_, awake⟩
    · rw [same] at free ⊢
      exact Or.inr ⟨free, rfl, id⟩
    · rw [awake] at free
      cases free
  | userinit _ pid => simp [Proc.yielded, Proc.allocated] at free
  | alloc _ pid parent => simp [Proc.forked, Proc.allocated] at free
  | fail _ pid | free zombie => exact Or.inl ⟨rfl, rfl, rfl, rfl, rfl⟩
  | yield running => simp [Proc.averaged, Proc.yielded, running] at free
  | dispatch runnable | publish used | sleep running chan | exit running parent status => cases free
  | exitBegin running now => exact absurd (running.symm.trans free) (by simp)
  | _ => exact Or.inr ⟨free, rfl, id⟩

theorem Change.clean (change : Change table ticks proc proc')
    (old : proc.state = .unused -> Clean proc) (free : proc'.state = .unused) : Clean proc' := by
  rcases change.free_cases free with cleared | kept
  · exact cleared.2
  · exact kept.2.2 (old kept.1)

theorem Change.free_pid (change : Change table ticks proc proc')
    (old : proc.state = .unused -> proc.pid = 0) (free : proc'.state = .unused) :
    proc'.pid = 0 := by
  rcases change.free_cases free with cleared | kept
  · exact cleared.1
  · exact kept.2.1.trans (old kept.1)

end Free

/-- What a step other than the clock does: it keeps the invariant and the time,
and it changes every record in an allowed way. -/
structure Stepped (state after : State H) : Prop where
  inv : Inv after
  ticks : after.ticks = state.ticks
  change : forall slot, Change state.proc state.ticks (state.proc slot) (after.proc slot)

omit [DecidableEq H] in
theorem Stepped.note (stepped : Stepped state after) (pid : Int) (init : Option Slot) :
    Stepped state { after with nextpid := pid, initproc := init } :=
  ⟨{ stepped.inv with }, stepped.ticks, stepped.change⟩

section

variable (inv : Inv state)

include inv

omit [DecidableEq H] in
theorem Inv.stepped (ticks : after.ticks = state.ticks)
    (change : ∀ slot, Change state.proc state.ticks (state.proc slot) (after.proc slot))
    (cpu_running : ∀ hart slot, after.cpu hart = some slot -> (after.proc slot).state = .running)
    (cpu_inj : ∀ first second slot, after.cpu first = some slot ->
      after.cpu second = some slot -> first = second)
    (forking_used : ∀ parent child linked, after.forking parent = some (child, linked) ->
      (after.proc child).state = .used)
    (forking_inj : ∀ first second child one two, after.forking first = some (child, one) ->
      after.forking second = some (child, two) -> first = second) : Stepped state after :=
  ⟨⟨cpu_running, cpu_inj, forking_used, forking_inj,
    fun slot => (change slot).clean (inv.free_clean slot)⟩, ticks, change⟩

omit [DecidableEq H] in
/-- Steps on one record that switch no process and end no `fork`. -/
theorem Inv.set {slot : Slot} {proc : Proc}
    (change : Change state.proc state.ticks (state.proc slot) proc)
    (running : (state.proc slot).state = .running -> proc.state = .running)
    (used : (state.proc slot).state = .used -> proc.state = .used) :
    Stepped state (state.set slot proc) := by
  refine inv.stepped rfl (change_set change) ?_ inv.cpu_inj ?_ inv.forking_inj
  · intro hart other current
    have runs := inv.cpu_running hart other current
    rw [set_proc]
    split
    · next same => exact running (same ▸ runs)
    · exact runs
  · intro parent child linked forks
    have uses := inv.forking_used parent child linked forks
    rw [set_proc]
    split
    · next same => exact used (same ▸ uses)
    · exact uses

/-- The process of a hart leaves it. -/
theorem Inv.sched {slot : Slot} {proc : Proc} (current : state.cpu hart = some slot)
    (change : Change state.proc state.ticks (state.proc slot) proc.averaged) :
    Stepped state (state.sched hart slot proc) := by
  have runs := inv.cpu_running hart slot current
  refine inv.stepped rfl (change_set change) ?_ ?_ ?_ inv.forking_inj
  · intro other position there
    simp only [State.sched, setCpu, update_apply, State.set] at there ⊢
    grind [inv.cpu_running, inv.cpu_inj]
  · intro first second position one two
    simp only [State.sched, setCpu, update_apply, State.set] at one two
    grind [inv.cpu_inj]
  · intro parent child linked forks
    have uses := inv.forking_used parent child linked forks
    have different : child ≠ slot := by
      intro same
      rw [same, runs] at uses
      cases uses
    simpa only [State.sched, setCpu, set_proc, if_neg different] using uses

/-- A free hart takes up a runnable process. -/
theorem Inv.dispatch {slot : Slot} {proc : Proc} (runnable : (state.proc slot).state = .runnable)
    (change : Change state.proc state.ticks (state.proc slot) proc)
    (running : proc.state = .running) :
    Stepped state ((state.set slot proc).setCpu hart (some slot)) := by
  refine inv.stepped rfl (change_set change) ?_ ?_ ?_ inv.forking_inj
  · intro other position there
    simp only [setCpu, update_apply, State.set] at there ⊢
    grind [inv.cpu_running]
  · intro first second position one two
    simp only [setCpu, update_apply, State.set] at one two
    grind [inv.cpu_inj, inv.cpu_running]
  · intro parent child linked forks
    have uses := inv.forking_used parent child linked forks
    have different : child ≠ slot := by
      intro same
      rw [same, runnable] at uses
      cases uses
    simpa only [setCpu, set_proc, if_neg different] using uses

section

omit [DecidableEq H]

/-- A free slot becomes the child of a `fork`. -/
theorem Inv.alloc {parent slot : Slot} {proc : Proc} (free : (state.proc slot).state = .unused)
    (change : Change state.proc state.ticks (state.proc slot) proc) (used : proc.state = .used) :
    Stepped state ((state.set slot proc).setForking parent (some (slot, false))) := by
  refine inv.stepped rfl (change_set change) ?_ inv.cpu_inj ?_ ?_
  · intro hart other current
    have runs := inv.cpu_running hart other current
    simp only [setForking, State.set, update_apply]
    grind
  · intro first child linked forks
    simp only [setForking, update_apply, State.set] at forks ⊢
    grind [inv.forking_used]
  · intro first second child one two left right
    simp only [setForking, update_apply, State.set] at left right
    grind [inv.forking_inj, inv.forking_used]

/-- The child of a `fork` becomes runnable. -/
theorem Inv.publish {parent slot : Slot} {proc : Proc} {linked : Bool}
    (forks : state.forking parent = some (slot, linked))
    (change : Change state.proc state.ticks (state.proc slot) proc) :
    Stepped state ((state.set slot proc).setForking parent none) := by
  have used := inv.forking_used parent slot linked forks
  refine inv.stepped rfl (change_set change) ?_ inv.cpu_inj ?_ ?_
  · intro hart other current
    have runs := inv.cpu_running hart other current
    simp only [setForking, State.set, update_apply]
    grind
  · intro first child mark forking
    simp only [setForking, State.set, update_apply] at forking ⊢
    grind [inv.forking_used, inv.forking_inj]
  · intro first second child one two left right
    simp only [setForking, update_apply, State.set] at left right
    grind [inv.forking_inj]

/-- `np->parent` is set. -/
theorem Inv.link {parent slot : Slot} {proc : Proc} {linked : Bool}
    (forks : state.forking parent = some (slot, linked))
    (change : Change state.proc state.ticks (state.proc slot) proc)
    (same : proc.state = (state.proc slot).state) :
    Stepped state ((state.set slot proc).setForking parent (some (slot, true))) := by
  have kept := (inv.set change (fun runs => same.trans runs) (fun uses => same.trans uses)).inv
  have forksNow : (state.set slot proc).forking parent = some (slot, linked) := forks
  refine inv.stepped rfl (change_set change) kept.cpu_running inv.cpu_inj ?_ ?_
  · intro first child mark forking
    simp only [setForking, update_apply] at forking ⊢
    grind [kept.forking_used]
  · intro first second child one two left right
    simp only [setForking, update_apply] at left right
    grind [kept.forking_inj]

theorem Inv.reparent (slot : Slot) : Inv (state.reparent slot) := by
  have states : ∀ other, ((state.reparent slot).proc other).state = (state.proc other).state := by
    intro other
    unfold State.reparent
    dsimp only
    split <;> rfl
  refine { inv with cpu_running := ?_, forking_used := ?_, free_clean := ?_ }
  · intro hart other current
    rw [states]
    exact inv.cpu_running hart other current
  · intro parent child linked forks
    rw [states]
    exact inv.forking_used parent child linked forks
  · intro other free
    rw [states] at free
    have clean := inv.free_clean other free
    unfold State.reparent
    dsimp only
    split
    · exact clean
    · exact clean

theorem Inv.clockintr : Inv state.clockintr := by
  have shape : ∀ slot, (state.clockintr.proc slot).state = (state.proc slot).state ∨
        (state.proc slot).state = .sleeping ∧ (state.clockintr.proc slot).state = .runnable := by
    intro slot
    have cases := (state.proc slot).ticked.wakeup_cases .ticks (uint32 (state.ticks + 1))
    rw [Proc.ticked_state] at cases
    rcases cases with same | ⟨asleep, awake⟩
    · left
      simp only [State.clockintr, same, Proc.ticked_state]
    · right
      refine ⟨asleep, ?_⟩
      simp only [State.clockintr, awake, Proc.awakened]
  refine { inv with cpu_running := ?_, forking_used := ?_, free_clean := ?_ }
  · intro hart slot current
    have runs := inv.cpu_running hart slot current
    grind
  · intro parent child linked forks
    have uses := inv.forking_used parent child linked forks
    grind
  · intro slot free
    have unused : (state.proc slot).state = .unused := by grind
    have clean := inv.free_clean slot unused
    simpa only [State.clockintr, Proc.ticked, unused, Proc.wakeup, reduceCtorEq, false_and,
      if_false] using clean

end

/-- Inversion of a step other than the clock. -/
theorem Inv.inversion (taken : step build event state = some after)
    (other : event ≠ .clockintr) : Stepped state after := by
  cases event with
  | clockintr => exact (other rfl).elim
  | userinit slot =>
    simp only [Table.step, State.userinit, ite_none_right_eq_some, Option.some.injEq] at taken
    rcases taken with ⟨⟨_, free⟩, rfl⟩
    rw [alloc_set, alloc_proc]
    exact (inv.set (.userinit free _) (by simp [free]) (by simp [free])).note _ _
  | wakeup slot chan =>
    cases taken
    refine inv.set (.wakeup chan) (fun runs => ?_) (fun uses => ?_)
    · rw [Proc.wakeup_awake (by simp [runs]), runs]
    · rw [Proc.wakeup_awake (by simp [uses]), uses]
  | kill slot pid =>
    simp only [Table.step, State.kill, ite_none_right_eq_some, Option.some.injEq] at taken
    rcases taken with ⟨_, rfl⟩
    refine inv.set .kill (fun runs => ?_) (fun uses => ?_)
    · rw [Proc.kill_awake (by simp [runs]), runs]
    · rw [Proc.kill_awake (by simp [uses]), uses]
  | trace slot mask pid =>
    simp only [Table.step, State.trace, ite_none_right_eq_some, Option.some.injEq] at taken
    rcases taken with ⟨_, rfl⟩
    exact inv.set (.mask mask) id id
  | dispatch hart slot =>
    simp only [Table.step, State.dispatch, ite_none_right_eq_some, Option.some.injEq] at taken
    rcases taken with ⟨allowed, rfl⟩
    have runnable := chooses_runnable allowed.2
    exact inv.dispatch runnable (.dispatch runnable) rfl
  | yield hart =>
    rcases bind_eq_some_iff.mp taken with ⟨slot, current, result⟩
    cases result
    exact inv.sched current (.yield (inv.cpu_running hart slot current))
  | sleep hart chan =>
    rcases bind_eq_some_iff.mp taken with ⟨slot, current, result⟩
    cases result
    exact inv.sched current (.sleep (inv.cpu_running hart slot current) chan)
  | setPriority hart prio =>
    rcases bind_eq_some_iff.mp taken with ⟨slot, current, result⟩
    simp only [ite_none_right_eq_some, Option.some.injEq] at result
    rcases result with ⟨listed, rfl⟩
    exact inv.set (.priority prio listed) id id
  | fault hart =>
    rcases bind_eq_some_iff.mp taken with ⟨slot, current, result⟩
    cases result
    exact inv.set .fault id id
  | allocproc hart slot memory =>
    rcases bind_eq_some_iff.mp taken with ⟨parent, current, result⟩
    simp only [ite_none_right_eq_some] at result
    rcases result with ⟨⟨_, free⟩, result⟩
    cases memory with
    | true =>
      cases result
      rw [alloc_set, alloc_proc]
      exact (inv.alloc free (.alloc free _ _) rfl).note _ _
    | false =>
      cases result
      rw [alloc_set, alloc_proc]
      exact (inv.set (.fail free _) (by simp [free]) (by simp [free])).note _ _
  | link hart =>
    rcases bind_eq_some_iff.mp taken with ⟨parent, current, result⟩
    split at result
    · next slot forks =>
        cases result
        exact inv.link forks (.link _) rfl
    · cases result
  | publish hart =>
    rcases bind_eq_some_iff.mp taken with ⟨parent, current, result⟩
    split at result
    · next slot forks =>
        cases result
        exact inv.publish forks (.publish (inv.forking_used parent slot true forks))
    · cases result
  | exitBegin hart =>
    rcases bind_eq_some_iff.mp taken with ⟨slot, current, result⟩
    cases result
    exact inv.set (.exitBegin (inv.cpu_running hart slot current) _) id id
  | exit hart status =>
    rcases bind_eq_some_iff.mp taken with ⟨slot, current, result⟩
    simp only [ite_none_right_eq_some, Option.some.injEq] at result
    rcases result with ⟨_, rfl⟩
    have orphaned := inv.reparent slot
    refine ⟨(orphaned.sched current ?_).inv, rfl, change_exit inv current status⟩
    exact .exit (orphaned.cpu_running hart slot current) _ status
  | wait hart slot =>
    simp only [Table.step, map_eq_some_iff] at taken
    rcases taken with ⟨result, waited, rfl⟩
    rcases bind_eq_some_iff.mp waited with ⟨parent, current, found⟩
    simp only [ite_none_right_eq_some, Option.some.injEq] at found
    rcases found with ⟨⟨_, zombie⟩, rfl⟩
    exact inv.set (.free zombie) (by simp [zombie]) (by simp [zombie])

theorem step_change (taken : step build event state = some after) (other : event ≠ .clockintr) :
    after.ticks = state.ticks ∧
      ∀ slot, Change state.proc state.ticks (state.proc slot) (after.proc slot) :=
  have stepped := inv.inversion taken other
  ⟨stepped.ticks, stepped.change⟩

/-- One step keeps the invariant. -/
theorem Inv.step (taken : step build event state = some after) : Inv after := by
  by_cases clock : event = .clockintr
  · subst clock
    cases taken
    exact inv.clockintr
  · exact (inv.inversion taken clock).inv

end

/-- The invariant holds along every run, whatever is noted along it. -/
theorem Runs.inv {O : Type} {observe : Event H -> State H -> State H -> O -> O} {start notes : O}
    (run : Runs build observe start state notes) : Inv state := by
  induction run with
  | boot => exact inv_boot
  | step _ taken ih => exact ih.step taken

end Inversion

end Table
end Xv6
