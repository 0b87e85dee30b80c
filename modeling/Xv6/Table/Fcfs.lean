import Xv6.Table.Steps

namespace Xv6
namespace Table

/-!
# First come, first served

An observer notes for every slot the clock tick at which its process last
became runnable.  The field `readyTime` holds exactly this tick while the
process stays runnable, so the scan of the FCFS policy dispatches the process
that has waited longest, and the lowest slot among equals.
-/

variable {H : Type}

/-- The number of clock interrupts so far, and for every slot the number at
which its process last became runnable. -/
structure Arrivals where
  clocks : Nat
  since : Slot -> Nat

def Arrivals.none : Arrivals := ⟨0, fun _ => 0⟩

def Arrivals.observe (event : Event H) (before after : State H) (notes : Arrivals) : Arrivals :=
  let clocks := match event with
    | .clockintr => notes.clocks + 1
    | _ => notes.clocks
  { clocks := clocks
    since := fun slot =>
      if (before.proc slot).state ≠ .runnable ∧ (after.proc slot).state = .runnable then clocks
      else notes.since slot }

/-- A process that is runnable after a step kept its `readyTime` or became
runnable at this tick. -/
def Stamped (ticks : Nat) (proc proc' : Proc) : Prop :=
  proc'.state = .runnable -> proc.state = .runnable ∧ proc'.readyTime = proc.readyTime ∨
      proc.state ≠ .runnable ∧ proc'.readyTime = ticks

theorem stamped_wakeup (proc : Proc) (chan : Chan) (ticks : Nat) :
    Stamped ticks proc (proc.wakeup chan ticks) := by
  intro runnable
  rcases proc.wakeup_cases chan ticks with same | ⟨asleep, awake⟩
  · rw [same] at runnable ⊢
    exact Or.inl ⟨runnable, rfl⟩
  · rw [awake]
    exact Or.inr ⟨by simp [asleep], rfl⟩

theorem Change.stamped {table : Slot -> Proc} {ticks : Nat} {proc proc' : Proc}
    (change : Change table ticks proc proc') :
    Stamped ticks proc proc' := by
  intro runnable
  cases change with
  | wakeup chan => exact stamped_wakeup proc chan ticks runnable
  | kill =>
    rcases proc.kill_cases ticks with same | ⟨asleep, awake⟩
    · rw [same] at runnable ⊢
      exact Or.inl ⟨runnable, rfl⟩
    · rw [awake]
      exact Or.inr ⟨by simp [asleep], rfl⟩
  | userinit free pid =>
    refine Or.inr ⟨by simp [free], ?_⟩
    simp [Proc.yielded, Proc.allocated]
  | publish used => exact Or.inr ⟨by simp [used], rfl⟩
  | yield running =>
    refine Or.inr ⟨by simp [running], ?_⟩
    rw [Proc.yielded_running running]
    rfl
  | alloc free pid parent | fail free pid | dispatch ready | sleep running chan
  | exit running parent status | free zombie =>
    cases runnable
  | exitBegin running now => exact Or.inl ⟨runnable, rfl⟩
  | _ => exact Or.inl ⟨runnable, rfl⟩

theorem stamped_tick (proc : Proc) (now : Nat) :
    Stamped now proc (proc.ticked.wakeup .ticks now) := by
  intro runnable
  have kept : proc.ticked.readyTime = proc.readyTime := by
    rcases proc.ticked_eq with ⟨_, _, _, _, same⟩
    rw [same]
  have stamped := stamped_wakeup proc.ticked .ticks now runnable
  rwa [Proc.ticked_state, kept] at stamped

section Runs

variable [DecidableEq H] {build : Build} {state after : State H} {event : Event H}

/-- Every step, the clock included. -/
theorem step_stamped (inv : Inv state) (taken : step build event state = some after)
    (slot : Slot) : Stamped after.ticks (state.proc slot) (after.proc slot) := by
  by_cases clock : event = .clockintr
  · subst clock
    cases taken
    exact stamped_tick _ _
  · have change := step_change inv taken clock
    rw [change.1]
    exact (change.2 slot).stamped

/-- The clock and the time stamps of runnable processes are what the observer
has noted. -/
theorem Runs.arrivals {notes : Arrivals}
    (run : Runs build Arrivals.observe Arrivals.none state notes) :
    state.ticks = uint32 notes.clocks ∧ ∀ slot, notes.since slot ≤ notes.clocks ∧
        ((state.proc slot).state = .runnable ->
          (state.proc slot).readyTime = uint32 (notes.since slot)) := by
  induction run with
  | boot => exact ⟨rfl, fun _ => ⟨le_refl _, fun runnable => by cases runnable⟩⟩
  | @step event before after notes past taken ih =>
    rcases ih with ⟨clock, stamps⟩
    have now : after.ticks = uint32 (Arrivals.observe event before after notes).clocks ∧
        notes.clocks ≤ (Arrivals.observe event before after notes).clocks := by
      by_cases tick : event = .clockintr
      · subst tick
        cases taken
        refine ⟨?_, Nat.le_succ _⟩
        simp only [State.clockintr, clock, Arrivals.observe, uint32]
        omega
      · rw [(step_change past.inv taken tick).1, clock]
        cases event with
        | clockintr => exact (tick rfl).elim
        | _ => exact ⟨rfl, le_refl _⟩
    refine ⟨now.1, fun slot => ?_⟩
    have stamped := step_stamped past.inv taken slot
    by_cases arrives : (before.proc slot).state ≠ .runnable ∧ (after.proc slot).state = .runnable
    · have noted : (Arrivals.observe event before after notes).since slot =
          (Arrivals.observe event before after notes).clocks := if_pos arrives
      rw [noted]
      refine ⟨le_refl _, fun runnable => ?_⟩
      rcases stamped runnable with ⟨was, _⟩ | ⟨_, stamp⟩
      · exact (arrives.1 was).elim
      · rw [stamp, now.1]
    · have noted : (Arrivals.observe event before after notes).since slot =
          notes.since slot := if_neg arrives
      rw [noted]
      refine ⟨(stamps slot).1.trans now.2, fun runnable => ?_⟩
      rcases stamped runnable with ⟨was, same⟩ | ⟨was, _⟩
      · rw [same]
        exact (stamps slot).2 was
      · exact (arrives ⟨was, runnable⟩).elim

/-- First come, first served.  In every run of the FCFS build before `ticks`
wraps, a dispatched process became runnable no later than any other process
that is runnable at that moment, and has the lowest slot among those that
became runnable at the same tick; and no step changes the `readyTime` of a
process that stays runnable. -/
theorem fcfs_dispatch_order (state : State H) (notes : Arrivals)
    (run : Runs .FCFS Arrivals.observe Arrivals.none state notes)
    (unwrapped : notes.clocks < 2 ^ 32) :
    (forall hart slot after, step .FCFS (.dispatch hart slot) state = some after ->
      forall other, other ≠ slot -> (state.proc other).state = .runnable ->
        notes.since slot ≤ notes.since other ∧
          (notes.since other = notes.since slot -> slot < other)) ∧
      forall event after slot, step .FCFS event state = some after ->
        (state.proc slot).state = .runnable -> (after.proc slot).state = .runnable ->
          (after.proc slot).readyTime = (state.proc slot).readyTime := by
  have stamps := run.arrivals.2
  have exact : forall slot, (state.proc slot).state = .runnable ->
      (state.proc slot).readyTime = notes.since slot := by
    intro slot runnable
    have bound := (stamps slot).1
    rw [(stamps slot).2 runnable, uint32, Nat.mod_eq_of_lt (by omega)]
  constructor
  · intro hart slot after taken other different runnable
    simp only [step, State.dispatch, Option.ite_none_right_eq_some] at taken
    rcases taken with ⟨⟨_, chosen⟩, _⟩
    have least : Least Proc.readyTime state.proc (List.finRange NPROC) (some slot) := by
      have whole := scan_least (fcfs_ranks state.proc)
      have same : scan fcfsBefore state.proc = some slot := chosen
      rwa [same] at whole
    rcases least with ⟨_, slotRunnable, minimal⟩
    have order := minimal other (List.mem_finRange other) runnable
    rw [exact slot slotRunnable, exact other runnable] at order
    refine ⟨by omega, fun same => ?_⟩
    have first := order.2 (by rw [same])
    exact lt_of_le_of_ne first (Ne.symm different)
  · intro event after slot taken runnable still
    rcases step_stamped run.inv taken slot still with ⟨_, same⟩ | ⟨was, _⟩
    · exact same
    · exact (was runnable).elim

/-- Two children that became runnable at different ticks. -/
theorem earlier_child_dispatched :
    ∃ (state : State Unit) (notes : Arrivals),
      (notes.since 2 = 0 ∧ notes.since 1 = 1) ∧
        (forall hart after, step .FCFS (.dispatch hart 2) state = some after ->
          notes.since 2 ≤ notes.since 1) ∧
        (step .FCFS (.dispatch () 2) state).isSome := by
  have start : Runs .FCFS Arrivals.observe Arrivals.none (State.boot : State Unit)
      Arrivals.none := .boot
  have run := start.exec
    [.userinit 0, .dispatch () 0, .allocproc () 2 true, .link (), .publish (),
      .allocproc () 1 true, .link (), .clockintr, .publish (), .sleep () (.proc 0)] rfl
  have order := fcfs_dispatch_order _ _ run (by decide)
  exact ⟨_, _, by exact ⟨rfl, rfl⟩,
    fun hart after taken => (order.1 hart 2 after taken 1 (by decide) rfl).1, by rfl⟩

end Runs

end Table
end Xv6
