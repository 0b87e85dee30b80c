import Xv6.Table.Steps

namespace Xv6
namespace Table

/-!
# Time accounting

An observer counts, for every slot, the clock interrupts that find the process
in each state since its `allocproc`, and those that find it running since its
latest dispatch.  The counters in the process record are these numbers, as far
as a C `int` can hold them, and they stand still once the process has exited.
-/

variable {H : Type} {proc proc' : Proc}

/-- What the observer has counted for the present occupant of a slot.  `stime`
is the value of that field at `allocproc`, and `atExit` the accounting record
at the moment of becoming a zombie. -/
structure Tally where
  running : Nat
  runnable : Nat
  sleeping : Nat
  sinceDispatch : Nat
  stime : Int
  atExit : Perf

def Tally.start (proc : Proc) : Tally where
  running := 0
  runnable := 0
  sleeping := 0
  sinceDispatch := 0
  stime := proc.stime
  atExit := Perf.of proc

/-- A clock interrupt that finds the process in this state. -/
def Tally.tick (tally : Tally) (found : ProcState) : Tally :=
  match found with
  | .running =>
    { tally with running := tally.running + 1, sinceDispatch := tally.sinceDispatch + 1 }
  | .runnable => { tally with runnable := tally.runnable + 1 }
  | .sleeping => { tally with sleeping := tally.sleeping + 1 }
  | _ => tally

/-- A change of the process state: an allocation starts the count, a dispatch
restarts the burst, an exit is recorded. -/
def Tally.move (tally : Tally) (was now : Proc) : Tally :=
  if was.state = .unused ∧ now.state ≠ .unused then .start now
  else if was.state = .runnable ∧ now.state = .running then
    { tally with sinceDispatch := 0 }
  else if was.state ≠ .zombie ∧ now.state = .zombie then
    { tally with atExit := Perf.of now }
  else tally

/-- The observer. -/
def Tally.observe (event : Event H) (before after : State H) (tally : Slot -> Tally) :
    Slot -> Tally :=
  fun slot =>
    match event with
    | .clockintr => (tally slot).tick (before.proc slot).state
    | _ => (tally slot).move (before.proc slot) (after.proc slot)

/-- The record of a process agrees with its tally. -/
structure Accounted (proc : Proc) (tally : Tally) : Prop where
  rutime : proc.rutime = int32 tally.running
  retime : proc.retime = int32 tally.runnable
  stime : proc.stime = int32 (tally.stime + tally.sleeping)
  tickcounter : proc.tickcounter = int32 tally.sinceDispatch
  frozen : proc.state = .zombie -> Perf.of proc = tally.atExit

theorem int32_add_one (value : Int) : int32 (int32 value + 1) = int32 (value + 1) := by
  unfold int32
  exact Int.bmod_add_bmod

theorem int32_int32 (value : Int) : int32 (int32 value) = int32 value := by
  unfold int32
  exact Int.bmod_bmod

/-- A clock interrupt moves the counter of the state it finds. -/
theorem Accounted.tick {proc : Proc} {tally : Tally} (accounted : Accounted proc tally)
    (now : Nat) : Accounted (proc.ticked.wakeup .ticks now) (tally.tick proc.state) := by
  have ticked : Accounted proc.ticked (tally.tick proc.state) := by
    unfold Proc.ticked Tally.tick
    cases found : proc.state with
    | sleeping =>
      refine { accounted with stime := ?_, frozen := by simp }
      dsimp only
      rw [accounted.stime, int32_add_one]
      push_cast
      rw [Int.add_assoc]
    | running =>
      refine { accounted with rutime := ?_, tickcounter := ?_, frozen := by simp }
      · dsimp only
        rw [accounted.rutime, int32_add_one]
        push_cast
        rfl
      · dsimp only
        rw [accounted.tickcounter, int32_add_one]
        push_cast
        rfl
    | runnable =>
      refine { accounted with retime := ?_, frozen := by simp }
      dsimp only
      rw [accounted.retime, int32_add_one]
      push_cast
      rfl
    | unused | used | zombie => exact accounted
  rcases proc.ticked.wakeup_cases .ticks now with same | ⟨asleep, awake⟩
  · rw [same]
    exact ticked
  · rw [awake]
    exact { ticked with frozen := fun zombie => by cases zombie }

/-- A change of a live record that leaves the counters alone and is not a
dispatch. -/
theorem Accounted.carry {tally : Tally} (accounted : Accounted proc tally)
    (live : proc.state ≠ .unused) (other : ¬ (proc.state = .runnable ∧ proc'.state = .running))
    (rutime : proc'.rutime = proc.rutime) (retime : proc'.retime = proc.retime)
    (stime : proc'.stime = proc.stime) (tickcounter : proc'.tickcounter = proc.tickcounter)
    (frozen : proc.state = .zombie -> proc'.state = .zombie -> Perf.of proc' = Perf.of proc) :
    Accounted proc' (tally.move proc proc') := by
  unfold Tally.move
  rw [if_neg (fun fresh => live fresh.1), if_neg other]
  by_cases exits : proc.state ≠ .zombie ∧ proc'.state = .zombie
  · rw [if_pos exits]
    exact ⟨rutime.trans accounted.rutime, retime.trans accounted.retime,
      stime.trans accounted.stime, tickcounter.trans accounted.tickcounter, fun _ => rfl⟩
  · rw [if_neg exits]
    refine ⟨rutime.trans accounted.rutime, retime.trans accounted.retime,
      stime.trans accounted.stime, tickcounter.trans accounted.tickcounter, fun zombie => ?_⟩
    have was : proc.state = .zombie := by
      by_contra different
      exact exits ⟨different, zombie⟩
    rw [frozen was zombie]
    exact accounted.frozen was

/-- The record of a freshly allocated process. -/
theorem Accounted.alloc {tally : Tally} (free : proc.state = .unused) (live : proc'.state ≠ .unused)
    (rutime : proc'.rutime = 0) (retime : proc'.retime = 0) (tickcounter : proc'.tickcounter = 0)
    (stime : int32 proc'.stime = proc'.stime) (young : proc'.state ≠ .zombie) :
    Accounted proc' (tally.move proc proc') := by
  unfold Tally.move
  rw [if_pos ⟨free, live⟩]
  have none : int32 ((0 : Nat) : Int) = 0 := by decide
  refine ⟨rutime.trans none.symm, retime.trans none.symm, ?_, tickcounter.trans none.symm,
    fun zombie => (young zombie).elim⟩
  simpa [Tally.start] using stime.symm

theorem Change.accounted {table : Slot -> Proc} {ticks : Nat} {tally : Tally}
    (change : Change table ticks proc proc') (clean : proc.state = .unused -> Clean proc)
    (int : int32 proc.stime = proc.stime) (old : proc.state ≠ .unused -> Accounted proc tally)
    (live : proc'.state ≠ .unused) : Accounted proc' (tally.move proc proc') := by
  cases change with
  | wakeup chan =>
    rcases proc.wakeup_cases chan ticks with same | ⟨asleep, awake⟩
    · rw [same] at live ⊢
      exact (old live).carry live (by grind) rfl rfl rfl rfl (fun _ _ => rfl)
    · have alive : proc.state ≠ .unused := by simp [asleep]
      rw [awake]
      exact (old alive).carry alive (by simp [asleep]) rfl rfl rfl rfl
        (fun _ zombie => by cases zombie)
  | kill =>
    rcases proc.kill_cases ticks with same | ⟨asleep, awake⟩
    · rw [same] at live ⊢
      exact (old live).carry live (by grind) rfl rfl rfl rfl (fun _ _ => rfl)
    · have alive : proc.state ≠ .unused := by simp [asleep]
      rw [awake]
      exact (old alive).carry alive (by simp [asleep]) rfl rfl rfl rfl
        (fun _ zombie => by cases zombie)
  | userinit free pid =>
    have shape : (proc.allocated pid ticks).yielded ticks =
        { proc.allocated pid ticks with state := .runnable, readyTime := ticks } := by
      simp [Proc.yielded, Proc.allocated]
    rw [shape]
    exact Accounted.alloc free (by simp) rfl (clean free).2.2.2 rfl int (by simp)
  | alloc free pid parent =>
    exact Accounted.alloc free (by simp [Proc.forked, Proc.allocated]) rfl
      (clean free).2.2.2 rfl int (by simp [Proc.forked, Proc.allocated])
  | fail free pid | free zombie => exact (live rfl).elim
  | publish used =>
    have alive : proc.state ≠ .unused := by simp [used]
    exact (old alive).carry alive (by simp [used]) rfl rfl rfl rfl
      (fun _ zombie => by cases zombie)
  | dispatch runnable =>
    have accounted := old (by simp [runnable])
    unfold Tally.move
    rw [if_neg (by simp [runnable]), if_pos ⟨runnable, rfl⟩]
    have none : int32 ((0 : Nat) : Int) = 0 := by decide
    exact ⟨accounted.rutime, accounted.retime, accounted.stime, none.symm,
      fun zombie => by cases zombie⟩
  | yield running =>
    have alive : proc.state ≠ .unused := by simp [running]
    rw [Proc.yielded_running running]
    exact (old alive).carry alive (by simp [running]) rfl rfl rfl rfl
      (fun zombie => by simp [running] at zombie)
  | sleep running chan | exit running parent status =>
    have alive : proc.state ≠ .unused := by simp [running]
    exact (old alive).carry alive (by simp [running]) rfl rfl rfl rfl
      (fun zombie => by simp [running] at zombie)
  | exitBegin running now =>
    exact (old live).carry live (by simp [running]) rfl rfl rfl rfl
      (fun zombie => by simp [running] at zombie)
  | _ => exact (old live).carry live (by grind) rfl rfl rfl rfl (fun _ _ => rfl)

/-! ## Whole runs -/

theorem Change.stime_int {table : Slot -> Proc} {ticks : Nat}
    (change : Change table ticks proc proc') : proc'.stime = proc.stime := by
  cases change with
  | wakeup chan =>
    rcases proc.wakeup_cases chan ticks with same | ⟨_, awake⟩
    · rw [same]
    · rw [awake]
      rfl
  | kill =>
    rcases proc.kill_cases ticks with same | ⟨_, awake⟩
    · rw [same]
    · rw [awake]
      rfl
  | userinit free pid =>
    unfold Proc.yielded
    split
    · rfl
    · rfl
  | yield running =>
    rw [Proc.yielded_running running]
    rfl
  | _ => rfl

theorem stime_tick {proc : Proc} (int : int32 proc.stime = proc.stime) (now : Nat) :
    int32 (proc.ticked.wakeup .ticks now).stime = (proc.ticked.wakeup .ticks now).stime := by
  have ticked : int32 proc.ticked.stime = proc.ticked.stime := by
    unfold Proc.ticked
    split
    · exact int32_int32 _
    · exact int
    · exact int
    · exact int
  rcases proc.ticked.wakeup_cases .ticks now with same | ⟨_, awake⟩
  · rw [same]
    exact ticked
  · rw [awake]
    exact ticked

variable [DecidableEq H] {build : Build} {state after : State H} {tally : Slot -> Tally}

/-- Along every run the records of live processes agree with the tally. -/
theorem Runs.accounted
    (run : Runs build Tally.observe (fun _ => .start Proc.zero) state tally) (slot : Slot) :
    int32 (state.proc slot).stime = (state.proc slot).stime ∧
      ((state.proc slot).state ≠ .unused -> Accounted (state.proc slot) (tally slot)) := by
  induction run with
  | boot =>
    have none : int32 0 = 0 := by decide
    exact ⟨none, fun live => (live rfl).elim⟩
  | @step event before after notes past taken ih =>
    by_cases clock : event = .clockintr
    · subst clock
      cases taken
      refine ⟨stime_tick ih.1 _, fun live => ?_⟩
      have alive : (before.proc slot).state ≠ .unused := by
        intro free
        apply live
        simp only [State.clockintr]
        rw [Proc.wakeup_awake (by simp [free])]
        simpa using free
      exact (ih.2 alive).tick _
    · have change := (step_change past.inv taken clock).2 slot
      refine ⟨by rw [change.stime_int]; exact ih.1, fun live => ?_⟩
      have moved : Tally.observe event before after notes slot =
          (notes slot).move (before.proc slot) (after.proc slot) := by
        cases event with
        | clockintr => exact (clock rfl).elim
        | _ => rfl
      rw [moved]
      exact change.accounted (past.inv.free_clean slot) ih.1 ih.2 live

/-- Exact time accounting.  In every run the counters of every process from
its `allocproc` until it is reaped are the numbers of clock interrupts that
found it running, runnable and sleeping, and `tickcounter` counts those that
found it running since its latest dispatch.  They are exact as long as the
number fits into a C `int`.  Nothing of this changes once the process is a
zombie, and it is what `wait_stat` copies out. -/
theorem accounting_exact (build : Build) (state : State H) (tally : Slot -> Tally)
    (run : Runs build Tally.observe (fun _ => .start Proc.zero) state tally) (slot : Slot)
    (live : (state.proc slot).state ≠ .unused) :
    ((state.proc slot).rutime = int32 (tally slot).running ∧
      (state.proc slot).retime = int32 (tally slot).runnable ∧
      (state.proc slot).stime = int32 ((tally slot).stime + (tally slot).sleeping) ∧
      (state.proc slot).tickcounter = int32 (tally slot).sinceDispatch) ∧
    (((tally slot).running < 2 ^ 31 -> (state.proc slot).rutime = (tally slot).running) ∧
      ((tally slot).runnable < 2 ^ 31 -> (state.proc slot).retime = (tally slot).runnable) ∧
      (0 ≤ (tally slot).stime -> (tally slot).stime + (tally slot).sleeping < 2 ^ 31 ->
        (state.proc slot).stime - (tally slot).stime = (tally slot).sleeping) ∧
      ((tally slot).sinceDispatch < 2 ^ 31 ->
        (state.proc slot).tickcounter = (tally slot).sinceDispatch)) ∧
    ((state.proc slot).state = .zombie -> Perf.of (state.proc slot) = (tally slot).atExit) ∧
    forall hart perf after, state.waitStat hart slot = some (perf, after) ->
      perf = (tally slot).atExit ∧ perf.rutime = int32 (tally slot).running ∧
        perf.retime = int32 (tally slot).runnable ∧
        perf.stime = int32 ((tally slot).stime + (tally slot).sleeping) := by
  have accounted := (run.accounted slot).2 live
  refine ⟨⟨accounted.rutime, accounted.retime, accounted.stime, accounted.tickcounter⟩,
    ⟨?_, ?_, ?_, ?_⟩, accounted.frozen, ?_⟩
  · intro small
    rw [accounted.rutime, int32_eq_self (by omega) (by omega)]
  · intro small
    rw [accounted.retime, int32_eq_self (by omega) (by omega)]
  · intro positive small
    rw [accounted.stime, int32_eq_self (by omega) (by omega)]
    omega
  · intro small
    rw [accounted.tickcounter, int32_eq_self (by omega) (by omega)]
  · intro hart perf after waited
    rcases Option.bind_eq_some_iff.mp waited with ⟨parent, current, found⟩
    simp only [Option.ite_none_right_eq_some, Option.some.injEq, Prod.mk.injEq] at found
    rcases found with ⟨⟨_, zombie⟩, rfl, _⟩
    exact ⟨accounted.frozen zombie, accounted.rutime, accounted.retime, accounted.stime⟩

/-- A child that is created, runs for two ticks and exits while its parent
sleeps. -/
theorem child_accounted :
    ∃ (state : State Unit) (tally : Slot -> Tally),
      (state.proc 1).state = .zombie ∧ (tally 1).running = 2 ∧
        (state.proc 1).rutime = int32 (tally 1).running ∧
        Perf.of (state.proc 1) = (tally 1).atExit := by
  have start : Runs .DEFAULT Tally.observe (fun _ => .start Proc.zero)
      (State.boot : State Unit) (fun _ => .start Proc.zero) := .boot
  have run := start.exec
    [.userinit 0, .dispatch () 0, .allocproc () 1 true, .link (), .publish (),
      .sleep () (.proc 0), .dispatch () 1, .clockintr, .clockintr, .exitBegin (),
      .exit () 7, .clockintr] rfl
  have exact := accounting_exact .DEFAULT _ _ run 1 (by decide)
  exact ⟨_, _, rfl, rfl, exact.1.1, exact.2.2.1 rfl⟩

/-- The first process may run for any number of ticks. -/
theorem running_for (ticks : Nat) :
    ∃ (state : State Unit) (tally : Slot -> Tally),
      Runs .DEFAULT Tally.observe (fun _ => .start Proc.zero) state tally ∧
        (state.proc 0).state = .running ∧ (tally 0).running = ticks := by
  induction ticks with
  | zero =>
    have start : Runs .DEFAULT Tally.observe (fun _ => .start Proc.zero)
        (State.boot : State Unit) (fun _ => .start Proc.zero) := .boot
    exact ⟨_, _, start.exec [.userinit 0, .dispatch () 0] rfl, rfl, rfl⟩
  | succ ticks ih =>
    rcases ih with ⟨state, tally, past, running, count⟩
    have taken : step .DEFAULT .clockintr state = some state.clockintr := rfl
    refine ⟨_, _, past.step taken, ?_, ?_⟩
    · simp only [State.clockintr]
      rw [Proc.wakeup_awake (by simp [running])]
      simpa using running
    · simp [Tally.observe, Tally.tick, running, count]

/-- After 2^31 ticks of the same process `rutime` is negative. -/
theorem rutime_wraps :
    ∃ (state : State Unit) (tally : Slot -> Tally),
      Runs .DEFAULT Tally.observe (fun _ => .start Proc.zero) state tally ∧
        (state.proc 0).state = .running ∧ (tally 0).running = 2 ^ 31 ∧
        (state.proc 0).rutime = -2 ^ 31 := by
  rcases running_for (2 ^ 31) with ⟨state, tally, run, running, count⟩
  have accounted := (run.accounted 0).2 (by simp [running])
  refine ⟨state, tally, run, running, count, ?_⟩
  rw [accounted.rutime, count]
  decide

end Table
end Xv6
