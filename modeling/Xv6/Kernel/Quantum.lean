import Xv6.Kernel.Verification
import Xv6.Conc.Solo

namespace Xv6
namespace Kernel

open Conc List Nat Prog Leads
open Function (update update_of_ne update_self)

/-!
# The quantum

The counter of a RUNNING process is advanced by the hart that keeps the clock
and tested, for equality, by the hart that runs the process.  On a single hart
the two are the same, so the counter stops at the quantum and the estimate of
the burst stays within its bounds.  With several harts the test can come too
late; it does not as long as no tick falls into the wrong moment.
-/

variable {H : Type} {cpu : Cpu H} {proc : Proc} {slot : Slot}

/-- Between a failed test of the quantum and the end of the trap a hart takes
no lock, and while it executes user code no trap is in progress. -/
structure Cpu.Calm (cpu : Cpu H) : Prop where
  window : cpu.window = true -> cpu.held = [] ∧ cpu.want = none
  user : cpu.user = true -> cpu.trap = .none

theorem Cpu.Calm.unspared (calm : cpu.Calm) {lock : Lock} (held : lock ∈ cpu.held) :
    cpu.window = false := by
  cases window : cpu.window with
  | false => rfl
  | true =>
    rw [(calm.window window).1] at held
    cases held

variable [DecidableEq H] {build : Build} {thread : Thread H} {hart : H} {state after : State H}

theorem Cpu.Calm.setCpu (calm : ∀ hart, (state.cpu hart).Calm) (new : cpu.Calm) (any : H) :
    ((state.setCpu hart cpu).cpu any).Calm :=
  (Function.forall_update_iff state.cpu (fun _ cpu => cpu.Calm)).mpr
    ⟨new, fun other _ => calm other⟩ any

theorem Act.calm (act : Act build thread hart state after)
    (calm : ∀ hart, (state.cpu hart).Calm) : ∀ hart, (after.cpu hart).Calm := by
  have here := calm hart
  cases act with
  | want old lock _ _ spare =>
    refine Cpu.Calm.setCpu calm ⟨fun window => ?_, here.user⟩
    cases spare.symm.trans window
  | popOff =>
    exact Cpu.Calm.setCpu calm ⟨fun window => ⟨(here.window window).1, rfl⟩, here.user⟩
  | grab lock wants =>
    refine Cpu.Calm.setCpu calm ⟨fun window => ?_, here.user⟩
    cases wants.symm.trans (here.window window).2
  | drop lock ready | doze slot chan lock _ _ _ ready =>
    refine Cpu.Calm.setCpu calm ⟨fun window => ?_, here.user⟩
    cases (here.unspared ready.member).symm.trans window
  | enable | enterUser | timerDone | swtchOut =>
    refine Cpu.Calm.setCpu calm ⟨fun window => ?_, fun _ => rfl⟩
    cases window
  | trapped =>
    refine Cpu.Calm.setCpu calm ⟨here.window, fun user => ?_⟩
    cases user
  | spared _ quiet => exact Cpu.Calm.setCpu calm ⟨fun _ => ⟨quiet.held, quiet.want⟩, here.user⟩
  | tickStart _ _ first =>
    refine Cpu.Calm.setCpu calm ⟨here.window, fun user => ?_⟩
    cases first.symm.trans (here.user user)
  | tick slot _ _ cursor =>
    refine Cpu.Calm.setCpu calm ⟨here.window, fun user => ?_⟩
    cases cursor.symm.trans (here.user user)
  | markRunning | setCurrent | swtchIn | clearCurrent | takePid | alloc | copyStatus | reap
  | returned | adopt | exitCalled => exact Cpu.Calm.setCpu calm ⟨here.window, here.user⟩
  | woke chan marks =>
    obtain ⟨_, _, same⟩ := state.woke_eq hart chan marks
    rw [same]
    exact Cpu.Calm.setCpu calm ⟨here.window, here.user⟩
  | _ => exact calm

theorem KStep.calm (step : KStep build thread hart state after)
    (calm : ∀ hart, (state.cpu hart).Calm) : ∀ hart, (after.cpu hart).Calm := by
  cases step with
  | act _ act => exact act.calm calm
  | resume | back => exact Cpu.Calm.setCpu calm ⟨(calm hart).window, (calm hart).user⟩

omit [DecidableEq H] in
theorem boot_calm (hart : H) : ((boot : State H).cpu hart).Calm := by
  constructor
  · intro window
    cases window
  · intro _
    rfl

/-! ## One hart -/

/-- The counter and the estimate are within their bounds. -/
def Proc.Paced (proc : Proc) : Prop :=
  (0 ≤ proc.tickcounter ∧ proc.tickcounter ≤ QUANTUM) ∧
    0 ≤ proc.averageBursttime ∧ proc.averageBursttime ≤ 100 * QUANTUM

/-- The new estimate is a mean of the old one and of the last burst. -/
theorem Proc.Paced.averaged (paced : Proc.Paced proc) : Proc.Paced proc.averaged := by
  rcases paced with ⟨⟨low, high⟩, least, most⟩
  have high5 : proc.tickcounter ≤ 5 := high
  have most500 : proc.averageBursttime ≤ 500 := most
  have burst : int32 (ALPHA * proc.tickcounter) = 50 * proc.tickcounter :=
    int32_eq_self (by unfold ALPHA; omega) (by unfold ALPHA; omega)
  have old : int32 ((100 - ALPHA) * proc.averageBursttime) = 50 * proc.averageBursttime :=
    int32_eq_self (by unfold ALPHA; omega) (by unfold ALPHA; omega)
  have share : 0 ≤ (50 * proc.averageBursttime).tdiv 100 ∧
      (50 * proc.averageBursttime).tdiv 100 ≤ 250 := by
    rw [Int.tdiv_eq_ediv_of_nonneg (by omega)]
    omega
  have mean : proc.averaged.averageBursttime =
      50 * proc.tickcounter + (50 * proc.averageBursttime).tdiv 100 := by
    simp only [Proc.averaged, burst, old]
    exact int32_eq_self (by omega) (by omega)
  refine ⟨⟨low, high⟩, ?_⟩
  rw [mean, QUANTUM]
  omega

theorem Proc.ticked_tickcounter (low : 0 ≤ proc.tickcounter) (high : proc.tickcounter ≤ QUANTUM) :
    proc.ticked.tickcounter =
      if proc.state = .running then proc.tickcounter + 1 else proc.tickcounter := by
  unfold QUANTUM at high
  have next : int32 (proc.tickcounter + 1) = proc.tickcounter + 1 :=
    int32_eq_self (by omega) (by omega)
  cases same : proc.state <;> simp [Proc.ticked, same, next]

/-- A process as `allocproc` and `fork` leave it. -/
theorem Proc.Paced.fresh (counter : proc.tickcounter = 0)
    (average : proc.averageBursttime = QUANTUM * 100) : Proc.Paced proc := by
  unfold Proc.Paced
  rw [counter, average]
  decide

theorem Proc.Paced.freed (paced : Proc.Paced proc) : Proc.Paced proc.freed := by
  have zero : (0 : Int) ≤ 100 * QUANTUM := by decide
  exact ⟨paced.1, Int.le_refl 0, zero⟩

/-- What bounds the counters on a single hart.  The process that executes has
not used up its quantum, unless the trap in progress has just counted it. -/
structure Paced (state : State H) : Prop where
  record : forall slot, Proc.Paced (state.proc slot)
  spare : forall hart slot, (state.cpu hart).cur = .proc slot ->
    (state.proc slot).tickcounter < QUANTUM ∨ (state.cpu hart).window = false ∧
        ∃ visited, slot.val < visited ∧ (state.cpu hart).trap = .ticking visited

namespace Paced

section

variable (paced : Paced state)

include paced

/-- A step that changes the record of the hart alone. -/
theorem of_hart (cpus : after.cpu = update state.cpu hart cpu) (procs : after.proc = state.proc)
    (spare : ∀ slot, cpu.cur = .proc slot -> (state.proc slot).tickcounter < QUANTUM ∨
      cpu.window = false ∧ ∃ visited, slot.val < visited ∧ cpu.trap = .ticking visited) :
    Paced after := by
  refine ⟨fun slot => procs ▸ paced.record slot, fun any slot => ?_⟩
  rw [cpus, procs]
  by_cases here : any = hart
  · subst here
    rw [update_self]
    exact spare slot
  · rw [update_of_ne here]
    exact paced.spare any slot

omit [DecidableEq H] in
/-- A step that changes one process and does not advance its counter. -/
theorem of_record {any : Slot} (cpus : after.cpu = state.cpu)
    (procs : after.proc = update state.proc any proc) (new : Proc.Paced proc)
    (less : proc.tickcounter ≤ (state.proc any).tickcounter) : Paced after := by
  refine ⟨fun slot => ?_, fun hart slot => ?_⟩
  · rw [procs]
    by_cases here : slot = any
    · rw [here, update_self]
      exact new
    · rw [update_of_ne here]
      exact paced.record slot
  · rw [cpus, procs]
    intro cur
    refine (paced.spare hart slot cur).imp_left (fun below => ?_)
    by_cases here : slot = any
    · subst here
      rw [update_self]
      exact Int.lt_of_le_of_lt less below
    · rw [update_of_ne here]
      exact below

/-- A step that changes both and leaves the trap and the thread alone. -/
theorem of_both {any : Slot} (cpus : after.cpu = update state.cpu hart cpu)
    (procs : after.proc = update state.proc any proc)
    (spare : ∀ slot, cpu.cur = .proc slot -> (state.proc slot).tickcounter < QUANTUM ∨
      cpu.window = false ∧ ∃ visited, slot.val < visited ∧ cpu.trap = .ticking visited)
    (new : Proc.Paced proc) (less : proc.tickcounter ≤ (state.proc any).tickcounter) :
    Paced after := by
  have first : Paced (state.setCpu hart cpu) := paced.of_hart rfl rfl spare
  exact first.of_record cpus procs new less

omit [DecidableEq H] in
/-- Where the trap may end the process that executes has not used up its
quantum. -/
theorem below_of_settled (tests : build ≠ .FCFS) (settled : (state.cpu hart).Settled build)
    (cur : (state.cpu hart).cur = .proc slot) : (state.proc slot).tickcounter < QUANTUM := by
  rcases paced.spare hart slot cur with below | ⟨closed, visited, _, ticking⟩
  · exact below
  · cases closed.symm.trans (settled tests visited ticking)

omit [DecidableEq H] in
theorem below_of_trap (still : ∀ visited, (state.cpu hart).trap ≠ .ticking visited)
    (cur : (state.cpu hart).cur = .proc slot) : (state.proc slot).tickcounter < QUANTUM := by
  rcases paced.spare hart slot cur with below | ⟨_, visited, _, ticking⟩
  · exact below
  · exact (still visited ticking).elim

/-- On a single hart the tick counts the process that executes, which has not
been counted in this trap. -/
theorem tick (inv : Inv state) (active : Active thread hart state)
    (single : ∀ any : H, any = hart) (calm : (state.cpu hart).Calm)
    (held : .proc slot ∈ (state.cpu hart).held) (cursor : (state.cpu hart).trap = .ticking slot.val)
    (dispatch : (state.cpu hart).dispatch = none)
    (idle : ∀ other, thread = .sched other -> (state.cpu hart).proc = none) :
    Paced (state.tick hart slot) := by
  have record := paced.record slot
  have executes : (state.proc slot).state = .running -> (state.cpu hart).cur = .proc slot := by
    intro running
    have current : (state.cpu hart).proc = some slot := by
      rcases inv.running slot running with ⟨there, current⟩ | ⟨there, marked⟩
      · rw [← single there]
        exact current
      · rw [single there, dispatch] at marked
        cases marked
    cases thread with
    | sched other => cases (idle other rfl).symm.trans current
    | proc self =>
      have own := ((inv.cpu hart).process self active.1).1
      cases own.symm.trans current
      exact active.1
  have room : (state.proc slot).state = .running -> (state.proc slot).tickcounter < QUANTUM := by
    intro running
    rcases paced.spare hart slot (executes running) with below | ⟨_, visited, beyond, ticking⟩
    · exact below
    · cases cursor.symm.trans ticking
      exact (lt_irrefl _ beyond).elim
  have counter := Proc.ticked_tickcounter record.1.1 record.1.2
  have average : (state.proc slot).ticked.averageBursttime =
      (state.proc slot).averageBursttime := by
    rcases (state.proc slot).ticked_eq with ⟨_, _, _, _, same⟩
    rw [same]
  refine ⟨fun any => ?_, fun any other cur => ?_⟩
  · by_cases here : any = slot
    · subst here
      have new : Proc.Paced (state.proc any).ticked := by
        refine ⟨?_, average ▸ record.2⟩
        rw [counter]
        split
        · next running =>
            have below := room running
            have low := record.1.1
            omega
        · exact record.1
      simpa [State.tick, State.setProc] using new
    · simpa [State.tick, State.setProc, State.setCpu, update_of_ne here] using paced.record any
  · have same := single any
    subst same
    have cur : (state.cpu any).cur = .proc other := by
      simpa [State.tick, State.setProc] using cur
    have closed := calm.unspared held
    simp only [State.tick, State.setProc, cpu_setCpu_self]
    by_cases here : other = slot
    · exact Or.inr ⟨closed, _, by rw [here]; exact lt_succ_self _, rfl⟩
    · rw [update_of_ne here]
      refine (paced.spare any other cur).imp id ?_
      rintro ⟨_, visited, beyond, ticking⟩
      cases cursor.symm.trans ticking
      exact ⟨closed, _, lt_succ_of_lt beyond, rfl⟩

end

end Paced

theorem Act.paced (act : Act build thread hart state after) (inv : Inv state)
    (active : Active thread hart state) (single : ∀ any : H, any = hart)
    (tests : build ≠ .FCFS) (calm : ∀ any, (state.cpu any).Calm) (paced : Paced state) :
    Paced after := by
  have here := paced.spare hart
  have settles : (state.cpu hart).Settled build -> ∀ slot,
      (state.cpu hart).cur = .proc slot -> (state.proc slot).tickcounter < QUANTUM :=
    fun settled _ cur => paced.below_of_settled tests settled cur
  cases act with
  | want | popOff | grab | drop | doze | takePid | setCurrent | clearCurrent | copyStatus
  | returned => exact paced.of_hart rfl rfl here
  | enable _ settled | enterUser _ _ _ settled | timerDone _ _ _ settled =>
    exact paced.of_hart rfl rfl (fun slot cur => Or.inl (settles settled slot cur))
  | trapped taken =>
    have quiet : (state.cpu hart).trap = .none := by
      rcases taken with on | user
      · exact ((inv.cpu hart).calm (Or.inl on)).1
      · exact (calm hart).user user
    refine paced.of_hart rfl rfl
      (fun slot cur => Or.inl (paced.below_of_trap (fun visited => ?_) cur))
    rw [quiet]
    exact Trap.noConfusion
  | spared _ quiet _ unused =>
    refine paced.of_hart rfl rfl (fun slot cur => Or.inl ?_)
    have current := ((inv.cpu hart).process slot cur).1
    have unheld : .proc slot ∉ (state.cpu hart).held := by
      rw [quiet.held]
      exact not_mem_nil
    have running := (inv.running_of_unheld current unheld).1
    exact lt_of_le_of_ne (paced.record slot).1.2 (unused slot current running)
  | tickStart _ _ first =>
    refine paced.of_hart rfl rfl
      (fun slot cur => Or.inl (paced.below_of_trap (fun visited => ?_) cur))
    rw [first]
    exact Trap.noConfusion
  | tick slot held _ cursor dispatch idle =>
    exact paced.tick inv active single (calm hart) held cursor dispatch idle
  | swtchIn slot _ _ _ _ cleared =>
    refine paced.of_hart rfl rfl (fun other cur => Or.inl ?_)
    cases cur
    rw [cleared]
    decide
  | swtchOut slot =>
    refine paced.of_hart rfl rfl (fun other cur => ?_)
    cases cur
  | clearTicks slot =>
    have zero : (0 : Int) ≤ QUANTUM := by decide
    exact paced.of_record rfl rfl ⟨⟨Int.le_refl 0, zero⟩, (paced.record slot).2⟩
      (paced.record slot).1.1
  | copy slot => exact paced.of_record rfl rfl (.fresh rfl rfl) (paced.record slot).1.1
  | alloc slot => exact paced.of_both rfl rfl here (.fresh rfl rfl) (paced.record slot).1.1
  | discard slot => exact paced.of_record rfl rfl (paced.record slot).freed (Int.le_refl _)
  | reap slot => exact paced.of_both rfl rfl here (paced.record slot).freed (Int.le_refl _)
  | edit slot proc _ inert =>
    have record := paced.record slot
    refine paced.of_record rfl rfl ?_ ?_
    · rw [inert]
      exact record
    · rw [inert]
  | fault slot | setChan slot | setXstate slot | giveUp slot | fallAsleep slot | die slot
  | wake slot | link slot | publish slot =>
    exact paced.of_record rfl rfl (paced.record slot) (Int.le_refl _)
  | markRunning slot | adopt slot =>
    exact paced.of_both rfl rfl here (paced.record slot) (Int.le_refl _)
  | exitCalled slot =>
    have record := paced.record slot
    exact paced.of_both rfl rfl here ⟨record.1, record.2⟩ (Int.le_refl _)
  | pipe => exact ⟨paced.record, paced.spare⟩
  | woke chan marks =>
    obtain ⟨_, _, same⟩ := state.woke_eq hart chan marks
    rw [same]
    exact paced.of_hart rfl rfl here

theorem KStep.paced (step : KStep build thread hart state after) (inv : Inv state)
    (single : ∀ any : H, any = hart) (tests : build ≠ .FCFS)
    (calm : ∀ any, (state.cpu any).Calm) (paced : Paced state) : Paced after := by
  cases step with
  | act active act => exact act.paced inv active single tests calm paced
  | resume slot => exact paced.of_hart rfl rfl (paced.spare hart)
  | back slot =>
    exact paced.of_both rfl rfl (paced.spare hart) (paced.record slot).averaged (Int.le_refl _)

omit [DecidableEq H] in
theorem boot_paced : Paced (boot : State H) := by
  constructor
  · intro slot
    simp only [boot]
    split
    · exact .fresh rfl rfl
    · exact ⟨⟨Int.le_refl 0, by decide⟩, Int.le_refl 0, by decide⟩
  · intro hart slot cur
    cases cur

/-- In the builds with preemption and on a single hart, the counter of every
slot stays between 0 and the quantum and its estimate between 0 and one
hundred times the quantum, whatever the processes and the clock do. -/
theorem burst_estimate_bounded {setting : Setting H}
    {config : Config (State H) (Thread H) H Label}
    (single : forall hart : H, hart = setting.hart0) (tests : setting.build ≠ .FCFS)
    (reached : Reachable setting config) (slot : Slot) :
    (0 ≤ (config.1.proc slot).tickcounter ∧ (config.1.proc slot).tickcounter ≤ QUANTUM) ∧
      0 ≤ (config.1.proc slot).averageBursttime ∧
      (config.1.proc slot).averageBursttime ≤ 100 * QUANTUM := by
  have both := reached.induct (fun state => (forall hart, (state.cpu hart).Calm) ∧ Paced state)
    ⟨boot_calm, boot_paced⟩ (fun thread hart before after inv step ⟨calm, paced⟩ =>
      have alone : forall any : H, any = hart :=
        fun any => (single any).trans (single hart).symm
      ⟨step.calm calm, step.paced inv alone tests calm paced⟩)
  exact both.2.2.record slot

set_option maxRecDepth 40000 in
/-- On one hart the first process is dispatched, counted once by the clock and
put to sleep in `piperead`. -/
theorem burst_run : (machine (⟨(), .DEFAULT⟩ : Setting Unit)).Reaches (fun _ => True) start
    (fun config => (config.1.proc initproc).tickcounter = 1 ∧
      (config.1.proc initproc).averageBursttime = 300 ∧
      (config.1.proc initproc).state = .sleeping) := by
  refine .solo (.sched ()) () trivial (Leads.drive 100 rfl (stop ?_))
  refine .solo (.proc initproc) () trivial ?_
  refine Leads.drive 100 rfl (choose Activity.done rfl trivial ?_)
  refine Leads.drive 100 rfl (choose (Cause.irq .timer) rfl trivial ?_)
  refine Leads.drive 1500 rfl (choose (Cause.syscall (.piperead 0 1)) rfl trivial ?_)
  refine Leads.drive 100 rfl (stop ?_)
  refine .solo (.sched ()) () trivial (Leads.drive 1 rfl (stop ?_))
  exact .done ⟨rfl, rfl, rfl⟩

/-- After the first burst the estimate is below the one it started with. -/
theorem burst_estimate_bounded_sleeper :
    ∃ config, Reachable (⟨(), .DEFAULT⟩ : Setting Unit) config ∧
      (config.1.proc initproc).tickcounter = 1 ∧
      (config.1.proc initproc).averageBursttime = 300 ∧
      (config.1.proc initproc).state = .sleeping ∧
      (config.1.proc initproc).averageBursttime ≤ 100 * QUANTUM := by
  rcases burst_run.reach with ⟨config, reached, counter, average, sleeping⟩
  have tests : (Build.DEFAULT : Build) ≠ .FCFS := by decide
  exact ⟨config, reached, counter, average, sleeping,
    (burst_estimate_bounded (fun _ => rfl) tests reached initproc).2.2⟩

/-! ## Several harts -/

/-- The ticks come in time: a tick never takes a counter beyond the quantum,
and when it takes one to the quantum the hart that runs the process is not
between its own test and the end of its trap. -/
def TicksInTime (before after : State H) : Prop :=
  forall slot, (before.proc slot).tickcounter < (after.proc slot).tickcounter ->
    (after.proc slot).tickcounter ≤ QUANTUM ∧ ((after.proc slot).tickcounter = QUANTUM ->
        forall hart, (before.cpu hart).proc = some slot -> (before.cpu hart).window = false)

/-- No counter is beyond the quantum, and a hart whose test has failed runs a
process that has not used up its quantum. -/
structure Tested (state : State H) : Prop where
  bound : forall slot, (state.proc slot).tickcounter ≤ QUANTUM
  below : forall hart slot, (state.cpu hart).window = true ->
    (state.cpu hart).proc = some slot -> (state.proc slot).tickcounter < QUANTUM

omit [DecidableEq H] in
/-- A step that opens no window and gives no hart with one a process. -/
theorem Tested.of_inTime (tested : Tested state) (inTime : TicksInTime state after)
    (kept : ∀ hart slot, (after.cpu hart).window = true -> (after.cpu hart).proc = some slot ->
      ((state.cpu hart).window = true ∧ (state.cpu hart).proc = some slot) ∨
        (after.proc slot).tickcounter < QUANTUM) : Tested after := by
  have grown := fun slot =>
    lt_or_ge (state.proc slot).tickcounter (after.proc slot).tickcounter
  refine ⟨fun slot => ?_, fun hart slot window current => ?_⟩
  · rcases grown slot with more | less
    · exact (inTime slot more).1
    · exact Int.le_trans less (tested.bound slot)
  · rcases kept hart slot window current with ⟨open_, mine⟩ | below
    · rcases grown slot with more | less
      · refine lt_of_le_of_ne (inTime slot more).1 (fun full => ?_)
        cases ((inTime slot more).2 full hart mine).symm.trans open_
      · exact Int.lt_of_le_of_lt less (tested.below hart slot open_ mine)
    · exact below

/-- The hart that acts gets a new record; nothing changes for the others. -/
theorem window_update {cpus : H -> Cpu H} {any : H} {holds : Prop}
    (window : (update cpus hart cpu any).window = true)
    (current : (update cpus hart cpu any).proc = some slot)
    (here : cpu.window = true -> cpu.proc = some slot ->
      ((cpus hart).window = true ∧ (cpus hart).proc = some slot) ∨ holds) :
    ((cpus any).window = true ∧ (cpus any).proc = some slot) ∨ holds := by
  by_cases own : any = hart
  · subst own
    rw [update_self] at window current
    exact here window current
  · rw [update_of_ne own] at window current
    exact Or.inl ⟨window, current⟩

/-- A window opens only where the quantum has been tested. -/
theorem Act.window_cases (act : Act build thread hart state after) (inv : Inv state)
    (calm : ∀ any, (state.cpu any).Calm) {any : H} (window : (after.cpu any).window = true)
    (current : (after.cpu any).proc = some slot) :
    ((state.cpu any).window = true ∧ (state.cpu any).proc = some slot) ∨
      ((after.proc slot).tickcounter = (state.proc slot).tickcounter ∧
        (state.proc slot).tickcounter ≠ QUANTUM) := by
  cases act with
  | want | popOff | grab | drop | doze | trapped | tickStart | tick | markRunning | swtchIn
  | takePid | alloc | copyStatus | reap | returned | adopt | exitCalled =>
    exact window_update window current (fun same mine => Or.inl ⟨same, mine⟩)
  | enable | enterUser | timerDone | swtchOut =>
    exact window_update window current (fun none => by cases none)
  | spared _ quiet _ unused =>
    refine window_update window current (fun _ mine => Or.inr ⟨rfl, ?_⟩)
    have unheld : .proc slot ∉ (state.cpu hart).held := by
      rw [quiet.held]
      exact not_mem_nil
    exact unused slot mine (inv.running_of_unheld mine unheld).1
  | setCurrent other dispatch =>
    refine window_update window current (fun same _ => ?_)
    have held := ((inv.cpu hart).dispatching other dispatch).1
    cases ((calm hart).unspared held).symm.trans same
  | clearCurrent =>
    exact window_update window current (fun _ none => by cases none)
  | woke chan marks =>
    obtain ⟨_, _, same⟩ := state.woke_eq hart chan marks
    rw [same] at window current
    exact window_update window current (fun same mine => Or.inl ⟨same, mine⟩)
  | _ => exact Or.inl ⟨window, current⟩

theorem KStep.tested (step : KStep build thread hart state after) (inv : Inv state)
    (calm : ∀ any, (state.cpu any).Calm) (inTime : TicksInTime state after)
    (tested : Tested state) : Tested after := by
  refine tested.of_inTime inTime (fun any slot window current => ?_)
  cases step with
  | resume | back => exact window_update window current (fun same mine => Or.inl ⟨same, mine⟩)
  | act _ act =>
    refine (act.window_cases inv calm window current).imp_right (fun ⟨same, unused⟩ => ?_)
    rw [same]
    exact lt_of_le_of_ne (tested.bound slot) unused

/-- A trap that ends without a call of `yield` has tested the quantum. -/
theorem KStep.spared_of_timer {place : H} (step : KStep build thread place state after)
    (ended : after.log = .timer hart false :: state.log) : (state.cpu hart).window = true := by
  have silent : state.log ≠ .timer hart false :: state.log :=
    fun same => cons_ne_self _ _ same.symm
  cases step with
  | resume | back => exact (silent ended).elim
  | act _ act =>
    cases act with
    | timerDone yielded _ _ _ tested =>
      cases ended
      exact tested rfl
    | reap | returned | link | exitCalled => cases ended
    | woke chan marks =>
      obtain ⟨_, _, same⟩ := state.woke_eq place chan marks
      rw [same] at ended
      exact (silent ended).elim
    | _ => exact (silent ended).elim

omit [DecidableEq H] in
theorem boot_tested : Tested (boot : State H) := by
  refine ⟨fun slot => (boot_paced.record slot).1.2, fun _ _ window => ?_⟩
  cases window

/-- In every run whose ticks come in time, with any number of harts: a hart
that ends a timer trap without having yielded runs a process whose counter is
below the quantum. -/
theorem preempted_in_time {setting : Setting H} {config after : Config (State H) (Thread H) H Label}
    {thread : Thread H} (reached : ReachableBy setting TicksInTime config)
    (step : (machine setting).Step thread config after) {hart : H} {slot : Slot}
    (ended : after.1.log = .timer hart false :: config.1.log)
    (current : (config.1.cpu hart).proc = some slot) :
    (config.1.proc slot).tickcounter < QUANTUM := by
  have both := reached.induct (fun state => (forall hart, (state.cpu hart).Calm) ∧ Tested state)
    ⟨boot_calm, boot_tested⟩ (fun thread hart before after inv step inTime ⟨calm, tested⟩ =>
      ⟨step.calm calm, step.tested inv calm inTime tested⟩)
  have window : (config.1.cpu hart).window = true := by
    rcases reached.reachable.step step with same | ⟨place, taken⟩
    · rw [same] at ended
      exact (List.cons_ne_self _ _ ended.symm).elim
    · exact taken.spared_of_timer ended
  exact both.2.2.below hart slot window current

/-- No counter has been advanced yet. -/
def Unticked (state : State (Fin 2)) : Prop := forall slot, (state.proc slot).tickcounter = 0

instance : DecidablePred Unticked := fun state =>
  inferInstanceAs (Decidable (forall slot, (state.proc slot).tickcounter = 0))

/-- The last step of a timer trap of hart 1 that did not call `yield`. -/
theorem timer_trap_ends {now : State (Fin 2)} {pool : Thread (Fin 2) -> KProg (Fin 2) Unit}
    {rest : Unit -> KProg (Fin 2) Unit} (runs : (now.cpu 1).cur = .proc initproc)
    (current : (now.cpu 1).proc = some initproc)
    (program : pool (.proc initproc) =
      .act (fun hart state => some ((), state.timerDone hart false)) rest) :
    ∃ after, (machine (twoHarts .DEFAULT)).Step (.proc initproc) (now, pool) after ∧
      after.1.log = .timer 1 false :: now.log ∧ (now.cpu 1).proc = some initproc :=
  ⟨_, .act runs program rfl, rfl, current⟩

set_option maxRecDepth 40000 in
/-- A timer trap of hart 1 soon after it has dispatched the first process. -/
theorem early_trap_run : (machine (twoHarts .DEFAULT)).Reaches Unticked start (fun config =>
      ∃ after, (machine (twoHarts .DEFAULT)).Step (.proc initproc) config after ∧
        after.1.log = .timer 1 false :: config.1.log ∧
        (config.1.cpu 1).proc = some initproc) := by
  refine .solo (.sched 1) 1 (by decide) (Leads.drive 100 rfl (stop ?_))
  refine .solo (.proc initproc) 1 (by decide) ?_
  refine Leads.drive 100 rfl (choose Activity.done rfl (by decide) ?_)
  refine Leads.drive 100 rfl (choose (Cause.irq .timer) rfl (by decide) ?_)
  exact Leads.drive 8 rfl (stop (.done (timer_trap_ends rfl rfl (update_self ..))))

theorem preempted_in_time_early :
    ∃ config after, ReachableBy (twoHarts .DEFAULT) TicksInTime config ∧
      (machine (twoHarts .DEFAULT)).Step (.proc initproc) config after ∧
      after.1.log = .timer 1 false :: config.1.log ∧
      (config.1.cpu 1).proc = some initproc ∧
      (config.1.proc initproc).tickcounter < QUANTUM := by
  rcases early_trap_run with ⟨config, run, after, step, ended, current⟩
  have reached : ReachableBy (twoHarts .DEFAULT) TicksInTime config := by
    refine run.lift id (fun before after ⟨taken, before0, after0⟩ => ⟨taken, ?_⟩)
    intro slot more
    have still : (0 : Int) < 0 := (before0 slot ▸ after0 slot ▸ more :)
    exact (Int.lt_irrefl 0 still).elim
  exact ⟨config, after, reached, step, ended, current,
    preempted_in_time reached step ended current⟩

/-! ## A tick that comes too early -/

set_option maxRecDepth 100000 in
/-- Hart 1 executes the first process in user mode while hart 0, idle in its
scheduler, takes six timer traps; then the timer trap of hart 1 finds the
counter beyond the quantum. -/
theorem late_trap_run : (machine (twoHarts .DEFAULT)).Reaches (fun _ => True) start (fun config =>
      (∃ after, (machine (twoHarts .DEFAULT)).Step (.proc initproc) config after ∧
        after.1.log = .timer 1 false :: config.1.log ∧
        (config.1.cpu 1).proc = some initproc) ∧ (config.1.proc initproc).state = .running ∧
        (config.1.proc initproc).killed = false ∧ (config.1.proc initproc).tickcounter = 6) := by
  -- Hart 0 begins to scan the table; hart 1 dispatches the first process.
  refine .solo (.sched 0) 0 trivial (Leads.drive 2 rfl (stop ?_))
  refine .solo (.sched 1) 1 trivial (Leads.drive 100 rfl (stop ?_))
  refine .solo (.proc initproc) 1 trivial ?_
  refine Leads.drive 100 rfl (choose Activity.done rfl trivial ?_)
  refine Leads.drive 1 rfl (stop ?_)
  -- A trap of hart 0 visits every slot twice and returns to the scheduler.
  iterate 6
    refine .interrupt (.sched 0) 0 trivial rfl rfl (.solo (.sched 0) 0 trivial ?_)
    refine Leads.drive 1 rfl (choose Irq.timer rfl trivial ?_)
    refine Leads.drive 1037 rfl (stop ?_)
  refine .solo (.proc initproc) 1 trivial ?_
  refine Leads.drive 100 rfl (choose (Cause.irq .timer) rfl trivial ?_)
  refine Leads.drive 8 rfl (stop ?_)
  exact .done ⟨timer_trap_ends rfl rfl (update_self ..), rfl, rfl, rfl⟩

/-- The counter is tested for equality with the quantum only.  If the clock
counts a process six times between two timer traps of the hart that runs it,
the second trap ends without a call of `yield`. -/
theorem preemption_missed :
    ∃ config, Reachable (twoHarts .DEFAULT) config ∧
      ∃ after, (machine (twoHarts .DEFAULT)).Step (.proc initproc) config after ∧
        after.1.log = .timer 1 false :: config.1.log ∧
        (config.1.cpu 1).proc = some initproc ∧ (config.1.proc initproc).state = .running ∧
        (config.1.proc initproc).killed = false ∧
        QUANTUM ≤ (config.1.proc initproc).tickcounter := by
  rcases late_trap_run.reach with
    ⟨config, reached, ⟨after, step, ended, current⟩, running, alive, six⟩
  have beyond : QUANTUM ≤ (config.1.proc initproc).tickcounter := by
    rw [six]
    decide
  exact ⟨config, reached, after, step, ended, current, running, alive, beyond⟩

end Kernel
end Xv6
