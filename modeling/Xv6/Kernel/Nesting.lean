import Xv6.Kernel.Verification
import Xv6.Conc.Solo
import Mathlib.Data.Set.Card

namespace Xv6
namespace Kernel

open Conc Function State

/-!
# Nested critical sections and the interrupt bit

`noff` and `intena` are fields of the hart, but they describe the thread that
it executes.  A thread that is switched out leaves both behind, and `sched`
keeps only `intena`, in a variable of its own.  Here a thread is followed from
the `push_off` that takes `noff` from 0 to the `pop_off` that takes it back,
across any number of switches and harts.
-/

variable {H : Type} {state after : State H} {hart any : H} {slot : Slot} {old : Bool}

/-- The spinlocks that the hart holds. -/
def State.locksOf (state : State H) (hart : H) : Set Lock := { lock | state.lock lock = some hart }

/-- The process exists, and wherever its thread is executed `noff` is not 0. -/
def Inside (slot : Slot) (state : State H) : Prop :=
  (state.proc slot).state ≠ .unused ∧
    forall hart, (state.cpu hart).cur = .proc slot -> (state.cpu hart).noff ≠ 0

instance [Fintype H] [DecidableEq H] (slot : Slot) :
    DecidablePred (Inside slot : State H -> Prop) :=
  fun state => inferInstanceAs (Decidable ((state.proc slot).state ≠ .unused ∧
    forall hart, (state.cpu hart).cur = .proc slot -> (state.cpu hart).noff ≠ 0))

/-- The interrupt bit of before the outermost `push_off` of the thread is in
`intena` of the hart that executes it, or in its own variable while it is
switched out. -/
structure Remembers (slot : Slot) (old : Bool) (state : State H) : Prop where
  away : (state.task slot).susp = true -> (state.task slot).saved = some old
  here : forall hart, (state.cpu hart).cur = .proc slot -> (state.task slot).susp = false ->
    (state.cpu hart).intena = old

variable [DecidableEq H]

section

variable (setting : Setting H)

/-- The thread of the process has taken `noff` of its hart from 0 at a moment
at which the interrupt bit of the hart was `old`, and has not been back at 0
since.  It may have been switched out and resumed elsewhere. -/
def Nested (slot : Slot) (old : Bool) (config : Config (State H) (Thread H) H Label) : Prop :=
  ∃ hart before first, Reachable setting before ∧
    (before.1.cpu hart).cur = .proc slot ∧ (before.1.cpu hart).noff = 0 ∧
    (before.1.cpu hart).sie = old ∧
    (machine setting).Step (.proc slot) before first ∧ Inside slot first.1 ∧
    Relation.ReflTransGen (fun config after =>
      (∃ thread, (machine setting).Step thread config after) ∧
        Inside slot config.1 ∧ Inside slot after.1) first config

end

/-! ## What a step does to the nesting -/

/-- A hart with what its nesting consists of. -/
def Cpu.nest (cpu : Cpu H) : Nat × Bool × Thread H := (cpu.noff, cpu.intena, cpu.cur)

def Task.nest (task : Task) : Bool × Option Bool := (task.susp, task.saved)

/-- The steps by what they do to the nesting. -/
inductive NestStep (thread : Thread H) (hart : H) (state : State H) : State H -> Prop where
  | still {after : State H} (cpu : forall any, (after.cpu any).nest = (state.cpu any).nest)
      (task : forall slot, (after.task slot).nest = (state.task slot).nest) :
      NestStep thread hart state after
  | push (old : Bool) (lock : Option Lock)
      (saw : (state.cpu hart).noff = 0 -> old = (state.cpu hart).sie) :
      NestStep thread hart state (state.pushOff hart old lock)
  | pop : NestStep thread hart state (state.popOff hart)
  | swtchIn (slot : Slot) (self : thread = .sched hart)
      (current : (state.cpu hart).proc = some slot) :
      NestStep thread hart state (state.swtchIn hart slot)
  | swtchOut (slot : Slot) (self : thread = .proc slot)
      (held : (state.cpu hart).held = [.proc slot]) (want : (state.cpu hart).want = none) :
      NestStep thread hart state (state.swtchOut hart slot)
  | alloc (slot : Slot) (pid : Int) (free : (state.proc slot).state = .unused) :
      NestStep thread hart state (state.alloc hart slot pid)

omit [DecidableEq H] in
theorem nest_setTask {task : Task} (tasks : after.task = update state.task slot task)
    (same : task.nest = (state.task slot).nest) (any : Slot) :
    (after.task any).nest = (state.task any).nest := by
  rw [tasks, apply_update (fun _ => Task.nest), same]
  exact congrFun (update_eq_self slot (fun any => (state.task any).nest)) any

variable {build : Build} {thread : Thread H}

theorem Act.nests (act : Act build thread hart state after) :
    NestStep thread hart state after := by
  cases act with
  | want old lock _ saw => exact .push old lock saw
  | popOff => exact .pop
  | swtchIn slot self current => exact .swtchIn slot self current
  | swtchOut slot self held want => exact .swtchOut slot self held want
  | alloc slot pid _ _ _ _ free => exact .alloc slot pid free
  | woke chan marks =>
    obtain ⟨_, _, same⟩ := state.woke_eq hart chan marks
    rw [same]
    exact .still (setCpu_same Cpu.nest (by rfl)) (fun _ => rfl)
  | doze slot | copyStatus _ slot | returned slot | exitCalled slot =>
    exact .still (setCpu_same Cpu.nest (by rfl)) (nest_setTask (by rfl) (by rfl))
  | reap slot self =>
    have freed : ∀ any, ((state.free slot).task any).nest = (state.task any).nest :=
      nest_setTask (by rfl) (by rfl)
    have noted : ∀ any, ((state.reap hart self slot).task any).nest =
        ((state.free slot).task any).nest := nest_setTask (by rfl) (by rfl)
    exact .still (setCpu_same Cpu.nest (by rfl)) (fun any => (noted any).trans (freed any))
  | wake slot | discard slot | publish slot =>
    exact .still (fun _ => rfl) (nest_setTask (by rfl) (by rfl))
  | clearTicks | edit | fault | setChan | setXstate | giveUp | fallAsleep | die
  | copy | link | pipe => exact .still (fun _ => rfl) (fun _ => rfl)
  | _ => exact .still (setCpu_same Cpu.nest (by rfl)) (fun _ => rfl)

omit [DecidableEq H] in
theorem Remembers.of_nest (known : Remembers slot old state)
    (cpu : ∀ any, (after.cpu any).nest = (state.cpu any).nest)
    (task : (after.task slot).nest = (state.task slot).nest) : Remembers slot old after := by
  simp only [Cpu.nest, Task.nest, Prod.mk.injEq] at cpu task
  refine ⟨fun susp => ?_, fun any cur resumed => ?_⟩
  · rw [task.2]
    exact known.away (task.1 ▸ susp)
  · rw [(cpu any).2.1]
    exact known.here any ((cpu any).2.2 ▸ cur) (task.1 ▸ resumed)

/-- A hart that changes and executes the thread only if it did so before, with
the same `intena`. -/
theorem Remembers.setCpu (known : Remembers slot old state) {cpu : Cpu H}
    (same : cpu.cur = .proc slot -> (state.task slot).susp = false ->
      (state.cpu hart).cur = .proc slot ∧ cpu.intena = (state.cpu hart).intena) :
    Remembers slot old (state.setCpu hart cpu) := by
  refine ⟨known.away, fun any cur resumed => ?_⟩
  by_cases here : any = hart
  · subst here
    rw [cpu_setCpu_self] at cur ⊢
    rcases same cur resumed with ⟨before, kept⟩
    exact kept.trans (known.here any before resumed)
  · rw [cpu_setCpu_of_ne here] at cur ⊢
    exact known.here any cur resumed

omit [DecidableEq H] in
/-- The bookkeeping of another thread. -/
theorem Remembers.setTask (known : Remembers slot old state) {other : Slot} {task : Task}
    (different : slot ≠ other) : Remembers slot old (state.setTask other task) := by
  have still : (state.setTask other task).task slot = state.task slot := update_of_ne different ..
  exact ⟨fun susp => still ▸ known.away (still ▸ susp),
    fun any cur resumed => known.here any cur (still ▸ resumed)⟩

theorem NestStep.remembers (step : NestStep thread hart state after) (inv : Inv state)
    (active : Active thread hart state) (inside : Inside slot state)
    (known : Remembers slot old state) : Remembers slot old after := by
  cases step with
  | still cpu task => exact known.of_nest cpu (task slot)
  | push old lock saw =>
    refine known.setCpu (fun cur _ => ⟨cur, ?_⟩)
    exact if_neg (inside.2 hart cur)
  | pop => exact known.setCpu (fun cur _ => ⟨cur, rfl⟩)
  | swtchIn other self current =>
    refine known.setCpu (fun cur resumed => ?_)
    cases cur
    have susp := inv.parked hart slot (active.1.trans self) current
    cases susp.symm.trans resumed
  | swtchOut other self =>
    have cur := active.1.trans self
    by_cases same : slot = other
    · subst same
      refine ⟨fun _ => ?_, fun any _ resumed => ?_⟩
      · have kept := known.here hart cur (active.not_susp cur)
        simp [State.swtchOut, State.setTask, kept]
      · simp [State.swtchOut, State.setTask] at resumed
    · refine Remembers.setTask (known.setCpu (fun cur => ?_)) same
      cases cur
  | alloc other pid free =>
    have different : slot ≠ other := by
      rintro rfl
      exact inside.1 free
    refine Remembers.setTask ?_ different
    have kept : Remembers slot old
        (state.setCpu hart { state.cpu hart with resv := none }) :=
      known.setCpu (fun cur _ => ⟨cur, rfl⟩)
    exact ⟨kept.away, kept.here⟩

/-- A thread is executed on one hart, before and after its own step. -/
theorem KStep.same_hart (step : KStep build thread hart state after) (inv : Inv state)
    (cur : (state.cpu hart).cur = .proc slot) (there : (after.cpu any).cur = .proc slot) :
    any = hart := by
  by_contra other
  rw [step.cpu_other other] at there
  exact other (inv.cur_unique there cur)

theorem KStep.remembers (step : KStep build thread hart state after) (inv : Inv state)
    (inside : Inside slot state) (known : Remembers slot old state) :
    Remembers slot old after := by
  have step' := step
  cases step' with
  | act active act => exact act.nests.remembers inv active inside known
  | resume other intena self cur susp own =>
    have here := cur.trans self
    by_cases same : slot = other
    · subst same
      have kept : intena = old := by
        rw [known.away susp] at own
        rcases own with none | some
        · cases none
        · exact (Option.some.inj some).symm
      refine ⟨fun susp => ?_, fun any there _ => ?_⟩
      · simp [State.resumed, State.setTask] at susp
      · have only := step.same_hart inv here there
        subst only
        simpa [State.resumed, State.setTask] using kept
    · refine Remembers.setTask (known.setCpu (fun there => ?_)) same
      exact (same (Thread.proc.inj (there.symm.trans here))).elim
  | back other =>
    have kept : Remembers slot old
        (state.setCpu hart { state.cpu hart with away := false }) :=
      known.setCpu (fun cur _ => ⟨cur, rfl⟩)
    exact ⟨kept.away, kept.here⟩

/-- `push_off` and `pop_off`; any other step of the thread leaves `noff` alone. -/
theorem KStep.noff_cases (step : KStep build (.proc slot) hart state after) (inv : Inv state) :
    (state.cpu hart).cur = .proc slot ∧
    ((state.task slot).susp = false ∧
        ((∃ old lock, ((state.cpu hart).noff = 0 -> old = (state.cpu hart).sie) ∧
          after = state.pushOff hart old lock) ∨ after = state.popOff hart) ∨
      (after.cpu hart).noff = (state.cpu hart).noff ∧
        ((after.cpu hart).cur = .proc slot ∨ (state.cpu hart).noff ≠ 0)) := by
  cases step with
  | act active act =>
    refine ⟨active.1, ?_⟩
    cases act.nests with
    | still cpu =>
      have same := cpu hart
      simp only [Cpu.nest, Prod.mk.injEq] at same
      exact Or.inr ⟨same.1, Or.inl (same.2.2.trans active.1)⟩
    | push old lock saw => exact Or.inl ⟨active.2, Or.inl ⟨old, lock, saw, rfl⟩⟩
    | pop => exact Or.inl ⟨active.2, Or.inr rfl⟩
    | swtchIn _ self => cases self
    | swtchOut _ _ held =>
      refine Or.inr ⟨setCpu_same Cpu.noff (by rfl) hart, Or.inr ?_⟩
      have count := (inv.cpu hart).noff
      rw [held, List.length_singleton] at count
      omega
    | alloc other pid =>
      exact Or.inr ⟨setCpu_same Cpu.noff (by rfl) hart,
        Or.inl ((setCpu_same Cpu.cur (by rfl) hart).trans active.1)⟩
  | resume other intena _ cur =>
    exact ⟨cur, Or.inr ⟨setCpu_same Cpu.noff (by rfl) hart,
      Or.inl ((setCpu_same Cpu.cur (by rfl) hart).trans cur)⟩⟩
  | back _ self => cases self

/-- The outermost `push_off`. -/
theorem KStep.begins (step : KStep build (.proc slot) hart state after) (inv : Inv state)
    (outside : (state.cpu hart).noff = 0) (inside : Inside slot after) :
    Remembers slot (state.cpu hart).sie after := by
  rcases step.noff_cases inv with ⟨cur, ⟨resumed, ⟨old, lock, saw, rfl⟩ | rfl⟩ | ⟨same, here⟩⟩
  · refine ⟨fun susp => ?_, fun any there _ => ?_⟩
    · cases resumed.symm.trans susp
    · have only := step.same_hart inv cur there
      subst only
      simp [State.pushOff, Cpu.pushOff, outside, saw outside]
  · have deep := inside.2 hart (by simpa [State.popOff, Cpu.popOff] using cur)
    simp [State.popOff, Cpu.popOff, outside] at deep
  · rcases here with here | deep
    · exact (inside.2 hart here (same.trans outside)).elim
    · exact (deep outside).elim

/-- The last `pop_off`. -/
theorem KStep.ends (step : KStep build (.proc slot) hart state after) (inv : Inv state)
    (inside : Inside slot state) (known : Remembers slot old state)
    (outside : (after.cpu hart).noff = 0) : (after.cpu hart).sie = old := by
  rcases step.noff_cases inv with ⟨cur, ⟨resumed, ⟨_, lock, _, rfl⟩ | rfl⟩ | ⟨same, _⟩⟩
  · simp [State.pushOff, Cpu.pushOff] at outside
  · have deep := inside.2 hart cur
    have kept := known.here hart cur resumed
    have masked : (state.cpu hart).sie = false :=
      Bool.eq_false_iff.mpr (fun enabled => deep ((inv.cpu hart).masked enabled))
    simp only [State.popOff, cpu_setCpu_self, Cpu.popOff] at outside ⊢
    have last : (state.cpu hart).noff = 1 := by omega
    cases old <;> simp [last, kept, masked]
  · exact (inside.2 hart cur (same.symm.trans outside)).elim

/-! ## Whole runs -/

variable {setting : Setting H} {config : Config (State H) (Thread H) H Label}

theorem Nested.remembers (nested : Nested setting slot old config) :
    Reachable setting config ∧ Inside slot config.1 ∧ Remembers slot old config.1 := by
  rcases nested with ⟨hart, before, first, reached, cur, outside, rfl, step, inside, run⟩
  induction run with
  | refl =>
    refine ⟨.tail reached ⟨_, step⟩, inside, ?_⟩
    rcases reached.step step with same | ⟨place, taken⟩
    · rw [same] at inside
      exact (inside.2 hart cur outside).elim
    · have here := reached.inv.cur_unique (taken.noff_cases reached.inv).1 cur
      subst here
      exact taken.begins reached.inv outside inside
  | tail _ last ih =>
    rcases last with ⟨⟨thread, step⟩, inside, stays⟩
    rcases ih with ⟨reached, _, known⟩
    refine ⟨.tail reached ⟨thread, step⟩, stays, ?_⟩
    rcases reached.step step with same | ⟨place, taken⟩
    · exact same ▸ known
    · exact taken.remembers reached.inv inside known

omit [DecidableEq H] in
theorem Inv.ncard_locksOf (inv : Inv state) (hart : H) :
    (state.locksOf hart).ncard = (state.cpu hart).held.length := by
  have same : state.locksOf hart = (state.cpu hart).held.toFinset := by
    ext lock
    simp only [State.locksOf, Set.mem_ofPred_eq, List.coe_toFinset]
    exact inv.holder lock hart
  rw [same, Set.ncard_coe_finset, List.toFinset_card_of_nodup (inv.cpu hart).nodup]

/-- A thread that gives up its hart holds one lock. -/
theorem KStep.noff_of_swtch {place : H} (step : KStep build thread place state after)
    (inv : Inv state) (cur : (state.cpu hart).cur = .proc slot)
    (gone : (after.cpu hart).cur = .sched hart) : (state.cpu hart).noff = 1 := by
  have changed : (after.cpu hart).cur ≠ (state.cpu hart).cur := by
    intro same
    cases gone.symm.trans (same.trans cur)
  by_cases here : hart = place
  · subst here
    cases step with
    | act active act =>
      cases act.nests with
      | still cpu => exact (changed (congrArg (fun nest => nest.2.2) (cpu hart))).elim
      | push | pop | alloc => exact (changed (setCpu_same Cpu.cur (by rfl) hart)).elim
      | swtchIn _ self => cases cur.symm.trans (active.1.trans self)
      | swtchOut _ _ held want =>
        have count := (inv.cpu hart).noff
        rw [held, want] at count
        exact count
    | resume | back => exact (changed (setCpu_same Cpu.cur (by rfl) hart)).elim
  · rw [step.cpu_other here] at changed
    exact (changed rfl).elim

/-- For every number of harts, build and interleaving: no test of `release`,
`pop_off` or `sched` fails, and the last of them leaves its hart with a `noff`
of 1; `noff` is the number of spinlocks that the hart holds, and one more during
a `push_off`; interrupts are off while it is not 0; and when the thread of a
process takes it back to 0, the interrupt bit is what it was before that
thread's outermost `push_off`, on whatever hart that was. -/
theorem nesting_exact (reached : Reachable setting config) :
    config.1.panicked = false ∧
    (forall hart, (config.1.cpu hart).noff =
      (config.1.locksOf hart).ncard + (config.1.cpu hart).want.toList.length) ∧
    (forall hart, (config.1.cpu hart).noff ≠ 0 -> (config.1.cpu hart).sie = false) ∧
    (forall thread after, (machine setting).Step thread config after -> forall hart slot,
      (config.1.cpu hart).cur = .proc slot -> (after.1.cpu hart).cur = .sched hart ->
      (config.1.cpu hart).noff = 1) ∧
    (forall slot old, Nested setting slot old config -> forall after hart,
      (machine setting).Step (.proc slot) config after -> (config.1.cpu hart).cur = .proc slot ->
      (after.1.cpu hart).noff = 0 -> (after.1.cpu hart).sie = old) := by
  have inv := reached.inv
  refine ⟨inv.unbroken, fun hart => ?_, fun hart deep => ?_,
    fun thread after step hart slot cur gone => ?_,
    fun slot old nested after hart step cur outside => ?_⟩
  · rw [inv.ncard_locksOf, (inv.cpu hart).noff]
  · exact Bool.eq_false_iff.mpr (fun enabled => deep ((inv.cpu hart).masked enabled))
  · rcases reached.step step with same | ⟨place, taken⟩
    · rw [same, cur] at gone
      cases gone
    · exact taken.noff_of_swtch inv cur gone
  · rcases nested.remembers with ⟨_, inside, known⟩
    rcases reached.step step with same | ⟨place, taken⟩
    · rw [same] at outside
      exact (inside.2 hart cur outside).elim
    · have here := inv.cur_unique (taken.noff_cases inv).1 cur
      subst here
      exact taken.ends inv inside known outside

/-- The first process acquires a pipe on hart 0, sleeps, is woken by a process
that it has forked and resumes on hart 1. -/
theorem migration_run :
    (machine (twoHarts .DEFAULT)).Reaches (fun _ => True) start (fun before =>
      ∃ first, (before.1.cpu 0).cur = .proc initproc ∧ (before.1.cpu 0).noff = 0 ∧
        (before.1.cpu 0).sie = true ∧
        (machine (twoHarts .DEFAULT)).Step (.proc initproc) before first ∧
        Inside initproc first.1 ∧
        (machine (twoHarts .DEFAULT)).Reaches (Inside initproc) first (fun config =>
          (config.1.cpu 1).cur = .proc initproc ∧
          ∃ after, (machine (twoHarts .DEFAULT)).Step (.proc initproc) config after ∧
            (after.1.cpu 1).noff = 0)) := by
  -- The first process forks.
  refine .solo (.sched 0) 0 trivial (Leads.drive 100 rfl (Leads.stop ?_))
  refine .solo (.proc 0) 0 trivial ?_
  refine Leads.drive 100 rfl (Leads.choose Activity.done rfl trivial ?_)
  refine Leads.drive 100 rfl (Leads.choose (Cause.syscall .fork) rfl trivial ?_)
  refine Leads.drive 100 rfl (Leads.choose (0 : Nat) rfl trivial ?_)
  refine Leads.drive 100 rfl (Leads.choose true rfl trivial ?_)
  refine Leads.spawn rfl trivial (by decide) ?_
  refine Leads.drive 100 rfl (Leads.choose (0 : Nat) rfl trivial ?_)
  refine Leads.drive 100 rfl (Leads.choose true rfl trivial ?_)
  refine Leads.drive 100 rfl (Leads.choose (0 : Nat) rfl trivial ?_)
  -- In `piperead` it comes to the `push_off` of `acquire`, and then to sleep.
  refine Leads.drive 100 rfl (Leads.choose (Cause.syscall (.piperead 0 1)) rfl trivial ?_)
  refine Leads.drive 16 rfl (Leads.stop ?_)
  refine .done ⟨_, rfl, rfl, rfl, .at_place 0 rfl (update_self ..) rfl, by decide, ?_⟩
  refine .solo (.proc 0) 0 (by decide) (Leads.drive 100 rfl (Leads.stop ?_))
  -- The child wakes the first process with `kill`.
  refine .solo (.sched 0) 0 (by decide) (Leads.drive 100 rfl (Leads.stop ?_))
  refine .solo (.proc 1) 0 (by decide) ?_
  refine Leads.drive 100 rfl (Leads.choose Activity.done rfl (by decide) ?_)
  refine Leads.drive 100 rfl (Leads.choose (Cause.syscall (.kill 1)) rfl (by decide) ?_)
  refine Leads.drive 100 rfl (Leads.stop ?_)
  -- Hart 1 dispatches the first process, which releases its lock.
  refine .solo (.sched 1) 1 (by decide) (Leads.drive 100 rfl (Leads.stop ?_))
  refine .solo (.proc 0) 1 (by decide) (Leads.drive 3 rfl (Leads.stop ?_))
  exact .done ⟨rfl, _, .at_place 1 rfl (update_self ..) rfl, rfl⟩

/-- The process that has moved to hart 1 has interrupts on again. -/
theorem nesting_exact_migration :
    ∃ config after, Reachable (twoHarts .DEFAULT) config ∧
      Nested (twoHarts .DEFAULT) initproc true config ∧
      (machine (twoHarts .DEFAULT)).Step (.proc initproc) config after ∧
      (config.1.cpu 1).cur = .proc initproc ∧ (after.1.cpu 1).noff = 0 ∧
      (after.1.cpu 1).sie = true := by
  rcases migration_run.reach with ⟨before, reached, first, cur, outside, enabled, step, inside, run⟩
  rcases run with ⟨config, steps, moved, after, last, back⟩
  have nested : Nested (twoHarts .DEFAULT) initproc true config :=
    ⟨0, before, first, reached, cur, outside, enabled, step, inside, steps⟩
  have reached := nested.remembers.1
  exact ⟨config, after, reached, nested, last, moved, back,
    (nesting_exact reached).2.2.2.2 initproc true nested after 1 last moved back⟩

end Kernel
end Xv6
