import Xv6.Kernel.Verification
import Xv6.Conc.Solo
import Mathlib.Order.RelClasses

namespace Xv6
namespace Kernel

open Conc Function State

/-!
# No deadlock among the process locks

A hart that spins for one of the ranked locks holds only locks of lower rank,
so the relation between a held lock and the one its holder waits for is
contained in the order of the ranks.  A scheduler gives up every other lock
before it switches to a process.
-/

/-- The locks of the process table, the clock and the allocators: all but the
pipes, the sleep locks, the buffer cache, the log and the devices. -/
def Lock.isKernel : Lock -> Bool
  | .pipe _ | .other _ => false
  | .wait | .ticks | .pid | .kmem | .ftable | .itable | .proc _ => true

variable {H : Type}

/-- The hart that holds the first lock spins for the second. -/
def WaitsFor (state : State H) (first second : Lock) : Prop :=
  first.isKernel = true ∧ second.isKernel = true ∧
    ∃ hart, state.lock first = some hart ∧ (state.cpu hart).want = some (some second)

theorem Lock.rank_of_isKernel {lock : Lock} (kernel : lock.isKernel = true) :
    ∃ place, lock.rank = some place := by
  cases lock with
  | pipe _ | other _ => cases kernel
  | wait | ticks | pid | kmem | ftable | itable | proc _ => exact ⟨_, rfl⟩

variable {state after : State H} {first second lock : Lock}

theorem WaitsFor.rank_lt (inv : Inv state) (waits : WaitsFor state first second) :
    first.rank.getD 0 < second.rank.getD 0 := by
  rcases waits with ⟨kernel1, kernel2, hart, holder, wants⟩
  rcases Lock.rank_of_isKernel kernel1 with ⟨low, rank1⟩
  rcases Lock.rank_of_isKernel kernel2 with ⟨high, rank2⟩
  have held := (inv.holder first hart).mp holder
  have order := (inv.cpu hart).ranked second wants first held low high rank1 rank2
  simpa only [rank1, rank2, Option.getD_some] using order

theorem WaitsFor.acyclic (inv : Inv state) : ¬ Relation.TransGen (WaitsFor state) lock lock := by
  intro cycle
  have ranks : Relation.TransGen (fun low high : Nat => low < high)
      (lock.rank.getD 0) (lock.rank.getD 0) :=
    cycle.lift (fun any => any.rank.getD 0) (fun _ _ waits => waits.rank_lt inv)
  rw [Relation.transGen_eq_self] at ranks
  exact Nat.lt_irrefl _ ranks

variable [DecidableEq H] {build : Build} {thread : Thread H} {hart any : H} {slot : Slot}

theorem cur_update {cpus : H -> Cpu H} {cpu : Cpu H} (same : cpu.cur = (cpus hart).cur)
    (any : H) : (update cpus hart cpu any).cur = (cpus any).cur := by
  by_cases here : any = hart
  · subst here
    rw [update_self]
    exact same
  · rw [update_of_ne here]

/-- Only `swtch` changes what a hart executes. -/
theorem Act.cur_cases (act : Act build thread hart state after) (any : H) :
    (after.cpu any).cur = (state.cpu any).cur ∨ (after.cpu any).cur = .sched any ∨
      ∃ slot, (after.cpu any).cur = .proc slot ∧ (state.cpu any).Parked slot := by
  cases act with
  | swtchIn slot _ _ alone =>
    by_cases here : any = hart
    · subst here
      refine Or.inr (Or.inr ⟨slot, ?_, alone⟩)
      simp [State.swtchIn, setCpu]
    · refine Or.inl ?_
      simp [State.swtchIn, setCpu, update_of_ne here]
  | swtchOut slot =>
    by_cases here : any = hart
    · subst here
      refine Or.inr (Or.inl ?_)
      simp [State.swtchOut, setCpu, setTask]
    · refine Or.inl ?_
      simp [State.swtchOut, setCpu, setTask, update_of_ne here]
  | woke chan marks =>
    obtain ⟨_, _, same⟩ := state.woke_eq hart chan marks
    rw [same]
    exact Or.inl (cur_update (by rfl) any)
  | clearTicks | edit | fault | setChan | setXstate | giveUp | fallAsleep | die | wake
  | discard | copy | link | publish | pipe => exact Or.inl rfl
  | _ =>
    exact Or.inl (cur_update (by rfl) any)

/-- A hart that starts to execute a process holds the lock of that process
and no other. -/
theorem KStep.parked (step : KStep build thread hart state after)
    (before : (state.cpu any).cur = .sched any) (now : (after.cpu any).cur = .proc slot) :
    (state.cpu any).Parked slot := by
  have cases : (after.cpu any).cur = (state.cpu any).cur ∨ (after.cpu any).cur = .sched any ∨
      ∃ slot, (after.cpu any).cur = .proc slot ∧ (state.cpu any).Parked slot := by
    cases step with
    | act _ act => exact act.cur_cases any
    | resume | back =>
      refine Or.inl (cur_update ?_ any)
      rfl
  rcases cases with same | same | ⟨other, same, parked⟩
  · rw [same, before] at now
    cases now
  · rw [same] at now
    cases now
  · cases same.symm.trans now
    exact parked

/-- For every number of harts, build and interleaving the locks never wait for
each other in a cycle, and a hart about to switch from its scheduler to a
process holds the lock of that process and no other. -/
theorem process_locks_acyclic {setting : Setting H}
    {config : Config (State H) (Thread H) H Label} (reached : Reachable setting config) :
    (forall lock, ¬ Relation.TransGen (WaitsFor config.1) lock lock) ∧
    (forall thread after, (machine setting).Step thread config after ->
      forall hart slot, (config.1.cpu hart).cur = .sched hart ->
        (after.1.cpu hart).cur = .proc slot ->
        forall lock, config.1.lock lock = some hart <-> lock = .proc slot) := by
  have inv := reached.inv
  refine ⟨fun lock => WaitsFor.acyclic inv, fun thread after step hart slot before now lock => ?_⟩
  have parked : (config.1.cpu hart).Parked slot := by
    rcases reached.step step with same | ⟨place, taken⟩
    · rw [same, before] at now
      cases now
    · exact taken.parked before now
  rw [inv.holder, parked.held, List.mem_singleton]

set_option maxRecDepth 20000 in
/-- The first process has forked a child and waits for it on hart 1, with
`wait_lock` held, while the scan of hart 0 keeps the lock of the child and goes
on to the next one. -/
theorem chain_run :
    (machine (twoHarts .CFSD)).Reaches (fun _ => True) start (fun config =>
      WaitsFor config.1 .wait (.proc 1) ∧ WaitsFor config.1 (.proc 1) (.proc 2)) := by
  refine .solo (.sched 1) 1 trivial (Leads.drive 500 rfl (Leads.stop ?_))
  refine .solo (.proc initproc) 1 trivial ?_
  refine Leads.drive 100 rfl (Leads.choose Activity.done rfl trivial ?_)
  refine Leads.drive 100 rfl (Leads.choose (Cause.syscall .fork) rfl trivial ?_)
  refine Leads.drive 100 rfl (Leads.choose (0 : Nat) rfl trivial ?_)
  refine Leads.drive 100 rfl (Leads.choose true rfl trivial ?_)
  refine Leads.spawn rfl trivial (by decide) ?_
  refine Leads.drive 100 rfl (Leads.choose (0 : Nat) rfl trivial ?_)
  refine Leads.drive 100 rfl (Leads.choose true rfl trivial ?_)
  refine Leads.drive 100 rfl (Leads.choose (0 : Nat) rfl trivial ?_)
  refine Leads.drive 100 rfl (Leads.stop ?_)
  refine .solo (.sched 0) 0 trivial (Leads.drive 14 rfl (Leads.stop ?_))
  refine .solo (.proc initproc) 1 trivial ?_
  refine Leads.choose (Cause.syscall (.wait false false)) rfl trivial ?_
  refine Leads.drive 100 rfl (Leads.stop ?_)
  exact .done ⟨⟨rfl, rfl, 1, rfl, rfl⟩, ⟨rfl, rfl, 0, rfl, rfl⟩⟩

/-- One hart waits for a lock that another holds, which itself waits, and no cycle closes. -/
theorem process_locks_acyclic_chain :
    ∃ config, Reachable (twoHarts .CFSD) config ∧ WaitsFor config.1 .wait (.proc 1) ∧
      WaitsFor config.1 (.proc 1) (.proc 2) ∧
      forall lock, ¬ Relation.TransGen (WaitsFor config.1) lock lock := by
  rcases chain_run.reach with ⟨config, reached, first, second⟩
  exact ⟨config, reached, first, second, (process_locks_acyclic reached).1⟩

end Kernel
end Xv6
