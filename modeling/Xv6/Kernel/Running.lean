import Xv6.Kernel.Verification
import Xv6.Conc.Solo

namespace Xv6
namespace Kernel

open Conc Function

/-!
# Exclusive running

A process is RUNNING exactly while one hart has it as its current process,
except inside the critical sections that change either.  The states of a
process form the usual diagram with nine edges; no interleaving of harts
produces another change.
-/

/-- The edges of the state diagram of a process. -/
inductive Transition : ProcState -> ProcState -> Prop where
  | allocproc : Transition .unused .used
  | freeproc : Transition .used .unused
  | fork : Transition .used .runnable
  | scheduler : Transition .runnable .running
  | yield : Transition .running .runnable
  | sleep : Transition .running .sleeping
  | exit : Transition .running .zombie
  | wakeup : Transition .sleeping .runnable
  | wait : Transition .zombie .unused

/-- One step leaves a state as it is or follows an edge. -/
def Moves (before after : ProcState) : Prop :=
  after = before ∨ Transition before after

variable {H : Type} [DecidableEq H] {build : Build} {thread : Thread H} {hart : H}
  {state after : State H}

/-- Replacing the record of one slot moves every slot if it moves that one. -/
theorem Moves.update {table : Slot -> Proc} {any : Slot} {proc : Proc}
    (moves : Moves (table any).state proc.state) (slot : Slot) :
    Moves (table slot).state (update table any proc slot).state := by
  by_cases here : slot = any
  · subst here
    rw [update_self]
    exact moves
  · rw [update_of_ne here]
    exact Or.inl rfl

theorem Act.moves (inv : Inv state) (act : Act build thread hart state after) (slot : Slot) :
    Moves (state.proc slot).state (after.proc slot).state := by
  cases act with
  | tick any => exact Moves.update (Or.inl (state.proc any).ticked_state) slot
  | markRunning any _ _ _ _ _ runnable =>
    exact Moves.update (Or.inr (runnable ▸ .scheduler)) slot
  | clearTicks any | fault any | setChan any | setXstate any | copy any | link any | adopt any
  | exitCalled any =>
    refine Moves.update ?_ slot
    exact Or.inl rfl
  | edit any proc _ inert =>
    refine Moves.update (Or.inl ?_) slot
    rw [inert]
  | giveUp any _ _ running => exact Moves.update (Or.inr (running ▸ .yield)) slot
  | fallAsleep any _ _ _ running => exact Moves.update (Or.inr (running ▸ .sleep)) slot
  | die any _ _ _ running => exact Moves.update (Or.inr (running ▸ .exit)) slot
  | wake any _ sleeping => exact Moves.update (Or.inr (sleeping ▸ .wakeup)) slot
  | alloc any _ _ _ _ _ free => exact Moves.update (Or.inr (free ▸ .allocproc)) slot
  | discard any self _ _ owner =>
    have used := (inv.owned any self owner).1
    exact Moves.update (Or.inr (used ▸ .freeproc)) slot
  | reap any _ _ _ _ _ dead => exact Moves.update (Or.inr (dead ▸ .wait)) slot
  | publish any self _ _ owner =>
    have used := (inv.owned any self owner).1
    exact Moves.update (Or.inr (used ▸ .fork)) slot
  | woke chan marks =>
    obtain ⟨_, _, same⟩ := state.woke_eq hart chan marks
    exact Or.inl (by rw [same]; rfl)
  | _ => exact Or.inl rfl

theorem KStep.moves (inv : Inv state) (step : KStep build thread hart state after)
    (slot : Slot) : Moves (state.proc slot).state (after.proc slot).state := by
  cases step with
  | act _ act => exact act.moves inv slot
  | resume any => exact Or.inl rfl
  | back any =>
    refine Moves.update ?_ slot
    exact Or.inl rfl

omit [DecidableEq H] in
/-- While nobody holds its lock a process is RUNNING exactly if it is the
current process of a hart. -/
theorem Inv.running_iff (inv : Inv state) {slot : Slot} (free : state.lock (.proc slot) = none) :
    (state.proc slot).state = .running <-> ∃ hart, (state.cpu hart).proc = some slot := by
  constructor
  · intro running
    rcases inv.running slot running with current | ⟨hart, dispatch⟩
    · exact current
    · have held := ((inv.cpu hart).dispatching slot dispatch).1
      exact (inv.free_of_none free hart held).elim
  · rintro ⟨hart, current⟩
    exact (inv.running_of_unheld current (inv.free_of_none free hart)).1

/-- For every number of harts, build and interleaving: outside the critical
sections on its lock a process is RUNNING exactly if it is the current process
of exactly one hart, it never is of two, and its state only moves along the
nine edges. -/
theorem exclusive_running {setting : Setting H} {config : Config (State H) (Thread H) H Label}
    (reached : Reachable setting config) :
    (forall slot, config.1.lock (.proc slot) = none ->
      ((config.1.proc slot).state = .running <->
        ∃! hart, (config.1.cpu hart).proc = some slot)) ∧
    (forall slot first second, (config.1.cpu first).proc = some slot ->
      (config.1.cpu second).proc = some slot -> first = second) ∧
    (forall thread after, (machine setting).Step thread config after ->
      forall slot, (after.1.proc slot).state ≠ (config.1.proc slot).state ->
        Transition (config.1.proc slot).state (after.1.proc slot).state) := by
  have inv := reached.inv
  refine ⟨fun slot free => ?_, inv.exclusive, fun thread after step slot changed => ?_⟩
  · rw [inv.running_iff free]
    constructor
    · rintro ⟨hart, current⟩
      exact ⟨hart, current, fun other same => inv.exclusive slot other hart same current⟩
    · exact ExistsUnique.exists
  · rcases reached.step step with same | ⟨hart, taken⟩
    · rw [same] at changed
      exact (changed rfl).elim
    · exact (taken.moves inv slot).resolve_left changed

set_option maxRecDepth 20000 in
/-- Hart 1 scans the table and dispatches the first process, which releases its lock. -/
theorem dispatch_run :
    (machine (twoHarts .SRT)).Reaches (fun _ => True) start (fun config =>
      config.1.lock (.proc initproc) = none ∧ (config.1.proc initproc).state = .running) := by
  refine .solo (.sched 1) 1 trivial (Leads.drive 500 rfl (Leads.stop ?_))
  refine .solo (.proc initproc) 1 trivial (Leads.drive 8 rfl (Leads.stop ?_))
  exact .done ⟨rfl, rfl⟩

theorem exclusive_running_dispatched :
    ∃ config, Reachable (twoHarts .SRT) config ∧ config.1.lock (.proc initproc) = none ∧
      (config.1.proc initproc).state = .running ∧
      ∃! hart, (config.1.cpu hart).proc = some initproc := by
  rcases dispatch_run.reach with ⟨config, reached, free, running⟩
  exact ⟨config, reached, free, running, ((exclusive_running reached).1 initproc free).mp running⟩

end Kernel
end Xv6
