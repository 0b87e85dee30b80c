import Xv6.Kernel.Scheduler

namespace Xv6
namespace Kernel

open Conc

/-!
# The kernel is verified

Every procedure meets its contract and the interrupt handler can be entered
wherever interrupts are on.  It follows that a run of the kernel, with any
number of harts and any interleaving, consists of the steps of `KStep`; every
property of whole runs is proved from this by induction on steps.
-/

variable {H : Type} [DecidableEq H] (setting : Setting H)
  {config : Config (State H) (Thread H) H Label}

omit [DecidableEq H] in
/-- Where interrupts are on nothing is in progress. -/
theorem Inv.sees_of_interruptible {thread : Thread H} {hart : H} {state : State H}
    (inv : Inv state) (runs : (state.cpu hart).cur = thread)
    (on : (state.cpu hart).sie = true) :
    Fits (state.cpu hart).proc thread ∧
      Sees thread (View.plain (state.cpu hart).proc ⟨true, (state.cpu hart).call⟩ .none)
        state := by
  have ok := inv.cpu hart
  have count := ok.noff
  rw [ok.masked on] at count
  have held : (state.cpu hart).held = [] := List.length_eq_zero_iff.mp (by omega)
  have want : (state.cpu hart).want = none := by
    cases wants : (state.cpu hart).want with
    | none => rfl
    | some lock =>
      rw [wants, Option.toList_some, List.length_singleton] at count
      omega
  have unparked : ∀ slot, ¬ (state.cpu hart).Parked slot := by
    intro slot parked
    rw [parked.held] at held
    cases held
  rcases ok.calm (Or.inl on) with ⟨trap, window, user⟩
  rcases ok.idle on with ⟨resv, owed, dispatch⟩
  have shown : Shows (View.plain (state.cpu hart).proc ⟨true, (state.cpu hart).call⟩ .none)
      (state.cpu hart) :=
    ⟨held, want, by simp [View.plain, on], fun busy => by simp [View.plain] at busy, rfl, trap,
      window, user, resv, owed, dispatch, rfl⟩
  cases thread with
  | sched owner =>
    have own := ok.scheduler owner runs
    subst own
    have idle : (state.cpu owner).proc = none := by
      cases current : (state.cpu owner).proc with
      | none => rfl
      | some slot =>
        have member := ok.switching slot runs current
        rw [held] at member
        cases member
    refine ⟨by rw [idle]; exact fits_sched owner, owner, ⟨runs, ?_⟩, shown⟩
    cases away : (state.cpu owner).away with
    | false => rfl
    | true =>
      rcases ok.back away runs with ⟨slot, _, parked⟩
      exact (unparked slot parked).elim
  | proc slot =>
    have current := (ok.process slot runs).1
    refine ⟨by rw [current]; exact fits_proc slot, hart, ⟨runs, ?_⟩, shown⟩
    cases susp : (state.task slot).susp with
    | false => exact susp
    | true => exact (unparked slot (inv.entering hart slot susp runs).1).elim

theorem code_verified (label : Label) (thread : Thread H) (state : State H) (inv : Inv state)
    (pre : contract.pre label thread state) :
    Verified setting thread (code setting label) (contract.post label thread state) state := by
  cases label with
  | scheduler =>
    rcases pre with ⟨owner, base, self, sees⟩
    subst self
    exact scheduler_verified sees
  | forkret =>
    rcases pre with ⟨slot, self, fresh⟩
    subst self
    exact forkret_verified fresh
  | user =>
    rcases pre with ⟨slot, self, sees⟩
    subst self
    exact user_verified sees
  | kerneltrap =>
    rcases pre with ⟨proc, call, fits, sees⟩
    exact kerneltrap_verified inv fits sees
  | busy =>
    rcases pre with ⟨slot, base, trap, self, sees⟩
    subst self
    refine Logic.wp_mono (busy_verified sees) (fun _ after _ returned => ?_)
    intro any base' trap' same seen
    cases same
    cases sees.unique inv seen
    exact returned
  | waitLoop slot addr perf =>
    rcases pre with ⟨self, sees⟩
    subst self
    exact waitLoop_verified inv sees
  | sleepLoop ticks0 n =>
    rcases pre with ⟨slot, self, sees⟩
    subst self
    exact Logic.wp_mono (sleepLoop_verified sees) (fun _ _ _ ends => ⟨slot, rfl, ends⟩)
  | writeLoop slot pi left unsaid =>
    rcases pre with ⟨self, sees, writing⟩
    subst self
    exact writeLoop_verified sees writing
  | readLoop slot pi n =>
    rcases pre with ⟨self, sees, settled⟩
    subst self
    exact readLoop_verified sees settled

theorem verifies : (kernelLogic setting.build contract).Verifies (machine setting) where
  toCoherent := coherent
  code label thread state inv pre := code_verified setting label thread state inv pre
  handler_pre thread hart state now inv runs on rely _ := by
    rcases inv.sees_of_interruptible runs on with ⟨fits, sees⟩
    exact ⟨_, _, fits, (rely.sees _ sees).1⟩
  handler_rely _ _ _ _ _ _ post := post

/-! ## The start -/

omit [DecidableEq H] in
theorem boot_inv : Inv (boot : State H) where
  cpu hart :=
    { nodup := List.nodup_nil
      noff := rfl
      masked := fun on => by cases on
      ranked := fun _ wants => by cases wants
      calm := fun _ => ⟨rfl, rfl, rfl⟩
      idle := fun on => by cases on
      scheduler := fun other same => by
        cases same
        rfl
      process := fun _ same => by cases same
      dispatching := fun _ same => by cases same
      switching := fun _ _ same => by cases same
      back := fun away => by cases away }
  holder lock hart := by
    constructor
    · intro same
      cases same
    · intro member
      cases member
  exclusive _ _ _ same := by cases same
  current _ _ same := by cases same
  running slot running := by
    simp only [boot] at running
    split at running
    · cases running
    · cases running
  dispatched _ _ same := by cases same
  left _ _ away := by cases away
  parked _ _ _ same := by cases same
  entering _ _ _ same := by cases same
  started slot used := by
    refine Or.inl ?_
    simp only [boot] at used ⊢
    split at used
    · next first => simpa using first
    · exact (used rfl).elim
  owned _ _ owner := by cases owner
  orphan slot _ := by
    simp only [boot]
    split
    · rfl
    · rfl
  dozing _ _ dozes := by cases dozes
  asleep slot sleeping := by
    simp only [boot] at sleeping
    split at sleeping
    · cases sleeping
    · cases sleeping
  settled _ _ := ⟨rfl, fun owed => by cases owed⟩
  calls _ _ same := by cases same
  unbroken := rfl

theorem start_safe : (kernelLogic setting.build contract).Safe (machine setting)
    (start : Config (State H) (Thread H) H Label) := by
  refine ⟨boot_inv, fun thread => ?_⟩
  cases thread with
  | sched owner =>
    have sees : Sees (.sched owner) (View.idle false) (boot : State H) := by
      refine ⟨owner, ⟨rfl, rfl⟩, ⟨rfl, rfl, rfl, ?_, rfl, rfl, rfl, rfl, rfl, rfl, rfl,
        rfl⟩⟩
      intro busy
      simp [View.idle, View.plain] at busy
    intro now rely _
    exact ⟨⟨owner, false, rfl, (rely.sees _ sees).1⟩, fun _ _ _ never => never.elim⟩
  | proc slot =>
    simp only [start, bootPool]
    split
    · next first =>
        have fresh : ((boot : State H).task slot).Fresh := by
          simpa [boot, Task.Fresh, Task.own] using first
        intro now rely _
        exact ⟨⟨slot, rfl, rely.fresh rfl fresh⟩, fun _ _ _ never => never.elim⟩
    · exact fun _ _ _ => trivial

/-! ## Runs -/

/-- The configurations that a run of the kernel can reach. -/
def Reachable (config : Config (State H) (Thread H) H Label) : Prop :=
  (machine setting).Reach start config

/-- The configurations that are reached by steps related as `allowed` says. -/
def ReachableBy (allowed : State H -> State H -> Prop)
    (config : Config (State H) (Thread H) H Label) : Prop :=
  Relation.ReflTransGen (fun before after =>
    (∃ thread, (machine setting).Step thread before after) ∧ allowed before.1 after.1)
    start config

variable {setting}

theorem ReachableBy.induct {allowed : State H -> State H -> Prop}
    (reached : ReachableBy setting allowed config) (holds : State H -> Prop) (initial : holds boot)
    (kept : ∀ thread hart before after, Inv before ->
      KStep setting.build thread hart before after -> allowed before after ->
      holds before -> holds after) : Inv config.1 ∧ holds config.1 := by
  rcases Logic.Safe.induct (verifies setting) (start_safe setting) initial
    (fun thread hart before after inv _ step => kept thread hart before after inv step)
    reached with ⟨safe, known⟩
  exact ⟨safe.1, known⟩

theorem Reachable.by_any (reached : Reachable setting config) :
    ReachableBy setting (fun _ _ => True) config := by
  induction reached with
  | refl => exact .refl
  | tail _ last ih => exact .tail ih ⟨last, trivial⟩

theorem ReachableBy.reachable {allowed : State H -> State H -> Prop}
    (reached : ReachableBy setting allowed config) : Reachable setting config := by
  induction reached with
  | refl => exact .refl
  | tail _ last ih => exact .tail ih last.1

theorem Reachable.induct (reached : Reachable setting config) (holds : State H -> Prop)
    (initial : holds boot) (kept : ∀ thread hart before after, Inv before ->
      KStep setting.build thread hart before after -> holds before -> holds after) :
    Inv config.1 ∧ holds config.1 :=
  reached.by_any.induct holds initial
    (fun thread hart before after inv step _ => kept thread hart before after inv step)

theorem Reachable.inv (reached : Reachable setting config) : Inv config.1 :=
  (Logic.Safe.reach (verifies setting) (start_safe setting) reached).1

/-- A step from a reachable configuration changes nothing shared, or is a
step of some thread on the hart that executes it. -/
theorem Reachable.step {config after : Config (State H) (Thread H) H Label} {thread : Thread H}
    (reached : Reachable setting config) (step : (machine setting).Step thread config after) :
    after.1 = config.1 ∨ ∃ hart, KStep setting.build thread hart config.1 after.1 := by
  have safe := Logic.Safe.reach (verifies setting) (start_safe setting) reached
  rcases (safe.step (verifies setting) step).2 with same | ⟨hart, _, taken⟩
  · exact Or.inl same
  · exact Or.inr ⟨hart, taken⟩

/-- Two harts, of which the first one keeps the clock. -/
def twoHarts (build : Build) : Setting (Fin 2) where
  hart0 := 0
  build := build

end Kernel
end Xv6
