import Xv6.Log.Reservation

namespace Xv6
namespace Log

open Conc Function Leads

/-!
# What the log promises while the kernel runs

A step writes a block to its place only when the header on the disk lists it.
What a crash would leave changes in one step, the write of the header, which
makes all updates so far durable.  A buffer shows all updates so far, and once
no operation is running the disk holds them too.
-/

section Writes

variable {geometry : Geometry} {process : Proc} {state after : State} {block : Nat}

/-- A step that writes to the disk keeps what a recovery would restore, or is
the commit point. -/
theorem LStep.disk_cases (step : LStep geometry process state after) : after.disk = state.disk ∨
      ∃ written, after.disk = Function.update state.disk written (state.logical written) ∧
        ((∀ other, ¬ geometry.InArea other ->
            recovered geometry after.disk other = recovered geometry state.disk other) ∨
          written = geometry.start ∧ state.ready = true ∧ ∀ other, ¬ geometry.InArea other ->
            other ∉ state.leaked ->
              recovered geometry after.disk other = state.logical other) := by
  cases step with
  | writeBack written _ _ _ quiet => exact Or.inr ⟨written, rfl, Or.inl quiet⟩
  | commitPoint _ _ ready nonempty _ full =>
    have same : (state.writeHeadBack geometry).disk = (state.writeBack geometry.start).disk := by
      rw [State.writeHeadBack, if_neg nonempty]
    refine Or.inr ⟨geometry.start, same, Or.inr ⟨rfl, ready, fun other outside sound => ?_⟩⟩
    rw [same]
    exact full other outside sound
  | recycle victim =>
    unfold State.recycle
    split
    · exact Or.inl rfl
    · exact Or.inl rfl
  | unlockBuf released =>
    unfold State.unlockBuf
    split
    · exact Or.inl rfl
    · exact Or.inl rfl
  | _ => exact Or.inl rfl

/-- Outside the log area a step writes only blocks that the header lists. -/
theorem LStep.home_listed (step : LStep geometry process state after)
    (outside : ¬ geometry.InArea block) :
    after.disk block = state.disk block ∨ block ∈ header (state.disk geometry.start) := by
  have apart := start_ne outside
  rcases step.disk_cases with same | ⟨written, same, kinds⟩
  · exact Or.inl (by rw [same])
  · by_cases here : block = written
    · subst here
      rcases kinds with quiet | ⟨start, _⟩
      · -- An unlisted block is its own recovered contents.
        by_contra neither
        rcases not_or.mp neither with ⟨changed, unlisted⟩
        have head : after.disk geometry.start = state.disk geometry.start := by
          rw [same, update_of_ne apart.symm]
        have kept := quiet block outside
        rw [recovered, recovered, head, if_neg unlisted, if_neg unlisted] at kept
        exact changed kept
      · exact (apart start).elim
    · exact Or.inl (by rw [same, update_of_ne here])

end Writes

section Runs

variable {geometry : Geometry} {disk : Disk} {process : Proc} {block : Nat}
variable {config after : Config State Proc Proc Label}

/-- The step of a process is a step of the log, or changes nothing. -/
theorem Reachable.lstep (empty : header (disk geometry.start) = [])
    (reached : Reachable geometry disk config)
    (step : (machine geometry).Step process config after) :
    after.1 = config.1 ∨ LStep geometry process config.1 after.1 := by
  rcases ((reached.safe empty).step verifies step).2 with same | ⟨_, _, step⟩
  · exact Or.inl same
  · exact Or.inr step

/-- Write-ahead logging: a block is written to its place only while the header
on the disk lists it, and what a crash would leave there either stays the same
or becomes the effect of all updates so far, for all blocks at once of which no
buffer was released with a change that `log_write` had not seen. -/
theorem write_ahead (empty : header (disk geometry.start) = [])
    (reached : Reachable geometry disk config)
    (step : (machine geometry).Step process config after) :
    (∀ block, ¬ geometry.InArea block ->
      after.1.disk block = config.1.disk block ∨ block ∈ header (config.1.disk geometry.start)) ∧
    ((∀ block, ¬ geometry.InArea block ->
        recovered geometry after.1.disk block = recovered geometry config.1.disk block) ∨
      ∀ block, ¬ geometry.InArea block -> block ∉ config.1.leaked ->
        recovered geometry after.1.disk block = replay disk config.1.history block) := by
  rcases reached.lstep empty step with same | step
  · rw [same]
    exact ⟨fun _ _ => Or.inl rfl, Or.inl fun _ _ => rfl⟩
  · refine ⟨fun block outside => step.home_listed outside, ?_⟩
    rcases step.disk_cases with same | ⟨_, _, quiet | ⟨_, ready, full⟩⟩
    · rw [same]
      exact Or.inl fun _ _ => rfl
    · exact Or.inl quiet
    · refine Or.inr fun block outside sound => ?_
      rw [full block outside sound]
      exact (reached.safe empty).1.current ready block outside sound

/-- The commit point of an operation that has changed block 101. -/
theorem commit_write_ahead : ∃ before after,
    Reachable mkfsLog (fun _ => blank) before ∧ (machine mkfsLog).Step 0 before after ∧
      recovered mkfsLog before.1.disk 101 0 = 0 ∧
      recovered mkfsLog after.1.disk 101 = replay (fun _ => blank) torn 101 := by
  rcases torn_run.reach with ⟨changed, first, _, more⟩
  rcases more.reach with ⟨before, second, after, step, ⟨history, leaked, old, new⟩, _⟩
  have reached := Reachable.of_reach (first.trans second)
  refine ⟨before, after, reached, step, old, ?_⟩
  rcases (write_ahead rfl reached step).2 with same | changes
  · rw [same 101 (by decide), old] at new
    cases new
  · rw [← history]
    exact changes 101 (by decide) (by rw [leaked]; decide)

theorem Recovering.reachable (reached : Reachable geometry disk config)
    (recovers : Recovering geometry (config.1.reset, bootPool) after) :
    Reachable geometry disk after := by
  induction recovers with
  | refl => exact .tail reached (.crash config)
  | tail _ step ih => exact .tail ih step.1

end Runs

end Log
end Xv6
