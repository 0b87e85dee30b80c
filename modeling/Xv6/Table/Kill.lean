import Xv6.Table.SlotReuse

namespace Xv6
namespace Table

open List

/-!
# Killing a process by its number

`kill` compares process numbers only.  The number of a free slot is zero,
because `freeproc` clears it and `allocproc` gives every new process another
one, so the loop finds a free slot exactly when it is called with zero.
-/

variable {H : Type}

/-- What a call of `kill` returns, the slot whose record it assigned to, and
the table it leaves. -/
structure Killed (H : Type) where
  value : Int
  target : Option Slot
  after : State H

/-- The loop of `kill` over the slots that are left. -/
def killLoop (state : State H) (pid : Int) : List Slot -> Killed H
  | [] => ⟨-1, none, state⟩
  | slot :: slots =>
    match state.kill slot pid with
    | some after => ⟨0, some slot, after⟩
    | none => killLoop state pid slots

/-- `kill(pid)`. -/
def killPid (state : State H) (pid : Int) : Killed H :=
  killLoop state pid (List.finRange NPROC)

/-- A slot that holds a process with this number. -/
def Names (state : State H) (pid : Int) (slot : Slot) : Prop :=
  (state.proc slot).state ≠ .unused ∧ (state.proc slot).pid = pid

/-- The record of a killed process: only `killed` changes, unless the process
was asleep. -/
def Doomed (ticks : Nat) (proc proc' : Proc) : Prop :=
  proc' = { proc with
    killed := true
    state := if proc.state = .sleeping then .runnable else proc.state
    readyTime := if proc.state = .sleeping then ticks else proc.readyTime }

/-- What `kill` is for. -/
structure KillsNamed (state : State H) (pid : Int) (call : Killed H) : Prop where
  value : call.value = 0 <-> ∃ slot, Names state pid slot
  named : call.value = 0 -> ∃ slot proc', call.target = some slot ∧ Names state pid slot ∧
    Doomed state.ticks (state.proc slot) proc' ∧ call.after = state.set slot proc'
  unnamed : call.value ≠ 0 -> call.value = -1 ∧ call.after = state

theorem kill_doomed (proc : Proc) (ticks : Nat) : Doomed ticks proc (proc.kill ticks) := by
  rcases proc with ⟨state⟩
  unfold Doomed Proc.kill Proc.awakened
  cases state <;> rfl

/-- The loop stops at the first slot with the number. -/
theorem killLoop_cases (state : State H) (pid : Int) (slots : List Slot) :
    (∃ before slot rest, slots = before ++ slot :: rest ∧
      (∀ other, other ∈ before -> (state.proc other).pid ≠ pid) ∧
      (state.proc slot).pid = pid ∧
      killLoop state pid slots =
        ⟨0, some slot, state.set slot ((state.proc slot).kill state.ticks)⟩) ∨
    ((∀ slot, slot ∈ slots -> (state.proc slot).pid ≠ pid) ∧
      killLoop state pid slots = ⟨-1, none, state⟩) := by
  induction slots with
  | nil => exact Or.inr ⟨by simp, rfl⟩
  | cons slot slots ih =>
    by_cases found : (state.proc slot).pid = pid
    · left
      refine ⟨[], slot, slots, rfl, by simp, found, ?_⟩
      simp only [killLoop, State.kill, if_pos found]
    · have skipped : killLoop state pid (slot :: slots) = killLoop state pid slots := by
        simp only [killLoop, State.kill, if_neg found]
      rcases ih with ⟨before, target, rest, shape, passed, named, result⟩ | ⟨none, result⟩
      · left
        refine ⟨slot :: before, target, rest, by rw [shape]; rfl, ?_, named,
          skipped.trans result⟩
        simpa using ⟨found, passed⟩
      · exact Or.inr ⟨by simpa using ⟨found, none⟩, skipped.trans result⟩

/-- The slots before a slot in the order of the loop are those below it. -/
theorem mem_before_iff {before rest : List Slot} {slot : Slot}
    (shape : List.finRange NPROC = before ++ slot :: rest) (other : Slot) :
    other ∈ before <-> other < slot := by
  have ordered := pairwise_lt_finRange NPROC
  have everywhere := mem_finRange other
  rw [shape] at ordered everywhere
  rcases pairwise_append.mp ordered with ⟨_, tail, across⟩
  constructor
  · exact fun member => across other member slot (by simp)
  · intro below
    rcases mem_append.mp everywhere with member | later
    · exact member
    · rcases mem_cons.mp later with same | after
      · exact (below.ne same).elim
      · exact (below.asymm ((pairwise_cons.mp tail).1 other after)).elim

/-- The call does what it is for if the first slot with the number, where the
loop stops, holds a process. -/
theorem killsNamed_of_first {state : State H} {pid : Int} (live : ∀ slot,
    (state.proc slot).pid = pid -> (∀ other, other < slot -> (state.proc other).pid ≠ pid) ->
      (state.proc slot).state ≠ .unused) :
    KillsNamed state pid (killPid state pid) := by
  unfold killPid
  rcases killLoop_cases state pid (List.finRange NPROC) with
    ⟨before, slot, rest, shape, passed, named, result⟩ | ⟨none, result⟩
  · have first : Names state pid slot :=
      ⟨live slot named fun other below => passed other ((mem_before_iff shape other).mpr below),
        named⟩
    rw [result]
    refine ⟨⟨fun _ => ⟨slot, first⟩, fun _ => rfl⟩, fun _ => ?_, fun failed => (failed rfl).elim⟩
    exact ⟨slot, _, rfl, first, kill_doomed _ _, rfl⟩
  · rw [result]
    have missing : ¬ ∃ slot, Names state pid slot := by
      rintro ⟨slot, _, named⟩
      exact none slot (mem_finRange slot) named
    refine ⟨?_, ?_, fun _ => ⟨rfl, rfl⟩⟩
    · simpa using missing
    · intro impossible
      cases impossible

/-! ## The number of a free slot -/

/-- A tick does not touch a free slot. -/
theorem tick_free {proc : Proc} {now : Nat}
    (free : (proc.ticked.wakeup .ticks now).state = .unused) :
    proc.state = .unused ∧ proc.ticked.wakeup .ticks now = proc := by
  have unused : proc.state = .unused := by
    rcases proc.ticked.wakeup_cases .ticks now with same | ⟨_, awake⟩
    · rwa [same, Proc.ticked_state] at free
    · rw [awake] at free
      cases free
  refine ⟨unused, ?_⟩
  rw [Proc.wakeup_awake (by simp [unused])]
  simp [Proc.ticked, unused]

section Runs

variable [DecidableEq H] {build : Build} {state : State H}

/-- In every run the number of a free slot is zero. -/
theorem Runs.free_pid {O : Type} {observe : Event H -> State H -> State H -> O -> O}
    {start notes : O} (run : Runs build observe start state notes) :
    ∀ slot, (state.proc slot).state = .unused -> (state.proc slot).pid = 0 := by
  induction run with
  | boot => exact fun _ _ => rfl
  | @step event before after notes past taken ih =>
    intro slot free
    by_cases clock : event = .clockintr
    · subst clock
      cases taken
      have kept := tick_free free
      have same : (before.clockintr.proc slot).pid = (before.proc slot).pid :=
        congrArg Proc.pid kept.2
      rw [same]
      exact ih slot kept.1
    · exact ((step_change past.inv taken clock).2 slot).free_pid (ih slot) free

/-- `kill` affects exactly the named process, unless it is called with zero and
meets a free slot before any process with the number zero. -/
theorem kill_named_iff (reachable : Reachable build state) (pid : Int) :
    KillsNamed state pid (killPid state pid) <->
      (pid = 0 -> forall slot, (state.proc slot).state = .unused ->
        ∃ earlier, earlier < slot ∧ Names state 0 earlier) := by
  constructor
  · rintro correct rfl slot free
    have zero := reachable.free_pid slot free
    unfold killPid at correct
    rcases killLoop_cases state 0 (List.finRange NPROC) with
      ⟨before, target, rest, shape, passed, _, result⟩ | ⟨none, _⟩
    · rw [result] at correct
      rcases correct.named rfl with ⟨chosen, _, same, names, _⟩
      cases same
      -- The loop stopped at `target`, which is no free slot, so not after `slot`.
      have notBefore : ¬ slot < target := fun below =>
        passed slot ((mem_before_iff shape slot).mpr below) zero
      refine ⟨target, lt_of_le_of_ne (not_lt.mp notBefore) ?_, names⟩
      rintro rfl
      exact names.1 free
    · exact (none slot (List.mem_finRange slot) zero).elim
  · intro allowed
    apply killsNamed_of_first
    intro slot named passed free
    have zero : pid = 0 := named.symm.trans (reachable.free_pid slot free)
    subst zero
    rcases allowed rfl slot free with ⟨earlier, below, names⟩
    exact passed earlier below names.2

/-- The first process, with number one, kills itself. -/
theorem first_process_killed : KillsNamed (Table.after fresh) 1 (killPid (Table.after fresh) 1) :=
  (kill_named_iff (reachable_after fresh) 1).mpr fun impossible => by cases impossible

/-- While the first process runs alone, a call with zero succeeds and marks a
free slot as killed. -/
theorem kill_zero_marks_free : ∃ state : State Unit, Reachable .DEFAULT state ∧
    (forall slot, ¬ Names state 0 slot) ∧ (killPid state 0).value = 0 ∧
      (state.proc 1).killed = false ∧ ((killPid state 0).after.proc 1).killed = true := by
  refine ⟨Table.after fresh, reachable_after fresh, ?_, ?_, ?_, ?_⟩
  · have only : forall slot, (((Table.after fresh).proc slot).state = .unused ∨
        ((Table.after fresh).proc slot).pid ≠ 0) := by
      decide +kernel
    rintro slot ⟨live, zero⟩
    rcases only slot with free | other
    · exact live free
    · exact other zero
  · decide +kernel
  · decide +kernel
  · decide +kernel

end Runs

end Table
end Xv6
