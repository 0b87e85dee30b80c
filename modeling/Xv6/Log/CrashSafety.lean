import Xv6.Conc.Solo
import Xv6.Log.Verification

namespace Xv6
namespace Log

open Conc Function List Leads

/-!
# Crash atomicity of the log

The invariant holds in every state of every run, through any number of
crashes.  A crash therefore leaves a disk whose recovered contents are those of
the last commit point, recovery itself changes neither these contents nor the
commit point, and once it is complete the disk holds them outright.
-/

variable {geometry : Geometry} {base : Disk}

/-! ## Runs with crashes -/

theorem inv_booted {disk durable : Disk} {opOf : Proc -> Nat} {nextOp : Nat}
    {history : List Update} {calls : List LogCall} {leaked : List Nat}
    (good : GoodHeader geometry (header (disk geometry.start)))
    (away : ∀ block, block ∈ leaked -> ¬ geometry.InArea block)
    (safe : ∀ block, ¬ geometry.InArea block -> block ∉ leaked ->
      recovered geometry disk block = durable block)
    (committed : ∀ block, ¬ geometry.InArea block -> block ∉ leaked ->
      durable block = replay base history block)
    (fresh : ∀ update, update ∈ history -> update.op < nextOp) :
    Inv geometry base (.booted disk opOf nextOp history durable calls leaked) where
  buffer := fun _ =>
    { refcnt := rfl
      pin_once := Nat.zero_le _
      lock_ref := fun _ locked => by cases locked
      clean := fun _ _ cached => by cases cached
      dirty := fun _ marked => by cases marked
      pinned_logged := fun pinned => by cases pinned
      logged_pinned := fun installing => by cases installing }
  leaked_outside := away
  outstanding := rfl
  ops_nodup := nodup_nil
  committing := fun ready => by cases ready
  committer_alone := fun _ => rfl
  lh_good := goodHeader_nil
  head_good := good
  idle_empty := fun _ ready => by cases ready
  idle_not_installing := fun idle => by cases idle
  idle_head := fun idle => by cases idle
  crash_safe := safe
  current := fun ready => by cases ready
  committed := by
    intro block outside sound
    simp only [State.booted, take_length]
    exact committed block outside sound
  stable_le := Nat.le_refl _
  down_stable := fun _ => rfl
  down_committer := fun _ idle => by cases idle
  op_fresh := fun _ active => by cases active
  op_inj := fun _ _ active => by cases active
  update_fresh := fresh
  stable_inactive := fun _ _ _ active => by cases active
  stable_split := by
    intro _ late _ member
    simp only [State.booted, drop_length] at member
    cases member

theorem Inv.reset {state : State} (inv : Inv geometry base state) :
    Inv geometry base state.reset :=
  inv_booted inv.head_good inv.leaked_outside inv.crash_safe inv.committed
    (fun update member => inv.update_fresh update (mem_of_mem_take member))

theorem inv_init {disk : Disk} (empty : header (disk geometry.start) = []) :
    Inv geometry disk (State.init disk) := by
  refine inv_booted ?_ (fun _ member => by cases member)
    (fun block _ _ => recovered_of_empty empty block) (fun _ _ _ => rfl)
    (fun _ member => by cases member)
  rw [empty]
  exact goodHeader_nil

/-- Whatever happened before, a reset leaves all processes verified. -/
theorem safe_booted {disk durable : Disk} {opOf : Proc -> Nat} {nextOp : Nat}
    {history : List Update} {calls : List LogCall} {leaked : List Nat}
    (inv : Inv geometry base (.booted disk opOf nextOp history durable calls leaked)) :
    (specification geometry base).Safe (machine geometry)
      (.booted disk opOf nextOp history durable calls leaked, bootPool) := by
  have own : ∀ process, Local process false false (process == 0) [] [] []
      (.booted disk opOf nextOp history durable calls leaked) := by
    intro process
    exact {
      inOps := by simp [State.booted]
      hasLock := by simp [State.booted]
      isCommitter := by
        simp only [State.booted, Option.some.injEq, beq_iff_eq]
        exact eq_comm
      refCount := fun _ => rfl
      holds := by simp [State.booted, Buf.empty]
      marked := by simp [State.booted] }
  have booting : Booting (.booted disk opOf nextOp history durable calls leaked) :=
    ⟨rfl, rfl, rfl, fun _ pinned => by cases pinned⟩
  refine ⟨inv, fun process => ?_⟩
  cases process with
  | zero =>
    intro now rely _
    refine ⟨⟨(own 0).rely rely, booting.sameView (SameView.of_rely rely rfl)⟩, ?_⟩
    exact fun _ _ _ _ _ _ _ => trivial
  | succ process =>
    intro now rely _
    refine ⟨(own (process + 1)).rely rely, ?_⟩
    exact fun _ _ _ _ _ _ _ => trivial

theorem SysStep.safe {before after : Config State Proc Proc Label}
    (step : SysStep geometry before after)
    (safe : (specification geometry base).Safe (machine geometry) before) :
    (specification geometry base).Safe (machine geometry) after := by
  cases step with
  | step process taken => exact (safe.step verifies taken).1
  | crash => exact safe_booted safe.1.reset

theorem Reachable.safe {disk : Disk} (empty : header (disk geometry.start) = [])
    {config : Config State Proc Proc Label} (reached : Reachable geometry disk config) :
    (specification geometry disk).Safe (machine geometry) config := by
  induction reached with
  | refl => exact safe_booted (inv_init empty)
  | tail _ step ih => exact step.safe ih

/-! ## Recovery -/

section Recovery

variable {state after : State} {process : Proc}

/-- While the kernel recovers, no step touches what the last commit point made
durable. -/
theorem LStep.down (step : LStep geometry process state after) (inv : Inv geometry base state)
    (down : state.ready = false) :
    after.history = state.history ∧ after.stable = state.stable ∧
      after.durable = state.durable ∧ after.leaked = state.leaked := by
  have idle : ∀ process, process ∉ state.ops := by
    intro process active
    rw [inv.committer_alone (inv.down_committer down)] at active
    cases active
  cases step with
  | commitPoint _ _ ready =>
    rw [down] at ready
    cases ready
  | update _ _ active => exact (idle process active).elim
  | recycle victim =>
    unfold State.recycle
    split
    · exact ⟨rfl, rfl, rfl, rfl⟩
    · exact ⟨rfl, rfl, rfl, rfl⟩
  | unlockBuf block _ own =>
    unfold State.unlockBuf
    split
    · exact ⟨rfl, rfl, rfl, rfl⟩
    · next marked =>
        rcases Option.ne_none_iff_exists'.mp marked with ⟨marker, same⟩
        exact (idle process (own marker same).1).elim
  | _ => exact ⟨rfl, rfl, rfl, rfl⟩

/-- The step that ends recovery leaves an empty log. -/
theorem LStep.up (step : LStep geometry process state after) (down : state.ready = false)
    (up : after.ready = true) : header (after.disk geometry.start) = [] := by
  cases step with
  | ready _ _ clear => exact clear
  | commitPoint _ _ ready =>
    rw [down] at ready
    cases ready
  | recycle victim =>
    unfold State.recycle at up
    split at up
    · exact absurd (down.symm.trans up) (by simp)
    · exact absurd (down.symm.trans up) (by simp)
  | unlockBuf block =>
    unfold State.unlockBuf at up
    split at up
    · exact absurd (down.symm.trans up) (by simp)
    · exact absurd (down.symm.trans up) (by simp)
  | _ => exact absurd (down.symm.trans up) (by simp)

end Recovery

/-- Steps, further crashes included, during which recovery does not end. -/
def Recovering (geometry : Geometry) :
    Config State Proc Proc Label -> Config State Proc Proc Label -> Prop :=
  Relation.ReflTransGen (fun before after => SysStep geometry before after ∧
    after.1.ready = false)

theorem SysStep.down {before after : Config State Proc Proc Label}
    (step : SysStep geometry before after)
    (safe : (specification geometry base).Safe (machine geometry) before)
    (down : before.1.ready = false) :
    after.1.history = before.1.history ∧ after.1.stable = before.1.stable ∧
      after.1.durable = before.1.durable ∧ after.1.leaked = before.1.leaked := by
  cases step with
  | step process taken =>
    rcases (safe.step verifies taken).2 with same | ⟨_, _, step⟩
    · rw [same]
      exact ⟨rfl, rfl, rfl, rfl⟩
    · exact LStep.down step safe.1 down
  | crash =>
    have stable := safe.1.down_stable down
    simp only [State.reset, State.booted, stable, take_length, and_self]

theorem Recovering.kept {crashed config : Config State Proc Proc Label}
    (recovers : Recovering geometry crashed config)
    (safe : (specification geometry base).Safe (machine geometry) crashed)
    (down : crashed.1.ready = false) :
    (specification geometry base).Safe (machine geometry) config ∧
      config.1.ready = false ∧ config.1.history = crashed.1.history ∧
      config.1.stable = crashed.1.stable ∧ config.1.durable = crashed.1.durable ∧
      config.1.leaked = crashed.1.leaked := by
  induction recovers with
  | refl => exact ⟨safe, down, rfl, rfl, rfl, rfl⟩
  | tail _ step ih =>
    rcases ih with ⟨safeNow, downNow, history, stable, durable, leaked⟩
    have kept := step.1.down safeNow downNow
    exact ⟨step.1.safe safeNow, step.2, kept.1.trans history, kept.2.1.trans stable,
      kept.2.2.1.trans durable, kept.2.2.2.trans leaked⟩

/-- Crash atomicity.  The computer starts with an empty log, runs any
interleaving of operations and crashes anywhere; recovery may crash again any
number of times before it completes.  Then every block outside the log of which
no buffer was released with a change that `log_write` had not seen holds the
logical contents of the last commit point before the crash.  These are the
effects of a part of the updates that contains every operation completely or
not at all, and of no operation that was still running. -/
theorem recovery_restores_last_commit (geometry : Geometry) (disk : Disk)
    (empty : header (disk geometry.start) = [])
    (before down up : Config State Proc Proc Label)
    (reached : Reachable geometry disk before)
    (recovers : Recovering geometry (before.1.reset, bootPool) down)
    (last : SysStep geometry down up) (ready : up.1.ready = true) :
    (forall block, ¬ geometry.InArea block -> block ∉ before.1.leaked ->
        up.1.disk block = before.1.durable block) ∧
      (forall block, ¬ geometry.InArea block -> block ∉ before.1.leaked ->
        up.1.disk block = replay disk (before.1.history.take before.1.stable) block) ∧
      (forall op,
        (forall update, update ∈ before.1.history.take before.1.stable -> update.op ≠ op) ∨
        (forall update, update ∈ before.1.history.drop before.1.stable -> update.op ≠ op)) ∧
      (forall process, process ∈ before.1.ops ->
        forall update, update ∈ before.1.history.take before.1.stable ->
          update.op ≠ before.1.opOf process) := by
  have safe := reached.safe empty
  have crashed := safe_booted safe.1.reset
  rcases recovers.kept crashed rfl with ⟨safeDown, isDown, _, _, durableDown, leakedDown⟩
  have safeUp := last.safe safeDown
  have kept := last.down safeDown isDown
  have durable : up.1.durable = before.1.durable := kept.2.2.1.trans durableDown
  have leaked : up.1.leaked = before.1.leaked := kept.2.2.2.trans leakedDown
  have clear : header (up.1.disk geometry.start) = [] := by
    cases last with
    | crash => cases ready
    | step process taken =>
      rcases (safeDown.step verifies taken).2 with same | ⟨_, _, step⟩
      · rw [same, isDown] at ready
        cases ready
      · exact LStep.up step isDown ready
  have restored : forall block, ¬ geometry.InArea block -> block ∉ before.1.leaked ->
      up.1.disk block = before.1.durable block := by
    intro block outside sound
    rw [← recovered_of_empty clear, safeUp.1.crash_safe block outside (leaked ▸ sound), durable]
  refine ⟨restored, ?_, ?_, ?_⟩
  · intro block outside sound
    rw [restored block outside sound]
    exact safe.1.committed block outside sound
  · intro op
    by_cases early : ∃ update, update ∈ before.1.history.take before.1.stable ∧ update.op = op
    · rcases early with ⟨update, member, same⟩
      refine Or.inr (fun late present => ?_)
      exact fun equal => safe.1.stable_split update late member present (same.trans equal.symm)
    · exact Or.inl (fun update member same => early ⟨update, member, same⟩)
  · exact fun process active update member =>
      safe.1.stable_inactive update member process active

/-! ## A commit, a crash and a recovery -/

/-- The log of a disk made by mkfs. -/
def mkfsLog : Geometry := ⟨2, LOGSIZE, by decide⟩

theorem Reachable.of_reach {disk : Disk} {config : Config State Proc Proc Label}
    (run : (machine geometry).Reach (State.init disk, bootPool) config) :
    Reachable geometry disk config := by
  induction run with
  | refl => exact .refl
  | tail _ taken ih =>
    rcases taken with ⟨process, step⟩
    exact .tail ih (.step process step)

instance (state : State) (process place : Proc) :
    Decidable ((machine geometry).runs state process place) :=
  inferInstanceAs (Decidable (place = process))

def blank : Block := fun _ => 0

def ones : Block := fun _ => 1

/-- The updates of one operation to two blocks. -/
def torn : List Update := [⟨0, 100, ones⟩, ⟨0, 101, ones⟩]

/-- A crash in the state and a recovery after which the goal holds. -/
def Recovers (geometry : Geometry) (state : State) (goal : State -> Prop) : Prop :=
  ∃ down up : Config State Proc Proc Label, Recovering geometry (state.reset, bootPool) down ∧
    SysStep geometry down up ∧ up.1.ready = true ∧ goal up.1

/-- The process that boots comes to the end of recovery. -/
theorem Recovers.of_leads {state : State} {goal : State -> Prop}
    (boots : Leads (machine geometry) (fun state => state.ready = false) 0 0
      (.call .boot (fun _ => .ret ())) state.reset bootPool
      (fun program now _ => ∃ next : Unit -> LogProg Unit,
        program = (Prog.modify (fun _ (state : State) =>
          { state with ready := true, committer := none })).bind next ∧
        goal { now with ready := true, committer := none })) :
    Recovers geometry state goal := by
  rcases boots with ⟨program, now, others, stretch, next, shape, holds⟩
  have reached := stretch.reach
  have same : update bootPool 0 (.call .boot (fun _ => .ret ())) = bootPool :=
    update_eq_self 0 bootPool
  rw [same] at reached
  have final : (machine geometry).Step 0 (now, update others 0 program)
      ({ now with ready := true, committer := none },
        update (update others 0 program) 0 (next ())) :=
    .at_place 0 rfl (by rw [update_self, shape]; rfl) rfl
  refine ⟨_, _, Relation.ReflTransGen.mono (fun _ _ step => ?_) _ _ reached, .step 0 final,
    rfl, holds⟩
  exact ⟨.step 0 step.1, step.2⟩

abbrev Stage (config : Config State Proc Proc Label)
    (goal : Config State Proc Proc Label -> Prop) : Prop :=
  (machine mkfsLog).Reaches (fun _ => True) config goal

set_option maxRecDepth 20000 in
/-- One operation changes blocks 100 and 101 and passes only 101 to
`log_write`, as `writei` does for a data block when `either_copyin` fails and
for the block of the inode.  The run is looked at when both blocks are changed
and around the commit point, where the computer crashes. -/
theorem torn_run : Stage (State.init (fun _ => blank), bootPool) (fun changed =>
    (changed.1.ready = true ∧ changed.1.leaked = [100] ∧ changed.1.history = torn ∧
      (changed.1.buf 101).data = some ones) ∧
    Stage changed (fun before => ∃ after, (machine mkfsLog).Step 0 before after ∧
      (before.1.history = torn ∧ before.1.leaked = [100] ∧
        recovered mkfsLog before.1.disk 101 0 = 0 ∧ recovered mkfsLog after.1.disk 101 0 = 1) ∧
      (after.1.history.take after.1.stable = torn ∧ after.1.leaked = [100] ∧
        after.1.durable 100 0 = 1 ∧ after.1.durable 101 0 = 1 ∧ after.1.disk 101 0 = 0) ∧
      Recovers mkfsLog after.1 (fun up => up.disk 100 0 = 0 ∧ up.disk 101 0 = 1 ∧
        up.history = torn ∧ up.leaked = [100] ∧ up.lock = none ∧ up.outstanding = 0 ∧
        up.committing = false))) := by
  refine .solo 0 0 trivial (drive 1 rfl (choose (0 : Nat) rfl trivial (drive 30 rfl ?_)))
  refine choose (0 : Nat) rfl trivial (drive 30 rfl ?_)
  refine choose (none : Option Nat) rfl trivial (drive 30 rfl ?_)
  refine choose (.bread 100) rfl trivial (choose (0 : Nat) rfl trivial (drive 30 rfl ?_))
  refine choose (.modify 100 ones) rfl trivial (drive 30 rfl ?_)
  refine choose (.brelse 100) rfl trivial (drive 30 rfl ?_)
  refine choose (.bread 101) rfl trivial (choose (0 : Nat) rfl trivial (drive 30 rfl ?_))
  refine choose (.modify 101 ones) rfl trivial (drive 30 rfl ?_)
  refine stop (.done ⟨⟨rfl, rfl, rfl, rfl⟩, .solo 0 0 trivial ?_⟩)
  refine choose (.logWrite 101) rfl trivial (drive 30 rfl ?_)
  refine choose (.brelse 101) rfl trivial (drive 30 rfl ?_)
  refine choose .finish rfl trivial (drive 30 rfl ?_)
  refine choose (0 : Nat) rfl trivial (drive 30 rfl ?_)
  refine choose (0 : Nat) rfl trivial (drive 30 rfl ?_)
  -- The header is written in the step after these.
  refine choose (0 : Nat) rfl trivial (drive 5 rfl ?_)
  refine stop (.done ⟨_, .at_place 0 rfl (update_self ..) rfl, ?_, ?_, ?_⟩)
  · exact ⟨rfl, rfl, by decide +kernel, by decide +kernel⟩
  · exact ⟨rfl, rfl, rfl, rfl, rfl⟩
  · refine .of_leads (drive 1 rfl ?_)
    refine choose (0 : Nat) rfl rfl (drive 30 rfl ?_)
    refine choose (0 : Nat) rfl rfl (drive 30 rfl ?_)
    refine choose (0 : Nat) rfl rfl (drive 30 rfl ?_)
    refine choose (0 : Nat) rfl rfl (drive 30 rfl ?_)
    exact stop ⟨_, rfl, by decide +kernel, by decide +kernel, rfl, rfl, rfl, rfl, rfl⟩

/-- The state right after the commit point of the run. -/
theorem torn_reached : ∃ config, Reachable mkfsLog (fun _ => blank) config ∧
    (config.1.history.take config.1.stable = torn ∧ config.1.leaked = [100] ∧
      config.1.durable 100 0 = 1 ∧ config.1.durable 101 0 = 1 ∧ config.1.disk 101 0 = 0) ∧
    Recovers mkfsLog config.1 (fun up => up.disk 100 0 = 0 ∧ up.disk 101 0 = 1 ∧
      up.history = torn ∧ up.leaked = [100] ∧ up.lock = none ∧ up.outstanding = 0 ∧
      up.committing = false) := by
  rcases torn_run.reach with ⟨changed, first, _, more⟩
  rcases more.reach with ⟨before, second, after, step, _, facts, recovers⟩
  have reached := Reachable.of_reach (first.trans second)
  exact ⟨after, .tail reached (.step 0 step), facts, recovers⟩

/-- The crash comes after the commit point and before block 101 is installed. -/
theorem logged_block_restored : ∃ before up : Config State Proc Proc Label,
    Reachable mkfsLog (fun _ => blank) before ∧ before.1.disk 101 0 = 0 ∧
      up.1.ready = true ∧ up.1.disk 101 = before.1.durable 101 ∧ up.1.disk 101 0 = 1 := by
  rcases torn_reached with ⟨before, reached, facts, down, up, recovers, last, ready, _⟩
  have restored := (recovery_restores_last_commit mkfsLog (fun _ => blank) rfl before down up
    reached recovers last ready).1 101 (by decide) (by rw [facts.2.1]; decide)
  refine ⟨before, up, reached, facts.2.2.2.2, ready, restored, ?_⟩
  rw [restored, facts.2.2.2.1]

/-- Of the two updates of one operation, both made before the last commit
point, only the one that was logged is there after recovery. -/
theorem unlogged_block_lost : ∃ before down up : Config State Proc Proc Label,
    Reachable mkfsLog (fun _ => blank) before ∧
      Recovering mkfsLog (before.1.reset, bootPool) down ∧ SysStep mkfsLog down up ∧
      up.1.ready = true ∧ before.1.history.take before.1.stable = torn ∧
      up.1.disk 101 0 = 1 ∧ up.1.disk 100 0 = 0 ∧ up.1.disk 100 ≠ before.1.durable 100 := by
  rcases torn_reached with ⟨before, reached, facts, down, up, recovers, last, ready, ends⟩
  refine ⟨before, down, up, reached, recovers, last, ready, facts.1, ends.2.1, ends.1, ?_⟩
  intro same
  have first := congrFun same 0
  rw [ends.1, facts.2.2.1] at first
  cases first

end Log
end Xv6
