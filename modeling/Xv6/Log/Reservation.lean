import Xv6.Log.CrashSafety
import Mathlib.Data.List.Dedup
import Mathlib.Algebra.BigOperators.Group.List.Basic

namespace Xv6
namespace Log

open Conc Function List Prog Leads

/-!
# The space that `begin_op` reserves

`begin_op` admits an operation while the blocks in the log and `MAXOPBLOCKS`
blocks for every outstanding operation fit into `LOGSIZE`.  `log_write` checks
the number of logged blocks against `log.size - 1`, and does so before it looks
whether the block is already in the log.  mkfs sets `log.size` to `LOGSIZE`, so
one of the reserved blocks does not exist.  The reservation is enough exactly
when no operation uses up its share.
-/

variable {geometry : Geometry} {base : Disk} {state after : State} {process : Proc} {quota : Nat}
  {config : Config State Proc Proc Label} {disk : Disk}

/-- The distinct blocks that an operation has passed to `log_write`. -/
def State.loggedBy (state : State) (op : Nat) : List Nat :=
  ((state.calls.filter (fun call => call.op = op)).map LogCall.block).dedup

/-- No operation has logged more than `quota` distinct blocks. -/
def State.Within (quota : Nat) (state : State) : Prop :=
  forall op, (state.loggedBy op).length ≤ quota

/-- A disk as mkfs leaves it: `sb.nlog` is `LOGSIZE` and the log is empty. -/
structure Formatted (geometry : Geometry) (disk : Disk) : Prop where
  size : geometry.size = LOGSIZE
  empty : header (disk geometry.start) = []

/-- No panic of the log has been reached, the header fits into the blocks of
the log behind the header block, and no block was logged during a commit. -/
structure Sound (geometry : Geometry) (state : State) : Prop where
  quiet : state.panicked = none
  fits : state.lh.length ≤ geometry.size - 1
  calm : forall call, call ∈ state.calls -> call.committing = false

/-- What the outstanding operations may still log. -/
def State.spare (quota : Nat) (state : State) : Nat :=
  (state.ops.map (fun process => quota - (state.loggedBy (state.opOf process)).length)).sum

/-- The log has room for everything the outstanding operations may still log,
and for one block more. -/
structure Reserved (quota : Nat) (state : State) : Prop where
  quiet : state.panicked = none
  calm : forall call, call ∈ state.calls -> call.committing = false
  known : forall call, call ∈ state.calls -> call.op < state.nextOp
  logged : forall process, process ∈ state.ops ->
    forall block, block ∈ state.loggedBy (state.opOf process) -> block ∈ state.lh
  room : state.ops ≠ [] -> state.lh.length + state.spare quota + 2 ≤ LOGSIZE

/-! ## One more block -/

theorem loggedBy_append (state : State) (process : Proc) (block op : Nat) :
    (state.append process block).loggedBy op =
      if op = state.opOf process ∧ block ∉ state.loggedBy op then block :: state.loggedBy op
      else state.loggedBy op := by
  unfold State.loggedBy State.append
  by_cases same : op = state.opOf process
  · subst same
    simp only [filter_cons, decide_true, if_true, map_cons, true_and]
    by_cases member : block ∈ ((state.calls.filter
        (fun call => call.op = state.opOf process)).map LogCall.block)
    · rw [dedup_cons_of_mem member, if_neg (fun new => new (mem_dedup.mpr member))]
    · rw [dedup_cons_of_notMem member, if_pos (fun old => member (mem_dedup.mp old))]
  · simp only [filter_cons, same, false_and, if_false, Ne.symm same, decide_false,
      Bool.false_eq_true]

theorem Within.of_append {block : Nat} (within : (state.append process block).Within quota) :
    state.Within quota := by
  intro op
  have after := within op
  rw [loggedBy_append] at after
  split at after
  · exact Nat.le_of_succ_le after
  · exact after

/-- A block that is new to the operation is taken from its share. -/
theorem spare_append {block : Nat} (inv : Inv geometry base state) (active : process ∈ state.ops)
    (new : block ∉ state.loggedBy (state.opOf process))
    (within : (state.append process block).Within quota) :
    (state.append process block).spare quota + 1 = state.spare quota := by
  have own := within (state.opOf process)
  rw [loggedBy_append, if_pos ⟨rfl, new⟩, length_cons] at own
  unfold State.spare
  rw [← sum_map_erase _ active]
  have first : (state.append process block).ops = state.ops := rfl
  rw [first, ← sum_map_erase _ active]
  have others : ∀ other, other ∈ state.ops.erase process ->
      (state.append process block).loggedBy ((state.append process block).opOf other) =
        state.loggedBy (state.opOf other) := by
    intro other member
    rw [inv.ops_nodup.mem_erase_iff] at member
    rw [loggedBy_append, if_neg]
    · rfl
    · exact fun taken => member.1 (inv.op_inj other process member.2 active taken.1)
  have mine : ((state.append process block).loggedBy
      ((state.append process block).opOf process)).length =
        (state.loggedBy (state.opOf process)).length + 1 := by
    rw [loggedBy_append, if_pos ⟨rfl, new⟩, length_cons]
    rfl
  rw [mine, map_congr_left (fun other member => by rw [others other member])]
  omega

theorem spare_append_of_old {block : Nat} (old : block ∈ state.loggedBy (state.opOf process)) :
    (state.append process block).spare quota = state.spare quota := by
  have same : ∀ op, (state.append process block).loggedBy op = state.loggedBy op := by
    intro op
    rw [loggedBy_append, if_neg]
    exact fun taken => taken.2 (taken.1 ▸ old)
  unfold State.spare
  simp only [same]
  rfl

theorem Reserved.append {block : Nat} (reserved : Reserved quota state)
    (inv : Inv geometry base state) (ready : state.ready = true) (active : process ∈ state.ops)
    (within : (state.append process block).Within quota) :
    Reserved quota (state.append process block) := by
  have members : ∀ other, other ∈ (state.append process block).lh <->
      other ∈ state.lh ∨ other = block := by
    intro other
    simp only [State.append]
    split <;> grind
  refine ⟨reserved.quiet, ?_, ?_, ?_, ?_⟩
  · intro call member
    rcases mem_cons.mp member with same | old
    · rw [same]
      exact inv.not_committing ready active
    · exact reserved.calm call old
  · intro call member
    rcases mem_cons.mp member with same | old
    · rw [same]
      exact inv.op_fresh process active
    · exact reserved.known call old
  · intro other running other' member
    rw [loggedBy_append] at member
    rw [members]
    split at member
    · rcases mem_cons.mp member with same | old
      · exact Or.inr same
      · exact Or.inl (reserved.logged other running other' old)
    · exact Or.inl (reserved.logged other running other' member)
  · intro some
    have before := reserved.room some
    by_cases old : block ∈ state.loggedBy (state.opOf process)
    · have present := reserved.logged process active block old
      have same : (state.append process block).lh = state.lh := if_pos present
      rw [spare_append_of_old old, same]
      exact before
    · have spent := spare_append inv active old within
      have grown : (state.append process block).lh.length ≤ state.lh.length + 1 := by
        simp only [State.append]
        split
        · exact Nat.le_succ _
        · simp
      omega

/-! ## Entering and leaving -/

theorem spare_le (quota : Nat) (state : State) : state.spare quota ≤ quota * state.ops.length := by
  unfold State.spare
  induction state.ops with
  | nil => exact Nat.zero_le _
  | cons first rest ih =>
    rw [map_cons, sum_cons, length_cons, Nat.mul_succ, Nat.add_comm]
    exact Nat.add_le_add ih (Nat.sub_le _ _)

theorem opOf_enter {other : Proc} (new : process ∉ state.ops) (member : other ∈ state.ops) :
    (state.enter process).opOf other = state.opOf other := by
  refine update_of_ne (fun same => new ?_) _ _
  rw [← same]
  exact member

section

variable (reserved : Reserved quota state)

include reserved

theorem Reserved.fresh : state.loggedBy state.nextOp = [] := by
  unfold State.loggedBy
  rw [filter_eq_nil_iff.mpr]
  · rfl
  · intro call member
    simpa using Nat.ne_of_lt (reserved.known call member)

theorem Reserved.spare_enter (new : process ∉ state.ops) :
    (state.enter process).spare quota = quota + state.spare quota := by
  unfold State.spare
  have own : (state.enter process).opOf process = state.nextOp := update_self ..
  have none : (state.enter process).loggedBy state.nextOp = [] := reserved.fresh
  have first : (state.enter process).ops = process :: state.ops := rfl
  rw [first, map_cons, sum_cons, own, none, length_nil, Nat.sub_zero]
  refine congrArg (fun shares => quota + List.sum shares) (map_congr_left ?_)
  intro other member
  rw [opOf_enter new member]
  rfl

theorem Reserved.begin (inv : Inv geometry base state) (small : quota < MAXOPBLOCKS)
    (new : process ∉ state.ops)
    (room : state.lh.length + (state.outstanding + 1) * MAXOPBLOCKS ≤ LOGSIZE)
    (empty : state.ops = [] -> state.lh = []) : Reserved quota (state.enter process) := by
  refine ⟨reserved.quiet, reserved.calm, ?_, ?_, ?_⟩
  · exact fun call member => Nat.lt_succ_of_lt (reserved.known call member)
  · intro other running block member
    rcases mem_cons.mp running with same | old
    · have own : (state.enter process).opOf other = state.nextOp := by
        rw [same]
        exact update_self ..
      rw [own] at member
      have impossible : block ∈ state.loggedBy state.nextOp := member
      rw [reserved.fresh] at impossible
      cases impossible
    · rw [opOf_enter new old] at member
      exact reserved.logged other old block member
  · intro _
    have same : (state.enter process).lh = state.lh := rfl
    rw [reserved.spare_enter new, same]
    have most := spare_le quota state
    rw [inv.outstanding] at room
    unfold LOGSIZE MAXOPBLOCKS at *
    cases ops : state.ops with
    | nil =>
      rw [ops, length_nil, Nat.mul_zero] at most
      rw [empty ops, length_nil]
      omega
    | cons first rest =>
      have share : quota * state.ops.length ≤ 9 * state.ops.length :=
        Nat.mul_le_mul_right _ (Nat.le_of_lt_succ small)
      rw [ops, length_cons] at share most room
      omega

theorem Reserved.leave (active : process ∈ state.ops) : Reserved quota
      { state with
        outstanding := state.outstanding - 1
        ops := state.ops.erase process } := by
  refine ⟨reserved.quiet, reserved.calm, reserved.known, ?_, ?_⟩
  · exact fun other member => reserved.logged other (mem_of_mem_erase member)
  · intro some
    have before := reserved.room (ne_nil_of_mem active)
    unfold State.spare at before ⊢
    rw [← sum_map_erase _ active] at before
    have same : ∀ op, State.loggedBy
        { state with
          outstanding := state.outstanding - 1
          ops := state.ops.erase process } op = state.loggedBy op := fun _ => rfl
    simp only [same] at before ⊢
    omega

/-- Without an operation nothing has to be reserved. -/
theorem Reserved.idle {lh : List Nat} {installing : Bool} (none : state.ops = []) :
    Reserved quota { state with lh := lh, installing := installing } where
  quiet := reserved.quiet
  calm := reserved.calm
  known := reserved.known
  logged := fun other member => by
    have impossible : other ∈ state.ops := member
    rw [none] at impossible
    cases impossible
  room := fun some => absurd none some

end

/-! ## Every run -/

/-- An operation only exists once the kernel is up. -/
theorem Inv.ready_of_active (inv : Inv geometry base state) (active : process ∈ state.ops) :
    state.ready = true := by
  by_contra down
  rw [inv.committer_alone (inv.down_committer (by simpa using down))] at active
  cases active

theorem LStep.within (step : LStep geometry process state after)
    (within : after.Within quota) : state.Within quota := by
  cases step with
  | append block => exact Within.of_append within
  | recycle victim =>
    unfold State.recycle at within
    split at within
    · exact within
    · exact within
  | unlockBuf block =>
    unfold State.unlockBuf at within
    split at within
    · exact within
    · exact within
  | commitPoint _ _ _ nonempty =>
    unfold State.writeHeadBack at within
    rw [if_neg nonempty] at within
    exact within
  | _ => exact within

theorem LStep.reserved (step : LStep geometry process state after)
    (inv : Inv geometry base state) (size : geometry.size = LOGSIZE)
    (small : quota < MAXOPBLOCKS) (within : after.Within quota)
    (reserved : Reserved quota state) : Reserved quota after := by
  cases step with
  | begin _ _ _ new _ room empty => exact reserved.begin inv small new room empty
  | leave _ active => exact reserved.leave active
  | append block _ active =>
    exact reserved.append inv (inv.ready_of_active active) active within
  | panic active full =>
    -- The room that is left rules out both of the tests that lead here.
    have room := reserved.room (ne_nil_of_mem active)
    rw [size] at full
    omega
  | readHead mine | clearHead mine =>
    exact reserved.idle (inv.committer_alone (by simp [mine]))
  | recycle victim =>
    unfold State.recycle
    split
    · exact { reserved with }
    · exact reserved
  | unlockBuf block =>
    unfold State.unlockBuf
    split
    · exact { reserved with }
    · exact { reserved with }
  | commitPoint _ _ _ nonempty =>
    unfold State.writeHeadBack
    rw [if_neg nonempty]
    exact { reserved with }
  | _ => exact { reserved with }

theorem Reserved.reset (reserved : Reserved quota state) : Reserved quota state.reset where
  quiet := rfl
  calm := reserved.calm
  known := reserved.known
  logged := fun _ member => by cases member
  room := fun some => absurd rfl some

theorem reserved_init (quota : Nat) (disk : Disk) : Reserved quota (State.init disk) where
  quiet := rfl
  calm := fun _ member => by cases member
  known := fun _ member => by cases member
  logged := fun _ member => by cases member
  room := fun some => absurd rfl some

theorem Reachable.reserved (formatted : Formatted geometry disk) (small : quota < MAXOPBLOCKS)
    (reached : Reachable geometry disk config) (within : config.1.Within quota) :
    Reserved quota config.1 := by
  induction reached with
  | refl => exact reserved_init quota disk
  | tail earlier step ih =>
    have safe := Reachable.safe formatted.empty earlier
    cases step with
    | crash => exact (ih within).reset
    | step process taken =>
      rcases (safe.step verifies taken).2 with same | ⟨_, _, guaranteed⟩
      · rw [same] at within ⊢
        exact ih within
      · exact guaranteed.reserved safe.1 formatted.size small within (ih (guaranteed.within within))

theorem Reachable.sound (formatted : Formatted geometry disk) (small : quota < MAXOPBLOCKS)
    (reached : Reachable geometry disk config) (within : config.1.Within quota) :
    Sound geometry config.1 := by
  have reserved := reached.reserved formatted small within
  exact ⟨reserved.quiet, (Reachable.safe formatted.empty reached).1.lh_good.fits, reserved.calm⟩

/-! ## Three operations of `MAXOPBLOCKS` blocks each -/

/-- What the first three operations have logged, ten blocks each. -/
theorem within_of_calls (calls : state.calls = (List.range 29).reverse.map
      (fun index => ⟨index / 10, 100 + index, false⟩)) : state.Within MAXOPBLOCKS := by
  intro op
  unfold State.loggedBy
  rw [calls]
  rcases op with _ | _ | _ | op
  · decide
  · decide
  · decide
  · have few : ∀ call, call ∈ state.calls -> call.op < 3 := by
      rw [calls]
      decide
    rw [← calls, filter_eq_nil_iff.mpr]
    · exact Nat.zero_le _
    · exact fun call member same => absurd (few call member)
        (Nat.not_lt.mpr (of_decide_eq_true same ▸ Nat.le_add_left 3 op))

set_option maxRecDepth 40000 in
/-- Three operations are admitted together; two log ten blocks each and the
third one nine.  Its next `log_write` panics. -/
theorem full_log_run :
    (machine mkfsLog).Reaches (fun _ => True) (State.init (fun _ _ => 0), bootPool)
      (fun config => config.1.panicked = some .tooBigATransaction ∧
        config.1.Within MAXOPBLOCKS) := by
  -- Process 0 recovers from an empty log; then the operations begin.
  refine .solo 0 0 trivial (Leads.drive 100 rfl (choose (0 : Nat) rfl trivial ?_))
  refine Leads.drive 100 rfl (choose (0 : Nat) rfl trivial ?_)
  refine Leads.drive 100 rfl (choose (none : Option Nat) rfl trivial ?_)
  refine Leads.drive 100 rfl (stop (.solo 1 1 trivial ?_))
  refine Leads.drive 100 rfl (choose (none : Option Nat) rfl trivial ?_)
  refine Leads.drive 100 rfl (stop (.solo 2 2 trivial ?_))
  refine Leads.drive 100 rfl (choose (none : Option Nat) rfl trivial ?_)
  refine Leads.drive 100 rfl (stop (.solo 0 0 trivial ?_))
  -- Each of them reads, logs and releases one block after the other.
  iterate 10
    refine Leads.drive 100 rfl (pick (fun now => .bread (100 + now.lh.length)) rfl trivial ?_)
    refine Leads.drive 100 rfl (choose (0 : Nat) rfl trivial ?_)
    refine Leads.drive 100 rfl (pick (fun now => .logWrite (100 + now.lh.length)) rfl trivial ?_)
    refine Leads.drive 100 rfl (pick (fun now => .brelse (99 + now.lh.length)) rfl trivial ?_)
  refine Leads.drive 100 rfl (stop (.solo 1 1 trivial ?_))
  iterate 10
    refine Leads.drive 100 rfl (pick (fun now => .bread (100 + now.lh.length)) rfl trivial ?_)
    refine Leads.drive 100 rfl (choose (0 : Nat) rfl trivial ?_)
    refine Leads.drive 100 rfl (pick (fun now => .logWrite (100 + now.lh.length)) rfl trivial ?_)
    refine Leads.drive 100 rfl (pick (fun now => .brelse (99 + now.lh.length)) rfl trivial ?_)
  refine Leads.drive 100 rfl (stop (.solo 2 2 trivial ?_))
  iterate 9
    refine Leads.drive 100 rfl (pick (fun now => .bread (100 + now.lh.length)) rfl trivial ?_)
    refine Leads.drive 100 rfl (choose (0 : Nat) rfl trivial ?_)
    refine Leads.drive 100 rfl (pick (fun now => .logWrite (100 + now.lh.length)) rfl trivial ?_)
    refine Leads.drive 100 rfl (pick (fun now => .brelse (99 + now.lh.length)) rfl trivial ?_)
  refine Leads.drive 100 rfl (choose (Action.bread 129) rfl trivial ?_)
  refine Leads.drive 100 rfl (choose (0 : Nat) rfl trivial ?_)
  refine Leads.drive 100 rfl (choose (Action.logWrite 129) rfl trivial ?_)
  exact Leads.drive 100 rfl (stop (.done ⟨rfl, within_of_calls rfl⟩))

/-- On a disk made by mkfs three operations can each log at most `MAXOPBLOCKS`
distinct blocks and reach the panic "too big a transaction". -/
theorem reservation_too_large :
    ∃ config, Reachable mkfsLog (fun _ _ => 0) config ∧ config.1.Within MAXOPBLOCKS ∧
      config.1.panicked = some .tooBigATransaction := by
  rcases full_log_run.reach with ⟨config, run, panics, within⟩
  exact ⟨config, Reachable.of_reach run, within, panics⟩

/-- The space that `begin_op` reserves suffices exactly when every operation
logs fewer than `MAXOPBLOCKS` distinct blocks: then, through any number of
crashes, no panic of the log is reached, the header fits into the log, and no
block is logged during a commit. -/
theorem reservation_suffices_iff (quota : Nat) :
    (forall geometry disk config, Formatted geometry disk -> Reachable geometry disk config ->
      config.1.Within quota -> Sound geometry config.1) <-> quota < MAXOPBLOCKS := by
  refine ⟨fun suffices_ => ?_, fun small geometry disk config formatted reached within =>
    reached.sound formatted small within⟩
  by_contra large
  rcases full_log_run.reach with ⟨config, run, panics, within⟩
  have wide : config.1.Within quota := fun op => Nat.le_trans (within op) (Nat.le_of_not_lt large)
  have sound := suffices_ mkfsLog _ config ⟨rfl, rfl⟩ (Reachable.of_reach run) wide
  rw [sound.quiet] at panics
  cases panics

end Log
end Xv6
