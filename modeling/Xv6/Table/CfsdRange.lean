import Xv6.Table.Steps
import Xv6.Proc.LockedScan

namespace Xv6
namespace Table

open List

/-!
# The range of the CFSD comparison

A clock interrupt adds one to at most one of `rutime` and `stime` of a slot, so
after `n` ticks their sum is at most `n`.  The comparison of the CFSD scan
multiplies such a counter, a priority and such a sum, and one process that ran
through all `n` ticks and one that slept through them reach the bound.
-/

variable {H : Type} {table : Slot -> Proc} {clocks : Nat} {proc proc' : Proc}

/-! ## The values of a scan -/

/-- No product of the counters of two runnable processes overflows, whichever
two the scan compares. -/
def CfsdFits (table : Slot -> Proc) : Prop :=
  forall slot other, (table slot).state = .runnable -> (table other).state = .runnable ->
    FitsInt ((table slot).rutime * (table slot).priority) ∧
      FitsInt ((table slot).rutime + (table slot).stime) ∧
      FitsInt ((table slot).rutime * (table slot).priority *
        ((table other).rutime + (table other).stime))

/-- Then no operation of the scan overflows. -/
theorem scanFits_of_cfsdFits (fits : CfsdFits table) : ScanFits table := by
  have holds : ∀ (slots : List Slot) (search : Search), slots.Nodup ->
      (∀ minP, search.minP = some minP -> minP ∉ slots) ->
      (∀ minP, search.minP = some minP -> (table minP).state = .runnable) ->
      Saved int32 table search ->
      ∀ value, value ∈ valuesFrom table search slots -> FitsInt value := by
    intro slots
    induction slots with
    | nil =>
      intro search _ _ _ _ value member
      cases member
    | cons p slots ih =>
      intro search distinct fresh ready saved value member
      rw [valuesFrom, mem_append] at member
      rcases member with now | later
      · unfold visitValues at now
        split at now
        · next runnable =>
            rcases fits p p runnable runnable with ⟨up, down, _⟩
            cases chosen : search.minP with
            | none =>
              rw [chosen] at now
              simp only [mem_cons, not_mem_nil, or_false] at now
              rcases now with rfl | rfl
              · exact up
              · exact down
            | some minP =>
              have minReady := ready minP chosen
              rcases saved minP chosen with ⟨savedUp, savedDown⟩
              rcases fits minP p minReady runnable with ⟨minUp, minDown, minProduct⟩
              rcases fits p minP runnable minReady with ⟨_, _, product⟩
              rw [chosen] at now
              simp only [savedUp, savedDown, up.exact, down.exact, minUp.exact,
                minDown.exact, mem_cons, not_mem_nil, or_false] at now
              rcases now with rfl | rfl | rfl | rfl
              · exact up
              · exact down
              · exact product
              · exact minProduct
        · cases now
      · rw [nodup_cons] at distinct
        have unvisited : search.minP ≠ some p := fun same => fresh p same mem_cons_self
        rcases cfsdVisit_visits int32 table search p unvisited saved with ⟨visits, savedNow⟩
        have candidates := scanStep_cases (cfsdBeforeIn int32) table search.minP p
        rw [← visits.minP] at candidates
        apply ih _ distinct.2 _ _ savedNow value later
        · intro minP selected inside
          rcases candidates with same | ⟨_, replaced⟩
          · exact fresh minP (same ▸ selected) (mem_cons_of_mem _ inside)
          · rw [replaced] at selected
            cases selected
            exact distinct.1 inside
        · intro minP selected
          rcases candidates with same | ⟨runnable, replaced⟩
          · exact ready minP (same ▸ selected)
          · rw [replaced] at selected
            cases selected
            exact runnable
  intro up down value member
  refine holds (List.finRange NPROC) (Search.start up down) (nodup_finRange NPROC) ?_ ?_ ?_
    value member
  · intro minP impossible
    cases impossible
  · intro minP impossible
    cases impossible
  · intro minP impossible
    cases impossible

/-! ## The counters after a number of ticks -/

/-- The observer that counts clock interrupts. -/
def countClocks (event : Event H) (_ _ : State H) (clocks : Nat) : Nat :=
  match event with
  | .clockintr => clocks + 1
  | _ => clocks

/-- What the fields of a slot can be after a number of ticks. -/
structure Within (clocks : Nat) (proc : Proc) : Prop where
  rutime : 0 ≤ proc.rutime
  stime : 0 ≤ proc.stime
  sum : proc.rutime + proc.stime ≤ clocks
  priority : 0 ≤ proc.priority
  priority_le : proc.priority ≤ TEST_LOW_PRIORITY

theorem within_zero : Within 0 Proc.zero := by
  constructor <;> decide

/-- A record with the same counters and priority. -/
theorem Within.keep (within : Within clocks proc) (rutime : proc'.rutime = proc.rutime)
    (stime : proc'.stime = proc.stime) (priority : proc'.priority = proc.priority) :
    Within clocks proc' := by
  rcases within with ⟨ran, slept, sum, low, high⟩
  constructor <;> simp_all

/-- A record whose `rutime` has been cleared. -/
theorem Within.reset (within : Within clocks proc) (rutime : proc'.rutime = 0)
    (stime : proc'.stime = proc.stime) (low : 0 ≤ proc'.priority)
    (high : proc'.priority ≤ TEST_LOW_PRIORITY) : Within clocks proc' := by
  have ran := within.rutime
  have slept := within.stime
  have sum := within.sum
  constructor <;> omega

theorem Within.tick {proc : Proc} (within : Within clocks proc) (small : clocks + 1 < 2 ^ 31)
    (now : Nat) : Within (clocks + 1) (proc.ticked.wakeup .ticks now) := by
  rcases within with ⟨ran, slept, sum, low, high⟩
  have ticked : Within (clocks + 1) proc.ticked := by
    have up : int32 (proc.rutime + 1) = proc.rutime + 1 := int32_eq_self (by omega) (by omega)
    have asleep : int32 (proc.stime + 1) = proc.stime + 1 := int32_eq_self (by omega) (by omega)
    unfold Proc.ticked
    split
    · rw [asleep]
      exact ⟨ran, by dsimp only; omega, by dsimp only; omega, low, high⟩
    · rw [up]
      exact ⟨by dsimp only; omega, slept, by dsimp only; omega, low, high⟩
    · exact ⟨ran, slept, by dsimp only; omega, low, high⟩
    · exact ⟨ran, slept, by omega, low, high⟩
  rcases proc.ticked.wakeup_cases .ticks now with same | ⟨_, awake⟩
  · rwa [same]
  · rw [awake]
    exact ticked.keep rfl rfl rfl

theorem Change.within {ticks clocks : Nat} (change : Change table ticks proc proc')
    (all : ∀ slot, Within clocks (table slot)) (within : Within clocks proc) :
    Within clocks proc' := by
  cases change with
  | wakeup chan =>
    rcases proc.wakeup_cases chan ticks with same | ⟨_, awake⟩
    · rwa [same]
    · rw [awake]
      exact within.keep rfl rfl rfl
  | kill =>
    rcases proc.kill_cases ticks with same | ⟨_, awake⟩
    · rw [same]
      exact within.keep rfl rfl rfl
    · rw [awake]
      exact within.keep rfl rfl rfl
  | priority prio listed =>
    have range : 0 ≤ prio ∧ prio ≤ TEST_LOW_PRIORITY := by
      simp only [mem_cons, not_mem_nil, or_false, TEST_HIGH_PRIORITY,
        HIGH_PRIORITY, NORMAL_PRIORITY, LOW_PRIORITY, TEST_LOW_PRIORITY] at listed ⊢
      omega
    exact ⟨within.rutime, within.stime, within.sum, range.1, range.2⟩
  | userinit free pid =>
    refine within.reset ?_ ?_ ?_ ?_ <;> simp [Proc.yielded, Proc.allocated] <;> decide
  | alloc free pid parent =>
    exact within.reset rfl rfl (all parent).priority (all parent).priority_le
  | fail free pid =>
    exact within.reset rfl rfl (show 0 ≤ NORMAL_PRIORITY by decide)
      (show NORMAL_PRIORITY ≤ TEST_LOW_PRIORITY by decide)
  | free zombie => exact within.reset rfl rfl within.priority within.priority_le
  | yield running =>
    rw [Proc.yielded_running running]
    exact within.keep rfl rfl rfl
  | _ => exact within.keep rfl rfl rfl

section Runs

variable [DecidableEq H] {build : Build} {state : State H}

/-- The counters of every slot are bounded by the number of ticks. -/
theorem Runs.within (run : Runs build countClocks 0 state clocks) (small : clocks < 2 ^ 31) :
    ∀ slot, Within clocks (state.proc slot) := by
  induction run with
  | boot => exact fun _ => within_zero
  | @step event before after notes past taken ih =>
    intro slot
    by_cases clock : event = .clockintr
    · subst clock
      cases taken
      exact (ih (by simp only [countClocks] at small; omega) slot).tick small _
    · have same : countClocks event before after notes = notes := by
        cases event with
        | clockintr => exact (clock rfl).elim
        | _ => rfl
      rw [same] at small ⊢
      exact ((step_change past.inv taken clock).2 slot).within (ih small) (ih small slot)

theorem cfsdFits_of_within (within : ∀ slot, Within clocks (table slot))
    (small : 25 * (clocks * clocks) < 2 ^ 31) : CfsdFits table := by
  intro slot other _ _
  rcases within slot with ⟨ran, slept, sum, low, high⟩
  rcases within other with ⟨ran', slept', sum', _, _⟩
  have up_nonneg := mul_nonneg ran low
  have up_le : (table slot).rutime * (table slot).priority ≤ clocks * 25 :=
    mul_le_mul (by omega) high low (by omega)
  have product_nonneg := mul_nonneg up_nonneg (add_nonneg ran' slept')
  have product_le : (table slot).rutime * (table slot).priority *
      ((table other).rutime + (table other).stime) ≤ clocks * 25 * clocks :=
    mul_le_mul up_le sum' (add_nonneg ran' slept') (by omega)
  have square : (clocks : Int) * 25 * clocks < 2 ^ 31 := by
    have cast : (25 * (clocks * clocks) : Int) < 2 ^ 31 := by exact_mod_cast small
    rwa [mul_comm (clocks : Int) 25, mul_assoc]
  have self : clocks ≤ clocks * clocks := Nat.le_mul_self clocks
  have single : (clocks : Int) * 25 < 2 ^ 31 := by
    omega
  exact ⟨⟨by omega, by omega⟩, ⟨by omega, by omega⟩, by omega, by omega⟩

end Runs

/-! ## A run that reaches the bound -/

/-- Process 0 sets its priority, starts a child that goes to sleep, and runs. -/
def oneSleepsOneRuns : List (Event (Fin NCPU)) :=
  [.userinit 0, .dispatch 0 0, .setPriority 0 TEST_LOW_PRIORITY, .allocproc 0 1 true, .link 0,
    .publish 0, .sleep 0 (.other 0), .dispatch 0 1, .sleep 0 (.other 1), .wakeup 0 (.other 0),
    .dispatch 0 0]

/-- Slot 0 has run and slot 1 has slept for this many ticks. -/
structure Diverging (clocks : Nat) (state : State (Fin NCPU)) : Prop where
  cpu : state.cpu 0 = some 0
  running : (state.proc 0).state = .running
  rutime : (state.proc 0).rutime = clocks
  priority : (state.proc 0).priority = TEST_LOW_PRIORITY
  sleeping : (state.proc 1).state = .sleeping
  chan : (state.proc 1).chan = some (.other 1)
  stime : (state.proc 1).stime = clocks
  idle : (state.proc 1).rutime = 0

theorem diverging_start : ∃ state, Runs .CFSD countClocks 0 state 0 ∧ Diverging 0 state := by
  have start : Runs .CFSD countClocks 0 (State.boot : State (Fin NCPU)) 0 := .boot
  refine ⟨_, start.exec oneSleepsOneRuns rfl, ?_⟩
  constructor <;> rfl

theorem Diverging.tick {state : State (Fin NCPU)} (diverging : Diverging clocks state)
    (small : clocks + 1 < 2 ^ 31) : Diverging (clocks + 1) state.clockintr := by
  have up : int32 ((clocks : Int) + 1) = clocks + 1 := int32_eq_self (by omega) (by omega)
  constructor <;>
    simp [State.clockintr, Proc.ticked, Proc.wakeup, diverging.cpu, diverging.running,
      diverging.rutime, diverging.priority, diverging.sleeping, diverging.chan,
      diverging.stime, diverging.idle, up]

theorem diverging_reached (clocks : Nat) (small : clocks < 2 ^ 31) :
    ∃ state, Runs .CFSD countClocks 0 state clocks ∧ Diverging clocks state := by
  induction clocks with
  | zero => exact diverging_start
  | succ clocks ih =>
    rcases ih (by omega) with ⟨state, run, diverging⟩
    exact ⟨state.clockintr, run.exec [.clockintr] rfl, diverging.tick small⟩

/-- Both processes are runnable in the end. -/
theorem both_ready_reached (clocks : Nat) (small : clocks < 2 ^ 31) :
    ∃ state : State (Fin NCPU), Runs .CFSD countClocks 0 state clocks ∧
      ((state.proc 0).state = .runnable ∧ (state.proc 0).rutime = clocks ∧
        (state.proc 0).priority = TEST_LOW_PRIORITY) ∧
      ((state.proc 1).state = .runnable ∧ (state.proc 1).rutime = 0 ∧
        (state.proc 1).stime = clocks) := by
  rcases diverging_reached clocks small with ⟨state, run, diverging⟩
  have current : (state.wakeup 1 (.other 1)).cpu 0 = some 0 := diverging.cpu
  have runner : (state.wakeup 1 (.other 1)).proc 0 = state.proc 0 := by
    rw [State.wakeup, set_proc, if_neg (by decide)]
  have sleeper : (state.wakeup 1 (.other 1)).proc 1 = (state.proc 1).awakened state.ticks := by
    rw [State.wakeup, set_proc, if_pos rfl, Proc.wakeup,
      if_pos ⟨diverging.sleeping, diverging.chan⟩]
  have done : exec .CFSD countClocks [.wakeup 1 (.other 1), .yield 0] state clocks =
      some ((state.wakeup 1 (.other 1)).sched 0 0 ((state.proc 0).yielded state.ticks),
        clocks) := by
    simp only [exec, step, State.yield, current, runner, Option.bind_eq_bind, Option.bind_some]
    rfl
  refine ⟨_, run.exec _ done, ?_, ?_⟩
  · simp only [State.sched, State.setCpu, set_proc, if_pos]
    rw [Proc.yielded_running diverging.running]
    exact ⟨rfl, diverging.rutime, diverging.priority⟩
  · simp only [State.sched, State.setCpu, set_proc, show (1 : Slot) ≠ 0 by decide, if_false,
      sleeper]
    exact ⟨rfl, diverging.idle, diverging.stime⟩

/-- The second visit of the scan multiplies the counters. -/
theorem not_scanFits (first : (table 0).state = .runnable ∧ (table 0).rutime = clocks ∧
      (table 0).priority = TEST_LOW_PRIORITY)
    (second : (table 1).state = .runnable ∧ (table 1).rutime = 0 ∧ (table 1).stime = clocks)
    (small : clocks * 25 < 2 ^ 31) (large : 2 ^ 31 ≤ 25 * (clocks * clocks)) :
    ¬ ScanFits table := by
  intro fits
  have slots : List.finRange NPROC = 0 :: 1 :: (List.finRange NPROC).drop 2 := by decide
  have up : int32 ((clocks : Int) * 25) = clocks * 25 := int32_eq_self (by omega) (by omega)
  have down : int32 (clocks : Int) = clocks := int32_eq_self (by omega) (by omega)
  have product : FitsInt (clocks * 25 * clocks) := by
    apply fits 0 0
    rw [slots]
    simp [valuesFrom, visitValues, cfsdVisit, Search.start, Search.acquire, first, second,
      TEST_LOW_PRIORITY, up, down]
  have square : (2 : Int) ^ 31 ≤ clocks * 25 * clocks := by
    rw [mul_comm (clocks : Int) 25, mul_assoc]
    exact_mod_cast large
  have high := product.2
  omega

/-- The CFSD comparison does not overflow as long as the machine has been up
for at most `limit` ticks, exactly if `25 * limit ^ 2` fits in an `int`, which
is the case up to 9268 ticks.  Then the scan does what it would do with the
exact products. -/
theorem cfsd_no_overflow_iff (limit : Nat) :
    (forall (state : State (Fin NCPU)) (clocks : Nat),
      Runs .CFSD countClocks 0 state clocks -> clocks ≤ limit ->
        ScanFits state.proc ∧
          forall up down, searchTable (cfsdVisit int32 state.proc) up down =
            searchTable (cfsdVisit id state.proc) up down) <->
      25 * (limit * limit) < 2 ^ 31 := by
  constructor
  · intro fits
    by_contra large
    have long : 9269 ≤ limit := by
      by_contra short
      have bound := Nat.mul_le_mul (show limit ≤ 9268 by omega) (show limit ≤ 9268 by omega)
      omega
    rcases both_ready_reached 9269 (by decide) with ⟨state, run, first, second⟩
    exact not_scanFits first second (by decide) (by decide) (fits state 9269 run long).1
  · intro small state clocks run short
    have bound : 25 * (clocks * clocks) < 2 ^ 31 := by
      have square := Nat.mul_le_mul short short
      omega
    have self : clocks ≤ clocks * clocks := Nat.le_mul_self clocks
    have scans := scanFits_of_cfsdFits (cfsdFits_of_within (run.within (by omega)) bound)
    exact ⟨scans, cfsdScan_exact scans⟩

/-- After 9269 ticks a scan overflows. -/
theorem cfsd_overflow_reached : ∃ (state : State (Fin NCPU)),
    Runs .CFSD countClocks 0 state 9269 ∧ ¬ ScanFits state.proc := by
  rcases both_ready_reached 9269 (by decide) with ⟨state, run, first, second⟩
  exact ⟨state, run, not_scanFits first second (by decide) (by decide)⟩

end Table
end Xv6
