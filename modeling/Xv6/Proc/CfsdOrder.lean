import Xv6.Proc.LockedScan
import Mathlib.Data.Multiset.Filter

namespace Xv6
namespace Cfsd

open List

/-!
# The CFSD choice and the order of the table

CFSD compares `rutime * priority / (rutime + stime)` by cross-multiplication.
A process that has neither run nor slept has numerator and denominator zero, so
both sides of its comparison with any other process are zero: it never replaces
a candidate, and as a candidate it is never replaced.

A scan only looks at the runnable processes, in the order of their slots, so
the choice is studied on lists of processes.
-/

/-- The runnable processes of a table, in the order of their slots. -/
def ready (table : Slot -> Proc) : List Proc :=
  ((List.finRange NPROC).map table).filter fun proc => proc.state = .runnable

/-- The candidate after one more process, and after a list of them. -/
def better (before : Proc -> Proc -> Bool) (minP proc : Proc) : Proc :=
  if before proc minP then proc else minP

def chosen (before : Proc -> Proc -> Bool) : List Proc -> Option Proc
  | [] => none
  | first :: rest => some (rest.foldl (better before) first)

/-- A scan of the table chooses from the list of its runnable processes. -/
theorem scan_chosen (before : Proc -> Proc -> Bool) (table : Slot -> Proc) :
    (scan before table).map table = chosen before (ready table) := by
  have from_candidate : ∀ (slots : List Slot) (minP : Slot),
      (slots.foldl (scanStep before table) (some minP)).map table =
        some (((slots.map table).filter fun proc => proc.state = .runnable).foldl
          (better before) (table minP)) := by
    intro slots
    induction slots with
    | nil => exact fun _ => rfl
    | cons slot slots ih =>
      intro minP
      by_cases runnable : (table slot).state = .runnable
      · by_cases smaller : before (table slot) (table minP) = true
        · simp [scanStep, runnable, smaller, better, ih]
        · simp [scanStep, runnable, smaller, better, ih]
      · simp [scanStep, runnable, ih]
  have from_none : ∀ slots : List Slot, (slots.foldl (scanStep before table) none).map table =
        chosen before ((slots.map table).filter fun proc => proc.state = .runnable) := by
    intro slots
    induction slots with
    | nil => rfl
    | cons slot slots ih =>
      by_cases runnable : (table slot).state = .runnable
      · simp [scanStep, runnable, from_candidate, chosen]
      · simp [scanStep, runnable, ih]
  exact from_none (List.finRange NPROC)

/-- The processes stand in the slots of the table, in some order, and no other
slot is runnable. -/
def Places (processes : Multiset Proc) (table : Slot -> Proc) : Prop :=
  (ready table : Multiset Proc) = processes

/-- The CFSD scan in exact arithmetic picks the process. -/
def Picks (table : Slot -> Proc) (proc : Proc) : Prop :=
  forall up down, ∃ slot, (searchTable (cfsdVisit id table) up down).minP = some slot ∧
    table slot = proc

theorem picks_iff (table : Slot -> Proc) (proc : Proc) :
    Picks table proc <-> chosen (cfsdBeforeIn id) (ready table) = some proc := by
  rw [← scan_chosen, Option.map_eq_some_iff]
  constructor
  · intro picks
    rw [← (cfsd_run id table 0 0).1]
    exact picks 0 0
  · intro selected up down
    rw [(cfsd_run id table up down).1]
    exact selected

/-- A place for every process of a list. -/
def lay (processes : List Proc) : Slot -> Proc :=
  fun slot => processes.getD slot Proc.zero

theorem ready_lay {processes : List Proc} (room : processes.length ≤ NPROC)
    (runnable : ∀ proc, proc ∈ processes -> proc.state = .runnable) :
    ready (lay processes) = processes := by
  have laid : (List.finRange NPROC).map (lay processes) =
      processes ++ List.replicate (NPROC - processes.length) Proc.zero := by
    apply ext_getElem
    · simp
      omega
    · intro index _ _
      simp only [getElem_map, getElem_finRange, lay, getD_eq_getElem?_getD,
        getElem_append, getElem_replicate]
      split
      · next inside => simp [inside]
      · next outside => simp [Nat.le_of_not_lt outside]
  rw [ready, laid, filter_append]
  have all : processes.filter (fun proc => proc.state = .runnable) = processes := by
    rw [filter_eq_self]
    simpa using runnable
  rw [all]
  simp [Proc.zero]

/-! ## Processes that have not run or slept -/

/-- What the counters and the priority of a runnable process can be. -/
structure Schedulable (proc : Proc) : Prop where
  runnable : proc.state = .runnable
  rutime : 0 ≤ proc.rutime
  stime : 0 ≤ proc.stime
  priority : proc.priority ∈ [TEST_HIGH_PRIORITY, HIGH_PRIORITY, NORMAL_PRIORITY,
    LOW_PRIORITY, TEST_LOW_PRIORITY]

/-- A process that has neither run nor slept. -/
def Unspent (proc : Proc) : Prop := proc.rutime = 0 ∧ proc.stime = 0

/-- A process that has slept but not run. -/
def OnlySlept (proc : Proc) : Prop := proc.rutime = 0 ∧ 0 < proc.stime

variable {proc : Proc}

theorem Schedulable.priority_pos (schedulable : Schedulable proc) : 0 < proc.priority := by
  have listed := schedulable.priority
  simp only [mem_cons, not_mem_nil, or_false, TEST_HIGH_PRIORITY, HIGH_PRIORITY,
    NORMAL_PRIORITY, LOW_PRIORITY, TEST_LOW_PRIORITY] at listed
  omega

theorem Schedulable.down_pos (schedulable : Schedulable proc) (spent : ¬ Unspent proc) :
    0 < proc.rutime + proc.stime := by
  have ran := schedulable.rutime
  have slept := schedulable.stime
  unfold Unspent at spent
  omega

theorem ratio_zero (idle : proc.rutime = 0) : ratio proc = 0 := by
  simp [ratio, idle]

theorem Schedulable.ratio_nonneg (schedulable : Schedulable proc) : 0 ≤ ratio proc := by
  unfold ratio
  apply div_nonneg
  · exact_mod_cast mul_nonneg schedulable.rutime schedulable.priority_pos.le
  · exact_mod_cast add_nonneg schedulable.rutime schedulable.stime

theorem Schedulable.ratio_pos (schedulable : Schedulable proc) (ran : 0 < proc.rutime) :
    0 < ratio proc := by
  have slept := schedulable.stime
  unfold ratio
  apply div_pos
  · exact_mod_cast mul_pos ran schedulable.priority_pos
  · exact_mod_cast add_pos_of_pos_of_nonneg ran slept

/-- An unspent process and any other process are never before each other. -/
theorem unspent_incomparable {proc minP : Proc} (unspent : Unspent proc ∨ Unspent minP) :
    cfsdBeforeIn id proc minP = false := by
  rcases unspent with ⟨ran, slept⟩ | ⟨ran, slept⟩
  · simp [cfsdBeforeIn, ran, slept]
  · simp [cfsdBeforeIn, ran, slept]

/-- An unspent candidate stays to the end. -/
theorem unspent_stays {minP : Proc} (unspent : Unspent minP) (processes : List Proc) :
    processes.foldl (better (cfsdBeforeIn id)) minP = minP := by
  induction processes with
  | nil => rfl
  | cons proc processes ih =>
    rw [foldl_cons, better, unspent_incomparable (Or.inr unspent)]
    exact ih

/-- From a candidate that is not unspent, the scan finds the least ratio among
the processes that are not unspent. -/
theorem spent_least (processes : List Proc) : ∀ minP, Schedulable minP -> ¬ Unspent minP ->
      (∀ proc, proc ∈ processes -> Schedulable proc) ->
      let least := processes.foldl (better (cfsdBeforeIn id)) minP
      least ∈ minP :: processes ∧ ¬ Unspent least ∧
        ∀ proc, proc ∈ minP :: processes -> ¬ Unspent proc -> ratio least ≤ ratio proc := by
  induction processes with
  | nil =>
    intro minP _ spent _
    refine ⟨by simp, spent, fun proc member _ => ?_⟩
    rw [mem_singleton.mp member]
    exact le_refl _
  | cons next rest ih =>
    intro minP schedulable spent others
    have known := others next (by simp)
    have tail : ∀ proc, proc ∈ rest -> Schedulable proc :=
      fun proc member => others proc (by simp [member])
    rw [foldl_cons]
    by_cases smaller : cfsdBeforeIn id next minP = true
    · have nextSpent : ¬ Unspent next := fun unspent => by
        rw [unspent_incomparable (Or.inl unspent)] at smaller
        cases smaller
      have below : ratio next < ratio minP := by
        rw [ratio_lt_iff (known.down_pos nextSpent) (schedulable.down_pos spent)]
        simpa [cfsdBeforeIn] using smaller
      rw [better, if_pos smaller]
      rcases ih next known nextSpent tail with ⟨member, leastSpent, least⟩
      refine ⟨by simp_all, leastSpent, fun proc among procSpent => ?_⟩
      rcases mem_cons.mp among with rfl | later
      · exact (least next (by simp) nextSpent).trans below.le
      · exact least proc later procSpent
    · rw [better, if_neg smaller]
      rcases ih minP schedulable spent tail with ⟨member, leastSpent, least⟩
      refine ⟨?_, leastSpent, fun proc among procSpent => ?_⟩
      · rcases mem_cons.mp member with same | later
        · rw [same]
          simp
        · simp [later]
      · rcases mem_cons.mp among with rfl | later
        · exact least proc (by simp) procSpent
        · rcases mem_cons.mp later with rfl | last
          · have above : ratio minP ≤ ratio proc := by
              rw [← not_lt, ratio_lt_iff (known.down_pos procSpent) (schedulable.down_pos spent)]
              simpa [cfsdBeforeIn] using smaller
            exact (least minP (by simp) spent).trans above
          · exact least proc (by simp [last]) procSpent

/-! ## When the choice does not depend on the order -/

/-- The choice from the processes is the same, and the smallest ratio, for
every two placements. -/
def OrderFree (processes : Multiset Proc) : Prop :=
  forall table table', Places processes table -> Places processes table' -> processes ≠ 0 ->
    ∃ proc proc', Picks table proc ∧ Picks table' proc' ∧ ratio proc = ratio proc' ∧
      forall other, other ∈ processes -> ratio proc ≤ ratio other

/-- Every placement has its smallest ratio chosen, if an unspent process does
not hide among processes that have all run. -/
theorem picks_smallest {processes : Multiset Proc} {table : Slot -> Proc}
    (schedulable : ∀ proc, proc ∈ processes -> Schedulable proc)
    (safe : (∀ proc, proc ∈ processes -> ¬ Unspent proc) ∨
      (∃ proc, proc ∈ processes ∧ OnlySlept proc) ∨
      ∀ proc, proc ∈ processes -> Unspent proc)
    (placed : Places processes table) (nonempty : processes ≠ 0) :
    ∃ proc, Picks table proc ∧ proc ∈ processes ∧
      ∀ other, other ∈ processes -> ratio proc ≤ ratio other := by
  unfold Places at placed
  subst placed
  cases order : ready table with
  | nil => exact (nonempty (by rw [order]; rfl)).elim
  | cons first rest =>
    rw [order] at schedulable safe
    simp only [Multiset.mem_coe] at schedulable safe ⊢
    have firstKnown := schedulable first (by simp)
    refine ⟨rest.foldl (better (cfsdBeforeIn id)) first, ?_, ?_⟩
    · rw [picks_iff, order]
      rfl
    · by_cases unspent : Unspent first
      · rw [unspent_stays unspent]
        refine ⟨by simp, fun other member => ?_⟩
        rw [ratio_zero unspent.1]
        exact (schedulable other member).ratio_nonneg
      · rcases spent_least rest first firstKnown unspent
          (fun proc member => schedulable proc (by simp [member])) with
          ⟨member, leastSpent, least⟩
        refine ⟨member, fun other among => ?_⟩
        by_cases otherUnspent : Unspent other
        · rcases safe with none | ⟨slept, sleptAmong, onlySlept⟩ | all
          · exact (none other among otherUnspent).elim
          · have spent : ¬ Unspent slept := fun impossible => by
              have zero := impossible.2
              have positive := onlySlept.2
              omega
            have bound := least slept sleptAmong spent
            rwa [ratio_zero onlySlept.1, ← ratio_zero otherUnspent.1] at bound
          · exact (unspent (all first (by simp))).elim
        · exact least other among otherUnspent

/-- A process that has run, placed first, keeps an unspent process from being
chosen. -/
theorem not_orderFree {processes : Multiset Proc}
    (schedulable : ∀ proc, proc ∈ processes -> Schedulable proc)
    (room : processes.card ≤ NPROC) {unspent spent : Proc}
    (unspentAmong : unspent ∈ processes) (isUnspent : Unspent unspent)
    (spentAmong : spent ∈ processes) (isSpent : ¬ Unspent spent)
    (allRan : ∀ proc, proc ∈ processes -> ¬ OnlySlept proc) : ¬ OrderFree processes := by
  intro free
  rcases Multiset.exists_cons_of_mem spentAmong with ⟨others, shape⟩
  rcases Quot.exists_rep others with ⟨rest, rfl⟩
  have whole : ((spent :: rest : List Proc) : Multiset Proc) = processes := shape.symm
  have member : ∀ proc, proc ∈ spent :: rest <-> proc ∈ processes := by
    intro proc
    rw [← whole, Multiset.mem_coe]
  have laid : ready (lay (spent :: rest)) = spent :: rest := by
    apply ready_lay
    · rwa [← whole, Multiset.coe_card] at room
    · exact fun proc among => (schedulable proc ((member proc).mp among)).runnable
  have placed : Places processes (lay (spent :: rest)) := by
    rw [Places, laid, whole]
  rcases free _ _ placed placed (by rw [shape]; exact Multiset.cons_ne_zero) with
    ⟨least, _, picks, _, _, smallest⟩
  rw [picks_iff, laid, chosen, Option.some.injEq] at picks
  have known : ∀ proc, proc ∈ spent :: rest -> Schedulable proc :=
    fun proc among => schedulable proc ((member proc).mp among)
  rcases spent_least rest spent (known spent (by simp)) isSpent
    (fun proc among => known proc (by simp [among])) with ⟨leastAmong, leastSpent, _⟩
  rw [picks] at leastAmong leastSpent
  have leastKnown := known least leastAmong
  have ran : 0 < least.rutime := by
    have rutime := leastKnown.rutime
    have down := leastKnown.down_pos leastSpent
    have notSlept := allRan least ((member least).mp leastAmong)
    unfold OnlySlept at notSlept
    omega
  have positive := leastKnown.ratio_pos ran
  have bound := smallest unspent unspentAmong
  rw [ratio_zero isUnspent.1] at bound
  exact (bound.trans_lt positive).false

/-- The CFSD choice is independent of the table order, and the smallest ratio,
exactly if there is no unspent process, or there is a process that has slept
but not run, or all processes are unspent. -/
theorem cfsd_orderFree_iff (processes : Multiset Proc)
    (schedulable : forall proc, proc ∈ processes -> Schedulable proc)
    (room : processes.card ≤ NPROC) :
    OrderFree processes <->
      (forall proc, proc ∈ processes -> ¬ Unspent proc) ∨
        (∃ proc, proc ∈ processes ∧ OnlySlept proc) ∨
        forall proc, proc ∈ processes -> Unspent proc := by
  constructor
  · intro free
    by_contra hidden
    simp only [not_or, not_forall, not_not, not_exists, not_and] at hidden
    rcases hidden with ⟨⟨unspent, unspentAmong, isUnspent⟩, allRan, spent, spentAmong, isSpent⟩
    exact not_orderFree schedulable room unspentAmong isUnspent spentAmong isSpent allRan free
  · intro safe table table' placed placed' nonempty
    rcases picks_smallest schedulable safe placed nonempty with ⟨proc, picks, among, least⟩
    rcases picks_smallest schedulable safe placed' nonempty with ⟨proc', picks', among', least'⟩
    exact ⟨proc, proc', picks, picks', le_antisymm (least proc' among') (least' proc among), least⟩

/-- A new process in a fresh slot. -/
def newcomer : Proc := { Proc.zero with state := .runnable, priority := NORMAL_PRIORITY }

/-- A process that has run for one tick. -/
def runner : Proc := { newcomer with rutime := 1 }

theorem schedulable_newcomer : Schedulable newcomer := by
  constructor <;> decide

theorem schedulable_runner : Schedulable runner := by
  constructor <;> decide

/-- Two processes that have run, one of which has slept as well. -/
theorem even_choice :
    OrderFree {runner, { runner with stime := 1 }} := by
  apply (cfsd_orderFree_iff _ ?_ (by decide)).mpr
  · left
    intro proc member
    simp only [Multiset.insert_eq_cons, Multiset.mem_cons, Multiset.mem_singleton] at member
    rcases member with rfl | rfl
    · exact fun unspent => by cases unspent.1
    · exact fun unspent => by cases unspent.1
  · intro proc member
    simp only [Multiset.insert_eq_cons, Multiset.mem_cons, Multiset.mem_singleton] at member
    rcases member with rfl | rfl
    · exact schedulable_runner
    · constructor <;> decide

/-- A new process and a process that has run: the first slot wins. -/
theorem first_slot_wins : ∃ (processes : Multiset Proc) (table table' : Slot -> Proc)
    (proc proc' : Proc), (forall p, p ∈ processes -> Schedulable p) ∧
      Places processes table ∧ Places processes table' ∧ Picks table proc ∧
      Picks table' proc' ∧ ratio proc = 0 ∧ ratio proc' = 5 := by
  have runnable : forall proc, proc ∈ [newcomer, runner] -> proc.state = .runnable := by
    decide
  have runnable' : forall proc, proc ∈ [runner, newcomer] -> proc.state = .runnable := by
    decide
  have laid := ready_lay (by decide) runnable
  have laid' := ready_lay (by decide) runnable'
  refine ⟨[newcomer, runner], lay [newcomer, runner], lay [runner, newcomer], newcomer, runner,
    ?_, ?_, ?_, ?_, ?_, ?_, ?_⟩
  · intro proc member
    simp only [Multiset.mem_coe, List.mem_cons, List.not_mem_nil, or_false] at member
    rcases member with rfl | rfl
    · exact schedulable_newcomer
    · exact schedulable_runner
  · rw [Places, laid]
  · rw [Places, laid']
    exact Multiset.coe_eq_coe.mpr (List.Perm.swap _ _ _)
  · rw [picks_iff, laid]
    decide
  · rw [picks_iff, laid']
    decide
  · exact ratio_zero rfl
  · simp [ratio, runner, newcomer, Proc.zero, NORMAL_PRIORITY]

end Cfsd
end Xv6
