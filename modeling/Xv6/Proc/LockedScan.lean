import Xv6.Proc.Burst
import Xv6.Proc.Scan
import Mathlib.Algebra.Order.Field.Rat
import Mathlib.Data.Finset.Option

namespace Xv6

open List

/-!
# The scans and the process locks

The FCFS, SRT and CFSD variants of `scheduler` keep the lock of the best
candidate while they look at the rest of the table.  Every slot is read under
its own lock, so a scan sees one record per slot, and the record of the
candidate cannot change after it was read.

The loops are written here as the source has them, with the operations on the
process locks in the order in which they are carried out.
-/

/-- `acquire(&p->lock)` and `release(&p->lock)`. -/
inductive LockOp where
  | acquire (slot : Slot)
  | release (slot : Slot)
  deriving DecidableEq, Repr

/-- The local variables of a scan and the lock operations so far. -/
structure Search where
  minP : Option Slot
  minRttUp : Int
  minRttDown : Int
  ops : List LockOp

namespace Search

/-- The variables before the loop.  The source does not initialise
`min_rtt_up` and `min_rtt_down`. -/
def start (up down : Int) : Search := ⟨none, up, down, []⟩

def acquire (search : Search) (slot : Slot) : Search :=
  { search with ops := search.ops ++ [.acquire slot] }

def release (search : Search) (slot : Slot) : Search :=
  { search with ops := search.ops ++ [.release slot] }

end Search

/-- The loop body that FCFS and SRT share but for the comparison. -/
def keyedVisit (before : Proc -> Proc -> Bool) (table : Slot -> Proc) (search : Search)
    (p : Slot) : Search :=
  let search := search.acquire p
  if (table p).state = .runnable then
    match search.minP with
    | some minP =>
      if before (table p) (table minP) then { search.release minP with minP := some p }
      else search.release p
    | none => { search with minP := some p }
  else search.release p

def fcfsVisit : (Slot -> Proc) -> Search -> Slot -> Search := keyedVisit fcfsBefore

def srtVisit : (Slot -> Proc) -> Search -> Slot -> Search := keyedVisit srtBefore

/-- The loop body of CFSD.  The result of every operation on `int`s goes
through `wrap`: `int32` is the arithmetic of the machine, `id` is exact. -/
def cfsdVisit (wrap : Int -> Int) (table : Slot -> Proc) (search : Search) (p : Slot) :
    Search :=
  let search := search.acquire p
  if (table p).state = .runnable then
    match search.minP with
    | some minP =>
      let rttUp := wrap ((table p).rutime * (table p).priority)
      let rttDown := wrap ((table p).rutime + (table p).stime)
      if wrap (rttUp * search.minRttDown) < wrap (search.minRttUp * rttDown) then
        { search.release minP with minP := some p, minRttUp := rttUp, minRttDown := rttDown }
      else search.release p
    | none =>
      { search with
        minP := some p
        minRttUp := wrap ((table p).rutime * (table p).priority)
        minRttDown := wrap ((table p).rutime + (table p).stime) }
  else search.release p

/-- `for(p = proc; p < &proc[NPROC]; p++)`. -/
def searchTable (visit : Search -> Slot -> Search) (up down : Int) : Search :=
  (List.finRange NPROC).foldl visit (Search.start up down)

/-- The comparison of CFSD between two records. -/
def cfsdBeforeIn (wrap : Int -> Int) (proc minP : Proc) : Bool :=
  wrap (wrap (proc.rutime * proc.priority) * wrap (minP.rutime + minP.stime)) <
    wrap (wrap (minP.rutime * minP.priority) * wrap (proc.rutime + proc.stime))

/-! ## Which locks are held -/

/-- Carry out lock operations from a set of held locks.  To acquire a lock
twice and to release a lock that is not held are errors. -/
def replay : Finset Slot -> List LockOp -> Option (Finset Slot)
  | held, [] => some held
  | held, .acquire slot :: ops => if slot ∈ held then none else replay (insert slot held) ops
  | held, .release slot :: ops => if slot ∈ held then replay (held.erase slot) ops else none

theorem replay_append {held held' : Finset Slot} {ops : List LockOp}
    (done : replay held ops = some held') (more : List LockOp) :
    replay held (ops ++ more) = replay held' more := by
  induction ops generalizing held with
  | nil =>
    cases done
    rfl
  | cons op ops ih =>
    cases op with
    | acquire slot =>
      simp only [replay, cons_append] at done ⊢
      split at done
      · cases done
      · next free => rw [if_neg free, ih done]
    | release slot =>
      simp only [replay, cons_append] at done ⊢
      split at done
      · next taken => rw [if_pos taken, ih done]
      · cases done

/-- What every visit does to the locks: the visited lock is taken, and then the
one of the two candidates that is not kept is released. -/
def handOver (minP : Option Slot) (p : Slot) (kept : Option Slot) : List LockOp :=
  .acquire p :: if kept = some p then minP.toList.map .release else [.release p]

/-- A visit makes the choice of `scanStep` and hands over the lock. -/
structure Visits (before : Proc -> Proc -> Bool) (table : Slot -> Proc) (search : Search)
    (p : Slot) (after : Search) : Prop where
  minP : after.minP = scanStep before table search.minP p
  ops : after.ops = search.ops ++ handOver search.minP p after.minP

theorem keyedVisit_visits (before : Proc -> Proc -> Bool) (table : Slot -> Proc)
    (search : Search) (p : Slot) (fresh : search.minP ≠ some p) :
    Visits before table search p (keyedVisit before table search p) := by
  rcases search with ⟨minP, up, down, ops⟩
  by_cases runnable : (table p).state = .runnable
  · cases minP with
    | none =>
      constructor <;>
        simp [keyedVisit, scanStep, Search.acquire, handOver, runnable]
    | some old =>
      have different : old ≠ p := fun same => fresh (congrArg some same)
      by_cases smaller : before (table p) (table old) = true
      · constructor <;>
          simp [keyedVisit, scanStep, Search.acquire, Search.release, handOver, runnable, smaller]
      · constructor <;>
          simp [keyedVisit, scanStep, Search.acquire, Search.release, handOver, runnable,
            smaller, different]
  · constructor <;>
      simp [keyedVisit, scanStep, Search.acquire, Search.release, handOver, runnable, fresh]

/-- The saved numerator and denominator are those of the candidate. -/
def Saved (wrap : Int -> Int) (table : Slot -> Proc) (search : Search) : Prop :=
  forall minP, search.minP = some minP ->
    search.minRttUp = wrap ((table minP).rutime * (table minP).priority) ∧
      search.minRttDown = wrap ((table minP).rutime + (table minP).stime)

theorem cfsdVisit_visits (wrap : Int -> Int) (table : Slot -> Proc) (search : Search)
    (p : Slot) (fresh : search.minP ≠ some p) (saved : Saved wrap table search) :
    Visits (cfsdBeforeIn wrap) table search p (cfsdVisit wrap table search p) ∧
      Saved wrap table (cfsdVisit wrap table search p) := by
  rcases search with ⟨minP, up, down, ops⟩
  by_cases runnable : (table p).state = .runnable
  · cases minP with
    | none =>
      refine ⟨⟨?_, ?_⟩, ?_⟩
      · simp [cfsdVisit, scanStep, Search.acquire, runnable]
      · simp [cfsdVisit, Search.acquire, handOver, runnable]
      · simp [cfsdVisit, Saved, Search.acquire, runnable]
    | some old =>
      have different : old ≠ p := fun same => fresh (congrArg some same)
      rcases saved old rfl with ⟨rfl, rfl⟩
      by_cases smaller : cfsdBeforeIn wrap (table p) (table old) = true
      · have compared := smaller
        simp only [cfsdBeforeIn, decide_eq_true_eq] at compared
        refine ⟨⟨?_, ?_⟩, ?_⟩
        · simp [cfsdVisit, scanStep, Search.acquire, Search.release, runnable, smaller, compared]
        · simp [cfsdVisit, Search.acquire, Search.release, handOver, runnable, compared]
        · simp [cfsdVisit, Saved, Search.acquire, Search.release, runnable, compared]
      · have compared := smaller
        simp only [cfsdBeforeIn, decide_eq_true_eq] at compared
        refine ⟨⟨?_, ?_⟩, ?_⟩
        · simp [cfsdVisit, scanStep, Search.acquire, Search.release, runnable, smaller, compared]
        · simp [cfsdVisit, Search.acquire, Search.release, handOver, runnable, compared, different]
        · simp [cfsdVisit, Saved, Search.acquire, Search.release, runnable, compared]
  · refine ⟨⟨?_, ?_⟩, ?_⟩
    · simp [cfsdVisit, scanStep, Search.acquire, Search.release, runnable]
    · simp [cfsdVisit, Search.acquire, Search.release, handOver, runnable, fresh]
    · simpa [cfsdVisit, Search.acquire, Search.release, runnable, Saved] using saved

/-- The state of the locks after the slots `seen`: the candidate's lock is
held, every lock seen was taken once, and released once unless it is the
candidate's. -/
structure Handed (seen : List Slot) (search : Search) : Prop where
  among : forall minP, search.minP = some minP -> minP ∈ seen
  held : replay ∅ search.ops = some search.minP.toFinset
  acquired : forall slot, search.ops.count (.acquire slot) = if slot ∈ seen then 1 else 0
  released : forall slot, search.ops.count (.release slot) =
    if slot ∈ seen ∧ search.minP ≠ some slot then 1 else 0

variable {search after : Search} {seen : List Slot} {p : Slot} {table : Slot -> Proc}

section

variable (handed : Handed seen search) (unseen : p ∉ seen)

include handed unseen

/-- The visited process becomes the candidate. -/
theorem Handed.take (kept : after.minP = some p)
    (ops : after.ops = search.ops ++ .acquire p :: search.minP.toList.map .release) :
    Handed (seen ++ [p]) after := by
  have fresh : ∀ minP, search.minP = some minP -> minP ≠ p :=
    fun minP selected same => unseen (same ▸ handed.among minP selected)
  refine ⟨?_, ?_, fun slot => ?_, fun slot => ?_⟩
  · intro minP selected
    rw [kept] at selected
    cases selected
    simp
  · rw [ops, replay_append handed.held, kept]
    cases former : search.minP with
    | none => simp [replay]
    | some old =>
      have different := fresh old former
      simp [replay, different, different.symm, Finset.erase_insert_of_ne]
  · rw [ops, count_append, handed.acquired slot]
    cases former : search.minP with
    | none =>
      simp only [Option.toList, map_nil, count_cons, count_nil]
      grind
    | some old =>
      simp only [Option.toList, map_cons, map_nil, count_cons, count_nil]
      grind
  · rw [ops, count_append, handed.released slot, kept]
    cases former : search.minP with
    | none =>
      simp only [Option.toList, map_nil, count_cons, count_nil]
      grind
    | some old =>
      have different := fresh old former
      have member := handed.among old former
      simp only [Option.toList, map_cons, map_nil, count_cons, count_nil]
      grind

/-- The candidate stays. -/
theorem Handed.keep (kept : after.minP = search.minP)
    (ops : after.ops = search.ops ++ [.acquire p, .release p]) : Handed (seen ++ [p]) after := by
  have fresh : search.minP ≠ some p := fun same => unseen (handed.among p same)
  refine ⟨?_, ?_, fun slot => ?_, fun slot => ?_⟩
  · intro minP selected
    rw [kept] at selected
    simp [handed.among minP selected]
  · have free : p ∉ search.minP.toFinset := by
      simpa [Option.mem_toFinset, Option.mem_def] using fresh
    rw [ops, replay_append handed.held, kept]
    simp [replay, free]
  · rw [ops, count_append, handed.acquired slot]
    simp only [count_cons, count_nil]
    grind
  · rw [ops, count_append, handed.released slot, kept]
    simp only [count_cons, count_nil]
    grind

theorem Handed.visit {before : Proc -> Proc -> Bool} (visits : Visits before table search p after) :
    Handed (seen ++ [p]) after := by
  have fresh : search.minP ≠ some p := fun same => unseen (handed.among p same)
  have ops := visits.ops
  rcases scanStep_cases before table search.minP p with same | ⟨_, replaced⟩
  · have kept : after.minP = search.minP := visits.minP.trans same
    rw [handOver, kept, if_neg fresh] at ops
    exact handed.keep unseen kept ops
  · have kept : after.minP = some p := visits.minP.trans replaced
    rw [handOver, if_pos kept] at ops
    exact handed.take unseen kept ops

end

/-- A loop whose visits choose like `scanStep` and hand over the lock.  `good`
is what the visits need to know about the saved values. -/
theorem searchTable_run {before : Proc -> Proc -> Bool} {visit : Search -> Slot -> Search}
    (good : Search -> Prop) (visits : ∀ search p, search.minP ≠ some p -> good search ->
      Visits before table search p (visit search p) ∧ good (visit search p)) {up down : Int}
    (initial : good (Search.start up down)) :
    (searchTable visit up down).minP = scan before table ∧
      Handed (List.finRange NPROC) (searchTable visit up down) := by
  have holds : ∀ (rest seen : List Slot) (search : Search), (seen ++ rest).Nodup ->
      good search -> Handed seen search ->
      (rest.foldl visit search).minP = rest.foldl (scanStep before table) search.minP ∧
        Handed (seen ++ rest) (rest.foldl visit search) := by
    intro rest
    induction rest with
    | nil =>
      intro seen search _ _ handed
      simpa using handed
    | cons p rest ih =>
      intro seen search distinct known handed
      have shape : seen ++ p :: rest = (seen ++ [p]) ++ rest := by simp
      rw [shape] at distinct ⊢
      have unseen : p ∉ seen := by
        have apart := (nodup_append.mp (nodup_append.mp distinct).1).2.2
        exact fun member => apart p member p (by simp) rfl
      have fresh : search.minP ≠ some p := fun same => unseen (handed.among p same)
      rcases visits search p fresh known with ⟨visited, still⟩
      have later := ih (seen ++ [p]) (visit search p) distinct still (handed.visit unseen visited)
      rw [visited.minP] at later
      exact later
  have start : Handed [] (Search.start up down) := by
    refine ⟨?_, rfl, fun _ => rfl, fun _ => rfl⟩
    intro minP impossible
    cases impossible
  exact holds (List.finRange NPROC) [] (Search.start up down) (nodup_finRange NPROC) initial start

/-- At the end exactly the lock of `minP` is held, every lock was taken once
and every other lock was released once.  Since the operations can be replayed,
no lock was released that was not held. -/
def HoldsOnlyMin (search : Search) : Prop :=
  replay ∅ search.ops = some search.minP.toFinset ∧
    forall slot, search.ops.count (.acquire slot) = 1 ∧
      search.ops.count (.release slot) = if search.minP = some slot then 0 else 1

theorem Handed.holdsOnlyMin {search : Search} (handed : Handed (List.finRange NPROC) search) :
    HoldsOnlyMin search := by
  refine ⟨handed.held, fun slot => ⟨?_, ?_⟩⟩
  · simp [handed.acquired slot]
  · rw [handed.released slot]
    by_cases chosen : search.minP = some slot <;> simp [chosen]

/-- FCFS and SRT. -/
theorem keyed_run (before : Proc -> Proc -> Bool) (table : Slot -> Proc) (up down : Int) :
    (searchTable (keyedVisit before table) up down).minP = scan before table ∧
      Handed (List.finRange NPROC) (searchTable (keyedVisit before table) up down) :=
  searchTable_run (fun _ => True)
    (fun search p fresh _ => ⟨keyedVisit_visits before table search p fresh, trivial⟩) trivial

/-- CFSD. -/
theorem cfsd_run (wrap : Int -> Int) (table : Slot -> Proc) (up down : Int) :
    (searchTable (cfsdVisit wrap table) up down).minP = scan (cfsdBeforeIn wrap) table ∧
      Handed (List.finRange NPROC) (searchTable (cfsdVisit wrap table) up down) := by
  apply searchTable_run (Saved wrap table) (cfsdVisit_visits wrap table)
  intro minP impossible
  cases impossible

/-! ## The ratio of CFSD -/

/-- `rutime * priority / (rutime + stime)`.  A quotient by zero is zero. -/
def ratio (proc : Proc) : Rat :=
  (proc.rutime * proc.priority : Int) / (proc.rutime + proc.stime : Int)

/-- Comparing fractions by cross-multiplication. -/
theorem ratio_lt_iff {proc minP : Proc} (positive : 0 < proc.rutime + proc.stime)
    (minPositive : 0 < minP.rutime + minP.stime) :
    ratio proc < ratio minP <-> proc.rutime * proc.priority * (minP.rutime + minP.stime) <
        minP.rutime * minP.priority * (proc.rutime + proc.stime) := by
  unfold ratio
  rw [div_lt_div_iff₀ (by exact_mod_cast positive) (by exact_mod_cast minPositive)]
  norm_cast

/-! ## Overflow -/

/-- The results of the `int` operations of one visit, before they are stored in
an `int`. -/
def visitValues (table : Slot -> Proc) (search : Search) (p : Slot) : List Int :=
  if (table p).state = .runnable then
    let up := (table p).rutime * (table p).priority
    let down := (table p).rutime + (table p).stime
    match search.minP with
    | some _ => [up, down, int32 up * search.minRttDown, search.minRttUp * int32 down]
    | none => [up, down]
  else []

/-- The same for the rest of a scan. -/
def valuesFrom (table : Slot -> Proc) : Search -> List Slot -> List Int
  | _, [] => []
  | search, p :: slots =>
    visitValues table search p ++ valuesFrom table (cfsdVisit int32 table search p) slots

/-- No operation of the scan overflows, whatever the uninitialised variables
contain. -/
def ScanFits (table : Slot -> Proc) : Prop :=
  forall up down value, value ∈ valuesFrom table (Search.start up down) (List.finRange NPROC) ->
    FitsInt value

/-- Without overflow the arithmetic of the machine is exact. -/
theorem cfsdVisit_exact (fits : ∀ value, value ∈ visitValues table search p -> FitsInt value) :
    cfsdVisit int32 table search p = cfsdVisit id table search p := by
  unfold visitValues at fits
  unfold cfsdVisit
  by_cases runnable : (table p).state = .runnable
  · simp only [runnable, if_true, Search.acquire] at fits ⊢
    cases chosen : search.minP with
    | none =>
      simp only [chosen, mem_cons, not_mem_nil, or_false, forall_eq_or_imp, forall_eq] at fits
      simp only [fits.1.exact, fits.2.exact, id]
    | some minP =>
      simp only [chosen, mem_cons, not_mem_nil, or_false, forall_eq_or_imp, forall_eq] at fits
      rcases fits with ⟨up, down, left, right⟩
      rw [up.exact] at left
      rw [down.exact] at right
      simp only [up.exact, down.exact, left.exact, right.exact, id]
      rfl
  · simp only [runnable, if_false]

theorem cfsdScan_exact (fits : ScanFits table) (up down : Int) :
    searchTable (cfsdVisit int32 table) up down = searchTable (cfsdVisit id table) up down := by
  have holds : ∀ (slots : List Slot) (search : Search),
      (∀ value, value ∈ valuesFrom table search slots -> FitsInt value) ->
      slots.foldl (cfsdVisit int32 table) search = slots.foldl (cfsdVisit id table) search := by
    intro slots
    induction slots with
    | nil => exact fun _ _ => rfl
    | cons p slots ih =>
      intro search fits
      have now := cfsdVisit_exact fun value member => fits value (mem_append_left _ member)
      rw [foldl_cons, foldl_cons, ← now]
      exact ih _ fun value member => fits value (mem_append_right _ member)
  exact holds (List.finRange NPROC) (Search.start up down) (fits up down)

theorem cfsd_ranks (positive : ∀ slot, (table slot).state = .runnable ->
      0 < (table slot).rutime + (table slot).stime) :
    Ranks (cfsdBeforeIn id) ratio table := by
  intro slot minP runnable minRunnable
  rw [ratio_lt_iff (positive slot runnable) (positive minP minRunnable)]
  simp only [cfsdBeforeIn, id, decide_eq_true_eq]

/-- The scans select a true minimum and hold exactly its lock.  Whatever the
uninitialised variables contain, each scan ends with the first of the runnable
processes of smallest key, or with `minP = 0` if none is runnable, and with no
other lock than that of `minP`. -/
theorem scans_select_minimum (table : Slot -> Proc) (up down : Int) :
    (Least Proc.readyTime table (List.finRange NPROC)
        (searchTable (fcfsVisit table) up down).minP ∧
      HoldsOnlyMin (searchTable (fcfsVisit table) up down)) ∧
    (Least Proc.averageBursttime table (List.finRange NPROC)
        (searchTable (srtVisit table) up down).minP ∧
      HoldsOnlyMin (searchTable (srtVisit table) up down)) ∧
    ((forall slot, (table slot).state = .runnable ->
        0 < (table slot).rutime + (table slot).stime) -> ScanFits table ->
      Least ratio table (List.finRange NPROC)
          (searchTable (cfsdVisit int32 table) up down).minP ∧
        HoldsOnlyMin (searchTable (cfsdVisit int32 table) up down)) := by
  refine ⟨?_, ?_, fun positive fits => ?_⟩
  · have run := keyed_run fcfsBefore table up down
    refine ⟨?_, run.2.holdsOnlyMin⟩
    rw [fcfsVisit, run.1]
    exact scan_least (fcfs_ranks table)
  · have run := keyed_run srtBefore table up down
    refine ⟨?_, run.2.holdsOnlyMin⟩
    rw [srtVisit, run.1]
    exact scan_least (srt_ranks table)
  · have run := cfsd_run id table up down
    rw [cfsdScan_exact fits up down]
    refine ⟨?_, run.2.holdsOnlyMin⟩
    rw [run.1]
    exact scan_least (cfsd_ranks positive)

/-- Two runnable processes: the one in slot 1 has the smaller ratio.  The
product of the counters of slot 0 with each other would not fit in an `int`. -/
def twoReady : Slot -> Proc := fun slot =>
  if slot = 0 then
    { Proc.zero with state := .runnable, rutime := 50000, stime := 0, priority := 5 }
  else if slot = 1 then
    { Proc.zero with state := .runnable, rutime := 10, stime := 10, priority := 5 }
  else Proc.zero

theorem twoReady_runnable {slot : Slot} (runnable : (twoReady slot).state = .runnable) :
    slot = 0 ∨ slot = 1 := by
  by_contra neither
  rw [not_or] at neither
  simp [twoReady, neither.1, neither.2, Proc.zero] at runnable

theorem scans_select_two :
    Least ratio twoReady (List.finRange NPROC) (searchTable (cfsdVisit int32 twoReady) 0 0).minP ∧
      HoldsOnlyMin (searchTable (cfsdVisit int32 twoReady) 0 0) := by
  apply (scans_select_minimum twoReady 0 0).2.2
  · intro slot runnable
    rcases twoReady_runnable runnable with rfl | rfl
    · decide
    · decide
  · intro up down
    have values : valuesFrom twoReady (Search.start up down) (List.finRange NPROC) =
        [250000, 50000, 50, 20, 2500000, 5000000] := rfl
    rw [values]
    decide

end Xv6
