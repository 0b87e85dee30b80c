import Xv6.Proc.Record

namespace Xv6

open List

/-!
# The selecting scans

A scan keeps a candidate and replaces it only by a runnable process that is
strictly before it.  Walking the table in index order, it therefore ends with
the first of the runnable processes of least key.
-/

variable {table : Slot -> Proc} {slot : Slot}

/-- The candidate after a step is the old one or the visited slot, and it is
the old one unless the visited process is runnable. -/
theorem scanStep_cases (before : Proc -> Proc -> Bool) (table : Slot -> Proc)
    (candidate : Option Slot) (slot : Slot) :
    scanStep before table candidate slot = candidate ∨
      (table slot).state = .runnable ∧ scanStep before table candidate slot = some slot := by
  unfold scanStep
  split
  · next runnable =>
      cases candidate with
      | none => exact Or.inr ⟨runnable, rfl⟩
      | some least =>
        dsimp only
        split
        · exact Or.inr ⟨runnable, rfl⟩
        · exact Or.inl rfl
  · exact Or.inl rfl

/-- A scan chooses a runnable process. -/
theorem scan_runnable (before : Proc -> Proc -> Bool) (chosen : scan before table = some slot) :
    (table slot).state = .runnable := by
  have holds : ∀ (slots : List Slot) (candidate : Option Slot),
      (∀ least, candidate = some least -> (table least).state = .runnable) ->
      ∀ least, slots.foldl (scanStep before table) candidate = some least ->
        (table least).state = .runnable := by
    intro slots
    induction slots with
    | nil => exact fun candidate good => good
    | cons first rest ih =>
      intro candidate good
      apply ih
      intro least selected
      rcases scanStep_cases before table candidate first with
        same | ⟨runnable, replaced⟩
      · exact good least (same ▸ selected)
      · rw [replaced] at selected
        cases selected
        exact runnable
  exact holds (List.finRange NPROC) none (fun _ impossible => by cases impossible) slot chosen

/-- The candidate is the first least runnable process among the slots seen. -/
def Least {K : Type} [LinearOrder K] (key : Proc -> K) (table : Slot -> Proc)
    (seen : List Slot) (candidate : Option Slot) : Prop :=
  match candidate with
  | none => forall slot, slot ∈ seen -> (table slot).state ≠ .runnable
  | some least => least ∈ seen ∧ (table least).state = .runnable ∧
      forall slot, slot ∈ seen -> (table slot).state = .runnable ->
        key (table least) ≤ key (table slot) ∧
          (key (table slot) = key (table least) -> least ≤ slot)

/-- On the runnable processes of the table the comparison is that of a key. -/
def Ranks {K : Type} [LinearOrder K] (before : Proc -> Proc -> Bool) (key : Proc -> K)
    (table : Slot -> Proc) : Prop :=
  forall slot minP, (table slot).state = .runnable -> (table minP).state = .runnable ->
    (before (table slot) (table minP) = true <-> key (table slot) < key (table minP))

theorem fcfs_ranks (table : Slot -> Proc) : Ranks fcfsBefore Proc.readyTime table :=
  fun _ _ _ _ => decide_eq_true_iff

theorem srt_ranks (table : Slot -> Proc) : Ranks srtBefore Proc.averageBursttime table :=
  fun _ _ _ _ => decide_eq_true_iff

section Key

variable {K : Type} [LinearOrder K] {key : Proc -> K} {before : Proc -> Proc -> Bool}
  {seen : List Slot}

/-- The first runnable process seen. -/
theorem Least.first (least : Least key table seen none)
    (runnable : (table slot).state = .runnable) :
    Least key table (seen ++ [slot]) (some slot) := by
  refine ⟨by simp, runnable, fun other member running => ?_⟩
  rcases mem_append.mp member with old | new
  · exact (least other old running).elim
  · rw [mem_singleton.mp new]
    exact ⟨le_refl _, fun _ => le_refl _⟩

/-- A process that is strictly before the candidate replaces it. -/
theorem Least.replace {old slot : Slot} (least : Least key table seen (some old))
    (runnable : (table slot).state = .runnable) (smaller : key (table slot) < key (table old)) :
    Least key table (seen ++ [slot]) (some slot) := by
  refine ⟨by simp, runnable, fun other member running => ?_⟩
  rcases mem_append.mp member with seenOther | new
  · have above := smaller.trans_le (least.2.2 other seenOther running).1
    exact ⟨above.le, fun same => (above.ne same.symm).elim⟩
  · rw [mem_singleton.mp new]
    exact ⟨le_refl _, fun _ => le_refl _⟩

/-- The candidate stays against a process that is not runnable or not strictly
before it. -/
theorem Least.keep {candidate : Option Slot} (least : Least key table seen candidate)
    (later : ∀ other, other ∈ seen -> other < slot) (above : (table slot).state = .runnable ->
      ∃ old, candidate = some old ∧ key (table old) ≤ key (table slot)) :
    Least key table (seen ++ [slot]) candidate := by
  cases candidate with
  | none =>
    intro other member running
    rcases mem_append.mp member with old | new
    · exact least other old running
    · rw [mem_singleton.mp new] at running
      rcases above running with ⟨_, impossible, _⟩
      cases impossible
  | some old =>
    rcases least with ⟨oldSeen, oldRunnable, oldLeast⟩
    refine ⟨by simp [oldSeen], oldRunnable, fun other member running => ?_⟩
    rcases mem_append.mp member with seenOther | new
    · exact oldLeast other seenOther running
    · rw [mem_singleton.mp new] at running ⊢
      rcases above running with ⟨_, same, bound⟩
      cases same
      exact ⟨bound, fun _ => le_of_lt (later old oldSeen)⟩

theorem Least.step {candidate : Option Slot} (ranks : Ranks before key table)
    (least : Least key table seen candidate) (later : ∀ other, other ∈ seen -> other < slot) :
    Least key table (seen ++ [slot]) (scanStep before table candidate slot) := by
  unfold scanStep
  by_cases runnable : (table slot).state = .runnable
  · rw [if_pos runnable]
    cases candidate with
    | none => exact least.first runnable
    | some old =>
      have rank := ranks slot old runnable least.2.1
      dsimp only
      split
      · next smaller => exact least.replace runnable (rank.mp smaller)
      · next notSmaller =>
          have bound := not_lt.mp fun smaller => notSmaller (rank.mpr smaller)
          exact least.keep later fun _ => ⟨old, rfl, bound⟩
  · rw [if_neg runnable]
    exact least.keep later fun running => (runnable running).elim

/-- A whole scan by a key. -/
theorem scan_least (ranks : Ranks before key table) :
    Least key table (List.finRange NPROC) (scan before table) := by
  have holds : ∀ (rest seen : List Slot) (candidate : Option Slot),
      (seen ++ rest).Pairwise (· < ·) -> Least key table seen candidate ->
      Least key table (seen ++ rest) (rest.foldl (scanStep before table) candidate) := by
    intro rest
    induction rest with
    | nil =>
      intro seen candidate _ least
      simpa only [append_nil, foldl_nil] using least
    | cons slot rest ih =>
      intro seen candidate ordered least
      have shape : seen ++ slot :: rest = (seen ++ [slot]) ++ rest := by simp
      rw [shape] at ordered ⊢
      apply ih (seen ++ [slot])
      · exact ordered
      · apply least.step ranks
        intro other member
        have parts := (pairwise_append.mp (pairwise_append.mp ordered).1).2.2
        exact parts other member slot (by simp)
  have whole := holds (List.finRange NPROC) [] none
    (by simpa using pairwise_lt_finRange NPROC) (fun _ member => by cases member)
  simpa only [nil_append, scan] using whole

end Key

end Xv6
