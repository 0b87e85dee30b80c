import Xv6.Proc.Record

namespace Xv6

/-!
# The burst estimate

Each time a process has switched back, `scheduler` mixes the length of the
burst, which `tickcounter` has counted, into `average_bursttime`.  With
`ALPHA = 50` an update halves the distance between the estimate and a hundred
times the burst, rounding down, and halvings that round down compose exactly.
-/

/-- The values a C `int` can hold. -/
def FitsInt (x : Int) : Prop := -2 ^ 31 ≤ x ∧ x < 2 ^ 31

instance (x : Int) : Decidable (FitsInt x) :=
  inferInstanceAs (Decidable (_ ∧ _))

theorem FitsInt.exact {x : Int} (fits : FitsInt x) : int32 x = x :=
  int32_eq_self fits.1 fits.2

namespace Proc

/-- A dispatch, `length` ticks on the processor and the switch back. -/
def burst (proc : Proc) (length : Int) : Proc :=
  { proc.dispatched with tickcounter := length }.averaged

/-- A history of bursts, the earliest first. -/
def bursts (proc : Proc) (lengths : List Int) : Proc := lengths.foldl burst proc

end Proc

/-- No `int` of the update overflows. -/
def UpdateFits (estimate length : Int) : Prop :=
  FitsInt (ALPHA * length) ∧ FitsInt ((100 - ALPHA) * estimate) ∧
    FitsInt (ALPHA * length + ((100 - ALPHA) * estimate).tdiv 100)

/-- No `int` of a history of updates overflows. -/
def BurstsFit : Int -> List Int -> Prop
  | _, [] => True
  | estimate, length :: lengths =>
    UpdateFits estimate length ∧
      BurstsFit (ALPHA * length + ((100 - ALPHA) * estimate).tdiv 100) lengths

/-- An update without overflow, in exact arithmetic. -/
theorem burst_estimate {proc : Proc} {length : Int}
    (fits : UpdateFits proc.averageBursttime length) :
    (proc.burst length).averageBursttime =
      ALPHA * length + ((100 - ALPHA) * proc.averageBursttime).tdiv 100 := by
  rcases fits with ⟨fresh, old, sum⟩
  simp only [Proc.burst, Proc.averaged, Proc.dispatched, fresh.exact, old.exact, sum.exact]

/-- An update takes half of the old estimate, rounded down. -/
theorem update_half {estimate : Int} (nonneg : 0 ≤ estimate) (length : Int) :
    ALPHA * length + ((100 - ALPHA) * estimate).tdiv 100 = 50 * length + estimate / 2 := by
  have scaled : 0 ≤ (100 - ALPHA) * estimate := by
    simp only [ALPHA]
    omega
  rw [Int.tdiv_eq_ediv_of_nonneg scaled]
  simp only [ALPHA]
  omega

theorem update_nonneg {estimate length : Int} (nonneg : 0 ≤ estimate) (positive : 0 ≤ length) :
    0 ≤ ALPHA * length + ((100 - ALPHA) * estimate).tdiv 100 := by
  rw [update_half nonneg]
  omega

/-- Updates do not leave an interval that holds the estimate and a hundred
times each burst, so a bound on these is enough to exclude overflow. -/
theorem burstsFit_of_le (bound : Int) (small : 50 * bound < 2 ^ 31) (lengths : List Int) :
    ∀ estimate, 0 ≤ estimate -> estimate ≤ bound ->
      (∀ length, length ∈ lengths -> 0 ≤ length ∧ 100 * length ≤ bound) ->
      BurstsFit estimate lengths := by
  induction lengths with
  | nil => exact fun _ _ _ _ => trivial
  | cons length lengths ih =>
    intro estimate nonneg below bursts
    rcases bursts length (by simp) with ⟨positive, short⟩
    have half := update_half nonneg length
    constructor
    · refine ⟨?_, ?_, ?_⟩
      · simp only [FitsInt, ALPHA]
        omega
      · simp only [FitsInt, ALPHA]
        omega
      · rw [half]
        simp only [FitsInt]
        omega
    · apply ih
      · exact update_nonneg nonneg positive
      · rw [half]
        omega
      · intro other member
        exact bursts other (by simp [member])

/-- Equal bursts: the distance to a hundred times the burst is halved and
rounded down once per update. -/
theorem bursts_replicate {length : Int} (positive : 0 ≤ length) (count : Nat) :
    ∀ proc : Proc, 0 ≤ proc.averageBursttime ->
      BurstsFit proc.averageBursttime (List.replicate count length) ->
      (proc.bursts (List.replicate count length)).averageBursttime =
        100 * length + (proc.averageBursttime - 100 * length) / 2 ^ count := by
  induction count with
  | zero =>
    intro proc _ _
    simp [Proc.bursts]
  | succ count ih =>
    intro proc nonneg fits
    rw [List.replicate_succ] at fits ⊢
    have updated := burst_estimate fits.1
    have later := ih (proc.burst length) (by rw [updated]; exact update_nonneg nonneg positive)
      (by rw [updated]; exact fits.2)
    have halved : (proc.burst length).averageBursttime - 100 * length =
        (proc.averageBursttime - 100 * length) / 2 := by
      rw [updated, update_half nonneg]
      omega
    -- Rounding down twice is rounding down once.
    have composed : (proc.averageBursttime - 100 * length) / 2 / 2 ^ count =
        (proc.averageBursttime - 100 * length) / 2 ^ (count + 1) := by
      rw [Int.ediv_ediv_of_nonneg (by decide), ← pow_succ']
    rw [← composed, ← halved]
    exact later

/-- Longer bursts on top of a larger estimate give a larger estimate. -/
theorem bursts_mono {lengths lengths' : List Int}
    (ordered : List.Forall₂ (· ≤ ·) lengths lengths') :
    ∀ proc proc' : Proc, proc.averageBursttime ≤ proc'.averageBursttime ->
      0 ≤ proc.averageBursttime -> (∀ length, length ∈ lengths -> 0 ≤ length) ->
      BurstsFit proc.averageBursttime lengths ->
      BurstsFit proc'.averageBursttime lengths' ->
      (proc.bursts lengths).averageBursttime ≤ (proc'.bursts lengths').averageBursttime := by
  induction ordered with
  | nil => exact fun proc proc' below _ _ _ _ => below
  | @cons length length' lengths lengths' shorter _ ih =>
    intro proc proc' below nonneg positive fits fits'
    have first := positive length (by simp)
    have updated := burst_estimate fits.1
    have updated' := burst_estimate fits'.1
    have mono : (proc.burst length).averageBursttime ≤ (proc'.burst length').averageBursttime := by
      rw [updated, updated', update_half nonneg, update_half (nonneg.trans below)]
      omega
    have positive' : ∀ other, other ∈ lengths -> 0 ≤ other :=
      fun other member => positive other (by simp [member])
    apply ih (proc.burst length) (proc'.burst length') mono
    · rw [updated]
      exact update_nonneg nonneg first
    · exact positive'
    · rw [updated]
      exact fits.2
    · rw [updated']
      exact fits'.2

/-- The burst estimate is an exact exponential average.  As long as no `int`
overflows, equal bursts leave the estimate at the closed form; and pointwise
shorter bursts after a smaller start leave a smaller estimate, so that the
comparison of the SRT scan never puts the process with the longer bursts
before the other one. -/
theorem burst_average_exact :
    (forall (proc : Proc) (a b : Int) (k : Nat), proc.averageBursttime = a -> 0 ≤ a -> 0 ≤ b ->
      BurstsFit a (List.replicate k b) ->
      (proc.bursts (List.replicate k b)).averageBursttime = 100 * b + (a - 100 * b) / 2 ^ k) ∧
    (forall (proc proc' : Proc) (lengths lengths' : List Int),
      0 ≤ proc.averageBursttime -> proc.averageBursttime ≤ proc'.averageBursttime ->
      (forall length, length ∈ lengths -> 0 ≤ length) ->
      List.Forall₂ (· ≤ ·) lengths lengths' ->
      BurstsFit proc.averageBursttime lengths ->
      BurstsFit proc'.averageBursttime lengths' ->
      (proc.bursts lengths).averageBursttime ≤ (proc'.bursts lengths').averageBursttime ∧
        srtBefore (proc'.bursts lengths') (proc.bursts lengths) = false) := by
  constructor
  · rintro proc a b k rfl nonneg positive fits
    exact bursts_replicate positive k proc nonneg fits
  · intro proc proc' lengths lengths' nonneg below positive ordered fits fits'
    have mono := bursts_mono ordered proc proc' below nonneg positive fits fits'
    refine ⟨mono, ?_⟩
    simp only [srtBefore, decide_eq_false_iff_not]
    omega

/-- Three bursts of seven ticks after the estimate of a new process, and the
same history against two bursts of four and one of seven ticks. -/
theorem burst_average_seven :
    ({ Proc.zero with averageBursttime := 500 }.bursts [7, 7, 7]).averageBursttime = 675 ∧
      srtBefore ({ Proc.zero with averageBursttime := 500 }.bursts [7, 7, 7])
        ({ Proc.zero with averageBursttime := 500 }.bursts [4, 4, 7]) = false := by
  have sevens : BurstsFit 500 [7, 7, 7] :=
    burstsFit_of_le 1000 (by decide) _ 500 (by decide) (by decide) (by decide)
  have fours : BurstsFit 500 [4, 4, 7] :=
    burstsFit_of_le 1000 (by decide) _ 500 (by decide) (by decide) (by decide)
  constructor
  · exact burst_average_exact.1 { Proc.zero with averageBursttime := 500 } 500 7 3 rfl (by decide)
      (by decide) sevens
  · exact (burst_average_exact.2 { Proc.zero with averageBursttime := 500 }
      { Proc.zero with averageBursttime := 500 } [4, 4, 7] [7, 7, 7] (by decide) (le_refl _)
      (by decide) (by decide) fours sevens).2

end Xv6
