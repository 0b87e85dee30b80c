import Mathlib.Data.List.Range
import Mathlib.Logic.Function.Basic
import Mathlib.Tactic.SplitIfs

namespace Xv6
namespace Ring

open Function List

/-!
# Ring buffers with wrapping counters

A ring of `size` cells is addressed by counters that only grow, except that
they wrap at `modulus`, a multiple of `size`.  The cell of a counter is its
remainder modulo `size`; what lies between two counters is the list of the
cells from the lower one on.
-/

variable {α : Type} {size modulus low high count : Nat}

/-- The counter after `count`. -/
def next (modulus count : Nat) : Nat := (count + 1) % modulus

/-- The counter before `count`. -/
def prev (modulus count : Nat) : Nat := if count = 0 then modulus - 1 else count - 1

/-- The unsigned difference `high - low`. -/
def gap (modulus low high : Nat) : Nat :=
  if low ≤ high then high - low else modulus - (low - high)

/-- The cells of `length` counters from `low` on. -/
def window (size : Nat) (cells : Nat -> α) (low length : Nat) : List α :=
  (List.range length).map (fun offset => cells ((low + offset) % size))

/-! ## Counters -/

theorem next_lt (positive : 0 < modulus) : next modulus count < modulus := by
  unfold next
  exact Nat.mod_lt _ positive

theorem prev_lt (below : count < modulus) : prev modulus count < modulus := by
  unfold prev
  split <;> omega

theorem next_eq (below : count < modulus) :
    next modulus count = if count + 1 = modulus then 0 else count + 1 := by
  unfold next
  split
  · next last => rw [last, Nat.mod_self]
  · next inner => exact Nat.mod_eq_of_lt (by omega)

section

variable (lowBelow : low < modulus)

include lowBelow

/-- The difference as a remainder. -/
theorem gap_eq_mod (highBelow : high < modulus) :
    gap modulus low high = (high + modulus - low) % modulus := by
  unfold gap
  split
  · next ordered =>
      have shift : high + modulus - low = high - low + modulus := by omega
      rw [shift, Nat.add_mod_right]
      exact (Nat.mod_eq_of_lt (by omega)).symm
  · next wrapped =>
      rw [Nat.mod_eq_of_lt (by omega)]
      omega

/-- The upper counter is the lower one plus the difference. -/
theorem add_gap (highBelow : high < modulus) : (low + gap modulus low high) % modulus = high := by
  unfold gap
  split
  · next ordered =>
      rw [Nat.add_sub_cancel' ordered]
      exact Nat.mod_eq_of_lt highBelow
  · next wrapped =>
      have shift : low + (modulus - (low - high)) = high + modulus := by omega
      rw [shift, Nat.add_mod_right]
      exact Nat.mod_eq_of_lt highBelow

theorem gap_eq_zero_iff : gap modulus low high = 0 <-> low = high := by
  unfold gap
  split <;> omega

section

variable (highBelow : high < modulus)

include highBelow

/-- Comparing with a sum of counters is comparing the difference. -/
theorem eq_add_iff {length : Nat} (short : length < modulus) :
    high = (low + length) % modulus <-> gap modulus low high = length := by
  constructor
  · intro equal
    have sum : (low + length) % modulus =
        if low + length < modulus then low + length else low + length - modulus := by
      split
      · next small => exact Nat.mod_eq_of_lt small
      · next large =>
          rw [Nat.mod_eq_sub_mod (by omega)]
          exact Nat.mod_eq_of_lt (by omega)
    unfold gap
    rw [equal, sum] at *
    split_ifs <;> omega
  · intro equal
    rw [← equal, add_gap lowBelow highBelow]

theorem gap_next_high (room : gap modulus low high + 1 < modulus) :
    gap modulus low (next modulus high) = gap modulus low high + 1 := by
  unfold gap at *
  rw [next_eq highBelow]
  split_ifs at * <;> omega

theorem gap_next_low (some : 0 < gap modulus low high) :
    gap modulus (next modulus low) high + 1 = gap modulus low high := by
  unfold gap at *
  rw [next_eq lowBelow]
  split_ifs at * <;> omega

theorem gap_prev_high (some : 0 < gap modulus low high) :
    gap modulus low (prev modulus high) + 1 = gap modulus low high := by
  unfold gap prev at *
  split_ifs at * <;> omega

theorem gap_prev_low (room : gap modulus low high + 1 < modulus) :
    gap modulus (prev modulus low) high = gap modulus low high + 1 := by
  unfold gap prev at *
  split_ifs at * <;> omega

end

end

theorem next_prev (below : count < modulus) : next modulus (prev modulus count) = count := by
  rw [next_eq (prev_lt below), prev]
  by_cases zero : count = 0
  · rw [if_pos zero, if_pos (by omega), zero]
  · rw [if_neg zero, if_neg (by omega)]
    omega

theorem prev_next (below : count < modulus) : prev modulus (next modulus count) = count := by
  rw [prev, next_eq below]
  by_cases last : count + 1 = modulus
  · rw [if_pos last, if_pos rfl]
    omega
  · rw [if_neg last, if_neg (Nat.succ_ne_zero count), Nat.add_sub_cancel]

/-! ## Contents -/

@[simp] theorem window_zero (cells : Nat -> α) : window size cells low 0 = [] := rfl

@[simp] theorem length_window (cells : Nat -> α) (length : Nat) :
    (window size cells low length).length = length := by
  rw [window, length_map, length_range]

/-- The last cell of a window. -/
theorem window_succ (cells : Nat -> α) (length : Nat) : window size cells low (length + 1) =
      window size cells low length ++ [cells ((low + length) % size)] := by
  rw [window, range_succ, map_append]
  rfl

/-- The first cell of a window. -/
theorem window_cons (cells : Nat -> α) (length : Nat) : window size cells low (length + 1) =
      cells (low % size) :: window size cells (low + 1) length := by
  rw [window, range_succ_eq_map, map_cons, map_map]
  refine congrArg (List.cons _) (map_congr_left (fun offset _ => ?_))
  rw [Function.comp_apply, Nat.succ_eq_add_one, Nat.add_assoc, Nat.add_comm 1]

/-- A window only depends on the cell of its lower counter. -/
theorem window_mod (divides : size ∣ modulus) (cells : Nat -> α) (length : Nat) :
    window size cells (low % modulus) length = window size cells low length := by
  refine map_congr_left (fun offset _ => ?_)
  rw [Nat.add_mod, Nat.mod_mod_of_dvd _ divides, ← Nat.add_mod]

/-- The cell just above a window that does not fill the ring is outside it. -/
theorem window_update (cells : Nat -> α) (value : α) {length cell : Nat}
    (outside : ∀ offset, offset < length -> (low + offset) % size ≠ cell) :
    window size (update cells cell value) low length = window size cells low length := by
  refine map_congr_left (fun offset member => ?_)
  exact update_of_ne (outside offset (mem_range.mp member)) _ _

/-- Two windows of which the second begins where the first ends. -/
theorem window_append (cells : Nat -> α) (first second : Nat) :
    window size cells low (first + second) =
      window size cells low first ++ window size cells (low + first) second := by
  induction second with
  | zero => rw [Nat.add_zero, window_zero, append_nil]
  | succ second ih =>
    rw [← Nat.add_assoc, window_succ, ih, window_succ, append_assoc, Nat.add_assoc]

theorem cell_ne {first second : Nat} (ordered : first < second) (near : second < first + size) :
    first % size ≠ second % size := by
  intro same
  have divides : size ∣ second - first :=
    Nat.dvd_of_mod_eq_zero (Nat.sub_mod_eq_zero_of_mod_eq same.symm)
  exact absurd (Nat.le_of_dvd (by omega) divides) (by omega)

section

variable (divides : size ∣ modulus) (lowBelow : low < modulus)

include divides lowBelow

section

variable (highBelow : high < modulus)

include highBelow

/-- The cell of the upper counter. -/
theorem cell_gap : (low + gap modulus low high) % size = high % size := by
  rw [← Nat.mod_mod_of_dvd _ divides, add_gap lowBelow highBelow]

/-- Storing at the upper counter leaves alone what lies below it. -/
theorem window_below {length : Nat} (room : gap modulus low high < size)
    (below : length ≤ gap modulus low high) (cells : Nat -> α) (value : α) :
    window size (update cells (high % size) value) low length =
      window size cells low length := by
  refine window_update cells value (fun offset inside => ?_)
  rw [← cell_gap divides lowBelow highBelow]
  exact cell_ne (by omega) (by omega)

/-- Storing at the upper counter appends to the contents. -/
theorem window_store (room : gap modulus low high < size) (cells : Nat -> α) (value : α) :
    window size (update cells (high % size) value) low (gap modulus low high + 1) =
      window size cells low (gap modulus low high) ++ [value] := by
  rw [window_succ, window_below divides lowBelow highBelow room le_rfl,
    cell_gap divides lowBelow highBelow, update_self]

/-- The last element lies just below the upper counter. -/
theorem window_last (some : 0 < gap modulus low high) (cells : Nat -> α) :
    window size cells low (gap modulus low high) =
      window size cells low (gap modulus low (prev modulus high)) ++
        [cells (prev modulus high % size)] := by
  rw [← gap_prev_high lowBelow highBelow some, window_succ,
    cell_gap divides lowBelow (prev_lt highBelow)]

end

/-- The contents up to a counter in between, and from there on. -/
theorem window_split {middle : Nat} (middleBelow : middle < modulus)
    (ordered : gap modulus low high = gap modulus low middle + gap modulus middle high)
    (cells : Nat -> α) :
    window size cells low (gap modulus low high) = window size cells low (gap modulus low middle) ++
        window size cells middle (gap modulus middle high) := by
  have start : window size cells (low + gap modulus low middle) (gap modulus middle high) =
      window size cells middle (gap modulus middle high) := by
    rw [← window_mod divides, add_gap lowBelow middleBelow]
  rw [ordered, window_append, start]

/-- Taking at the lower counter removes the first element. -/
theorem window_take (highBelow : high < modulus) (some : 0 < gap modulus low high)
    (cells : Nat -> α) :
    window size cells low (gap modulus low high) = cells (low % size) ::
      window size cells (next modulus low) (gap modulus (next modulus low) high) := by
  rw [← gap_next_low lowBelow highBelow some, window_cons, next, window_mod divides]

end

end Ring
end Xv6
