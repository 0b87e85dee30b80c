import Mathlib.Algebra.Order.Ring.Int

namespace Xv6

/-!
# Kernel parameters

The constants of `kernel/param.h`, and the 32-bit arithmetic of C's `int`.
-/

def NPROC : Nat := 64
def NCPU : Nat := 8
def MAXOPBLOCKS : Nat := 10
def LOGSIZE : Nat := MAXOPBLOCKS * 3
def QUANTUM : Int := 5
def ALPHA : Int := 50
def TEST_HIGH_PRIORITY : Int := 1
def HIGH_PRIORITY : Int := 3
def NORMAL_PRIORITY : Int := 5
def LOW_PRIORITY : Int := 7
def TEST_LOW_PRIORITY : Int := 25

instance : NeZero NPROC := ⟨by decide⟩

instance : NeZero NCPU := ⟨by decide⟩

/-- The value a C `int` holds after a computation whose exact result is `x`:
the representative of `x` modulo `2 ^ 32` in `[-2 ^ 31, 2 ^ 31)`. -/
def int32 (x : Int) : Int := Int.bmod x (2 ^ 32)

/-- The value a C `uint` holds after a computation whose exact result is `x`. -/
def uint32 (x : Nat) : Nat := x % 2 ^ 32

/-- The number of values of a C `uint`. -/
def uints : Nat := 2 ^ 32

theorem uints_pos : 0 < uints := by decide

theorem int32_eq_self {x : Int} (low : -2 ^ 31 ≤ x) (high : x < 2 ^ 31) : int32 x = x := by
  unfold int32
  rw [Int.bmod_eq_of_le] <;> omega

end Xv6
