import Mathlib.Logic.Function.Basic
import Mathlib.Tactic.Ring

namespace Xv6
namespace Lib

open Function

/-!
# `memmove` in the kernel and in the user library

The two versions choose the direction of the copy by different tests.  Both are
compared with one description of the result, in which the source is read
before anything is written.
-/

abbrev Pointer := BitVec 64

abbrev Memory := Pointer -> UInt8

/-- `while(n-- > 0) *d++ = *s++`. -/
def copyUp : Nat -> Pointer -> Pointer -> Memory -> Memory
  | 0, _, _, memory => memory
  | n + 1, d, s, memory => copyUp n (d + 1) (s + 1) (Function.update memory d (memory s))

/-- `while(n-- > 0) *--d = *--s`. -/
def copyDown : Nat -> Pointer -> Pointer -> Memory -> Memory
  | 0, _, _, memory => memory
  | n + 1, d, s, memory =>
    copyDown n (d - 1) (s - 1) (Function.update memory (d - 1) (memory (s - 1)))

/-- The address `i` bytes behind `p`. -/
def offset (p : Pointer) (i : Nat) : Pointer := p + BitVec.ofNat 64 i

/-- `memmove` of `kernel/string.c`, with an `uint` for the length. -/
def kernelMemmove (dst src : Pointer) (n : BitVec 32) (memory : Memory) : Memory :=
  if src < dst ∧ dst < src + n.setWidth 64 then
    copyDown n.toNat (dst + n.setWidth 64) (src + n.setWidth 64) memory
  else copyUp n.toNat dst src memory

/-- `memmove` of `user/ulib.c`, with an `int` for the length. -/
def userMemmove (dst src : Pointer) (n : BitVec 32) (memory : Memory) : Memory :=
  if dst < src then copyUp n.toInt.toNat dst src memory
  else copyDown n.toInt.toNat (dst + n.signExtend 64) (src + n.signExtend 64) memory

/-- The old bytes of the source are at the destination, and nothing else has
changed. -/
structure Moved (dst src : Pointer) (n : Nat) (before after : Memory) : Prop where
  bytes : forall i, i < n -> after (offset dst i) = before (offset src i)
  others : forall a, (forall i, i < n -> a ≠ offset dst i) -> after a = before a

variable {n : Nat}

/-- The description leaves nothing open. -/
theorem Moved.unique {dst src : Pointer} {before first second : Memory}
    (one : Moved dst src n before first) (two : Moved dst src n before second) :
    first = second := by
  funext a
  by_cases inside : ∃ i, i < n ∧ a = offset dst i
  · obtain ⟨i, below, rfl⟩ := inside
    rw [one.bytes i below, two.bytes i below]
  · have outside : ∀ i, i < n -> a ≠ offset dst i :=
      fun i below same => inside ⟨i, below, same⟩
    rw [one.others a outside, two.others a outside]

theorem toNat_offset {p : Pointer} {i : Nat} (fits : p.toNat + i < 2 ^ 64) :
    (offset p i).toNat = p.toNat + i := by
  unfold offset
  rw [BitVec.toNat_add, BitVec.toNat_ofNat, Nat.mod_eq_of_lt (show i < 2 ^ 64 by omega),
    Nat.mod_eq_of_lt fits]

theorem offset_zero (p : Pointer) : offset p 0 = p := BitVec.add_zero p

theorem offset_succ (p : Pointer) (i : Nat) : offset p (i + 1) = offset (p + 1) i := by
  unfold offset
  rw [BitVec.ofNat_add, BitVec.add_assoc, BitVec.add_comm (BitVec.ofNat 64 i)]
  rfl

theorem offset_succ_sub (p : Pointer) (n : Nat) : offset p (n + 1) - 1 = offset p n := by
  unfold offset
  rw [BitVec.ofNat_add, ← BitVec.add_assoc]
  exact BitVec.add_sub_cancel _ _

/-- Copying upwards is right unless the destination starts inside the source. -/
theorem copyUp_moved {d s : Pointer} (memory : Memory) (dstFits : d.toNat + n < 2 ^ 64)
    (srcFits : s.toNat + n < 2 ^ 64) (apart : d.toNat ≤ s.toNat ∨ s.toNat + n ≤ d.toNat) :
    Moved d s n memory (copyUp n d s memory) := by
  induction n generalizing d s memory with
  | zero => exact ⟨fun i below => absurd below (Nat.not_lt_zero i), fun _ _ => rfl⟩
  | succ n ih =>
    have dNext := @toNat_offset d 1 (by omega)
    have sNext := @toNat_offset s 1 (by omega)
    rw [offset_succ, offset_zero] at dNext sNext
    have rest := @ih (d + 1) (s + 1) (update memory d (memory s)) (by omega) (by omega)
      (by omega)
    constructor
    · intro i below
      cases i with
      | zero =>
        rw [offset_zero, offset_zero, copyUp, rest.others, update_self]
        intro j small same
        have value := congrArg BitVec.toNat same
        rw [toNat_offset (by omega)] at value
        omega
      | succ j =>
        rw [offset_succ, copyUp, rest.bytes j (by omega), offset_succ, update_of_ne]
        -- The byte that is read has not been written before.
        intro same
        have value := congrArg BitVec.toNat same
        rw [toNat_offset (by omega)] at value
        omega
    · intro a outside
      have different := outside 0 (by omega)
      rw [offset_zero] at different
      rw [copyUp, rest.others, update_of_ne different]
      intro j small
      rw [← offset_succ]
      exact outside (j + 1) (by omega)

/-- Copying downwards is right unless the source starts inside the destination. -/
theorem copyDown_moved {d s : Pointer} (memory : Memory) (dstFits : d.toNat + n < 2 ^ 64)
    (srcFits : s.toNat + n < 2 ^ 64) (apart : s.toNat ≤ d.toNat) :
    Moved d s n memory (copyDown n (offset d n) (offset s n) memory) := by
  induction n generalizing memory with
  | zero => exact ⟨fun i below => absurd below (Nat.not_lt_zero i), fun _ _ => rfl⟩
  | succ n ih =>
    rw [copyDown, offset_succ_sub, offset_succ_sub]
    have last := @toNat_offset d n (by omega)
    have rest := ih (update memory (offset d n) (memory (offset s n))) (by omega)
      (by omega)
    constructor
    · intro i below
      by_cases first : i = n
      · subst first
        rw [rest.others, update_self]
        intro j small same
        have value := congrArg BitVec.toNat same
        rw [toNat_offset (by omega), toNat_offset (by omega)] at value
        omega
      · rw [rest.bytes i (by omega), update_of_ne]
        intro same
        have value := congrArg BitVec.toNat same
        rw [toNat_offset (by omega), toNat_offset (by omega)] at value
        omega
    · intro a outside
      rw [rest.others a fun i small => outside i (by omega),
        update_of_ne (outside n (by omega))]

theorem add_setWidth (p : Pointer) (n : BitVec 32) : p + n.setWidth 64 = offset p n.toNat :=
  congrArg (p + ·) (BitVec.eq_of_toNat_eq (by rw [BitVec.toNat_setWidth, BitVec.toNat_ofNat]))

/-- Both versions of `memmove` copy correctly under any overlap, so they leave
the same memory. -/
theorem memmove_correct (memory : Memory) (dst src : Pointer) (n : BitVec 32)
    (small : n.toNat < 2 ^ 31) (dstFits : dst.toNat + n.toNat < 2 ^ 64)
    (srcFits : src.toNat + n.toNat < 2 ^ 64) :
    Moved dst src n.toNat memory (kernelMemmove dst src n memory) ∧
      Moved dst src n.toNat memory (userMemmove dst src n memory) ∧
      kernelMemmove dst src n memory = userMemmove dst src n memory := by
  have kernel : Moved dst src n.toNat memory (kernelMemmove dst src n memory) := by
    unfold kernelMemmove
    rw [add_setWidth, add_setWidth]
    split
    · next overlaps =>
        have below := BitVec.lt_def.mp overlaps.1
        exact copyDown_moved memory dstFits srcFits (by omega)
    · next free =>
        rw [BitVec.lt_def, BitVec.lt_def, toNat_offset srcFits] at free
        exact copyUp_moved memory dstFits srcFits (by omega)
  have user : Moved dst src n.toNat memory (userMemmove dst src n memory) := by
    have positive : n.msb = false := BitVec.msb_eq_false_iff_two_mul_lt.mpr (by omega)
    have count : n.toInt.toNat = n.toNat := by
      rw [BitVec.toInt_eq_toNat_of_msb positive, Int.toNat_natCast]
    unfold userMemmove
    rw [count, BitVec.signExtend_eq_setWidth_of_msb_false positive, add_setWidth, add_setWidth]
    split
    · next above =>
        have below := BitVec.lt_def.mp above
        exact copyUp_moved memory dstFits srcFits (by omega)
    · next beneath =>
        rw [BitVec.lt_def] at beneath
        exact copyDown_moved memory dstFits srcFits (by omega)
  exact ⟨kernel, user, kernel.unique user⟩

/-- Two bytes are moved up by one. -/
theorem memmove_overlapping :
    Moved 1 0 2 (fun a => if a = 0 then 7 else 9)
      (kernelMemmove 1 0 2 fun a => if a = 0 then 7 else 9) :=
  (memmove_correct _ 1 0 2 (by decide) (by decide) (by decide)).1

end Lib
end Xv6
