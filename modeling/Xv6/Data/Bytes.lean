import Mathlib.Data.Nat.Basic
import Mathlib.Data.List.Basic
import Mathlib.Tactic.Ring

namespace Xv6

open List Nat

/-!
# Byte memories

A memory assigns a byte to every position.  Blocks of a disk and whole disk
images are memories; lists of bytes are copied into and out of them, and
fixed-width little-endian numbers are stored in them.
-/

abbrev Bytes := Nat -> UInt8

/-! ## Little-endian numbers -/

/-- The `width` low bytes of a number, least significant first. -/
def littleEndian : Nat -> Nat -> List UInt8
  | 0, _ => []
  | width + 1, value => UInt8.ofNat (value % 256) :: littleEndian width (value / 256)

def ofLittleEndian : List UInt8 -> Nat
  | [] => 0
  | byte :: bytes => byte.toNat + 256 * ofLittleEndian bytes

@[simp] theorem length_littleEndian (width value : Nat) :
    (littleEndian width value).length = width := by
  induction width generalizing value with
  | zero => rfl
  | succ width ih => rw [littleEndian, length_cons, ih]

theorem ofLittleEndian_littleEndian (width value : Nat) :
    ofLittleEndian (littleEndian width value) = value % 256 ^ width := by
  induction width generalizing value with
  | zero => simp [littleEndian, ofLittleEndian, mod_one]
  | succ width ih =>
    have low : (UInt8.ofNat (value % 256)).toNat = value % 256 := by
      rw [UInt8.toNat_ofNat']
      omega
    rw [littleEndian, ofLittleEndian, ih, low, pow_succ', mod_mul]

theorem ofLittleEndian_replicate (width : Nat) : ofLittleEndian (List.replicate width 0) = 0 := by
  induction width with
  | zero => rfl
  | succ width ih => simp [replicate_succ, ofLittleEndian, ih]

namespace Bytes

/-- Every byte zero. -/
def zero : Bytes := fun _ => 0

/-- Copy bytes to the positions from `pos` on. -/
def put (mem : Bytes) (pos : Nat) (bytes : List UInt8) : Bytes :=
  fun index => if pos ≤ index then (bytes[index - pos]?).getD (mem index) else mem index

/-- The bytes at the positions `pos`, …, `pos + length - 1`. -/
def slice (mem : Bytes) (pos length : Nat) : List UInt8 :=
  (List.range length).map (fun index => mem (pos + index))

/-- The little-endian number in `width` bytes at `pos`. -/
def word (mem : Bytes) (pos width : Nat) : Nat := ofLittleEndian (mem.slice pos width)

def setWord (mem : Bytes) (pos width value : Nat) : Bytes :=
  mem.put pos (littleEndian width value)

/-- Set `length` bytes from `pos` on to one value. -/
def fill (mem : Bytes) (pos length : Nat) (byte : UInt8) : Bytes :=
  fun index => if pos ≤ index ∧ index < pos + length then byte else mem index

variable {mem : Bytes} {pos other length width value index : Nat} {bytes : List UInt8}

theorem put_inside (below : index < bytes.length) :
    mem.put pos bytes (pos + index) = bytes.get ⟨index, below⟩ := by
  simp [put, below]

theorem put_outside (outside : index < pos ∨ pos + bytes.length ≤ index) :
    mem.put pos bytes index = mem index := by
  unfold put
  split
  · rw [List.getElem?_eq_none (by omega), Option.getD_none]
  · rfl

@[simp] theorem length_slice : (mem.slice pos length).length = length := by
  simp [slice]

theorem slice_succ : mem.slice pos (length + 1) = mem pos :: mem.slice (pos + 1) length := by
  rw [slice, range_succ_eq_map, map_cons, map_map, add_zero]
  congr 2
  funext index
  rw [Function.comp_apply, add_assoc, add_comm 1]

theorem slice_congr {mem mem' : Bytes} {pos pos' length : Nat}
    (same : ∀ index, index < length -> mem (pos + index) = mem' (pos' + index)) :
    mem.slice pos length = mem'.slice pos' length := by
  unfold slice
  apply map_congr_left
  intro index member
  exact same index (mem_range.mp member)

theorem slice_put_same : (mem.put pos bytes).slice pos bytes.length = bytes := by
  apply ext_getElem (by simp)
  intro index below _
  have inside : index < bytes.length := by simpa using below
  simp [slice, put_inside inside]

theorem slice_put_disjoint (disjoint : other + length ≤ pos ∨ pos + bytes.length ≤ other) :
    (mem.put pos bytes).slice other length = mem.slice other length := by
  apply slice_congr
  intro index below
  exact put_outside (by omega)

theorem word_setWord_same (small : value < 256 ^ width) :
    (mem.setWord pos width value).word pos width = value := by
  have slices : (mem.setWord pos width value).slice pos width = littleEndian width value := by
    have same : (mem.put pos (littleEndian width value)).slice pos
        (littleEndian width value).length = littleEndian width value := slice_put_same
    rwa [length_littleEndian] at same
  rw [word, slices, ofLittleEndian_littleEndian, mod_eq_of_lt small]

theorem word_setWord_disjoint {size : Nat} (disjoint : other + size ≤ pos ∨ pos + width ≤ other) :
    (mem.setWord pos width value).word other size = mem.word other size := by
  rw [word, setWord, slice_put_disjoint (by rwa [length_littleEndian]), ← word]

theorem slice_zero : zero.slice pos length = List.replicate length 0 := by
  simp [slice, zero]

@[simp] theorem word_zero : zero.word pos width = 0 := by
  rw [word, slice_zero, ofLittleEndian_replicate]

theorem word_congr {mem mem' : Bytes} {pos width : Nat}
    (same : ∀ index, index < width -> mem (pos + index) = mem' (pos + index)) :
    mem.word pos width = mem'.word pos width :=
  congrArg ofLittleEndian (slice_congr same)

end Bytes
end Xv6
