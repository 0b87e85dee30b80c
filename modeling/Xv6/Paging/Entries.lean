import Xv6.Paging.Code
import Xv6.Data.Radix

namespace Xv6
namespace Paging

/-!
# Page-table entries

The bit operations of `kernel/riscv.h` as arithmetic, and the pages of memory as
tables of 512 entries.
-/

/-! ## Numbers -/

theorem PX_eq (level va : Nat) : PX level va = va / 2 ^ (12 + 9 * level) % 512 := by
  rw [PX, Nat.shiftRight_eq_div_pow]
  exact Nat.and_two_pow_sub_one_eq_mod _ 9

theorem PX_lt (level va : Nat) : PX level va < 512 := by
  rw [PX_eq]
  exact Nat.mod_lt _ (by decide)

theorem PTE_FLAGS_eq (pte : Nat) : PTE_FLAGS pte = pte % 1024 :=
  Nat.and_two_pow_sub_one_eq_mod _ 10

theorem PTE2PA_eq (pte : Nat) : PTE2PA pte = pte / 1024 * 4096 % 2 ^ 64 := by
  rw [PTE2PA, Nat.shiftRight_eq_div_pow, Nat.shiftLeft_eq]
  rfl

theorem PTE2PA_aligned (pte : Nat) : PTE2PA pte % PGSIZE = 0 := by
  rw [PTE2PA_eq, PGSIZE]
  omega

theorem valid_iff (pte : Nat) : pte &&& PTE_V ≠ 0 <-> pte % 2 = 1 := by
  rw [PTE_V, Nat.and_one_is_mod]
  omega

/-- Flags are tested in the low bits. -/
theorem and_flags {mask : Nat} (small : mask < 1024) (pte : Nat) :
    pte &&& mask = PTE_FLAGS pte &&& mask := by
  have low : pte &&& mask < 2 ^ 10 := Nat.and_lt_two_pow pte small
  rw [← Nat.mod_eq_of_lt low, Nat.and_mod_two_pow, PTE_FLAGS_eq,
    @Nat.mod_eq_of_lt mask (2 ^ 10) small]

/-- The number that `mappages` and `walk` store in an entry. -/
theorem entry_eq {perm : Nat} (flags : perm < 1024) (pa : Nat) :
    PA2PTE pa ||| perm ||| PTE_V = pa / 4096 * 1024 + (perm ||| 1) := by
  have small : perm ||| 1 < 2 ^ 10 := Nat.or_lt_two_pow flags (by decide)
  rw [PA2PTE, PTE_V, Nat.or_assoc, ← Nat.shiftLeft_add_eq_or_of_lt small, Nat.shiftLeft_eq,
    Nat.shiftRight_eq_div_pow]

section Entry

variable {perm pa : Nat} (flags : perm < 1024) (inWord : pa < 2 ^ 64)

include flags in
theorem or_one_lt : perm ||| 1 < 1024 := @Nat.or_lt_two_pow perm 1 10 flags (by decide)

include flags in
theorem entry_flags : PTE_FLAGS (PA2PTE pa ||| perm ||| PTE_V) = perm ||| PTE_V := by
  have small := or_one_lt flags
  rw [entry_eq flags, PTE_FLAGS_eq, PTE_V]
  omega

include flags in
theorem entry_valid : (PA2PTE pa ||| perm ||| PTE_V) &&& PTE_V ≠ 0 := by
  rw [valid_iff, entry_eq flags]
  have odd : (perm ||| 1) % 2 = 1 := Nat.or_mod_two_eq_one.mpr (Or.inr rfl)
  omega

include flags inWord

theorem entry_lt : PA2PTE pa ||| perm ||| PTE_V < 256 ^ 8 := by
  have small := or_one_lt flags
  rw [entry_eq flags]
  omega

theorem entry_pa : PTE2PA (PA2PTE pa ||| perm ||| PTE_V) = pgRoundDown pa := by
  have small := or_one_lt flags
  rw [entry_eq flags, PTE2PA_eq, Vm.pgRoundDown, Vm.PGSIZE]
  omega

end Entry

/-! ## Pages -/

/-- The page that an address lies in. -/
theorem pgRoundDown_eq_iff {page x : Nat} (aligned : page % PGSIZE = 0) :
    pgRoundDown x = page <-> page ≤ x ∧ x < page + PGSIZE := by
  unfold Vm.pgRoundDown PGSIZE at *
  omega

theorem pgRoundDown_aligned (x : Nat) : pgRoundDown x % PGSIZE = 0 := by
  unfold Vm.pgRoundDown PGSIZE
  omega

variable {x : Nat}

theorem pgRoundDown_of_aligned (aligned : x % PGSIZE = 0) : pgRoundDown x = x := by
  unfold Vm.pgRoundDown PGSIZE at *
  omega

/-- The memory as tables of entries. -/
def entries (byte : Bytes) : Radix.Store Nat (Fin 512) Nat :=
  fun page index => byte.word (page + 8 * index.val) 8

/-- The table that a valid entry points to. -/
def pointer (entry : Nat) : Option Nat :=
  if entry &&& PTE_V ≠ 0 then some (PTE2PA entry) else none

variable {byte byte' : Bytes} {page other value : Nat} {index : Fin 512}

section

variable (aligned : page % PGSIZE = 0)

include aligned

theorem entries_congr (same : ∀ x, pgRoundDown x = page -> byte' x = byte x) (index : Fin 512) :
    entries byte' page index = entries byte page index := by
  apply Bytes.word_congr
  intro offset small
  apply same
  rw [pgRoundDown_eq_iff aligned, PGSIZE]
  have bound := index.isLt
  omega

section

variable (different : pgRoundDown x ≠ page)

include different

theorem fill_page {junk : UInt8} : byte.fill page PGSIZE junk x = byte x :=
  if_neg fun inside => different ((pgRoundDown_eq_iff aligned).mpr inside)

theorem take_other {ram : Ram} {rest : List Nat} : (ram.take page rest).byte x = ram.byte x := by
  change ram.byte.fill page PGSIZE 5 x = ram.byte x
  exact fill_page aligned different

theorem give_other {ram : Ram} : (ram.give page).byte x = ram.byte x := by
  change ram.byte.fill page PGSIZE 1 x = ram.byte x
  exact fill_page aligned different

end

end

/-- A page of zeros holds invalid entries only. -/
theorem entries_fill_zero (index : Fin 512) : entries (byte.fill page PGSIZE 0) page index = 0 := by
  have zeros : entries (byte.fill page PGSIZE 0) page index =
      Bytes.zero.word (page + 8 * index.val) 8 := by
    apply Bytes.word_congr
    intro offset small
    apply if_pos
    have bound := index.isLt
    rw [PGSIZE]
    omega
  rw [zeros, Bytes.word_zero]

theorem setWord_outside {pos x : Nat} (outside : x < pos ∨ pos + 8 ≤ x) :
    byte.setWord pos 8 value x = byte x := by
  apply Bytes.put_outside
  rw [length_littleEndian]
  exact outside

theorem setWord_page (aligned : page % PGSIZE = 0) (different : pgRoundDown x ≠ page)
    (index : Fin 512) : byte.setWord (page + 8 * index.val) 8 value x = byte x := by
  apply setWord_outside
  have bound := index.isLt
  rw [Ne, pgRoundDown_eq_iff aligned, PGSIZE] at different
  omega

theorem entries_setWord_self (small : value < 256 ^ 8) :
    entries (byte.setWord (page + 8 * index.val) 8 value) page index = value :=
  Bytes.word_setWord_same small

theorem entries_setWord_other (aligned : page % PGSIZE = 0) (aligned' : other % PGSIZE = 0)
    {second : Fin 512} (different : ¬ (other = page ∧ second = index)) :
    entries (byte.setWord (page + 8 * index.val) 8 value) other second =
      entries byte other second := by
  apply Bytes.word_setWord_disjoint
  have bound := index.isLt
  have bound' := second.isLt
  by_cases same : other = page
  · subst same
    have apart : second.val ≠ index.val := fun equal => different ⟨rfl, Fin.ext equal⟩
    omega
  · unfold PGSIZE at aligned aligned'
    omega

theorem pointer_none_iff (entry : Nat) : pointer entry = none <-> entry &&& PTE_V = 0 := by
  unfold pointer
  split <;> simp_all

theorem pointer_zero : pointer 0 = none := rfl

theorem pointer_aligned {entry next : Nat} (points : pointer entry = some next) :
    next % PGSIZE = 0 := by
  unfold pointer at points
  split at points
  · cases points
    exact PTE2PA_aligned entry
  · cases points

end Paging
end Xv6
