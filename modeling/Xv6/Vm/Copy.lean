import Xv6.Param

namespace Xv6
namespace Vm

/-!
# Copies between the kernel and user space

`copyin` and `copyout` go through the user's range page by page and stop at the
first page that the user may not access.  What was moved before stays moved: a
failed copy has transferred exactly the bytes in front of the first unmapped
page.
-/

def PGSIZE : Nat := 4096

def MAXVA : Nat := 2 ^ 38

/-- What a user page table and the pages below it look like from the kernel:
which pages are valid and accessible to the user, and the bytes in them. -/
structure Space where
  pages : Nat -> Bool
  memory : Nat -> UInt8

/-- `PGROUNDDOWN`. -/
def pgRoundDown (va : Nat) : Nat := va / PGSIZE * PGSIZE

/-- `walkaddr` finds a page at `va`. -/
def walkaddr (pages : Nat -> Bool) (va : Nat) : Bool :=
  decide (va < MAXVA) && pages (va / PGSIZE)

variable {σ : Type}

/-- The loop that `copyin` and `copyout` share but for the `memmove`: `move va
n` moves `n` bytes at the user address `va`.  Every iteration moves at least
one byte, so `len` iterations are enough. -/
def pageLoop (pages : Nat -> Bool) (move : Nat -> Nat -> σ -> σ) :
    Nat -> Nat -> Nat -> σ -> Bool × σ
  | 0, _, _, state => (true, state)
  | fuel + 1, va, len, state =>
    if len = 0 then (true, state)
    else
      let va0 := pgRoundDown va
      if walkaddr pages va0 then
        let n := min (PGSIZE - (va - va0)) len
        pageLoop pages move fuel (va0 + PGSIZE) (len - n) (move va n state)
      else (false, state)

/-- `copyout(pagetable, dstva, src, len)`: whether it succeeded, and the user
memory afterwards. -/
def copyout (pages : Nat -> Bool) (dstva : Nat) (src : List UInt8) (memory : Nat -> UInt8) :
    Bool × (Nat -> UInt8) :=
  pageLoop pages (fun va n memory address =>
      if va ≤ address ∧ address < va + n then src.getD (address - dstva) 0 else memory address)
    src.length dstva src.length memory

/-- `copyin(pagetable, dst, srcva, len)`: whether it succeeded, and the bytes
at `dst` afterwards. -/
def copyin (space : Space) (srcva len : Nat) (dst : Nat -> UInt8) : Bool × (Nat -> UInt8) :=
  pageLoop space.pages (fun va n dst index =>
      if va ≤ srcva + index ∧ srcva + index < va + n then space.memory (srcva + index)
      else dst index)
    len srcva len dst

/-- The number of bytes in front of the first unmapped one. -/
def mappedCount (pages : Nat -> Bool) : Nat -> Nat -> Nat
  | _, 0 => 0
  | va, len + 1 => if walkaddr pages va then mappedCount pages (va + 1) len + 1 else 0

variable {pages : Nat -> Bool}

theorem mappedCount_le (va len : Nat) : mappedCount pages va len ≤ len := by
  induction len generalizing va with
  | zero => exact le_refl _
  | succ len ih =>
    unfold mappedCount
    split
    · exact Nat.succ_le_succ (ih (va + 1))
    · exact Nat.zero_le _

/-- A page is mapped as a whole. -/
theorem walkaddr_pgRoundDown (va : Nat) : walkaddr pages (pgRoundDown va) = walkaddr pages va := by
  have below : pgRoundDown va < MAXVA <-> va < MAXVA := by
    unfold pgRoundDown MAXVA PGSIZE
    omega
  have page : pgRoundDown va / PGSIZE = va / PGSIZE :=
    Nat.mul_div_cancel _ (by decide)
  simp only [walkaddr, below, page]

theorem walkaddr_congr {va va' : Nat} (same : va / PGSIZE = va' / PGSIZE) :
    walkaddr pages va = walkaddr pages va' := by
  rw [← walkaddr_pgRoundDown va, ← walkaddr_pgRoundDown va', pgRoundDown, pgRoundDown, same]

theorem mappedCount_zero {va len : Nat} (unmapped : walkaddr pages va = false) :
    mappedCount pages va len = 0 := by
  cases len with
  | zero => rfl
  | succ len => simp [mappedCount, unmapped]

/-- Mapped bytes at the front are counted. -/
theorem mappedCount_add (n : Nat) : ∀ va len, n ≤ len ->
    (∀ index, index < n -> walkaddr pages (va + index) = true) ->
    mappedCount pages va len = n + mappedCount pages (va + n) (len - n) := by
  induction n with
  | zero =>
    intro va len _ _
    simp
  | succ n ih =>
    intro va len fits mapped
    cases len with
    | zero => omega
    | succ len =>
      have rest := ih (va + 1) len (by omega) fun index small => by
        rw [Nat.add_assoc, Nat.add_comm 1]
        exact mapped (index + 1) (by omega)
      have first : walkaddr pages va = true := mapped 0 (by omega)
      rw [mappedCount, if_pos first, rest]
      have shift : va + 1 + n = va + (n + 1) := by omega
      have left : len + 1 - (n + 1) = len - n := by omega
      rw [shift, left]
      omega

/-- A shorter range counts the same bytes up to its end. -/
theorem mappedCount_min {m n : Nat} (shorter : m ≤ n) (va : Nat) :
    mappedCount pages va m = min m (mappedCount pages va n) := by
  induction m generalizing va n with
  | zero => simp [mappedCount]
  | succ m ih =>
    cases n with
    | zero => omega
    | succ n =>
      unfold mappedCount
      split
      · rw [ih (Nat.le_of_succ_le_succ shorter)]
        omega
      · omega

theorem walkaddr_of_counted {va len index : Nat} (counted : index < mappedCount pages va len) :
    walkaddr pages (va + index) = true := by
  induction len generalizing va index with
  | zero => cases counted
  | succ len ih =>
    unfold mappedCount at counted
    split at counted
    · next mapped =>
        cases index with
        | zero => exact mapped
        | succ index =>
          rw [Nat.add_comm index, ← Nat.add_assoc]
          exact ih (by omega)
    · cases counted

/-- The bytes that one iteration moves lie in one page. -/
theorem page_mapped {va : Nat} (mapped : walkaddr pages va = true) {index : Nat}
    (inside : index < PGSIZE - (va - pgRoundDown va)) : walkaddr pages (va + index) = true := by
  rw [← mapped]
  apply walkaddr_congr
  unfold pgRoundDown PGSIZE at *
  omega

/-- A copy moves the bytes in front of the first unmapped one, and succeeds if
there is none. -/
theorem pageLoop_eq {move : Nat -> Nat -> σ -> σ} (nothing : ∀ va state, move va 0 state = state)
    (join : ∀ va n m state, move (va + n) m (move va n state) = move va (n + m) state) :
    ∀ fuel va len state, len ≤ fuel -> pageLoop pages move fuel va len state =
        (decide (mappedCount pages va len = len), move va (mappedCount pages va len) state) := by
  intro fuel
  induction fuel with
  | zero =>
    intro va len state small
    have empty : len = 0 := by omega
    subst empty
    simp [pageLoop, mappedCount, nothing]
  | succ fuel ih =>
    intro va len state small
    by_cases empty : len = 0
    · subst empty
      simp [pageLoop, mappedCount, nothing]
    · rw [pageLoop, if_neg empty]
      simp only [walkaddr_pgRoundDown]
      by_cases mapped : walkaddr pages va = true
      · rw [if_pos mapped]
        have room : 0 < PGSIZE - (va - pgRoundDown va) ∧ pgRoundDown va ≤ va := by
          unfold pgRoundDown PGSIZE
          omega
        generalize moved : min (PGSIZE - (va - pgRoundDown va)) len = n
        have counted := @mappedCount_add pages n va len (by omega)
          fun index inside => page_mapped mapped (by omega)
        rw [ih _ _ _ (by omega), counted]
        by_cases last : len - n = 0
        · have whole : n = len := by omega
          subst whole
          simp [mappedCount, nothing]
        · -- The next page starts where the moved bytes end.
          have ahead : pgRoundDown va + PGSIZE = va + n := by omega
          rw [ahead, join]
          congr 1
          rw [decide_eq_decide]
          omega
      · rw [if_neg mapped, mappedCount_zero (by simpa using mapped), nothing]
        simp only [Prod.mk.injEq, and_true]
        symm
        rw [decide_eq_false_iff_not]
        omega

/-- What `copyout` does. -/
theorem copyout_eq (dstva : Nat) (src : List UInt8) (memory : Nat -> UInt8) :
    copyout pages dstva src memory =
      (decide (mappedCount pages dstva src.length = src.length), fun address =>
        if dstva ≤ address ∧ address < dstva + mappedCount pages dstva src.length then
          src.getD (address - dstva) 0
        else memory address) := by
  unfold copyout
  rw [pageLoop_eq ?_ ?_ _ _ _ _ (le_refl _)]
  · intro va state
    funext address
    rw [if_neg (by omega)]
  · intro va n m state
    funext address
    dsimp only
    split_ifs <;> first | rfl | omega

/-- What `copyin` does. -/
theorem copyin_eq (space : Space) (srcva len : Nat) (dst : Nat -> UInt8) :
    copyin space srcva len dst = (decide (mappedCount space.pages srcva len = len), fun index =>
        if index < mappedCount space.pages srcva len then space.memory (srcva + index)
        else dst index) := by
  unfold copyin
  rw [pageLoop_eq ?_ ?_ _ _ _ _ (le_refl _)]
  · congr 1
    funext index
    simp only [Nat.le_add_right, true_and, Nat.add_lt_add_iff_left]
  · intro va state
    funext address
    rw [if_neg (by omega)]
  · intro va n m state
    funext address
    dsimp only
    split_ifs <;> first | rfl | omega

end Vm
end Xv6
