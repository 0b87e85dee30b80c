import Xv6.Proc.Wait
import Xv6.Vm.Copy

namespace Xv6
namespace Wait

open Vm

/-!
# `wait_stat` and `wait`

Both system calls end in `wait_extension`.  `sys_wait` fetches the address of
the status with `argaddr`; `sys_wait_stat` fetches it with `argint`, so that
only the low half of the register arrives, sign-extended.

User memory is looked at byte by byte here: a status that straddles two pages
can be stored in part before the copy fails.
-/

/-- The bytes of an `int` in memory. -/
def intBytes (value : Int) : List UInt8 :=
  (List.range 4).map fun index => UInt8.ofNat (value / 256 ^ index % 256).toNat

/-- All four bytes of an `int` at this address are mapped. -/
def mapped (pages : Nat -> Bool) (addr : Nat) : Bool :=
  decide (mappedCount pages addr 4 = 4)

/-- The copies of a call without a `perf` structure, the failed one at the end
included. -/
def statusCopies (args : Args) (final : State) : List (Nat × Int) :=
  final.copied.reverse ++
    match final.failed with
    | some status => if args.addr ≠ 0 then [(args.addr, status)] else []
    | none => []

/-- User memory after these copies. -/
def storeAll (pages : Nat -> Bool) (memory : Nat -> UInt8) (copies : List (Nat × Int)) :
    Nat -> UInt8 :=
  copies.foldl (fun memory copy => (Vm.copyout pages copy.1 (intBytes copy.2) memory).2) memory

/-- What a system call leaves: its value, the process table, the locks of the
caller and the user memory. -/
structure Left where
  value : Option Int
  proc : Slot -> Proc
  held : List Lock
  memory : Nat -> UInt8

/-- The call with these arguments can leave this. -/
def Leaves (pages : Nat -> Bool) (args : Args) (table : Slot -> Proc) (memory : Nat -> UInt8)
    (left : Left) : Prop :=
  ∃ final, Returns args (fresh table) final ∧
    left = ⟨final.result, final.proc, final.held, storeAll pages memory (statusCopies args final)⟩

/-- The address that `sys_wait_stat` passes on. -/
def signExtended (a : Nat) : Nat := (int32 a % 2 ^ 64).toNat

/-- `wait_stat(a, 0)` and `wait(a)` can leave the same. -/
def SameAsWait (a : Nat) : Prop :=
  forall (self : Slot) (pages : Nat -> Bool) (table : Slot -> Proc) (memory : Nat -> UInt8)
    (left : Left), Leaves pages (sys_wait self (mapped pages) a) table memory left <->
        Leaves pages (sys_wait_stat self (mapped pages) a 0) table memory left

/-! ## Addresses -/

theorem signExtended_cases (a : Nat) : a % 2 ^ 32 < 2 ^ 31 ∧ signExtended a = a % 2 ^ 32 ∨
      2 ^ 31 ≤ a % 2 ^ 32 ∧ signExtended a = a % 2 ^ 32 + (2 ^ 64 - 2 ^ 32) := by
  unfold signExtended int32
  rw [Int.bmod_def]
  split
  · left
    omega
  · right
    omega

variable {pages : Nat -> Bool} {addr : Nat} {a a' : Nat}

theorem not_mapped_of_high (high : MAXVA ≤ addr) : walkaddr pages addr = false := by
  simp [walkaddr, Nat.not_lt.mpr high]

theorem mapped_false (unmapped : walkaddr pages addr = false) : mapped pages addr = false := by
  simp [mapped, mappedCount_zero unmapped]

theorem copyout_nothing (unmapped : walkaddr pages addr = false) (src : List UInt8)
    (memory : Nat -> UInt8) : (Vm.copyout pages addr src memory).2 = memory := by
  rw [copyout_eq, mappedCount_zero unmapped]
  funext address
  dsimp only
  rw [if_neg (by omega)]

/-- The pages of an `int`. -/
def pagesOf (addr : Nat) : Nat -> Bool :=
  fun page => page == addr / PGSIZE || page == (addr + 3) / PGSIZE

theorem pagesOf_mapped (low : addr + 3 < MAXVA) : mapped (pagesOf addr) addr = true := by
  have whole : ∀ index, index < 4 -> walkaddr (pagesOf addr) (addr + index) = true := by
    intro index small
    have page : (addr + index) / PGSIZE = addr / PGSIZE ∨
        (addr + index) / PGSIZE = (addr + 3) / PGSIZE := by
      unfold PGSIZE
      omega
    have inside : addr + index < MAXVA := by omega
    rcases page with same | same <;> simp [walkaddr, pagesOf, inside, same]
  have counted := mappedCount_add 4 addr 4 (le_refl _) whole
  simpa [mapped, mappedCount] using counted

/-! ## Calls that agree -/

/-- Two calls that cannot store the status do the same. -/
theorem loop_eq {args args' : Args} (self : args.self = args'.self)
    (given : args.addr ≠ 0) (given' : args'.addr ≠ 0)
    (unmapped : args.mapped args.addr = false) (unmapped' : args'.mapped args'.addr = false) :
    loop args = loop args' := by
  have reaps : reap args = reap args' := by
    funext np
    simp only [reap, copyout, given, given', unmapped, unmapped', ne_eq, not_false_eq_true,
      if_true, Bool.false_eq_true, if_false]
    rfl
  have visits : visit args = visit args' := by
    funext np
    simp only [visit, self, reaps]
  simp only [loop, self, visits]

theorem returns_congr {args args' : Args} (self : args.self = args'.self)
    (same : loop args = loop args') {state final : State} :
    Returns args state final <-> Returns args' state final := by
  have machines : machine args = machine args' := by
    simp only [machine, same]
  have calls : call args = call args' := by
    simp only [call, wait_extension, self]
  simp only [Returns, machines, calls]

/-- Two calls whose copies do not even store a part of the status leave the
same. -/
theorem leaves_congr {args args' : Args} (self : args.self = args'.self) (given : args.addr ≠ 0)
    (given' : args'.addr ≠ 0) (table : args.mapped = mapped pages)
    (table' : args'.mapped = mapped pages) (unmapped : walkaddr pages args.addr = false)
    (unmapped' : walkaddr pages args'.addr = false) {procs : Slot -> Proc} {memory : Nat -> UInt8}
    {left : Left} :
    Leaves pages args procs memory left <-> Leaves pages args' procs memory left := by
  have loops : loop args = loop args' :=
    loop_eq self given given' (by rw [table]; exact mapped_false unmapped)
      (by rw [table']; exact mapped_false unmapped')
  have stores : ∀ final, storeAll pages memory (statusCopies args final) =
      storeAll pages memory (statusCopies args' final) := by
    intro final
    unfold statusCopies storeAll
    cases final.failed with
    | none => rfl
    | some failure =>
      simp only [given, given', ne_eq, not_false_eq_true, if_true, List.foldl_append,
        List.foldl_cons, List.foldl_nil, copyout_nothing unmapped, copyout_nothing unmapped']
  constructor
  · rintro ⟨final, returns, rfl⟩
    exact ⟨final, (returns_congr self loops).mp returns, by rw [stores]⟩
  · rintro ⟨final, returns, rfl⟩
    exact ⟨final, (returns_congr self loops).mpr returns, by rw [stores]⟩

/-! ## Calls that differ -/

section Runs

variable {args : Args} {final : State} {table : Slot -> Proc}

theorem orphanage_found (self : Slot) (args : Args) (same : args.self = self) :
    Found args (fresh (orphanage self)) 0 := by
  refine ⟨rfl, congrArg some same.symm, [], (List.finRange NPROC).tail, rfl, ?_⟩
  exact fun _ member => absurd member List.not_mem_nil

/-- The state in which a call finds the first child of the orphanage. -/
def finding (self : Slot) : State :=
  ((fresh (orphanage self)).again.took (orphanage self) .wait).took (orphanage self) (.proc 0)

/-- A call that can store the status returns the number of a child. -/
theorem returns_pid (args : Args) (plain : args.performance = 0)
    (passed : args.addr = 0 ∨ args.mapped args.addr = true) :
    ∃ final, Returns args (fresh (orphanage args.self)) final ∧ final.result = some 2 := by
  have done : ∀ state : State, ∃ after, Stretch args (reapPerf args 0 (orphanage args.self 0))
      state 2 after := by
    intro state
    unfold reapPerf
    rw [if_neg (not_not.mpr plain)]
    exact ⟨_, stretch_seq stretch_modify (stretch_seq stretch_modify
      (stretch_seq stretch_modify stretch_ret))⟩
  have found := orphanage_found args.self args rfl
  by_cases none : args.addr = 0
  · rcases done (finding args.self) with ⟨after, rest⟩
    exact ⟨_, returns_reap rfl found (stretch_reap_plain none rest), rfl⟩
  · have stored := passed.resolve_left none
    rcases done { finding args.self with
      copied := (args.addr, (orphanage args.self 0).xstate) :: (finding args.self).copied } with
      ⟨after, rest⟩
    exact ⟨_, returns_reap rfl found (stretch_reap_status none stored rest), rfl⟩

/-- A call that cannot store the status returns -1. -/
theorem returns_minus (given : args.addr ≠ 0) (unmapped : args.mapped args.addr = false)
    (returns : Returns args (fresh table) final) : final.result = some (-1) := by
  rcases returns.outcome with ⟨value, before, outcome, rfl⟩
  rcases outcome.stored with minus | none | stored
  · exact congrArg some minus
  · exact (given none).elim
  · rw [unmapped] at stored
    cases stored

/-- It can fail at a child. -/
theorem returns_failed (args : Args) (given : args.addr ≠ 0)
    (unmapped : args.mapped args.addr = false) :
    ∃ final, Returns args (fresh (orphanage args.self)) final ∧ final.copied = [] ∧
      final.failed = some 0 := by
  have fails : ∃ after, Stretch args (reapFail 0) { finding args.self with failed := some 0 }
      (-1) after ∧ after.copied = [] ∧ after.failed = some 0 :=
    ⟨_, stretch_seq stretch_modify (stretch_seq stretch_modify stretch_ret), rfl, rfl⟩
  rcases fails with ⟨after, rest, copied, failed⟩
  have reaps : Stretch args (reap args 0) (finding args.self) (-1) after := by
    refine stretch_seq stretch_read ?_
    rw [if_pos given]
    exact stretch_seq (stretch_uncopied unmapped) rest
  exact ⟨_, returns_reap rfl (orphanage_found args.self args rfl) reaps, copied, failed⟩

/-- A call whose copies store nothing leaves the user memory as it was. -/
theorem memory_kept (memory : Nat -> UInt8) (plain : args.performance = 0)
    (pageTable : args.mapped = mapped pages) (unmapped : walkaddr pages args.addr = false)
    (returns : Returns args (fresh table) final) :
    storeAll pages memory (statusCopies args final) = memory := by
  have none : final.copied = [] := by
    rcases returns.outcome with ⟨value, before, outcome, rfl⟩
    exact outcome.untouched plain (by rw [pageTable]; exact mapped_false unmapped)
  unfold storeAll statusCopies
  rw [none]
  cases final.failed with
  | none => rfl
  | some failure =>
    dsimp only
    split
    · exact copyout_nothing unmapped _ _
    · rfl

end Runs

/-- Two calls of `wait` can leave the same. -/
def SameAddress (a a' : Nat) : Prop :=
  forall (self : Slot) (pages : Nat -> Bool) (table : Slot -> Proc) (memory : Nat -> UInt8)
    (left : Left), Leaves pages (sys_wait self (mapped pages) a) table memory left <->
        Leaves pages (sys_wait self (mapped pages) a') table memory left

/-- `wait_stat` without a `perf` structure is `wait` at another address. -/
theorem sameAsWait_iff (a : Nat) : SameAsWait a <-> SameAddress a (signExtended a) := by
  simp only [SameAsWait, SameAddress, sys_wait_stat, sys_wait, signExtended]

theorem SameAddress.symm (same : SameAddress a a') : SameAddress a' a :=
  fun self pages table memory left => (same self pages table memory left).symm

/-- One of the addresses is mapped under this page table and the other one is
not. -/
theorem not_same_of_mapped (pages : Nat -> Bool) (passed : a = 0 ∨ mapped pages a = true)
    (given : a' ≠ 0) (unmapped : mapped pages a' = false) : ¬ SameAddress a a' := by
  intro same
  rcases returns_pid (sys_wait 0 (mapped pages) a) rfl passed with ⟨final, returns, value⟩
  have leaves : Leaves pages (sys_wait 0 (mapped pages) a) (orphanage 0) (fun _ => 0) _ :=
    ⟨final, returns, rfl⟩
  rcases (same _ _ _ _ _).mp leaves with ⟨final', returns', equal⟩
  have values : final.result = final'.result := congrArg Left.value equal
  have minus : final'.result = some (-1) := returns_minus given unmapped returns'
  rw [value, minus] at values
  cases values

/-- A status that ends behind the last user page is stored in part at one
address and not at all at the other. -/
theorem not_same_of_partial (low : a < MAXVA) (behind : MAXVA ≤ a + 3) (high : MAXVA ≤ a') :
    ¬ SameAddress a a' := by
  intro same
  have given : a ≠ 0 := by
    unfold MAXVA at behind
    omega
  have count : 0 < mappedCount (fun _ => true) a 4 ∧ mappedCount (fun _ => true) a 4 < 4 := by
    have first : walkaddr (fun _ => true) a = true := by simp [walkaddr, low]
    have counted := mappedCount_add 1 a 4 (by omega) fun index small => by
      rw [show a + index = a by omega]
      exact first
    refine ⟨by omega, lt_of_le_of_ne (mappedCount_le a 4) fun all => ?_⟩
    have last := walkaddr_of_counted (show 3 < mappedCount (fun _ => true) a 4 by omega)
    rw [not_mapped_of_high behind] at last
    cases last
  have unmapped : mapped (fun _ => true) a = false := by
    simp only [mapped, decide_eq_false_iff_not]
    omega
  rcases returns_failed (sys_wait 0 (mapped fun _ => true) a) given unmapped with
    ⟨final, returns, copied, failed⟩
  have leaves : Leaves (fun _ => true) (sys_wait 0 (mapped fun _ => true) a) (orphanage 0)
      (fun _ => 1) _ := ⟨final, returns, rfl⟩
  rcases (same _ _ _ _ _).mp leaves with ⟨final', returns', equal⟩
  have memory := congrFun (congrArg Left.memory equal) a
  have kept := memory_kept (fun _ => 1) rfl rfl (not_mapped_of_high high) returns'
  simp only [kept] at memory
  simp [storeAll, statusCopies, copied, failed, copyout_eq, given, sys_wait, intBytes,
    count.1] at memory

/-- Above the user addresses both calls fail without storing anything. -/
theorem same_of_high (high : MAXVA ≤ a) (high' : MAXVA ≤ a') : SameAddress a a' := by
  have positive : 0 < MAXVA := by decide
  have given : a ≠ 0 := by omega
  have given' : a' ≠ 0 := by omega
  intro self pages table memory left
  have unmapped : walkaddr pages a = false := not_mapped_of_high high
  have unmapped' : walkaddr pages a' = false := not_mapped_of_high high'
  exact @leaves_congr pages (sys_wait self (mapped pages) a) (sys_wait self (mapped pages) a')
    rfl given given' rfl rfl unmapped unmapped' table memory left

/-- `wait_stat(a, 0)` does the same as `wait(a)`, for every caller, page table,
process table and user memory and whatever the rest of the kernel does, exactly
if the low half of `a` is sign-extended to `a`, or both addresses lie above all
user addresses. -/
theorem wait_stat_extends_wait_iff (a : Nat) :
    SameAsWait a <-> signExtended a = a ∨ (MAXVA ≤ a ∧ MAXVA ≤ signExtended a) := by
  have range := signExtended_cases a
  have apart : MAXVA = 2 ^ 38 := rfl
  rw [sameAsWait_iff]
  revert range
  generalize signExtended a = status
  intro range
  constructor
  · intro same
    by_contra outside
    rw [not_or, not_and_or] at outside
    by_cases low : status < MAXVA
    · -- The call of `wait_stat` finds a page, or no address at all.
      have mappedHere : mapped (pagesOf status) status = true := pagesOf_mapped (by omega)
      have unmapped : walkaddr (pagesOf status) a = false := by
        have first : a / PGSIZE ≠ status / PGSIZE := by
          unfold PGSIZE
          omega
        have second : a / PGSIZE ≠ (status + 3) / PGSIZE := by
          unfold PGSIZE
          omega
        simp [walkaddr, pagesOf, first, second]
      exact not_same_of_mapped (pagesOf status) (Or.inr mappedHere) (by omega)
        (mapped_false unmapped) same.symm
    · have inside : a < MAXVA := by omega
      by_cases whole : a + 3 < MAXVA
      · exact not_same_of_mapped (pagesOf a) (Or.inr (pagesOf_mapped whole)) (by omega)
          (mapped_false (not_mapped_of_high (by omega))) same
      · exact not_same_of_partial inside (by omega) (by omega) same
  · rintro (rfl | ⟨high, high'⟩)
    · exact fun _ _ _ _ _ => Iff.rfl
    · exact same_of_high high high'

/-- The address `2 ^ 32` is mapped for nobody, but its low half is the null
pointer: `wait` fails and `wait_stat` returns the number of the child. -/
theorem wait_stat_loses_high_half :
    (∃ left, Leaves (fun _ => false) (sys_wait_stat 0 (mapped fun _ => false) (2 ^ 32) 0)
      (orphanage 0) (fun _ => 0) left ∧ left.value = some 2) ∧
    forall left, Leaves (fun _ => false) (sys_wait 0 (mapped fun _ => false) (2 ^ 32))
      (orphanage 0) (fun _ => 0) left -> left.value = some (-1) := by
  constructor
  · have zero : (sys_wait_stat 0 (mapped fun _ => false) (2 ^ 32) 0).addr = 0 := by decide
    rcases returns_pid (sys_wait_stat 0 (mapped fun _ => false) (2 ^ 32) 0) rfl (Or.inl zero) with
      ⟨final, returns, value⟩
    exact ⟨_, ⟨final, returns, rfl⟩, value⟩
  · rintro left ⟨final, returns, rfl⟩
    exact returns_minus (by decide) (by decide) returns

end Wait
end Xv6
