import Xv6.Pipe.Fifo
import Xv6.Vm.Copy

namespace Xv6
namespace Pipe
namespace Delivery

open Xv6.Ring

/-!
# What a read takes and what it delivers

`piperead` takes a byte out of the ring before it copies it to the user, and leaves
its loop when the copy fails.  The pipe's lock is held throughout the loop, so what
other processes do shows only while the reader sleeps: every time it has the lock
again it finds some pipe, and may find itself killed.
-/

/-- What a reader finds when it takes the lock. -/
structure Visit where
  pipe : Pipe
  killed : Bool

/-- A finished call: its value, the pipe that its loop began with, and the pipe and
the user's memory that it leaves. -/
structure Outcome where
  value : Int
  found : Pipe
  pipe : Pipe
  memory : Nat -> UInt8

/-- The copying loop of `piperead`, with `i` bytes copied and `more` to come. -/
def readLoop (pages : Nat -> Bool) (addr : Nat) :
    Nat -> Nat -> Pipe -> (Nat -> UInt8) -> Nat × Pipe × (Nat -> UInt8)
  | 0, i, pipe, memory => (i, pipe, memory)
  | more + 1, i, pipe, memory =>
    if pipe.nread = pipe.nwrite then (i, pipe, memory)
    else
      let ch := pipe.data (pipe.nread % PIPESIZE)
      let pipe := { pipe with nread := Ring.next uints pipe.nread }
      let copied := Vm.copyout pages ((addr + i) % 2 ^ 64) [ch] memory
      if copied.1 then readLoop pages addr more (i + 1) pipe copied.2
      else (i, pipe, copied.2)

/-- `piperead(pi, addr, n)` by a process with the given pages and memory, which finds
the listed pipes.  It has not returned if the last of them makes it sleep. -/
def piperead (pages : Nat -> Bool) (addr : Nat) (n : Int) (memory : Nat -> UInt8) :
    List Visit -> Option Outcome
  | [] => none
  | visit :: later =>
    if visit.pipe.nread = visit.pipe.nwrite ∧ visit.pipe.writeopen then
      if visit.killed then some ⟨-1, visit.pipe, visit.pipe, memory⟩
      else piperead pages addr n memory later
    else
      let result := readLoop pages addr n.toNat 0 visit.pipe memory
      some ⟨result.1, visit.pipe, result.2.1, result.2.2⟩

/-! ## The loop -/

variable {pages : Nat -> Bool} {addr : Nat} {memory : Nat -> UInt8}

/-- Bytes of the ring from `nread` on are at `va`. -/
def delivered (pipe : Pipe) (va count : Nat) (memory : Nat -> UInt8) : Nat -> UInt8 :=
  fun address => if va ≤ address ∧ address < va + count then
    pipe.data ((pipe.nread + (address - va)) % PIPESIZE) else memory address

theorem delivered_zero (pipe : Pipe) (va : Nat) : delivered pipe va 0 memory = memory := by
  funext address
  rw [delivered, if_neg (by omega)]

/-- One byte, and then those behind it. -/
theorem delivered_succ (pipe : Pipe) (va count : Nat) :
    delivered { pipe with nread := next uints pipe.nread } (va + 1) count
      (fun address => if va ≤ address ∧ address < va + 1 then
        [pipe.data (pipe.nread % PIPESIZE)].getD (address - va) 0 else memory address) =
      delivered pipe va (count + 1) memory := by
  funext address
  unfold delivered
  by_cases first : address = va
  · subst first
    rw [if_neg (by omega), if_pos (by omega)]
    dsimp only
    rw [if_pos (by omega), Nat.sub_self, Nat.add_zero]
    rfl
  · by_cases inside : va + 1 ≤ address ∧ address < va + 1 + count
    · have divides : PIPESIZE ∣ uints := by decide
      have offset : pipe.nread + 1 + (address - (va + 1)) = pipe.nread + (address - va) := by omega
      rw [if_pos inside, if_pos (by omega), next]
      dsimp only
      rw [Nat.add_mod, Nat.mod_mod_of_dvd _ divides, ← Nat.add_mod, offset]
    · rw [if_neg inside]
      dsimp only
      rw [if_neg (by omega), if_neg (by omega)]

theorem copyout_byte (va : Nat) (ch : UInt8) : Vm.copyout pages va [ch] memory =
      if Vm.walkaddr pages va = true then
        (true, fun address => if va ≤ address ∧ address < va + 1 then
          [ch].getD (address - va) 0 else memory address)
      else (false, memory) := by
  rw [Vm.copyout_eq]
  by_cases mapped : Vm.walkaddr pages va = true
  · simp [Vm.mappedCount, mapped]
  · have none_ : Vm.mappedCount pages va [ch].length = 0 :=
      Vm.mappedCount_zero (by simpa using mapped)
    rw [none_, if_neg mapped]
    congr 1
    funext address
    rw [if_neg (by omega)]

/-- The loop delivers the bytes in front of the first address that is not mapped; if
there is such an address, it takes one byte more. -/
theorem readLoop_eq {more i m c : Nat} {pipe : Pipe} (low : pipe.nread < uints)
    (high : pipe.nwrite < uints) (inWord : addr + i < 2 ^ 64) (some_ : m = min more pipe.used)
    (mapped : c = Vm.mappedCount pages (addr + i) m) :
    readLoop pages addr more i pipe memory =
      (i + c, { pipe with nread := (pipe.nread + if c < m then c + 1 else c) % uints },
        delivered pipe (addr + i) c memory) := by
  induction more generalizing i pipe memory m c with
  | zero =>
    have none_ : m = 0 := by omega
    subst none_
    have none' : c = 0 := mapped
    subst none'
    rw [readLoop, delivered_zero, if_neg (by omega), Nat.add_zero, Nat.add_zero,
      Nat.mod_eq_of_lt low]
  | succ more ih =>
    rw [readLoop]
    by_cases empty : pipe.nread = pipe.nwrite
    · have none_ : m = 0 := by
        rw [some_, Pipe.used, (gap_eq_zero_iff low).mpr empty, Nat.min_zero]
      subst none_
      have none' : c = 0 := mapped
      subst none'
      rw [if_pos empty, delivered_zero, if_neg (by omega), Nat.add_zero, Nat.add_zero,
        Nat.mod_eq_of_lt low]
    · rw [if_neg empty]
      have positive : 0 < pipe.used :=
        Nat.pos_of_ne_zero fun zero => empty ((gap_eq_zero_iff low).mp zero)
      have fewer := gap_next_low low high positive
      obtain ⟨rest, succ⟩ := Nat.exists_eq_succ_of_ne_zero (show m ≠ 0 by omega)
      subst succ
      rw [Nat.mod_eq_of_lt inWord]
      rw [Vm.mappedCount] at mapped
      dsimp only
      rw [copyout_byte]
      by_cases here : Vm.walkaddr pages (addr + i) = true
      · rw [if_pos here, if_pos rfl]
        rw [if_pos here] at mapped
        have below : addr + i < Vm.MAXVA := by
          simp only [Vm.walkaddr, Bool.and_eq_true, decide_eq_true_eq] at here
          exact here.1
        have again := @ih (fun address => if addr + i ≤ address ∧ address < addr + i + 1 then
            [pipe.data (pipe.nread % PIPESIZE)].getD (address - (addr + i)) 0 else memory address)
          (i + 1) rest (Vm.mappedCount pages (addr + i + 1) rest)
          { pipe with nread := next uints pipe.nread } (next_lt uints_pos) high
          (by unfold Vm.MAXVA at below; omega)
          (by change rest = min more (gap uints (next uints pipe.nread) pipe.nwrite)
              unfold Pipe.used at some_
              omega)
          rfl
        rw [again, ← Nat.add_assoc addr i 1, delivered_succ, mapped]
        generalize Vm.mappedCount pages (addr + i + 1) rest = count
        have sum : ∀ k, (next uints pipe.nread + k) % uints = (pipe.nread + (k + 1)) % uints := by
          intro k
          rw [next, Nat.mod_add_mod, Nat.add_assoc, Nat.add_comm 1]
        dsimp only
        rw [sum]
        by_cases stuck : count < rest
        · rw [if_pos stuck, if_pos (by omega), Nat.add_assoc i 1, Nat.add_comm 1]
        · rw [if_neg stuck, if_neg (by omega), Nat.add_assoc i 1, Nat.add_comm 1]
      · rw [if_neg here] at mapped
        subst mapped
        rw [if_neg here, delivered_zero]
        rfl

/-! ## Reads that lose nothing -/

/-- Exactly the bytes that the call reports have left the pipe, and they are at `addr`.
A call that reports none has changed nothing. -/
def Lossless (addr : Nat) (memory : Nat -> UInt8) (outcome : Outcome) : Prop :=
  ∃ i : Nat, (outcome.value = i ∨ outcome.value = -1 ∧ i = 0) ∧
    outcome.pipe = { outcome.found with nread := (outcome.found.nread + i) % uints } ∧
    outcome.memory = delivered outcome.found addr i memory

/-- The number of bytes that a read asks for and finds. -/
def Outcome.wanted (outcome : Outcome) (n : Int) : Nat := min n.toNat outcome.found.used

/-- A read loses nothing exactly if all the bytes that it wants can be stored. -/
theorem piperead_lossless_iff {n : Int} {visits : List Visit} {outcome : Outcome}
    (counters : forall visit, visit ∈ visits ->
      visit.pipe.nread < uints ∧ visit.pipe.nwrite < uints)
    (inWord : addr < 2 ^ 64) (returns : piperead pages addr n memory visits = some outcome) :
    Lossless addr memory outcome <->
      forall index, index < outcome.wanted n -> Vm.walkaddr pages (addr + index) = true := by
  induction visits with
  | nil => cases returns
  | cons visit later ih =>
    obtain ⟨low, high⟩ := counters visit List.mem_cons_self
    rw [piperead] at returns
    by_cases waits : visit.pipe.nread = visit.pipe.nwrite ∧ visit.pipe.writeopen
    · rw [if_pos waits] at returns
      by_cases killed : visit.killed
      · rw [if_pos killed] at returns
        cases returns
        have empty : visit.pipe.used = 0 := (Ring.gap_eq_zero_iff low).mpr waits.1
        constructor
        · intro _ index small
          simp only [Outcome.wanted, empty, Nat.min_zero] at small
          exact absurd small (Nat.not_lt_zero _)
        · intro _
          refine ⟨0, Or.inr ⟨rfl, rfl⟩, ?_, (delivered_zero _ _).symm⟩
          rw [Nat.add_zero, Nat.mod_eq_of_lt low]
      · rw [if_neg killed] at returns
        exact ih (fun other member => counters other (List.mem_cons_of_mem _ member)) returns
    · rw [if_neg waits] at returns
      have loop := @readLoop_eq pages addr memory n.toNat 0 _ _ visit.pipe low high inWord rfl rfl
      dsimp only at returns
      rw [loop] at returns
      cases returns
      change Lossless addr memory _ <-> forall index, index < min n.toNat visit.pipe.used -> _
      have bound := @Vm.mappedCount_le pages addr (min n.toNat visit.pipe.used)
      rw [Nat.add_zero, Nat.zero_add] at *
      generalize min n.toNat visit.pipe.used = m at bound ⊢
      generalize counted : Vm.mappedCount pages addr m = c at bound ⊢
      constructor
      · rintro ⟨i, value, taken, _⟩ index small
        have same : c = i := by
          rcases value with value | ⟨value, _⟩
          · exact Int.ofNat_inj.mp value
          · cases value
        subst same
        have advance := congrArg Pipe.nread taken
        dsimp only at advance
        have whole : ¬ c < m := by
          intro stuck
          rw [if_pos stuck] at advance
          unfold uints at advance
          omega
        have inside : index < Vm.mappedCount pages addr m := by omega
        exact Vm.walkaddr_of_counted inside
      · intro mapped
        have whole : c = m := by
          rw [← counted, Vm.mappedCount_add m addr m (le_refl m) mapped, Nat.sub_self]
          rfl
        subst whole
        exact ⟨c, Or.inl rfl, by rw [if_neg (Nat.lt_irrefl c)], rfl⟩

/-- Two bytes in a pipe, and room for one. -/
def twoBytes : Visit where
  pipe := ⟨fun _ => 7, 0, 2, true, true⟩
  killed := false

/-- A read into the mapped page loses nothing. -/
theorem piperead_mapped_lossless : ∃ outcome,
    piperead (fun page => page == 0) 0 2 (fun _ => 0) [twoBytes] = some outcome ∧
      Lossless 0 (fun _ => 0) outcome := by
  obtain ⟨outcome, returns⟩ : ∃ outcome,
    piperead (fun page => page == 0) 0 2 (fun _ => 0) [twoBytes] = some outcome := ⟨_, rfl⟩
  have found : outcome.found = twoBytes.pipe := by
    cases returns
    rfl
  refine ⟨outcome, returns, (piperead_lossless_iff ?_ (by decide) returns).mpr ?_⟩
  · intro visit member
    rw [List.mem_singleton.mp member]
    decide
  · intro index small
    rw [Outcome.wanted, found] at small
    have two : index < 2 := Nat.lt_of_lt_of_le small (Nat.min_le_left _ _)
    have page : (0 + index) / Vm.PGSIZE = 0 := by
      unfold Vm.PGSIZE
      omega
    have below : 0 + index < Vm.MAXVA := by
      unfold Vm.MAXVA
      omega
    rw [Vm.walkaddr, page, decide_eq_true below]
    rfl

/-- A read across the end of the mapped page: the first byte is delivered, the call
returns 1, and both bytes are gone. -/
theorem piperead_loses_byte : ∃ outcome,
    piperead (fun page => page == 0) 4095 2 (fun _ => 0) [twoBytes] = some outcome ∧
      outcome.value = 1 ∧ outcome.found.nread = 0 ∧ outcome.pipe.nread = 2 ∧
      ¬ Lossless 4095 (fun _ => 0) outcome := by
  refine ⟨_, rfl, by decide, rfl, by decide, ?_⟩
  rintro ⟨i, value, taken, _⟩
  have one : i = 1 := by
    rcases value with value | ⟨value, _⟩
    · exact (Int.ofNat_inj.mp value).symm
    · cases value
  subst one
  exact absurd (congrArg Pipe.nread taken) (by decide)

end Delivery
end Pipe
end Xv6
