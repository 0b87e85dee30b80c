import Xv6.Fs.Growth
import Xv6.Fs.Mapping

namespace Xv6
namespace Fs

open Conc Nat

/-!
# Reading an inode

The loops of `readi` and `writei` cut a range of bytes at the block boundaries.
`readi` puts the bytes of the file together from the parts and, as long as the
file has no holes, changes nothing.
-/

/-! ## Sources -/

namespace Source

/-- The byte at an offset behind the source address. -/
def byte : Source -> Nat -> UInt8
  | .kernel bytes, index => bytes.getD index 0
  | .user space va, index => space.memory (va + index)

/-- The number of bytes that can be read before the first unmapped one. -/
def avail : Source -> Nat -> Nat
  | .kernel _, n => n
  | .user space va, n => Vm.mappedCount space.pages va n

theorem avail_le (src : Source) (n : Nat) : src.avail n ≤ n := by
  cases src with
  | kernel bytes => exact le_refl n
  | user space va => exact Vm.mappedCount_le va n

theorem byte_shift (src : Source) (start index : Nat) :
    (src.shift start).byte index = src.byte (start + index) := by
  cases src with
  | kernel bytes => simp [shift, byte, List.getD_eq_getElem?_getD]
  | user space va => simp only [shift, byte, add_assoc]

theorem copyin_eq (src : Source) (m : Nat) (dst : Bytes) :
    src.copyin m dst = (decide (src.avail m = m), fun index =>
      if index < src.avail m then src.byte index else dst index) := by
  cases src with
  | kernel bytes =>
    refine Prod.ext ?_ rfl
    simp only [copyin, avail, decide_true]
  | user space va => exact Vm.copyin_eq space va m dst

/-- What is left of the source after the bytes that could be read. -/
theorem avail_shift (src : Source) {start m n : Nat} (before : start ≤ src.avail n)
    (fits : start + m ≤ n) : (src.shift start).avail m = min m (src.avail n - start) := by
  cases src with
  | kernel bytes =>
    simp only [shift, avail] at before ⊢
    omega
  | user space va =>
    have counted : ∀ index, index < start ->
        Vm.walkaddr space.pages (va + index) = true := fun index small =>
      Vm.walkaddr_of_counted (lt_of_lt_of_le small before)
    have whole := Vm.mappedCount_add start va n (by omega) counted
    simp only [shift, avail]
    rw [whole, Vm.mappedCount_min (show m ≤ n - start by omega)]
    omega

end Source

theorem copyAt_eq (src : Source) (block : Bytes) (pos m : Nat) :
    Bytes.copyAt block pos (src.copyin m) = (decide (src.avail m = m), fun index =>
      if pos ≤ index ∧ index < pos + src.avail m then src.byte (index - pos)
      else block index) := by
  unfold Bytes.copyAt
  rw [Source.copyin_eq]
  refine Prod.ext rfl ?_
  funext index
  dsimp only
  by_cases low : pos ≤ index
  · rw [if_pos low]
    by_cases high : index - pos < src.avail m
    · rw [if_pos high, if_pos ⟨low, by omega⟩]
    · rw [if_neg high, if_neg (by omega), Nat.add_sub_cancel' low]
  · rw [if_neg low, if_neg fun h => low h.1]

/-! ## Chunks -/

theorem chunk_pos {off rest : Nat} (more : 0 < rest) : 0 < chunk off rest := by
  have small := mod_lt off (show 0 < BSIZE by decide)
  unfold chunk
  omega

theorem chunk_le (off rest : Nat) : chunk off rest ≤ rest := min_le_left _ _

theorem chunk_div {off rest index : Nat} (inside : index < chunk off rest) :
    (off + index) / BSIZE = off / BSIZE := by
  unfold chunk BSIZE at *
  omega

theorem chunk_mod {off rest index : Nat} (inside : index < chunk off rest) :
    (off + index) % BSIZE = off % BSIZE + index := by
  unfold chunk BSIZE at *
  omega

/-! ## Reading -/

section Read

variable {sb : Superblock} {ip : Entry} {stop : State -> Prop} {state : State}

/-- Every copy of at most `n` bytes from the start of the destination succeeds. -/
def Sink.Accepts (dst : Sink) (n : Nat) : Prop :=
  forall tot bytes, tot + bytes.length ≤ n -> dst tot bytes = true

theorem Sink.kernel_accepts (n : Nat) : Sink.kernel.Accepts n := fun _ _ _ => rfl

/-- The bytes of a range. -/
def Volume.range (vol : Volume) (inum off n : Nat) : List UInt8 :=
  (List.range n).map fun index => vol.byte inum (off + index)

theorem Volume.length_range (vol : Volume) (inum off n : Nat) :
    (vol.range inum off n).length = n := by
  simp [Volume.range]

theorem Volume.range_add (vol : Volume) (inum off tot m : Nat) :
    vol.range inum off (tot + m) = vol.range inum off tot ++ vol.range inum (off + tot) m := by
  simp only [Volume.range, List.range_add, List.map_append, List.map_map]
  congr 1
  apply List.map_congr_left
  intro index _
  simp only [Function.comp, add_assoc]

/-- The part of a range in one block is read from that block. -/
theorem range_chunk (vol : Volume) (inum off rest : Nat) :
    (vol.data (vol.pointer inum (slotOf (off / BSIZE)))).slice (off % BSIZE) (chunk off rest) =
      vol.range inum off (chunk off rest) := by
  unfold Bytes.slice Volume.range
  apply List.map_congr_left
  intro index inside
  rw [List.mem_range] at inside
  rw [Volume.byte, chunk_div inside, chunk_mod inside]

theorem contents_range (vol : Volume) (inum off n : Nat) : ((vol.contents inum).drop off).take n =
      vol.range inum off (min n ((vol.node inum).size - off)) := by
  unfold Volume.contents Volume.range
  apply List.ext_getElem
  · simp
  · intro index left right
    simp

variable (allocated : (state.entry ip).node.type ≠ 0)
  (filled : (state.seen ip).Filled (state.entry ip).inum)

include allocated filled

/-- The loop of `readi` delivers the bytes of the range and changes nothing. -/
theorem meets_readiLoop {dst : Sink} {off n : Nat} {goal : Option (List UInt8) -> State -> Prop}
    (fits : off + n ≤ (state.entry ip).node.size)
    (done : goal (some ((state.seen ip).range (state.entry ip).inum off n)) state)
    (failed : ¬ dst.Accepts n -> goal none state) :
    ∀ turns tot, tot ≤ n -> n ≤ tot + turns ->
      Meets () stop (readiLoop sb ip dst n turns tot (off + tot)
        ((state.seen ip).range (state.entry ip).inum off tot)) goal state := by
  intro turns
  induction turns with
  | zero =>
    intro tot low high
    have complete : tot = n := by omega
    subst complete
    exact done
  | succ turns ih =>
    intro tot low high
    unfold readiLoop
    by_cases more : tot < n
    · rw [if_pos more]
      have present : (state.seen ip).pointer (state.entry ip).inum
          (slotOf ((off + tot) / BSIZE)) ≠ 0 := by
        apply filled
        rw [seen_node_self]
        have below := div_mul_le_self (off + tot) BSIZE
        omega
      have forward := @chunk_pos (off + tot) (n - tot) (by omega)
      have short := chunk_le (off + tot) (n - tot)
      simp only [meets_do]
      refine meets_bmap_present allocated present ?_
      rw [meets_look, ← seen_data, range_chunk]
      split
      · have next := ih (tot + chunk (off + tot) (n - tot)) (by omega) (by omega)
        rw [Volume.range_add, ← add_assoc] at next
        exact next
      · next refused =>
          refine failed fun accepts => refused (accepts _ _ ?_)
          rw [Volume.length_range]
          omega
    · rw [if_neg more]
      have complete : tot = n := by omega
      subst complete
      exact done

/-- `readi` gives the bytes of the file from `off` on, cut at the size; nothing
if the sum of its arguments wraps. -/
theorem meets_readi {dst : Sink} {off n : Nat} {goal : Int × List UInt8 -> State -> Prop}
    (small : off < 2 ^ 32) (short : n < 2 ^ 32)
    (done : ∀ bytes, bytes = (if off + n < 2 ^ 32 then
        (((state.seen ip).contents (state.entry ip).inum).drop off).take n else []) ->
      goal (bytes.length, bytes) state)
    (failed : ¬ dst.Accepts n -> goal (-1, []) state) :
    Meets () stop (readi sb ip dst off n) goal state := by
  have size : ((state.seen ip).node (state.entry ip).inum).size = (state.entry ip).node.size := by
    rw [seen_node_self]
  simp only [readi, meets_do, meets_look]
  split
  · next outside =>
      refine done [] ?_
      split
      · next exact_ =>
          have wrapped : uint32 (off + n) = off + n := mod_eq_of_lt exact_
          rw [contents_range, size]
          have nothing : min n ((state.entry ip).node.size - off) = 0 := by
            rw [wrapped] at outside
            omega
          rw [nothing]
          rfl
      · rfl
  · next inside =>
      have exact_ : off + n < 2 ^ 32 := by
        by_contra wraps
        have sum : uint32 (off + n) = off + n - 2 ^ 32 := by
          unfold uint32
          omega
        omega
      have wrapped : uint32 (off + n) = off + n := mod_eq_of_lt exact_
      have length : (if (state.entry ip).node.size < uint32 (off + n) then
          (state.entry ip).node.size - off else n) = min n ((state.entry ip).node.size - off) := by
        rw [wrapped]
        split <;> omega
      simp only [meets_do]
      rw [length]
      refine meets_readiLoop allocated filled (by omega) ?_ ?_ _ 0 (zero_le _) (by omega)
      · have result := done ((state.seen ip).range (state.entry ip).inum off
          (min n ((state.entry ip).node.size - off))) (by
            rw [if_pos exact_, contents_range, size])
        exact result
      · intro refused
        refine failed fun accepts => refused ?_
        intro tot bytes within
        exact accepts tot bytes (by omega)

end Read

end Fs
end Xv6
