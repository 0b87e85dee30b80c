import Xv6.Paging.Memory
import Xv6.Param

namespace Xv6
namespace Paging

open Conc

/-!
# Page tables

The user part of `kernel/vm.c`.  A page table is the address of its root; an
entry is a number at an address, so that two page tables, or a page table and the
memory it maps, may share pages.
-/

/-! ## Entries -/

def PTE_V : Nat := 1
def PTE_R : Nat := 2
def PTE_W : Nat := 4
def PTE_X : Nat := 8
def PTE_U : Nat := 16

def PA2PTE (pa : Nat) : Nat := (pa >>> 12) <<< 10

def PTE2PA (pte : Nat) : Nat := ((pte >>> 10) <<< 12) % ulongs

def PTE_FLAGS (pte : Nat) : Nat := pte &&& 0x3FF

/-- The index of `va` in a table of the given level. -/
def PX (level va : Nat) : Nat := (va >>> (12 + 9 * level)) &&& 0x1FF

def TRAMPOLINE : Nat := MAXVA - PGSIZE
def TRAPFRAME : Nat := TRAMPOLINE - PGSIZE

/-- `PGROUNDUP`. -/
def pgRoundUp (sz : Nat) : Nat := pgRoundDown ((sz + (PGSIZE - 1)) % ulongs)

/-- The turns of `for(a = low; a < high; a += PGSIZE)`. -/
def turns (low high : Nat) : List Nat := List.range ((high - low + (PGSIZE - 1)) / PGSIZE)

/-- An `int` passed as `uint64`. -/
def ulong (value : Int) : Nat := (value % (ulongs : Int)).toNat

/-! ## Walking -/

/-- The loop of `walk` from a level on: the address of the entry for `va`. -/
def walkFrom (va : Nat) (alloc : Bool) : Nat -> Nat -> Routine (Option Nat)
  | 0, pagetable => pure (some (pagetable + 8 * PX 0 va))
  | level + 1, pagetable => do
    let pte := pagetable + 8 * PX (level + 1) va
    let entry ← load pte
    if entry &&& PTE_V ≠ 0 then walkFrom va alloc level (PTE2PA entry)
    else if !alloc then pure none
    else
      match ← kalloc with
      | none => pure none
      | some page => do
        memset page 0 PGSIZE
        store pte (PA2PTE page ||| PTE_V)
        walkFrom va alloc level page

def walk (pagetable va : Nat) (alloc : Bool) : Routine (Option Nat) :=
  if MAXVA ≤ va then panic .walk else walkFrom va alloc 2 pagetable

/-- The physical address of a user page, or 0. -/
def walkaddr (pagetable va : Nat) : Routine Nat := do
  if MAXVA ≤ va then pure 0
  else
    match ← walk pagetable va false with
    | none => pure 0
    | some pte => do
      let entry ← load pte
      if entry &&& PTE_V = 0 then pure 0
      else if entry &&& PTE_U = 0 then pure 0
      else pure (PTE2PA entry)

/-! ## Mapping -/

/-- The loop of `mappages`.  It ends below `MAXVA`, where `walk` panics. -/
def mapLoop (pagetable last perm : Nat) : Nat -> Nat -> Nat -> Routine Int
  | 0, _, _ => panic .walk
  | more + 1, a, pa => do
    match ← walk pagetable a true with
    | none => pure (-1)
    | some pte =>
      if (← load pte) &&& PTE_V ≠ 0 then panic .remap
      else do
        store pte (PA2PTE pa ||| perm ||| PTE_V)
        if a = last then pure 0
        else mapLoop pagetable last perm more ((a + PGSIZE) % ulongs) ((pa + PGSIZE) % ulongs)

def mappages (pagetable va size pa perm : Nat) : Routine Int :=
  mapLoop pagetable (pgRoundDown ((va + size + (ulongs - 1)) % ulongs)) perm
    (MAXVA / PGSIZE + 1) (pgRoundDown va) pa

variable (image : Image)

def unmapPage (pagetable : Nat) (do_free : Bool) (a : Nat) : Routine Unit := do
  match ← walk pagetable a false with
  | none => panic .uvmunmapWalk
  | some pte => do
    let entry ← load pte
    if entry &&& PTE_V = 0 then panic .uvmunmapNotMapped
    else if PTE_FLAGS entry = PTE_V then panic .uvmunmapNotALeaf
    else do
      if do_free then kfree image (PTE2PA entry)
      store pte 0

/-- Remove `npages` of mappings starting from `va`. -/
def uvmunmap (pagetable va npages : Nat) (do_free : Bool) : Routine Unit :=
  if va % PGSIZE ≠ 0 then panic .uvmunmapNotAligned
  else Prog.forEach (fun turn => unmapPage image pagetable do_free (va + turn * PGSIZE))
    (turns va ((va + npages * PGSIZE) % ulongs))

/-! ## User memory -/

def uvmdealloc (pagetable oldsz newsz : Nat) : Routine Nat := do
  if oldsz ≤ newsz then pure oldsz
  else do
    if pgRoundUp newsz < pgRoundUp oldsz then
      uvmunmap image pagetable (pgRoundUp newsz)
        (ulong (int32 ((pgRoundUp oldsz - pgRoundUp newsz) / PGSIZE : Nat))) true
    pure newsz

/-- One turn of the loop of `uvmalloc`, which ends early if memory runs out. -/
def uvmallocAt (pagetable oldsz a : Nat) : Routine (Option Unit) := do
  match ← kalloc with
  | none => do
    let _ ← uvmdealloc image pagetable a oldsz
    pure (some ())
  | some mem => do
    memset mem 0 PGSIZE
    if (← mappages pagetable a PGSIZE mem (PTE_W ||| PTE_X ||| PTE_R ||| PTE_U)) ≠ 0 then do
      kfree image mem
      let _ ← uvmdealloc image pagetable a oldsz
      pure (some ())
    else pure none

/-- Grow a process from `oldsz` to `newsz`; 0 on error. -/
def uvmalloc (pagetable oldsz newsz : Nat) : Routine Nat :=
  if newsz < oldsz then pure oldsz
  else do
    let oldsz := pgRoundUp oldsz
    match ← Prog.firstSome (fun turn => uvmallocAt image pagetable oldsz (oldsz + turn * PGSIZE))
        (turns oldsz newsz) with
    | some _ => pure 0
    | none => pure newsz

/-! ## Copies between the kernel and user space

Every turn of a loop moves at least one byte, so there are at most as many turns
as bytes.  What is read from user space is returned with the result: these bytes
have been stored at `dst`. -/

def copyoutLoop (pagetable : Nat) : Nat -> Nat -> List UInt8 -> Routine Int
  | 0, _, _ => pure 0
  | turns + 1, dstva, src => do
    if src = [] then pure 0
    else do
      let va0 := pgRoundDown dstva
      let pa0 ← walkaddr pagetable va0
      if pa0 = 0 then pure (-1)
      else do
        let n := min (PGSIZE - (dstva - va0)) src.length
        write (pa0 + (dstva - va0)) (src.take n)
        copyoutLoop pagetable turns ((va0 + PGSIZE) % ulongs) (src.drop n)

/-- Copy from kernel to user. -/
def copyout (pagetable dstva : Nat) (src : List UInt8) : Routine Int :=
  copyoutLoop pagetable src.length dstva src

def copyinLoop (pagetable : Nat) : Nat -> Nat -> Nat -> List UInt8 -> Routine (Int × List UInt8)
  | 0, _, _, dst => pure (0, dst)
  | turns + 1, srcva, len, dst => do
    if len = 0 then pure (0, dst)
    else do
      let va0 := pgRoundDown srcva
      let pa0 ← walkaddr pagetable va0
      if pa0 = 0 then pure (-1, dst)
      else do
        let n := min (PGSIZE - (srcva - va0)) len
        let bytes ← look (fun ram => ram.byte.slice (pa0 + (srcva - va0)) n)
        copyinLoop pagetable turns ((va0 + PGSIZE) % ulongs) (len - n) (dst ++ bytes)

/-- Copy from user to kernel. -/
def copyin (pagetable srcva len : Nat) : Routine (Int × List UInt8) :=
  copyinLoop pagetable len srcva len []

/-- The inner loop of `copyinstr`: whether a zero was found, and the bytes that
were stored. -/
def copyBytes (byte : Bytes) : Nat -> Nat -> Bool × List UInt8
  | 0, _ => (false, [])
  | n + 1, p =>
    if byte p = 0 then (true, [0])
    else
      let rest := copyBytes byte n (p + 1)
      (rest.1, byte p :: rest.2)

def copyinstrLoop (pagetable : Nat) : Nat -> Nat -> Nat -> List UInt8 -> Routine (Int × List UInt8)
  | 0, _, _, dst => pure (-1, dst)
  | turns + 1, srcva, max, dst => do
    if max = 0 then pure (-1, dst)
    else do
      let va0 := pgRoundDown srcva
      let pa0 ← walkaddr pagetable va0
      if pa0 = 0 then pure (-1, dst)
      else do
        let n := min (PGSIZE - (srcva - va0)) max
        let copied ← look (fun ram => copyBytes ram.byte n (pa0 + (srcva - va0)))
        if copied.1 then pure (0, dst ++ copied.2)
        else
          copyinstrLoop pagetable turns ((va0 + PGSIZE) % ulongs) (max - n) (dst ++ copied.2)

/-- Copy a string from user to kernel. -/
def copyinstr (pagetable srcva max : Nat) : Routine (Int × List UInt8) :=
  copyinstrLoop pagetable max srcva max []

end Paging
end Xv6
