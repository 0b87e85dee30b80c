import Xv6.Conc.Sequential
import Xv6.Data.Bytes
import Xv6.Vm.Copy

namespace Xv6
namespace Paging

open Conc

/-!
# Physical memory and its allocator

The bytes of physical memory and the free list of `kernel/kalloc.c`.  Page tables
lie in this memory like everything else, as numbers of eight bytes.  The links of
the free list, which the kernel keeps in the free pages, are a list here.
-/

export Vm (PGSIZE MAXVA pgRoundDown)

/-- The number of values of a C `uint64`. -/
def ulongs : Nat := 2 ^ 64

def KERNBASE : Nat := 0x80000000
def PHYSTOP : Nat := KERNBASE + 128 * 1024 * 1024

/-- The messages of `panic`. -/
inductive Panic where
  | kfree
  | walk
  | remap
  | uvmunmapNotAligned
  | uvmunmapWalk
  | uvmunmapNotMapped
  | uvmunmapNotALeaf
  deriving DecidableEq, Repr

/-- Where the linker has put the end of the kernel, from which on pages are allocated. -/
structure Image where
  kend : Nat
  inRam : kend ≤ PHYSTOP
  based : KERNBASE ≤ kend

structure Ram where
  byte : Bytes
  freelist : List Nat
  panicked : Option Panic

/-- Kernel code that works on memory. -/
abbrev Routine (α : Type) := Prog Ram Unit Unit Empty α

def change (update : Ram -> Ram) : Routine Unit := Prog.modify (fun _ => update)

def look {α : Type} (view : Ram -> α) : Routine α := Prog.read (fun _ => view)

/-- `panic` does not return. -/
def panic {α : Type} (why : Panic) : Routine α := do
  change (fun ram => { ram with panicked := some why })
  Prog.halt

namespace Ram

def setByte (ram : Ram) (byte : Bytes) : Ram := { ram with byte := byte }

/-- The first free page is taken and filled with junk. -/
def take (ram : Ram) (page : Nat) (rest : List Nat) : Ram :=
  { ram with byte := ram.byte.fill page PGSIZE 5, freelist := rest }

/-- A page is filled with junk and put in front of the free list. -/
def give (ram : Ram) (page : Nat) : Ram :=
  { ram with byte := ram.byte.fill page PGSIZE 1, freelist := page :: ram.freelist }

variable (ram : Ram)

@[simp] theorem setByte_freelist (byte : Bytes) : (ram.setByte byte).freelist = ram.freelist := rfl

@[simp] theorem take_freelist (page : Nat) (rest : List Nat) :
    (ram.take page rest).freelist = rest := rfl

@[simp] theorem give_freelist (page : Nat) : (ram.give page).freelist = page :: ram.freelist := rfl

end Ram

def memset (pos : Nat) (value : UInt8) (length : Nat) : Routine Unit :=
  change (fun ram => ram.setByte (ram.byte.fill pos length value))

/-- Copy bytes of the kernel to a place in memory. -/
def write (pos : Nat) (bytes : List UInt8) : Routine Unit :=
  change (fun ram => ram.setByte (ram.byte.put pos bytes))

/-- A `uint64` in memory. -/
def load (pos : Nat) : Routine Nat := look (fun ram => ram.byte.word pos 8)

def store (pos value : Nat) : Routine Unit :=
  change (fun ram => ram.setByte (ram.byte.setWord pos 8 value))

/-- Allocate one page of physical memory. -/
def kalloc : Routine (Option Nat) := do
  match ← look (fun ram => ram.freelist) with
  | [] => pure none
  | page :: rest => do
    change (fun ram => ram.take page rest)
    pure (some page)

/-- The pages that may be freed. -/
def Freeable (image : Image) (pa : Nat) : Prop :=
  pa % PGSIZE = 0 ∧ image.kend ≤ pa ∧ pa < PHYSTOP

instance (image : Image) (pa : Nat) : Decidable (Freeable image pa) :=
  inferInstanceAs (Decidable (_ ∧ _ ∧ _))

/-- Free the page of physical memory at `pa`. -/
def kfree (image : Image) (pa : Nat) : Routine Unit := do
  if Freeable image pa then change (fun ram => ram.give pa)
  else panic .kfree

/-! ## Runs -/

section Rules

variable {stop : Ram -> Prop} {α β : Type} {ram : Ram} {goal : Unit -> Ram -> Prop}

@[simp] theorem meets_pure (value : α) {goal : α -> Ram -> Prop} :
    Meets () stop (pure value : Routine α) goal ram <-> goal value ram :=
  Iff.rfl

@[simp] theorem meets_do (program : Routine β) (rest : β -> Routine α) {goal : α -> Ram -> Prop} :
    Meets () stop (program >>= rest) goal ram <->
      Meets () stop program (fun value after => Meets () stop (rest value) goal after) ram :=
  meets_bind program rest

@[simp] theorem meets_look (view : Ram -> α) {goal : α -> Ram -> Prop} :
    Meets () stop (look view) goal ram <-> goal (view ram) ram :=
  Iff.rfl

@[simp] theorem meets_memset (pos length : Nat) (value : UInt8) :
    Meets () stop (memset pos value length) goal ram <->
      goal () (ram.setByte (ram.byte.fill pos length value)) :=
  Iff.rfl

@[simp] theorem meets_write (pos : Nat) (bytes : List UInt8) :
    Meets () stop (write pos bytes) goal ram <-> goal () (ram.setByte (ram.byte.put pos bytes)) :=
  Iff.rfl

@[simp] theorem meets_load (pos : Nat) {goal : Nat -> Ram -> Prop} :
    Meets () stop (load pos) goal ram <-> goal (ram.byte.word pos 8) ram :=
  Iff.rfl

@[simp] theorem meets_store (pos value : Nat) : Meets () stop (store pos value) goal ram <->
      goal () (ram.setByte (ram.byte.setWord pos 8 value)) :=
  Iff.rfl

/-- `kalloc` fails only if no page is free. -/
theorem meets_kalloc {goal : Option Nat -> Ram -> Prop} (none_ : ram.freelist = [] -> goal none ram)
    (some_ : ∀ page rest, ram.freelist = page :: rest -> goal (some page) (ram.take page rest)) :
    Meets () stop kalloc goal ram := by
  simp only [kalloc, meets_do, meets_look]
  cases free : ram.freelist with
  | nil => exact none_ free
  | cons page rest => exact some_ page rest free

theorem meets_kfree {image : Image} {pa : Nat} (freeable : Freeable image pa)
    (next : goal () (ram.give pa)) : Meets () stop (kfree image pa) goal ram := by
  rw [kfree, if_pos freeable]
  exact next

end Rules

end Paging
end Xv6
