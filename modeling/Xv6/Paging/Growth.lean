import Xv6.Paging.Refinement
import Xv6.Paging.UserMemory

namespace Xv6
namespace Paging

open Conc List Option

/-!
# Growing and shrinking a process

`growproc` computes the new size as an `uint` from an `uint` and an `int`.  A sum
below zero wraps to a size far above the old one, and `uvmdealloc` then does nothing.
-/

variable (image : Image) {n : Int}

/-- `growproc(n)` of a process with the given page table and size: the result and the
size afterwards. -/
def growproc (pagetable sz : Nat) (n : Int) : Routine (Int × Nat) :=
  let old := uint32 sz
  let sum := ((old + n) % (uints : Int)).toNat
  if 0 < n then do
    let new := uint32 (← uvmalloc image pagetable old sum)
    if new = 0 then pure (-1, sz) else pure (0, new)
  else if n < 0 then do
    let new := uint32 (← uvmdealloc image pagetable old sum)
    pure (0, new)
  else pure (0, old)

/-- A process has the memory that its size says, and the pages for it are its own. -/
structure UserSpace (image : Image) (ram : Ram) (space : Space) (leaves : List Nat)
    (upper : Nat -> Option Nat) (sz : Nat) : Prop where
  region : Region space leaves upper ram.byte
  allocated : Allocated image ram (space.tables.val + frames leaves)
  size : pages sz = leaves.length

/-- The byte at a virtual address, if the page is mapped. -/
def contents (byte : Bytes) (root va : Nat) : Option UInt8 :=
  (translation byte root va).map fun entry => byte (PTE2PA entry + va % PGSIZE)

variable {image} {stop : Ram -> Prop} {ram ram' : Ram} {space space' : Space}
variable {leaves leaves' new tail : List Nat} {upper : Nat -> Option Nat} {sz : Nat}

/-! ## Views of user memory -/

theorem UserSpace.room (user : UserSpace image ram space leaves upper sz) :
    leaves.length ≤ 32768 := by
  apply @Allocated.room image ram space.tables.val
  rw [add_comm]
  exact user.allocated

/-- Exactly the pages of the process's memory are mapped below the upper pages. -/
theorem UserSpace.mapped_iff (user : UserSpace image ram space leaves upper sz) {va : Nat}
    (low : va < TRAPFRAME) :
    (translation ram.byte space.root va).isSome = true <-> va < pgRoundUp sz := by
  have room := user.room
  have page : va / PGSIZE < TRAPFRAME / PGSIZE := by
    unfold TRAPFRAME TRAMPOLINE MAXVA PGSIZE at *
    omega
  have below : va < SV39 := by
    unfold TRAPFRAME TRAMPOLINE MAXVA PGSIZE at low
    unfold SV39
    omega
  have inside : va / PGSIZE < leaves.length <-> va < leaves.length * PGSIZE :=
    Nat.div_lt_iff_lt_mul (by decide)
  rw [pgRoundUp_eq (by rw [user.size]; exact room), user.size, user.region.holds.map va below,
    user.region.map, ← inside]
  constructor
  · intro mapped
    by_contra beyond
    rw [userMap_beyond (Nat.le_of_not_lt beyond), user.region.vacant _ page] at mapped
    cases mapped
  · intro small
    rw [userMap_inside small]
    rfl

/-- What two processes' memories have in common: entries and bytes. -/
structure Shares (ram : Ram) (leaves : List Nat) (ram' : Ram) (leaves' : List Nat) (count : Nat) :
    Prop where
  entries : forall index, index < count -> leaves'[index]? = leaves[index]?
  bytes : forall index entry, index < count -> leaves[index]? = some entry ->
    forall x, pgRoundDown x = PTE2PA entry -> ram'.byte x = ram.byte x

theorem Shares.contents {count va : Nat} (shares : Shares ram leaves ram' leaves' count)
    (region : Region space leaves upper ram.byte) (region' : Region space' leaves' upper ram'.byte)
    (root : space'.root = space.root) (low : va < TRAPFRAME) (inside : va / PGSIZE < count) :
    translation ram'.byte space.root va = translation ram.byte space.root va ∧
      Paging.contents ram'.byte space.root va = Paging.contents ram.byte space.root va := by
  have below : va < SV39 := by
    unfold TRAPFRAME TRAMPOLINE MAXVA PGSIZE at low
    unfold SV39
    omega
  have vacant : upper (va / PGSIZE) = none := by
    apply region.vacant
    unfold TRAPFRAME TRAMPOLINE MAXVA PGSIZE at *
    omega
  have map : translation ram.byte space.root va = leaves[va / PGSIZE]? := by
    rw [region.holds.map va below, region.map, userMap, vacant, or_none]
  have map' : translation ram'.byte space.root va = leaves[va / PGSIZE]? := by
    rw [← root, region'.holds.map va below, region'.map, userMap, vacant, or_none,
      shares.entries _ inside]
  refine ⟨map'.trans map.symm, ?_⟩
  rw [Paging.contents, Paging.contents, map', map]
  cases here : leaves[va / PGSIZE]? with
  | none => rfl
  | some entry =>
    have page : pgRoundDown (PTE2PA entry + va % PGSIZE) = PTE2PA entry := by
      rw [pgRoundDown_eq_iff (PTE2PA_aligned entry)]
      have small : va % PGSIZE < PGSIZE := Nat.mod_lt _ (by decide)
      omega
    rw [map_some, map_some, shares.bytes _ entry inside here _ page]

/-- Pages that are not worked on. -/
theorem Exchange.shares {mine mine' used : Multiset Nat} {count : Nat}
    (exchange : Exchange ram mine ram' mine')
    (allocated : Allocated image ram (mine + (frames (leaves.take count) + used)))
    (entries : ∀ index, index < count -> leaves'[index]? = leaves[index]?) :
    Shares ram leaves ram' leaves' count where
  entries := entries
  bytes := by
    intro index entry inside here x page
    apply exchange.kept allocated
    rw [page]
    have member : entry ∈ leaves.take count :=
      mem_of_getElem? ((List.getElem?_take_of_lt inside).trans here)
    exact Multiset.mem_add.mpr (Or.inl (mem_frames member))

/-! ## `growproc` -/

/-- What `growproc` leaves behind: user memory of the reported size, with the old pages
as far as there are any. -/
def Resized (image : Image) (ram : Ram) (space : Space) (leaves : List Nat)
    (upper : Nat -> Option Nat) (sz : Nat) (ram' : Ram) (sz' : Nat) : Prop :=
  ∃ space' leaves', space'.root = space.root ∧ UserSpace image ram' space' leaves' upper sz' ∧
    Shares ram leaves ram' leaves' (min (pages sz) (pages sz')) ∧
    (sz' = sz -> Shares ram leaves ram' leaves' (TRAPFRAME / PGSIZE))

/-- The sum as `growproc` computes it. -/
theorem growproc_sum (room : sz ≤ 32768 * PGSIZE) (low : -2 ^ 31 ≤ n) (high : n < 2 ^ 31)
    : ((uint32 sz + n) % (uints : Int)).toNat =
      if 0 ≤ sz + n then (sz + n).toNat else (sz + n + 2 ^ 32).toNat := by
  have small : uint32 sz = sz := by
    unfold uint32
    unfold PGSIZE at room
    omega
  rw [small]
  unfold uints
  unfold PGSIZE at room
  split <;> omega

theorem UserSpace.growproc (user : UserSpace image ram space leaves upper sz) (low : -2 ^ 31 ≤ n)
    (high : n < 2 ^ 31) {goal : Int × Nat -> Ram -> Prop}
    (done : ∀ ram' (sz' : Nat), (sz' : Int) = sz + n ->
      Resized image ram space leaves upper sz ram' sz' -> goal (0, sz') ram')
    (failed : ∀ ram', 0 < n -> Resized image ram space leaves upper sz ram' sz ->
      goal (-1, sz) ram') (ignored : sz + n < 0 -> goal (0, sz) ram) :
    Meets () stop (Paging.growproc image space.root sz n) goal ram := by
  have count := user.room
  have size := user.size
  have room : sz ≤ 32768 * PGSIZE := by
    unfold pages at size
    unfold PGSIZE at *
    omega
  have small : uint32 sz = sz := by
    unfold uint32
    unfold PGSIZE at room
    omega
  have owners : Allocated image ram (space.tables.val + (frames leaves + 0)) := by
    rw [add_zero]
    exact user.allocated
  rw [Paging.growproc]
  dsimp only
  rw [growproc_sum room low high, small]
  by_cases grow : 0 < n
  · rw [if_pos grow, if_pos (by omega), meets_do]
    refine user.region.uvmalloc owners size (by omega) ?_ ?_
    · intro space' new ram' grown more
      have exact_ : uint32 (sz + n).toNat = (sz + n).toNat := by
        unfold uint32
        unfold PGSIZE at room
        omega
      rw [exact_, if_neg (by omega)]
      refine done ram' _ (by omega) ⟨space', leaves ++ new, grown.root, ?_, ?_, ?_⟩
      · refine ⟨grown.region, ?_, ?_⟩
        · convert grown.exchange.allocated owners using 1
          rw [frames_append]
          abel
        · rw [length_append, more]
      · have all : min (pages sz) (pages (sz + n).toNat) = leaves.length := by omega
        rw [all]
        apply grown.exchange.shares (by rwa [take_length])
        intro index inside
        exact List.getElem?_append_left inside
      · intro same
        omega
    · intro space' ram' root region exchange
      have all : ∀ number, leaves.length ≤ number -> Shares ram leaves ram' leaves number := by
        intro number enough
        have owners' : Allocated image ram
            (space.tables.val + (frames (leaves.take number) + 0)) := by
          rwa [take_of_length_le enough]
        exact exchange.shares owners' fun _ _ => rfl
      refine failed ram' grow
        ⟨space', leaves, root, ⟨region, ?_, size⟩, all _ ?_, fun _ => all _ ?_⟩
      · have later := exchange.allocated owners
        rwa [add_zero] at later
      · omega
      · refine le_trans count ?_
        decide
  · have nothing : ∀ count, Shares ram leaves ram leaves count :=
      fun _ => ⟨fun _ _ => rfl, fun _ _ _ _ _ _ => rfl⟩
    rw [if_neg grow]
    by_cases shrink : n < 0
    · rw [if_pos shrink, meets_do]
      by_cases negative : sz + n < 0
      · -- The wrapped sum is above the old size.
        rw [if_neg (by omega), Paging.uvmdealloc, if_pos (by unfold PGSIZE at room; omega),
          meets_pure, meets_pure, small]
        exact ignored negative
      · rw [if_pos (by omega)]
        have fewer : pages (sz + n).toNat ≤ leaves.length := by
          rw [← size]
          exact pages_mono (by omega)
        generalize target : (sz + n).toNat = sz' at fewer ⊢
        have split := take_append_drop (pages sz') leaves
        have kept : pages sz' = (leaves.take (pages sz')).length := by
          rw [length_take, Nat.min_eq_left fewer]
        have parts : frames leaves =
            frames (leaves.take (pages sz')) + frames (leaves.drop (pages sz')) := by
          rw [← frames_append, split]
        have owners' : Allocated image ram (space.tables.val + frames (leaves.drop (pages sz')) +
            (frames (leaves.take (pages sz')) + 0)) := by
          convert owners using 1
          rw [parts]
          abel
        have whole : Region space (leaves.take (pages sz') ++ leaves.drop (pages sz')) upper
            ram.byte := by
          rw [split]
          exact user.region
        refine whole.uvmdealloc owners' (by rw [split]; exact count) (by rw [split]; exact size)
          kept (by omega) ?_
        intro ram' region exchange
        have exact_ : uint32 sz' = sz' := by
          unfold uint32
          unfold PGSIZE at room
          omega
        rw [exact_, meets_pure]
        refine done ram' sz' (by omega) ⟨_, leaves.take (pages sz'), ?_, ⟨region, ?_, kept⟩, ?_, ?_⟩
        · rfl
        · have later := exchange.allocated owners'
          rwa [add_zero] at later
        · have all : min (pages sz) (pages sz') = pages sz' := by omega
          rw [all]
          exact exchange.shares owners' fun index inside => List.getElem?_take_of_lt inside
        · intro same
          omega
    · rw [if_neg shrink, meets_pure]
      have zero : n = 0 := by omega
      exact done ram sz (by omega) ⟨space, leaves, rfl, user, nothing _, fun _ => nothing _⟩

/-! ## Exactness -/

/-- A resize is exact or has no effect: either the call returns 0, the size is the sum,
exactly the pages of the new size are mapped and the bytes below both sizes are as they
were; or it returns -1, and size, mappings and contents are as they were. -/
def ExactOrNone (root : Nat) (ram : Ram) (sz : Nat) (n : Int) (result : Int) (ram' : Ram)
    (sz' : Nat) : Prop :=
  (result = 0 ∧ (sz' : Int) = sz + n ∧ (forall va, va < TRAPFRAME ->
      ((translation ram'.byte root va).isSome = true <-> va < pgRoundUp sz')) ∧
    forall va, va < min sz sz' -> contents ram'.byte root va = contents ram.byte root va) ∨
  (result = -1 ∧ sz' = sz ∧ forall va, va < TRAPFRAME ->
    translation ram'.byte root va = translation ram.byte root va ∧
      contents ram'.byte root va = contents ram.byte root va)

theorem Resized.exact {sz' : Nat} (resized : Resized image ram space leaves upper sz ram' sz')
    (user : UserSpace image ram space leaves upper sz) (sum : (sz' : Int) = sz + n) :
    ExactOrNone space.root ram sz n 0 ram' sz' := by
  obtain ⟨space', leaves', root, user', shares, _⟩ := resized
  refine Or.inl ⟨rfl, sum, ?_, ?_⟩
  · intro va low
    rw [← root]
    exact user'.mapped_iff low
  · intro va small
    have count := user.room
    have size := user.size
    refine (shares.contents user.region user'.region root ?_ ?_).2
    · unfold pages at size
      unfold TRAPFRAME TRAMPOLINE MAXVA PGSIZE at *
      omega
    · unfold pages PGSIZE
      omega

theorem Resized.none (resized : Resized image ram space leaves upper sz ram' sz)
    (user : UserSpace image ram space leaves upper sz) :
    ExactOrNone space.root ram sz n (-1) ram' sz := by
  obtain ⟨space', leaves', root, user', _, shares⟩ := resized
  refine Or.inr ⟨rfl, rfl, ?_⟩
  intro va low
  refine (shares rfl).contents user.region user'.region root low ?_
  unfold TRAPFRAME TRAMPOLINE MAXVA PGSIZE at *
  omega

theorem growproc_returns (user : UserSpace image ram space leaves upper sz) (n : Int)
    (low : -2 ^ 31 ≤ n) (high : n < 2 ^ 31) :
    ∃ value ram', (growproc image space.root sz n).alone () ram = (some value, ram') ∧
      (∃ space' leaves', space'.root = space.root ∧
        UserSpace image ram' space' leaves' upper value.2) ∧
      (ExactOrNone space.root ram sz n value.1 ram' value.2 <-> 0 ≤ sz + n) := by
  apply Meets.returns
  refine user.growproc low high ?_ ?_ ?_
  · intro ram' sz' sum resized
    refine ⟨?_, fun _ => by omega, fun _ => resized.exact user sum⟩
    obtain ⟨space', leaves', root, user', _⟩ := resized
    exact ⟨space', leaves', root, user'⟩
  · intro ram' grow resized
    refine ⟨?_, fun _ => by omega, fun _ => resized.none user⟩
    obtain ⟨space', leaves', root, user', _⟩ := resized
    exact ⟨space', leaves', root, user'⟩
  · intro negative
    refine ⟨⟨space, leaves, rfl, user⟩, ?_, fun sum => by omega⟩
    rintro (⟨_, sum, _⟩ | ⟨impossible, _⟩)
    · exact absurd negative (by omega)
    · cases impossible

/-- `growproc` is exact or has no effect, unless the sum is below zero. -/
theorem growproc_exact_iff (user : UserSpace image ram space leaves upper sz) (n : Int)
    (low : -2 ^ 31 ≤ n) (high : n < 2 ^ 31) :
    ∃ result sz' ram',
      (growproc image space.root sz n).alone () ram = (some (result, sz'), ram') ∧
      (∃ space' leaves', space'.root = space.root ∧
        UserSpace image ram' space' leaves' upper sz') ∧
      (ExactOrNone space.root ram sz n result ram' sz' <-> 0 ≤ sz + n) := by
  obtain ⟨⟨result, sz'⟩, ram', returns⟩ := growproc_returns user n low high
  exact ⟨result, sz', ram', returns⟩

/-! ## A small process -/

/-- An empty page table behind a kernel of one page, and free pages behind it. -/
def startRam : Ram where
  byte := Bytes.zero
  freelist := (List.range 24).map fun index => KERNBASE + (index + 2) * PGSIZE
  panicked := none

def startSpace : Space where
  root := KERNBASE + PGSIZE
  tables := {KERNBASE + PGSIZE}
  map := fun _ => none

theorem startSpace_user : UserSpace onePageKernel startRam startSpace [] (fun _ => none) 0 where
  region := by
    refine ⟨⟨Tree.blank (fun _ => Bytes.word_zero) (by decide), ?_⟩, rfl, ?_, fun _ _ => rfl⟩
    · exact fun va _ => translation_blank (fun _ => Bytes.word_zero) va
    · exact fun entry member => (not_mem_nil member).elim
  allocated := ⟨by decide, by decide⟩
  size := rfl

/-- Memory when the process has grown to a size. -/
def grownRam (sz : Nat) : Ram :=
  ((growproc onePageKernel startSpace.root 0 sz).alone () startRam).2

theorem grownRam_user {sz : Nat} (small : sz < 2 ^ 31)
    (grown : ((growproc onePageKernel startSpace.root 0 sz).alone () startRam).1 =
      some (0, sz)) :
    ∃ space leaves, space.root = startSpace.root ∧
      UserSpace onePageKernel (grownRam sz) space leaves (fun _ => none) sz := by
  obtain ⟨value, ram', run, ⟨space, leaves, root, user⟩, _⟩ :=
    growproc_returns startSpace_user sz (by omega) (by omega)
  rw [run] at grown
  cases grown
  rw [grownRam, run]
  exact ⟨space, leaves, root, user⟩

/-- A process of one page grows by another. -/
theorem startSpace_grows : ∃ ram',
    (growproc onePageKernel (KERNBASE + PGSIZE) 4096 4096).alone () (grownRam 4096) =
      (some (0, 8192), ram') ∧
      ExactOrNone (KERNBASE + PGSIZE) (grownRam 4096) 4096 4096 0 ram' 8192 := by
  obtain ⟨space, leaves, root, user⟩ := @grownRam_user 4096 (by decide) (by decide +kernel)
  obtain ⟨result, sz', ram', run, _, exact_⟩ :=
    growproc_exact_iff user 4096 (by decide) (by decide)
  rw [root] at run exact_
  have grown : ((growproc onePageKernel startSpace.root 4096 4096).alone () (grownRam 4096)).1 =
      some (0, 8192) := by
    decide +kernel
  rw [run] at grown
  cases grown
  exact ⟨ram', run, exact_.mpr (by decide)⟩

/-- A process of one page shrinks by a byte more than it has: the call returns 0 and
changes nothing. -/
theorem startSpace_shrinks : ∃ space leaves, space.root = KERNBASE + PGSIZE ∧
    UserSpace onePageKernel (grownRam 4096) space leaves (fun _ => none) 4096 ∧
    (growproc onePageKernel (KERNBASE + PGSIZE) 4096 (-4097)).alone () (grownRam 4096) =
      (some (0, 4096), grownRam 4096) ∧
    ¬ ExactOrNone (KERNBASE + PGSIZE) (grownRam 4096) 4096 (-4097) 0 (grownRam 4096) 4096 := by
  obtain ⟨space, leaves, root, user⟩ := @grownRam_user 4096 (by decide) (by decide +kernel)
  refine ⟨space, leaves, root, user, rfl, ?_⟩
  rintro (⟨_, sum, _⟩ | ⟨impossible, _⟩)
  · exact absurd sum (by decide)
  · cases impossible

end Paging
end Xv6
