import Mathlib.Tactic.Abel
import Xv6.Paging.Ownership

namespace Xv6
namespace Paging

open Conc Function List Option

/-!
# User memory

A process's memory is a list of pages from address 0 on.  Above it, at the end of the
address space, are the pages that every process has.  `uvmalloc` appends pages to the
list and `uvmdealloc` removes pages from its end.
-/

/-- The map of a page table with the given entries for the first pages. -/
def userMap (leaves : List Nat) (upper : Nat -> Option Nat) : Nat -> Option Nat :=
  fun page => (leaves[page]?).or (upper page)

/-- The physical pages behind entries. -/
def frames (leaves : List Nat) : Multiset Nat := (leaves.map PTE2PA : List Nat)

/-- The number of pages for `sz` bytes. -/
def pages (sz : Nat) : Nat := (sz + (PGSIZE - 1)) / PGSIZE

/-- Memory holds a page table with user memory. -/
structure Region (space : Space) (leaves : List Nat) (upper : Nat -> Option Nat) (byte : Bytes) :
    Prop where
  holds : Holds space byte
  map : space.map = userMap leaves upper
  leaf : forall entry, entry ∈ leaves -> PTE_FLAGS entry ≠ PTE_V
  vacant : forall page, page < TRAPFRAME / PGSIZE -> upper page = none

variable {stop : Ram -> Prop} {image : Image} {ram ram' : Ram} {byte byte' : Bytes}
  {goal : Nat -> Ram -> Prop}
variable {used : Multiset Nat} {space space' : Space} {leaves tail : List Nat}
variable {upper : Nat -> Option Nat}

/-! ## Lists of entries -/

theorem userMap_inside {index : Nat} (inside : index < leaves.length) :
    userMap leaves upper index = some leaves[index] := by
  rw [userMap, List.getElem?_eq_getElem inside, some_or]

theorem userMap_beyond {page : Nat} (beyond : leaves.length ≤ page) :
    userMap leaves upper page = upper page := by
  rw [userMap, List.getElem?_eq_none beyond, none_or]

theorem userMap_concat (entry : Nat) : update (userMap leaves upper) leaves.length (some entry) =
      userMap (leaves ++ [entry]) upper := by
  funext page
  by_cases last : page = leaves.length
  · subst last
    rw [update_self, userMap, List.getElem?_concat_length, some_or]
  · rw [update_of_ne last, userMap, userMap]
    by_cases inside : page < leaves.length
    · rw [List.getElem?_append_left inside]
    · rw [List.getElem?_eq_none (by omega),
        List.getElem?_eq_none (by rw [length_append, length_singleton]; omega)]

theorem userMap_dropped
    (vacant : ∀ page, leaves.length ≤ page -> page < leaves.length + tail.length ->
      upper page = none) :
    unmapRange (userMap (leaves ++ tail) upper) leaves.length tail.length =
      userMap leaves upper := by
  funext page
  unfold unmapRange
  by_cases inside : leaves.length ≤ page ∧ page < leaves.length + tail.length
  · rw [if_pos inside, userMap_beyond inside.1, vacant page inside.1 inside.2]
  · rw [if_neg inside, userMap, userMap]
    by_cases first : page < leaves.length
    · rw [List.getElem?_append_left first]
    · rw [List.getElem?_eq_none (by rw [length_append]; omega),
        List.getElem?_eq_none (by omega)]

theorem card_frames : (frames leaves).card = leaves.length := by
  rw [frames, Multiset.coe_card, length_map]

theorem frames_append : frames (leaves ++ tail) = frames leaves + frames tail := by
  rw [frames, frames, frames, map_append, Multiset.coe_add]

theorem frames_nil : frames [] = 0 := rfl

theorem mem_frames {entry : Nat} (member : entry ∈ leaves) : PTE2PA entry ∈ frames leaves :=
  Multiset.mem_coe.mpr (mem_map_of_mem member)

/-- User memory ends far below the upper pages. -/
theorem Allocated.room (allocated : Allocated image ram (frames leaves + used)) :
    leaves.length ≤ 32768 := by
  have bound := allocated.left.card_le
  rw [card_frames] at bound
  exact bound

theorem pages_mul (count : Nat) : pages (count * PGSIZE) = count := by
  unfold pages PGSIZE
  omega

theorem pages_mono {sz sz' : Nat} (ordered : sz ≤ sz') : pages sz ≤ pages sz' :=
  Nat.div_le_div_right (by omega)

theorem pgRoundUp_eq {sz : Nat} (small : pages sz ≤ 32768) : pgRoundUp sz = pages sz * PGSIZE := by
  unfold pages PGSIZE at *
  unfold pgRoundUp Vm.pgRoundDown PGSIZE ulongs
  omega

/-! ## One page -/

theorem Region.kept (region : Region space leaves upper byte)
    (same : ∀ x, pgRoundDown x ∈ space.tables -> byte' x = byte x) :
    Region space leaves upper byte' :=
  ⟨region.holds.congr same, region.map, region.leaf, region.vacant⟩

theorem Region.exchange {mine mine' : Multiset Nat} (region : Region space leaves upper ram.byte)
    (exchange : Exchange ram mine ram' mine')
    (allocated : Allocated image ram (mine + (space.tables.val + used))) :
    Region space leaves upper ram'.byte :=
  region.kept fun _ member =>
    exchange.kept allocated (Multiset.mem_add.mpr (Or.inl (Finset.mem_val.mpr member)))

/-- A page is mapped, or there is no memory for a table. -/
theorem Holds.mapPage (holds : Holds space ram.byte)
    (allocated : Allocated image ram (space.tables.val + used)) {page pa perm : Nat}
    (low : page * PGSIZE + PGSIZE ≤ MAXVA) (inWord : pa < ulongs) (flags : perm < 1024)
    (free : space.map page = none) {goal : Int -> Ram -> Prop}
    (done : ∀ space' ram', space'.root = space.root -> Holds space' ram'.byte ->
      space'.map = update space.map page (some (PA2PTE pa ||| perm ||| PTE_V)) ->
      Exchange ram space.tables.val ram' space'.tables.val -> goal 0 ram')
    (failed : ∀ space' ram', space'.root = space.root -> Holds space' ram'.byte ->
      space'.map = space.map -> Exchange ram space.tables.val ram' space'.tables.val ->
      goal (-1) ram') :
    Meets () stop (Paging.mappages space.root (page * PGSIZE) PGSIZE pa perm) goal ram := by
  have first : page * PGSIZE / PGSIZE = page := Nat.mul_div_cancel _ (by decide)
  have last : (page * PGSIZE + PGSIZE - 1) / PGSIZE = page := by
    unfold PGSIZE
    omega
  have one : ∀ entry, mapRange space.map page 1 entry = update space.map page (some (entry 0)) := by
    intro entry
    rw [← mapRange_succ, mapRange_zero]
  refine holds.mappages allocated.sound flags inWord (by decide) low ?_ ?_ ?_
  · intro other above below
    rw [first] at above
    rw [last] at below
    have here : other = page := by omega
    rw [here]
    exact free
  · intro space' ram' takes map
    rw [first, last, Nat.sub_self, Nat.zero_add, one, pteFor_zero inWord] at map
    exact done space' ram' takes.root takes.holds map takes.exchange
  · intro space' ram' before takes inside map _ _
    rw [first, last, Nat.sub_self, Nat.le_zero] at inside
    rw [inside, mapRange_zero] at map
    exact failed space' ram' takes.root takes.holds map takes.exchange

/-- A page is mapped behind the last one. -/
theorem Region.push (region : Region space leaves upper ram.byte)
    (allocated : Allocated image ram (space.tables.val + used)) {mem perm : Nat}
    (room : leaves.length ≤ 32768) (freeable : Freeable image mem) (flags : perm < 1024)
    (leaf : perm ||| PTE_V ≠ PTE_V) {goal : Int -> Ram -> Prop}
    (done : ∀ space' ram', space'.root = space.root ->
      Region space' (leaves ++ [PA2PTE mem ||| perm ||| PTE_V]) upper ram'.byte ->
      Exchange ram space.tables.val ram' space'.tables.val -> goal 0 ram')
    (failed : ∀ space' ram', space'.root = space.root -> Region space' leaves upper ram'.byte ->
      Exchange ram space.tables.val ram' space'.tables.val -> goal (-1) ram') :
    Meets () stop (mappages space.root (leaves.length * PGSIZE) PGSIZE mem perm) goal ram := by
  have low : leaves.length * PGSIZE + PGSIZE ≤ MAXVA := by
    unfold MAXVA PGSIZE
    omega
  have free : space.map leaves.length = none := by
    rw [region.map, userMap_beyond (le_refl _)]
    apply region.vacant
    unfold TRAPFRAME TRAMPOLINE MAXVA PGSIZE
    omega
  refine region.holds.mapPage allocated low freeable.lt flags free ?_ ?_
  · intro space' ram' root holds map exchange
    rw [region.map, userMap_concat] at map
    refine done space' ram' root ⟨holds, map, ?_, region.vacant⟩ exchange
    intro entry member
    rcases mem_append.mp member with old | new
    · exact region.leaf entry old
    · rw [mem_singleton.mp new, entry_flags flags]
      exact leaf
  · intro space' ram' root holds map exchange
    exact failed space' ram' root ⟨holds, map.trans region.map, region.leaf, region.vacant⟩ exchange

/-! ## The end of user memory -/

/-- The last pages are unmapped and freed. -/
theorem Region.uvmunmap (region : Region space (leaves ++ tail) upper ram.byte)
    (allocated : Allocated image ram (space.tables.val + frames tail + used))
    (room : (leaves ++ tail).length ≤ 32768) {goal : Unit -> Ram -> Prop}
    (next : ∀ ram', Region { space with map := userMap leaves upper } leaves upper ram'.byte ->
      Exchange ram (space.tables.val + frames tail) ram' space.tables.val -> goal () ram') :
    Meets () stop (Paging.uvmunmap image space.root (leaves.length * PGSIZE) tail.length true)
      goal ram := by
  rw [length_append] at room
  have first : leaves.length * PGSIZE / PGSIZE = leaves.length := Nat.mul_div_cancel _ (by decide)
  have low : leaves.length * PGSIZE + tail.length * PGSIZE ≤ MAXVA := by
    unfold MAXVA PGSIZE
    omega
  have element : ∀ index (inside : index < tail.length), tail.getD index 0 = tail[index] := by
    intro index inside
    rw [getD_eq_getElem?_getD, List.getElem?_eq_getElem inside, getD_some]
  have entry : ∀ index, index < tail.length -> tail.getD index 0 ∈ tail := by
    intro index inside
    rw [element index inside]
    exact getElem_mem inside
  have pagesFreed : ((List.range tail.length).map fun index => PTE2PA (tail.getD index 0)) =
      tail.map PTE2PA := by
    apply ext_getElem
    · simp
    · intro index inside inside'
      have small : index < tail.length := by simpa using inside
      simp [small]
  have map : unmapRange space.map leaves.length tail.length = userMap leaves upper := by
    rw [region.map]
    apply userMap_dropped
    intro page _ below
    apply region.vacant
    unfold TRAPFRAME TRAMPOLINE MAXVA PGSIZE
    omega
  have mapped : ∀ index, index < tail.length ->
      space.map (leaves.length * PGSIZE / PGSIZE + index) = some (tail.getD index 0) := by
    intro index inside
    rw [first, region.map, userMap_inside (by rw [length_append]; omega),
      getElem_append_right (by omega), element index inside]
    simp
  refine region.holds.uvmunmap (Nat.mul_mod_left _ _) low mapped ?_ ?_ ?_
  · intro index inside
    exact region.leaf _ (mem_append.mpr (Or.inr (entry index inside)))
  · intro _ index inside
    have mine := mem_frames (entry index inside)
    refine ⟨allocated.mem_freeable
      (Multiset.mem_add.mpr (Or.inl (Multiset.mem_add.mpr (Or.inr mine)))), ?_⟩
    intro table
    rw [add_assoc] at allocated
    exact allocated.apart (Finset.mem_val.mpr table) (Multiset.mem_add.mpr (Or.inl mine))
  · intro ram' freed
    rw [first, map] at freed
    have exchange := freed.exchange
    rw [freedBy, if_pos rfl, Multiset.coe_reverse, pagesFreed] at exchange
    refine next ram' ⟨freed.holds, rfl, ?_, region.vacant⟩ exchange
    exact fun other member => region.leaf other (mem_append.mpr (Or.inl member))

theorem Region.renamed (region : Region space leaves upper byte) :
    Region { space with map := userMap leaves upper } leaves upper byte := by
  have same : { space with map := userMap leaves upper } = space := by
    rw [← region.map]
  rw [same]
  exact region

theorem ulong_int32 {n : Nat} (small : n ≤ 32768) : ulong (int32 (n : Int)) = n := by
  rw [int32_eq_self (by omega) (by omega), ulong, ulongs]
  omega

/-- `uvmdealloc` removes the pages that the smaller size does not need. -/
theorem Region.uvmdealloc (region : Region space (leaves ++ tail) upper ram.byte)
    (allocated : Allocated image ram (space.tables.val + frames tail + used))
    (room : (leaves ++ tail).length ≤ 32768) {oldsz newsz : Nat}
    (old : pages oldsz = (leaves ++ tail).length) (new : pages newsz = leaves.length)
    (ordered : newsz ≤ oldsz)
    (next : ∀ ram', Region { space with map := userMap leaves upper } leaves upper ram'.byte ->
      Exchange ram (space.tables.val + frames tail) ram' space.tables.val -> goal newsz ram') :
    Meets () stop (Paging.uvmdealloc image space.root oldsz newsz) goal ram := by
  have nothing : tail = [] -> goal newsz ram := by
    rintro rfl
    rw [append_nil] at region
    apply next ram region.renamed
    rw [frames_nil, add_zero]
    exact Exchange.refl ram _
  have lengths := @length_append Nat leaves tail
  have up : pgRoundUp oldsz = (leaves ++ tail).length * PGSIZE := by
    rw [pgRoundUp_eq (by omega), old]
  have down : pgRoundUp newsz = leaves.length * PGSIZE := by
    rw [pgRoundUp_eq (by omega), new]
  rw [Paging.uvmdealloc]
  by_cases same : oldsz ≤ newsz
  · have equal : oldsz = newsz := by omega
    rw [if_pos same, equal]
    apply nothing
    apply eq_nil_of_length_eq_zero
    rw [equal, new] at old
    omega
  · rw [if_neg same, up, down]
    by_cases some_ : leaves.length * PGSIZE < (leaves ++ tail).length * PGSIZE
    · rw [if_pos some_]
      have count : ((leaves ++ tail).length * PGSIZE - leaves.length * PGSIZE) / PGSIZE =
          tail.length := by
        rw [← Nat.sub_mul, Nat.mul_div_cancel _ (by decide)]
        omega
      rw [count, ulong_int32 (by omega), meets_do]
      refine region.uvmunmap allocated room ?_
      intro ram' region' exchange
      exact next ram' region' exchange
    · rw [if_neg some_]
      apply nothing
      apply eq_nil_of_length_eq_zero
      unfold PGSIZE at some_
      omega

/-! ## `uvmalloc` -/

/-- What user pages allow. -/
def userFlags : Nat := PTE_W ||| PTE_X ||| PTE_R ||| PTE_U

/-- Pages of zeros with all rights. -/
def Fresh (new : List Nat) (byte : Bytes) : Prop :=
  forall entry, entry ∈ new -> PTE_FLAGS entry = userFlags ||| PTE_V ∧
    forall x, pgRoundDown x = PTE2PA entry -> byte x = 0

/-- What the loop has done when it has appended the pages `new`. -/
structure Grown (space : Space) (leaves : List Nat) (upper : Nat -> Option Nat) (ram : Ram)
    (space' : Space) (new : List Nat) (ram' : Ram) : Prop where
  root : space'.root = space.root
  region : Region space' (leaves ++ new) upper ram'.byte
  exchange : Exchange ram space.tables.val ram' (space'.tables.val + frames new)
  fresh : Fresh new ram'.byte

variable {new : List Nat} {space'' : Space}
variable {after ready later : Ram} {mem perm : Nat}

theorem Grown.refl (region : Region space leaves upper ram.byte) :
    Grown space leaves upper ram space [] ram where
  root := rfl
  region := by rwa [append_nil]
  exchange := by
    rw [frames_nil, add_zero]
    exact Exchange.refl ram _
  fresh _ member := (not_mem_nil member).elim

theorem Fresh.exchange {mine mine' : Multiset Nat} (exchange : Exchange ram mine ram' mine')
    (allocated : Allocated image ram (mine + (frames new + used))) (fresh : Fresh new ram.byte) :
    Fresh new ram'.byte := by
  intro entry member
  refine ⟨(fresh entry member).1, fun x inside => ?_⟩
  have mine := inside ▸ mem_frames member
  rw [exchange.kept allocated (Multiset.mem_add.mpr (Or.inl mine)), (fresh entry member).2 x inside]

theorem frames_single (freeable : Freeable image mem) (flags : perm < 1024) :
    frames [PA2PTE mem ||| perm ||| PTE_V] = {mem} := by
  rw [frames, map_singleton, Multiset.coe_singleton, entry_pa flags freeable.lt,
    pgRoundDown_of_aligned freeable.1]

/-- A page was taken, filled and mapped. -/
theorem Grown.concat (grown : Grown space leaves upper ram space' new after)
    (owners : Allocated image after (space'.tables.val + frames new + used))
    (taken : Exchange after 0 ready {mem}) (freeable : Freeable image mem) (flags : perm < 1024)
    (fresh : Fresh (new ++ [PA2PTE mem ||| perm ||| PTE_V]) ready.byte)
    (root : space''.root = space'.root)
    (region : Region space'' (leaves ++ new ++ [PA2PTE mem ||| perm ||| PTE_V]) upper later.byte)
    (mapped : Exchange ready space'.tables.val later space''.tables.val) :
    Grown space leaves upper ram space'' (new ++ [PA2PTE mem ||| perm ||| PTE_V])
      later := by
  have all : frames (new ++ [PA2PTE mem ||| perm ||| PTE_V]) = frames new + {mem} := by
    rw [frames_append, frames_single freeable flags]
  have first : Allocated image after (0 + (space'.tables.val + frames new + used)) := by
    rw [zero_add]
    exact owners
  have second : Allocated image ready (space'.tables.val +
      (frames (new ++ [PA2PTE mem ||| perm ||| PTE_V]) + used)) := by
    convert taken.allocated first using 1
    rw [all]
    abel
  refine ⟨root.trans grown.root, ?_, ?_, fresh.exchange mapped second⟩
  · rwa [← append_assoc]
  · rw [all]
    have bought := taken.add (space'.tables.val + frames new)
    have written := mapped.add (frames new + {mem})
    rw [zero_add] at bought
    refine (grown.exchange.trans bought).trans ?_
    convert written using 1
    · abel

/-- A page was taken and given back because it could not be mapped. -/
theorem Grown.undone (grown : Grown space leaves upper ram space' new after)
    (owners : Allocated image after (space'.tables.val + frames new + used))
    (taken : Exchange after 0 ready {mem}) (aligned : mem % PGSIZE = 0)
    (root : space''.root = space'.root)
    (region : Region space'' (leaves ++ new) upper later.byte)
    (walked : Exchange ready space'.tables.val later space''.tables.val) :
    Grown space leaves upper ram space'' new (later.give mem) := by
  have first : Allocated image after (0 + (frames new + (space'.tables.val + used))) := by
    convert owners using 1
    abel
  have second : Allocated image ready (space'.tables.val + (frames new + ({mem} + used))) := by
    convert taken.allocated first using 1
    abel
  have third : Allocated image later ({mem} + (frames new + (space''.tables.val + used))) := by
    convert walked.allocated second using 1
    abel
  have given := @Exchange.give later mem aligned
  refine ⟨root.trans grown.root, ?_, ?_, ?_⟩
  · have others : Allocated image later ({mem} + (space''.tables.val + (frames new + used))) := by
      convert third using 1
      abel
    exact region.exchange given others
  · have bought := taken.add (space'.tables.val + frames new)
    have written := walked.add (frames new + {mem})
    have freed := given.add (space''.tables.val + frames new)
    rw [zero_add] at bought freed
    refine ((grown.exchange.trans bought).trans ?_).trans freed
    convert written using 1
    · abel
    · abel
  · exact ((grown.fresh.exchange taken first).exchange walked second).exchange given third

theorem Grown.room (grown : Grown space leaves upper ram space' new after)
    (allocated : Allocated image ram (space.tables.val + (frames leaves + used))) :
    (leaves ++ new).length ≤ 32768 := by
  have owners := grown.exchange.allocated allocated
  apply @Allocated.room image after (space'.tables.val + used)
  rw [frames_append]
  convert owners using 1
  abel

/-- A filled page is mapped; if that fails, it is freed and everything is undone. -/
theorem Grown.attach {β : Type} (grown : Grown space leaves upper ram space' new after)
    (allocated : Allocated image ram (space.tables.val + (frames leaves + used)))
    (taken : Exchange after 0 ready {mem}) (freeable : Freeable image mem) (flags : perm < 1024)
    (leaf : perm ||| PTE_V ≠ PTE_V)
    (fresh : Fresh (new ++ [PA2PTE mem ||| perm ||| PTE_V]) ready.byte) {undo : Routine β}
    {goal : Option Unit -> Ram -> Prop}
    (done : ∀ space'' entry ram',
      Grown space leaves upper ram space'' (new ++ [entry]) ram' -> goal none ram')
    (failed : ∀ space'' later, Grown space leaves upper ram space'' new later ->
      Meets () stop undo (fun _ ram' => goal (some ()) ram') later) :
    Meets () stop (do
      if (← mappages space.root ((leaves ++ new).length * PGSIZE) PGSIZE mem perm) ≠ 0 then do
        kfree image mem
        let _ ← undo
        pure (some ())
      else pure none) goal ready := by
  have owners := grown.exchange.allocated allocated
  have apart : Allocated image after (0 + (space'.tables.val +
      (frames new + (frames leaves + used)))) := by
    convert owners using 1
    abel
  have owners' : Allocated image ready (space'.tables.val +
      ({mem} + (frames new + (frames leaves + used)))) := by
    convert taken.allocated apart using 1
    abel
  have region := grown.region.exchange taken apart
  rw [meets_do, ← grown.root]
  refine region.push owners' (grown.room allocated) freeable flags leaf ?_ ?_
  · intro space'' later root mapped exchange
    rw [if_neg (not_not.mpr rfl)]
    exact done space'' _ later
      (grown.concat owners taken freeable flags fresh root mapped exchange)
  · intro space'' later root mapped exchange
    rw [if_pos (by decide), meets_do]
    refine meets_kfree freeable ?_
    rw [meets_do]
    exact failed space'' _ (grown.undone owners taken freeable.1 root mapped exchange)

theorem Fresh.concat (fresh : Fresh new byte) (freeable : Freeable image mem)
    (zero : ∀ x, pgRoundDown x = mem -> byte x = 0) :
    Fresh (new ++ [PA2PTE mem ||| userFlags ||| PTE_V]) byte := by
  have flags : userFlags < 1024 := by decide
  intro entry member
  rcases mem_append.mp member with old | last
  · exact fresh entry old
  · rw [mem_singleton.mp last, entry_flags flags, entry_pa flags freeable.lt,
      pgRoundDown_of_aligned freeable.1]
    exact ⟨rfl, zero⟩

/-- A page is taken and cleared. -/
theorem Exchange.clear (exchange : Exchange ram 0 ram' {mem}) (freeable : Freeable image mem) :
    Exchange ram 0 (ram'.setByte (ram'.byte.fill mem PGSIZE 0)) {mem} ∧
      ∀ x, pgRoundDown x = mem -> (ram'.setByte (ram'.byte.fill mem PGSIZE 0)).byte x = 0 := by
  constructor
  · exact exchange.trans (Exchange.write fun x away => fill_page freeable.1 away)
  · intro x inside
    exact if_pos ((pgRoundDown_eq_iff freeable.1).mp inside)

/-- The way back when memory runs out. -/
theorem Grown.rollback (grown : Grown space leaves upper ram space' new after)
    (allocated : Allocated image ram (space.tables.val + (frames leaves + used)))
    (failed : ∀ space' ram', space'.root = space.root -> Region space' leaves upper ram'.byte ->
      Exchange ram space.tables.val ram' space'.tables.val ->
      goal (leaves.length * PGSIZE) ram') :
    Meets () stop (Paging.uvmdealloc image space.root ((leaves ++ new).length * PGSIZE)
      (leaves.length * PGSIZE)) goal after := by
  rw [← grown.root]
  refine grown.region.uvmdealloc (grown.exchange.allocated allocated) (grown.room allocated)
    (pages_mul _) (pages_mul _) ?_ ?_
  · rw [length_append]
    exact Nat.mul_le_mul_right _ (Nat.le_add_right _ _)
  · intro ram' region exchange
    exact failed { space' with map := userMap leaves upper } ram' grown.root region
      (grown.exchange.trans exchange)

/-- One turn of the loop of `uvmalloc`. -/
theorem Grown.uvmallocAt (grown : Grown space leaves upper ram space' new after)
    (allocated : Allocated image ram (space.tables.val + (frames leaves + used)))
    {goal : Option Unit -> Ram -> Prop}
    (done : ∀ space'' entry ram',
      Grown space leaves upper ram space'' (new ++ [entry]) ram' -> goal none ram')
    (failed : ∀ space' ram', space'.root = space.root -> Region space' leaves upper ram'.byte ->
      Exchange ram space.tables.val ram' space'.tables.val -> goal (some ()) ram') :
    Meets () stop (Paging.uvmallocAt image space.root (leaves.length * PGSIZE)
      ((leaves ++ new).length * PGSIZE)) goal after := by
  have owners := grown.exchange.allocated allocated
  rw [Paging.uvmallocAt, meets_do]
  refine owners.kalloc ?_ ?_
  · intro _
    rw [meets_do]
    exact grown.rollback allocated failed
  · intro mem taken taking freeable
    obtain ⟨clear, zero⟩ := taking.clear freeable
    rw [meets_do, meets_memset]
    generalize taken.setByte (taken.byte.fill mem PGSIZE 0) = ready at clear zero ⊢
    have apart : Allocated image after (0 + (frames new +
        (space'.tables.val + (frames leaves + used)))) := by
      convert owners using 1
      abel
    have fresh := (grown.fresh.exchange clear apart).concat freeable zero
    exact grown.attach allocated clear freeable (by decide) (by decide) fresh done
      fun space'' later undone => undone.rollback allocated failed

/-- `uvmalloc` appends pages of zeros, or leaves user memory as it was. -/
theorem Region.uvmalloc (region : Region space leaves upper ram.byte)
    (allocated : Allocated image ram (space.tables.val + (frames leaves + used)))
    {oldsz newsz : Nat} (old : pages oldsz = leaves.length) (ordered : oldsz ≤ newsz)
    (done : ∀ space' new ram', Grown space leaves upper ram space' new ram' ->
      leaves.length + new.length = pages newsz -> goal newsz ram')
    (failed : ∀ space' ram', space'.root = space.root -> Region space' leaves upper ram'.byte ->
      Exchange ram space.tables.val ram' space'.tables.val -> goal 0 ram') :
    Meets () stop (Paging.uvmalloc image space.root oldsz newsz) goal ram := by
  have more : pages oldsz ≤ pages newsz := pages_mono ordered
  have room : leaves.length ≤ 32768 := by
    apply @Allocated.room image ram (space.tables.val + used)
    convert allocated using 1
    abel
  have up : pgRoundUp oldsz = leaves.length * PGSIZE := by
    rw [pgRoundUp_eq (by omega), old]
  have count : turns (leaves.length * PGSIZE) newsz = List.range (pages newsz - leaves.length) := by
    rw [turns, ← old]
    congr 1
    unfold pages PGSIZE
    omega
  rw [Paging.uvmalloc, if_neg (by omega), meets_do, up, count]
  refine meets_firstSome_range (fun index after => ∃ space' new, new.length = index ∧
    Grown space leaves upper ram space' new after) ?_ ?_ ?_
  · rintro index after inside ⟨space', new, rfl, grown⟩
    have position : leaves.length * PGSIZE + new.length * PGSIZE =
        (leaves ++ new).length * PGSIZE := by
      rw [length_append, Nat.add_mul]
    rw [position]
    refine grown.uvmallocAt allocated ?_ ?_
    · intro space'' entry ram' grown'
      refine Or.inr ⟨rfl, space'', new ++ [entry], ?_, grown'⟩
      rw [length_append, length_singleton]
    · intro space'' ram' root region' exchange
      exact Or.inl ⟨(), rfl, failed space'' ram' root region' exchange⟩
  · exact ⟨space, [], rfl, Grown.refl region⟩
  · rintro after ⟨space', new, length, grown⟩
    exact done space' new after grown (by omega)

end Paging
end Xv6
