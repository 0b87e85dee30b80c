import Xv6.Paging.Mapping

namespace Xv6
namespace Paging

open Conc Option Multiset

/-!
# The three-level page table implements a map

`walk`, `mappages` and `uvmunmap` as operations on the translations of a page
table, from any memory that holds one, whenever an allocation fails.
-/

/-- The page table at `root` is a tree of different pages, none of which is free. -/
def PageTable (image : Image) (ram : Ram) (root : Nat) : Prop :=
  ∃ tables, Tree ram.byte root tables ∧ Sound image ram tables.val

variable {image : Image} {ram : Ram} {root : Nat}

/-! ## `walk` -/

/-- What a walk ends with. -/
structure Walked (image : Image) (root va : Nat) (alloc : Bool) (ram : Ram) (slot : Option Nat)
    (ram' : Ram) : Prop where
  table : PageTable image ram' root
  same : forall other, translation ram'.byte root other = translation ram.byte root other
  paths : forall other table, tableOf ram.byte root other = some table ->
    tableOf ram'.byte root other = some table
  idle : alloc = false ∨ ram.freelist = [] -> ram' = ram
  slot_eq : slot = (tableOf ram'.byte root va).map (· + 8 * PX 0 va)
  missing : slot = none -> alloc = false ∨ ram'.freelist = []

theorem PageTable.walked (table : PageTable image ram root) (alloc : Bool) {va : Nat}
    (low : va < MAXVA) : ∃ slot ram', (walk root va alloc).alone () ram = (some slot, ram') ∧
      Walked image root va alloc ram slot ram' := by
  obtain ⟨tables, tree, sound⟩ := table
  apply Meets.returns
  cases alloc with
  | false =>
    refine meets_walk low ⟨⟨tables, tree, sound⟩, fun _ => rfl, fun _ _ here => here,
      fun _ => rfl, rfl, fun _ => Or.inl rfl⟩
  | true =>
    have owners : Sound image ram (tables.val + 0) := by rwa [add_zero]
    have after : ∀ tables' ram', Extends root tables ram tables' ram' ->
        PageTable image ram' root := by
      intro tables' ram' extends_
      have later := extends_.sound owners
      rw [add_zero] at later
      exact ⟨tables', extends_.tree, later⟩
    refine tree.walk owners low ?_ ?_
    · intro tables' ram' extends_ empty absent
      refine ⟨after tables' ram' extends_, extends_.same, ?_, ?_, ?_, fun _ => Or.inr empty⟩
      · exact fun other table => extends_.paths _ table (le_of_eq (length_pathFrom other 2))
      · exact fun cannot => extends_.idle (cannot.resolve_left (by decide))
      · rw [absent, map_none]
    · intro tables' ram' last extends_ here
      refine ⟨after tables' ram' extends_, extends_.same, ?_, ?_, ?_, ?_⟩
      · exact fun other table => extends_.paths _ table (le_of_eq (length_pathFrom other 2))
      · exact fun cannot => extends_.idle (cannot.resolve_left (by decide))
      · rw [here, map_some]
      · intro absent
        cases absent

/-- Entries of different pages are different, and a page has one entry. -/
theorem PageTable.slots (table : PageTable image ram root) (alloc : Bool) {va va' : Nat}
    (low : va < MAXVA) (low' : va' < MAXVA) : ∃ slot ram' slot' ram'',
      (walk root va alloc).alone () ram = (some slot, ram') ∧
      (walk root va' alloc).alone () ram' = (some slot', ram'') ∧
      PageTable image ram'' root ∧
      (∀ other, translation ram''.byte root other = translation ram.byte root other) ∧
      (va / PGSIZE = va' / PGSIZE -> slot' = slot) ∧
      (∀ pte, slot = some pte -> slot' = some pte -> va / PGSIZE = va' / PGSIZE) := by
  obtain ⟨slot, ram', run, first⟩ := table.walked alloc low
  obtain ⟨slot', ram'', run', second⟩ := first.table.walked alloc low'
  refine ⟨slot, ram', slot', ram'', run, run', second.table, ?_, ?_, ?_⟩
  · exact fun other => (second.same other).trans (first.same other)
  · intro page
    have way : tableOf ram''.byte root va' = tableOf ram''.byte root va := by
      rw [tableOf, tableOf, pathFrom_congr page]
    have last : PX 0 va' = PX 0 va := congrArg Fin.val (index_congr page 0).symm
    cases here : tableOf ram'.byte root va with
    | some found =>
      rw [second.slot_eq, first.slot_eq, way, second.paths va found here, here, last]
    | none =>
      have absent : slot = none := by rw [first.slot_eq, here, map_none]
      -- The second walk has no page for the table either.
      have idle := second.idle (first.missing absent)
      rw [absent, second.slot_eq, way, idle, here, map_none]
  · intro pte found found'
    rw [first.slot_eq] at found
    rw [second.slot_eq] at found'
    obtain ⟨last, here, sum⟩ := map_eq_some_iff.mp found
    obtain ⟨last', here', sum'⟩ := map_eq_some_iff.mp found'
    have there := second.paths va last here
    obtain ⟨tables, tree, _⟩ := second.table
    have aligned := tree.mem_aligned (tree.table_mem there)
    have aligned' := tree.mem_aligned (tree.table_mem here')
    have small := PX_lt 0 va
    have small' := PX_lt 0 va'
    unfold PGSIZE at aligned aligned'
    have equal : last = last' := by omega
    subst equal
    exact tree.slot_injective (lt_sv39 low) (lt_sv39 low') there here'
      (Fin.ext (show PX 0 va = PX 0 va' by omega))

/-! ## `mappages` -/

/-- An entry for the page that is `distance` bytes behind the page at `pa`. -/
def Entry (pa perm distance entry : Nat) : Prop :=
  PTE2PA entry = (pa + distance) % ulongs ∧ PTE_FLAGS entry = perm ||| PTE_V

/-- The pages from the one of `low` up to `limit` are mapped to consecutive
physical pages, and the other translations are as before. -/
def Maps (root pa perm low limit : Nat) (ram ram' : Ram) : Prop :=
  forall va, va < MAXVA ->
    if pgRoundDown low ≤ va ∧ va < limit then
      ∃ entry, translation ram'.byte root va = some entry ∧
        Entry pa perm (pgRoundDown va - pgRoundDown low) entry
    else translation ram'.byte root va = translation ram.byte root va

theorem pteFor_entry {pa perm : Nat} (flags : perm < 1024) (aligned : pa % PGSIZE = 0)
    (index : Nat) : Entry pa perm (index * PGSIZE) (pteFor pa perm index) := by
  have inWord : (pa + index * PGSIZE) % ulongs < 2 ^ 64 := Nat.mod_lt _ (by decide)
  refine ⟨?_, entry_flags flags⟩
  rw [pteFor, entry_pa flags inWord, pgRoundDown_of_aligned]
  unfold ulongs
  unfold PGSIZE at *
  omega

/-- The map that a page table stands for. -/
def Space.of (byte : Bytes) (root : Nat) (tables : Finset Nat) : Space :=
  ⟨root, tables, fun page => translation byte root (page * PGSIZE)⟩

theorem Tree.holds {tables : Finset Nat} (tree : Tree ram.byte root tables) :
    Holds (Space.of ram.byte root tables) ram.byte where
  tree := tree
  map := by
    intro va _
    apply translation_congr
    exact (Nat.mul_div_cancel _ (by decide)).symm

theorem in_range_iff {low count va : Nat} :
    low / PGSIZE ≤ va / PGSIZE ∧ va / PGSIZE < low / PGSIZE + count <->
      pgRoundDown low ≤ va ∧ va < pgRoundDown low + count * PGSIZE := by
  unfold Vm.pgRoundDown PGSIZE
  omega

theorem maps_of_range {tables : Finset Nat} {space' : Space} {ram' : Ram} {pa perm low count : Nat}
    (flags : perm < 1024) (aligned : pa % PGSIZE = 0)
    (takes : Takes (Space.of ram.byte root tables) ram space' ram')
    (result : space'.map = mapRange (Space.of ram.byte root tables).map (low / PGSIZE) count
      (pteFor pa perm)) :
    Maps root pa perm low (pgRoundDown low + count * PGSIZE) ram ram' := by
  intro va below
  have root_eq : space'.root = root := takes.root
  have translated := takes.holds.map va (lt_sv39 below)
  rw [root_eq, result, mapRange] at translated
  by_cases inside : low / PGSIZE ≤ va / PGSIZE ∧ va / PGSIZE < low / PGSIZE + count
  · rw [if_pos inside] at translated
    rw [if_pos (in_range_iff.mp inside)]
    refine ⟨_, translated, ?_⟩
    have distance : pgRoundDown va - pgRoundDown low = (va / PGSIZE - low / PGSIZE) * PGSIZE :=
      (Nat.sub_mul _ _ _).symm
    rw [distance]
    exact pteFor_entry flags aligned _
  · rw [if_neg inside] at translated
    rw [if_neg (fun range => inside (in_range_iff.mpr range)), translated]
    apply translation_congr
    exact Nat.mul_div_cancel _ (by decide)

/-- The two ways in which `mappages` ends. -/
theorem PageTable.mappages (table : PageTable image ram root) {va size pa perm : Nat}
    (positive : 0 < size) (low : va + size ≤ MAXVA) (inWord : pa < ulongs)
    (aligned : pa % PGSIZE = 0) (flags : perm < 1024)
    (unmapped : ∀ other, pgRoundDown va ≤ other ->
      other < pgRoundDown (va + size - 1) + PGSIZE -> translation ram.byte root other = none) :
    ∃ result ram', (mappages root va size pa perm).alone () ram = (some result, ram') ∧
      PageTable image ram' root ∧
      ((result = 0 ∧ Maps root pa perm va (pgRoundDown (va + size - 1) + PGSIZE) ram ram') ∨
        (result = -1 ∧ ∃ stuck, stuck % PGSIZE = 0 ∧ pgRoundDown va ≤ stuck ∧
          stuck ≤ pgRoundDown (va + size - 1) ∧ ram'.freelist = [] ∧
          tableOf ram'.byte root stuck = none ∧ Maps root pa perm va stuck ram ram')) := by
  obtain ⟨tables, tree, sound⟩ := table
  have owners : Sound image ram ((Space.of ram.byte root tables).tables.val + 0) := by
    rwa [add_zero]
  have after : ∀ space' ram', Takes (Space.of ram.byte root tables) ram space' ram' ->
      PageTable image ram' root := by
    intro space' ram' takes
    have later := takes.sound owners
    have root_eq : space'.root = root := takes.root
    rw [add_zero] at later
    exact ⟨space'.tables, root_eq ▸ takes.holds.tree, later⟩
  have ordered : va / PGSIZE ≤ (va + size - 1) / PGSIZE := Nat.div_le_div_right (by omega)
  have span : pgRoundDown va + ((va + size - 1) / PGSIZE - va / PGSIZE) * PGSIZE =
      pgRoundDown (va + size - 1) := by
    rw [Vm.pgRoundDown, Vm.pgRoundDown, ← Nat.add_mul, Nat.add_sub_cancel' ordered]
  apply Meets.returns
  refine tree.holds.mappages owners flags inWord positive low ?_ ?_ ?_
  · intro page first last
    apply unmapped
    · exact Nat.mul_le_mul_right _ first
    · exact lt_of_le_of_lt (Nat.mul_le_mul_right _ last) (Nat.lt_add_of_pos_right (by decide))
  · intro space' ram' takes result
    refine ⟨after space' ram' takes, Or.inl ⟨rfl, ?_⟩⟩
    have maps := maps_of_range flags aligned takes result
    rwa [Nat.succ_mul, ← Nat.add_assoc, span] at maps
  · intro space' ram' before takes inside result empty missing
    refine ⟨after space' ram' takes, Or.inr ⟨rfl, pgRoundDown va + before * PGSIZE, ?_, ?_, ?_,
      empty, missing, maps_of_range flags aligned takes result⟩⟩
    · rw [Nat.add_mul_mod_self_right]
      exact pgRoundDown_aligned va
    · exact Nat.le_add_right _ _
    · rw [← span]
      exact Nat.add_le_add_left (Nat.mul_le_mul_right _ inside) _

/-! ## `uvmunmap` -/

/-- The page table at `root` and the pages listed belong to one owner. -/
def Owns (image : Image) (ram : Ram) (root : Nat) (pages : List Nat) : Prop :=
  (∃ tables, Tree ram.byte root tables ∧ Sound image ram (tables.val + pages)) ∧
    forall page, page ∈ pages -> Freeable image page

/-- The physical pages behind `count` pages from `va` on. -/
def physical (byte : Bytes) (root va count : Nat) : List Nat :=
  (List.range count).map fun index => PTE2PA ((translation byte root (va + index * PGSIZE)).getD 0)

/-- `uvmunmap` removes a range of translations. -/
theorem PageTable.uvmunmap {va npages : Nat} {do_free : Bool}
    (owns : Owns image ram root (freedBy do_free (physical ram.byte root va npages)))
    (aligned : va % PGSIZE = 0) (low : va + npages * PGSIZE ≤ MAXVA)
    (mapped : ∀ other, va ≤ other -> other < va + npages * PGSIZE ->
      ∃ entry, translation ram.byte root other = some entry ∧
        entry &&& (PTE_R ||| PTE_W ||| PTE_X) ≠ 0) :
    ∃ ram', (Paging.uvmunmap image root va npages do_free).alone () ram = (some (), ram') ∧
      PageTable image ram' root ∧
      ∀ other, other < MAXVA -> translation ram'.byte root other =
        if va ≤ other ∧ other < va + npages * PGSIZE then none
        else translation ram.byte root other := by
  obtain ⟨⟨tables, tree, sound⟩, freeable⟩ := owns
  have page_eq : ∀ index, (va / PGSIZE + index) * PGSIZE = va + index * PGSIZE := by
    intro index
    rw [Nat.add_mul, Nat.div_mul_cancel (Nat.dvd_of_mod_eq_zero aligned)]
  have inside : ∀ index, index < npages -> va + index * PGSIZE < va + npages * PGSIZE :=
    fun index small => Nat.add_lt_add_left (Nat.mul_lt_mul_of_pos_right small (by decide)) va
  have found : ∀ index, index < npages -> ∃ entry,
      translation ram.byte root (va + index * PGSIZE) = some entry ∧
        entry &&& (PTE_R ||| PTE_W ||| PTE_X) ≠ 0 :=
    fun index small => mapped _ (Nat.le_add_right _ _) (inside index small)
  have listed : do_free = true -> ∀ index, index < npages ->
      PTE2PA ((translation ram.byte root (va + index * PGSIZE)).getD 0) ∈
        freedBy do_free (physical ram.byte root va npages) := by
    rintro rfl index small
    exact List.mem_map.mpr ⟨index, List.mem_range.mpr small, rfl⟩
  have reversed : (freedBy do_free (physical ram.byte root va npages).reverse : Multiset Nat) =
      (freedBy do_free (physical ram.byte root va npages) : Multiset Nat) := by
    cases do_free
    · rfl
    · exact coe_reverse _
  have present : ∀ index, index < npages ->
      (Space.of ram.byte root tables).map (va / PGSIZE + index) =
        some ((translation ram.byte root (va + index * PGSIZE)).getD 0) := by
    intro index small
    obtain ⟨entry, here, _⟩ := found index small
    change translation ram.byte root ((va / PGSIZE + index) * PGSIZE) = _
    rw [page_eq, here, getD_some]
  have owners : Sound image ram ((Space.of ram.byte root tables).tables.val +
      ((freedBy do_free (physical ram.byte root va npages).reverse : Multiset Nat) + 0)) := by
    rw [add_zero, reversed]
    exact sound
  have returns : Meets () (fun _ => False) (Paging.uvmunmap image root va npages do_free)
      (fun _ ram' => PageTable image ram' root ∧
        ∀ other, other < MAXVA -> translation ram'.byte root other =
          if va ≤ other ∧ other < va + npages * PGSIZE then none
          else translation ram.byte root other) ram := by
    refine tree.holds.uvmunmap aligned low present ?_ ?_ ?_
    · intro index small only
      obtain ⟨entry, here, rights⟩ := found index small
      rw [here, getD_some] at only
      rw [and_flags (by decide), only] at rights
      exact rights rfl
    · intro frees index small
      have member := listed frees index small
      refine ⟨freeable _ member, fun table => ?_⟩
      have apart := (nodup_add.mp (nodup_add.mp sound.once).2.1).2.2
      exact disjoint_left.mp apart table member
    · intro ram' frees
      constructor
      · have later := Frees.sound frees owners (by
          intro page member
          apply freeable
          rw [← mem_coe] at member ⊢
          rwa [← reversed])
        rw [add_zero] at later
        exact ⟨tables, frees.holds.tree, later⟩
      · intro other below
        have translated := frees.holds.map other (lt_sv39 below)
        have here : pgRoundDown va = va := pgRoundDown_of_aligned aligned
        have range := @in_range_iff va npages other
        rw [here] at range
        refine translated.trans ?_
        change unmapRange _ _ _ _ = _
        rw [unmapRange]
        by_cases removed : va ≤ other ∧ other < va + npages * PGSIZE
        · rw [if_pos (range.mpr removed), if_pos removed]
        · rw [if_neg (fun pages => removed (range.mp pages)), if_neg removed]
          apply translation_congr
          exact Nat.mul_div_cancel _ (by decide)
  obtain ⟨_, ram', run, result⟩ := returns.returns
  exact ⟨ram', run, result⟩

/-! ## The whole -/

/-- For every page table that is a tree of different pages: `walk` finds one entry
for each page and, with `alloc`, changes no translation; `mappages` maps exactly the
pages of its range, or those in front of the page for which there was no memory for
a table; `uvmunmap` removes exactly the translations of its range.  The result is
such a page table again. -/
theorem page_table_implements_map (table : PageTable image ram root) :
    (forall (alloc : Bool) (va va' : Nat), va < MAXVA -> va' < MAXVA ->
      ∃ slot ram' slot' ram'', (walk root va alloc).alone () ram = (some slot, ram') ∧
        (walk root va' alloc).alone () ram' = (some slot', ram'') ∧
        PageTable image ram'' root ∧
        (forall other, translation ram''.byte root other = translation ram.byte root other) ∧
        (va / PGSIZE = va' / PGSIZE -> slot' = slot) ∧
        (forall pte, slot = some pte -> slot' = some pte -> va / PGSIZE = va' / PGSIZE)) ∧
    (forall va size pa perm : Nat, 0 < size -> va + size ≤ MAXVA -> pa < ulongs ->
      pa % PGSIZE = 0 -> perm < 1024 ->
      (forall other, pgRoundDown va ≤ other -> other < pgRoundDown (va + size - 1) + PGSIZE ->
        translation ram.byte root other = none) ->
      ∃ result ram', (mappages root va size pa perm).alone () ram = (some result, ram') ∧
        PageTable image ram' root ∧
        ((result = 0 ∧ Maps root pa perm va (pgRoundDown (va + size - 1) + PGSIZE) ram ram') ∨
          (result = -1 ∧ ∃ stuck, stuck % PGSIZE = 0 ∧ pgRoundDown va ≤ stuck ∧
            stuck ≤ pgRoundDown (va + size - 1) ∧ ram'.freelist = [] ∧
            tableOf ram'.byte root stuck = none ∧ Maps root pa perm va stuck ram ram'))) ∧
    (forall (va npages : Nat) (do_free : Bool), va % PGSIZE = 0 ->
      va + npages * PGSIZE ≤ MAXVA ->
      Owns image ram root (freedBy do_free (physical ram.byte root va npages)) ->
      (forall other, va ≤ other -> other < va + npages * PGSIZE ->
        ∃ entry, translation ram.byte root other = some entry ∧
          entry &&& (PTE_R ||| PTE_W ||| PTE_X) ≠ 0) ->
      ∃ ram', (uvmunmap image root va npages do_free).alone () ram = (some (), ram') ∧
        PageTable image ram' root ∧
        forall other, other < MAXVA -> translation ram'.byte root other =
          if va ≤ other ∧ other < va + npages * PGSIZE then none
          else translation ram.byte root other) := by
  refine ⟨?_, ?_, ?_⟩
  · intro alloc va va' low low'
    exact table.slots alloc low low'
  · intro va size pa perm positive low inWord aligned flags unmapped
    exact table.mappages positive low inWord aligned flags unmapped
  · intro va npages do_free aligned low owns mapped
    exact PageTable.uvmunmap owns aligned low mapped

/-! ## A page table to start with -/

/-- A kernel of one page. -/
def onePageKernel : Image where
  kend := KERNBASE + PGSIZE
  inRam := by decide
  based := by decide

/-- An empty page table behind it, and two free pages. -/
def emptyTable : Ram where
  byte := Bytes.zero
  freelist := [KERNBASE + 2 * PGSIZE, KERNBASE + 3 * PGSIZE]
  panicked := none

theorem emptyTable_pageTable : PageTable onePageKernel emptyTable (KERNBASE + PGSIZE) := by
  refine ⟨{KERNBASE + PGSIZE}, Tree.blank ?_ (by decide), ?_, ?_⟩
  · intro e
    exact Bytes.word_zero
  · decide
  · decide

/-- The page of the kernel is mapped at address 0. -/
theorem kernelPage_mapped {result : Int} {ram' : Ram}
    (run : (mappages (KERNBASE + PGSIZE) 0 PGSIZE KERNBASE (PTE_R ||| PTE_X)).alone () emptyTable =
      (some result, ram')) : result = 0 := by
  have value : ((mappages (KERNBASE + PGSIZE) 0 PGSIZE KERNBASE (PTE_R ||| PTE_X)).alone ()
      emptyTable).1 = some 0 := by
    decide +kernel
  rw [run] at value
  exact some.inj value

theorem Maps.kernelPage {ram' : Ram} (maps : Maps (KERNBASE + PGSIZE) KERNBASE (PTE_R ||| PTE_X) 0
      (pgRoundDown (0 + PGSIZE - 1) + PGSIZE) emptyTable ram') {other : Nat}
    (small : other < PGSIZE) :
    ∃ entry, translation ram'.byte (KERNBASE + PGSIZE) other = some entry ∧
      PTE2PA entry = KERNBASE ∧ entry &&& (PTE_R ||| PTE_W ||| PTE_X) ≠ 0 := by
  have here := maps other (lt_trans small (by decide))
  rw [if_pos ⟨Nat.zero_le _, small⟩] at here
  obtain ⟨entry, translated, address, flags⟩ := here
  refine ⟨entry, translated, address.trans ?_, ?_⟩
  · rw [Vm.pgRoundDown, Nat.div_eq_of_lt small]
    decide
  · rw [and_flags (by decide), flags]
    decide

/-- The page is mapped and unmapped again. -/
theorem emptyTable_maps_unmaps : ∃ mapped unmapped,
    (mappages (KERNBASE + PGSIZE) 0 PGSIZE KERNBASE (PTE_R ||| PTE_X)).alone () emptyTable =
      (some 0, mapped) ∧
    (∃ entry, translation mapped.byte (KERNBASE + PGSIZE) 0 = some entry ∧
      PTE2PA entry = KERNBASE) ∧
    (uvmunmap onePageKernel (KERNBASE + PGSIZE) 0 1 false).alone () mapped =
      (some (), unmapped) ∧
    translation unmapped.byte (KERNBASE + PGSIZE) 0 = none := by
  obtain ⟨result, mapped, run, table, ends⟩ :=
    (page_table_implements_map emptyTable_pageTable).2.1 0 PGSIZE KERNBASE (PTE_R ||| PTE_X)
      (by decide) (by decide) (by decide) (by decide) (by decide)
      (fun other _ _ => translation_blank (fun _ => Bytes.word_zero) other)
  cases kernelPage_mapped run
  have maps := (ends.resolve_right (fun minus => absurd minus.1 (by decide))).2
  obtain ⟨tables, tree, sound⟩ := table
  have owns : Owns onePageKernel mapped (KERNBASE + PGSIZE)
      (freedBy false (physical mapped.byte (KERNBASE + PGSIZE) 0 1)) := by
    refine ⟨⟨tables, tree, ?_⟩, fun _ none => absurd none List.not_mem_nil⟩
    exact (add_zero tables.val).symm ▸ sound
  obtain ⟨unmapped, unmaps, _, gone⟩ := (page_table_implements_map ⟨tables, tree, sound⟩).2.2 0 1
    false (by decide) (by decide) owns (by
      intro other _ small
      obtain ⟨entry, here, _, rights⟩ := maps.kernelPage (by simpa using small)
      exact ⟨entry, here, rights⟩)
  obtain ⟨entry, here, address, _⟩ := maps.kernelPage (show 0 < PGSIZE by decide)
  refine ⟨mapped, unmapped, run, ⟨entry, here, address⟩, unmaps, ?_⟩
  exact (gone 0 (by decide)).trans (if_pos ⟨le_refl 0, by decide⟩)

/-- Unmapping it with `do_free` panics, since it is not an allocated page. -/
theorem uvmunmap_frees_kernel : ∃ mapped, PageTable onePageKernel mapped (KERNBASE + PGSIZE) ∧
    (forall other, other < PGSIZE -> ∃ entry,
      translation mapped.byte (KERNBASE + PGSIZE) other = some entry ∧
        entry &&& (PTE_R ||| PTE_W ||| PTE_X) ≠ 0) ∧
    ((uvmunmap onePageKernel (KERNBASE + PGSIZE) 0 1 true).alone () mapped).1 = none ∧
    ((uvmunmap onePageKernel (KERNBASE + PGSIZE) 0 1 true).alone () mapped).2.panicked =
      some .kfree := by
  obtain ⟨result, mapped, run, table, ends⟩ := @PageTable.mappages onePageKernel _ _
    emptyTable_pageTable 0 PGSIZE KERNBASE (PTE_R ||| PTE_X) (by decide) (by decide) (by decide)
    (by decide) (by decide) (fun other _ _ => translation_blank (fun _ => Bytes.word_zero) other)
  cases kernelPage_mapped run
  have maps := (ends.resolve_right (fun minus => absurd minus.1 (by decide))).2
  have same : mapped = ((mappages (KERNBASE + PGSIZE) 0 PGSIZE KERNBASE
      (PTE_R ||| PTE_X)).alone () emptyTable).2 := by rw [run]
  refine ⟨mapped, table, ?_, ?_, ?_⟩
  · intro other small
    obtain ⟨entry, here, _, rights⟩ := maps.kernelPage small
    exact ⟨entry, here, rights⟩
  · rw [same]
    decide +kernel
  · rw [same]
    decide +kernel

end Paging
end Xv6
