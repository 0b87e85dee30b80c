import Xv6.Paging.Walk

namespace Xv6
namespace Paging

open Conc Function List

/-!
# Page tables as maps

A page table stands for a partial function from virtual page numbers to entries.
`mappages` and `uvmunmap` change this function at a range of pages and nowhere
else.
-/

/-- What a page table means: its pages and the entries of the mapped pages. -/
structure Space where
  root : Nat
  tables : Finset Nat
  map : Nat -> Option Nat

def Space.set (space : Space) (page : Nat) (entry : Option Nat) : Space :=
  { space with map := Function.update space.map page entry }

/-- Memory holds the page table. -/
structure Holds (space : Space) (byte : Bytes) : Prop where
  tree : Tree byte space.root space.tables
  map : forall va, va < SV39 -> translation byte space.root va = space.map (va / PGSIZE)

variable {stop : Ram -> Prop} {image : Image} {ram ram' ram'' : Ram}
variable {space space' space'' : Space} {used : Multiset Nat}

theorem Holds.congr {byte byte' : Bytes} (holds : Holds space byte)
    (same : ∀ x, pgRoundDown x ∈ space.tables -> byte' x = byte x) : Holds space byte' where
  tree := holds.tree.congr same
  map := fun va low => (holds.tree.translation_eq same va).trans (holds.map va low)

/-- A mapped page has an entry in a table. -/
theorem Holds.found {byte : Bytes} (holds : Holds space byte) {va entry : Nat} (low : va < SV39)
    (mapped : space.map (va / PGSIZE) = some entry) : ∃ table,
    tableOf byte space.root va = some table ∧ entries byte table (index 0 va) = entry ∧
      entry &&& PTE_V ≠ 0 :=
  translation_eq_some_iff.mp ((holds.map va low).trans mapped)

/-- An entry of the last level is written. -/
theorem Holds.setLeaf {byte : Bytes} (holds : Holds space byte) {va table value : Nat}
    (low : va < SV39) (here : tableOf byte space.root va = some table) (small : value < 256 ^ 8) :
    Holds (space.set (va / PGSIZE) (if value &&& PTE_V ≠ 0 then some value else none))
      (byte.setWord (table + 8 * PX 0 va) 8 value) where
  tree := holds.tree.setLeaf here
  map := by
    intro va' low'
    by_cases same : va' / PGSIZE = va / PGSIZE
    · refine (holds.tree.translation_setLeaf_self here small same).trans ?_
      simp only [same, Space.set, update_self]
    · refine (holds.tree.translation_setLeaf_other here low low' same).trans ?_
      simp only [Space.set, update_of_ne same]
      exact holds.map va' low'

/-! ## Taking tables -/

/-- A page table takes pages for its tables. -/
structure Takes (space : Space) (ram : Ram) (space' : Space) (ram' : Ram) : Prop
    extends Draws space.tables ram space'.tables ram' where
  holds : Holds space' ram'.byte
  root : space'.root = space.root

theorem Extends.takes {tables' : Finset Nat} (holds : Holds space ram.byte)
    (extends_ : Extends space.root space.tables ram tables' ram') :
    Takes space ram { space with tables := tables' } ram' where
  toDraws := extends_.toDraws
  holds := ⟨extends_.tree, fun va low => (extends_.same va).trans (holds.map va low)⟩
  root := rfl

theorem Takes.trans (first : Takes space ram space' ram')
    (second : Takes space' ram' space'' ram'') : Takes space ram space'' ram'' where
  toDraws := first.toDraws.trans second.toDraws
  holds := second.holds
  root := second.root.trans first.root

/-- A walk followed by a write to the entry found. -/
theorem Takes.setLeaf (takes : Takes space ram space' ram') {va table value : Nat}
    (low : va < SV39) (here : tableOf ram'.byte space'.root va = some table)
    (small : value < 256 ^ 8) :
    Takes space ram (space'.set (va / PGSIZE) (if value &&& PTE_V ≠ 0 then some value else none))
      (ram'.setByte (ram'.byte.setWord (table + 8 * PX 0 va) 8 value)) where
  taken := takes.taken
  frame := by
    intro x outside unfree
    have member := takes.holds.tree.table_mem here
    refine (setWord_page (takes.holds.tree.mem_aligned member) ?_ (index 0 va)).trans
      (takes.frame x outside unfree)
    intro equal
    exact (takes.mem_cases (equal ▸ member)).elim outside unfree
  holds := takes.holds.setLeaf low here small
  root := takes.root

/-! ## `mappages` -/

/-- `count` pages from `first` on get entries. -/
def mapRange (map : Nat -> Option Nat) (first count : Nat) (entry : Nat -> Nat) :
    Nat -> Option Nat :=
  fun page => if first ≤ page ∧ page < first + count then some (entry (page - first)) else map page

/-- The entry for the page that is `index` pages behind `pa`. -/
def pteFor (pa perm index : Nat) : Nat :=
  PA2PTE ((pa + index * PGSIZE) % ulongs) ||| perm ||| PTE_V

theorem mapRange_zero (map : Nat -> Option Nat) (first : Nat) (entry : Nat -> Nat) :
    mapRange map first 0 entry = map := by
  funext page
  exact if_neg (by omega)

/-- A range is mapped page by page. -/
theorem mapRange_succ (map : Nat -> Option Nat) (first count : Nat) (entry : Nat -> Nat) :
    mapRange (update map first (some (entry 0))) (first + 1) count
      (fun index => entry (index + 1)) = mapRange map first (count + 1) entry := by
  funext page
  unfold mapRange
  by_cases here : page = first
  · subst here
    rw [if_neg (by omega), if_pos (by omega), update_self, Nat.sub_self]
  · rw [update_of_ne here]
    by_cases later : first + 1 ≤ page ∧ page < first + 1 + count
    · rw [if_pos later, if_pos (by omega)]
      have shift : page - (first + 1) + 1 = page - first := by omega
      change some (entry (page - (first + 1) + 1)) = _
      rw [shift]
    · rw [if_neg later, if_neg (by omega)]

theorem pteFor_next {pa perm : Nat} (index : Nat) :
    pteFor ((pa + PGSIZE) % ulongs) perm index = pteFor pa perm (index + 1) := by
  rw [pteFor, pteFor, Nat.mod_add_mod, Nat.add_assoc, Nat.add_comm PGSIZE, ← Nat.succ_mul]

theorem pteFor_zero {pa : Nat} (inWord : pa < ulongs) (perm : Nat) :
    pteFor pa perm 0 = PA2PTE pa ||| perm ||| PTE_V := by
  rw [pteFor, Nat.zero_mul, Nat.add_zero, Nat.mod_eq_of_lt inWord]

theorem next_page {a : Nat} (aligned : a % PGSIZE = 0) (low : a < MAXVA) :
    (a + PGSIZE) % ulongs = a + PGSIZE ∧ (a + PGSIZE) / PGSIZE = a / PGSIZE + 1 := by
  unfold MAXVA at low
  unfold ulongs
  unfold PGSIZE at *
  omega

/-- The loop of `mappages` with `count` pages behind the current one. -/
theorem Holds.mapLoop (holds : Holds space ram.byte)
    (sound : Sound image ram (space.tables.val + used)) {last perm turns a pa count : Nat}
    (flags : perm < 1024) (aligned : a % PGSIZE = 0) (inWord : pa < ulongs)
    (rest : last = a + count * PGSIZE) (low : last < MAXVA) (enough : count < turns)
    (unmapped : ∀ index, index ≤ count -> space.map (a / PGSIZE + index) = none)
    {goal : Int -> Ram -> Prop}
    (done : ∀ space' ram', Takes space ram space' ram' ->
      space'.map = mapRange space.map (a / PGSIZE) (count + 1) (pteFor pa perm) -> goal 0 ram')
    (failed : ∀ space' ram' before, Takes space ram space' ram' -> before ≤ count ->
      space'.map = mapRange space.map (a / PGSIZE) before (pteFor pa perm) ->
      ram'.freelist = [] -> tableOf ram'.byte space.root (a + before * PGSIZE) = none ->
      goal (-1) ram') :
    Meets () stop (Paging.mapLoop space.root last perm turns a pa) goal ram := by
  induction turns generalizing space ram a pa count with
  | zero => cases enough
  | succ turns ih =>
    have lowHere : a < MAXVA := by omega
    simp only [Paging.mapLoop, meets_do]
    refine holds.tree.walk sound lowHere ?_ ?_
    · intro tables' ram' grown empty missing
      apply failed _ ram' 0 (grown.takes holds) (Nat.zero_le _) (mapRange_zero _ _ _).symm empty
      rw [Nat.zero_mul, Nat.add_zero, missing]
    · intro tables' ram' table grown here
      have takes := grown.takes holds
      simp only [meets_do, meets_load]
      -- The entry is not valid because the page is not mapped.
      have invalid : ¬ ram'.byte.word (table + 8 * PX 0 a) 8 &&& PTE_V ≠ 0 := by
        intro valid
        have mapped := translation_eq_some_iff.mpr ⟨table, here, rfl, valid⟩
        rw [takes.holds.map a (lt_sv39 lowHere)] at mapped
        have vacant := unmapped 0 (Nat.zero_le _)
        rw [Nat.add_zero] at vacant
        rw [vacant] at mapped
        cases mapped
      rw [if_neg invalid]
      simp only [meets_do, meets_store]
      have written := takes.setLeaf (lt_sv39 lowHere) here (entry_lt flags inWord)
      rw [if_pos (entry_valid flags), ← pteFor_zero inWord] at written
      rw [← pteFor_zero inWord]
      by_cases ends : a = last
      · rw [if_pos ends]
        have none_left : count = 0 := by
          unfold PGSIZE at rest
          omega
        subst none_left
        apply done _ _ written
        rw [← mapRange_succ, mapRange_zero]
        rfl
      · rw [if_neg ends]
        obtain ⟨before, rfl⟩ : ∃ before, count = before + 1 := by
          refine ⟨count - 1, ?_⟩
          rcases count with _ | count
          · omega
          · rfl
        obtain ⟨nextAddress, nextPage⟩ := next_page aligned lowHere
        rw [nextAddress]
        have nextRange : ∀ before, mapRange (update space.map (a / PGSIZE)
            (some (pteFor pa perm 0))) ((a + PGSIZE) / PGSIZE) before
            (pteFor ((pa + PGSIZE) % ulongs) perm) =
            mapRange space.map (a / PGSIZE) (before + 1) (pteFor pa perm) := by
          intro before
          have entries : pteFor ((pa + PGSIZE) % ulongs) perm =
              fun index => pteFor pa perm (index + 1) := funext pteFor_next
          rw [entries, nextPage, mapRange_succ]
        have remaining : last = a + PGSIZE + before * PGSIZE := by
          rw [rest, Nat.succ_mul]
          omega
        refine ih written.holds (written.sound sound) ?_ (Nat.mod_lt _ (by decide)) remaining
          ?_ ?_ ?_ ?_
        · unfold PGSIZE at *
          omega
        · omega
        · intro index inside
          change update space.map _ _ _ = none
          rw [nextPage, update_of_ne (by omega), Nat.add_assoc, Nat.add_comm 1]
          exact unmapped (index + 1) (by omega)
        · intro space' ram'' further result
          exact done space' ram'' (written.trans further) (result.trans (nextRange _))
        · intro space' ram'' index further inside result empty missing
          apply failed space' ram'' (index + 1) (written.trans further) (by omega)
            (result.trans (nextRange _)) empty
          rw [Nat.succ_mul, Nat.add_comm (index * PGSIZE), ← Nat.add_assoc]
          exact missing

theorem Holds.mappages (holds : Holds space ram.byte)
    (sound : Sound image ram (space.tables.val + used)) {va size pa perm : Nat}
    (flags : perm < 1024) (inWord : pa < ulongs) (positive : 0 < size) (low : va + size ≤ MAXVA)
    (unmapped : ∀ page, va / PGSIZE ≤ page -> page ≤ (va + size - 1) / PGSIZE ->
      space.map page = none) {goal : Int -> Ram -> Prop}
    (done : ∀ space' ram', Takes space ram space' ram' ->
      space'.map = mapRange space.map (va / PGSIZE)
        ((va + size - 1) / PGSIZE - va / PGSIZE + 1) (pteFor pa perm) -> goal 0 ram')
    (failed : ∀ space' ram' before, Takes space ram space' ram' ->
      before ≤ (va + size - 1) / PGSIZE - va / PGSIZE ->
      space'.map = mapRange space.map (va / PGSIZE) before (pteFor pa perm) ->
      ram'.freelist = [] ->
      tableOf ram'.byte space.root (pgRoundDown va + before * PGSIZE) = none -> goal (-1) ram') :
    Meets () stop (Paging.mappages space.root va size pa perm) goal ram := by
  have wrapped : (va + size + (ulongs - 1)) % ulongs = va + size - 1 := by
    unfold MAXVA at low
    unfold ulongs
    omega
  have first : pgRoundDown va / PGSIZE = va / PGSIZE := Nat.mul_div_cancel _ (by decide)
  have ordered : va / PGSIZE ≤ (va + size - 1) / PGSIZE := Nat.div_le_div_right (by omega)
  have below : (va + size - 1) / PGSIZE < MAXVA / PGSIZE := by
    unfold MAXVA at *
    unfold PGSIZE
    omega
  have rest : pgRoundDown (va + size - 1) =
      pgRoundDown va + ((va + size - 1) / PGSIZE - va / PGSIZE) * PGSIZE := by
    rw [Vm.pgRoundDown, Vm.pgRoundDown, ← Nat.add_mul, Nat.add_sub_cancel' ordered]
  rw [Paging.mappages, wrapped]
  refine holds.mapLoop sound flags (pgRoundDown_aligned va) inWord rest ?_
    (lt_of_le_of_lt (Nat.sub_le _ _) (Nat.lt_succ_of_lt below)) ?_ ?_ ?_
  · have down : pgRoundDown (va + size - 1) ≤ va + size - 1 := Nat.div_mul_le_self _ _
    omega
  · intro index inside
    rw [first]
    exact unmapped _ (by omega) (by omega)
  · rw [first]
    exact done
  · rw [first]
    exact failed

/-! ## `uvmunmap` -/

/-- `count` pages from `first` on lose their entries. -/
def unmapRange (map : Nat -> Option Nat) (first count : Nat) : Nat -> Option Nat :=
  fun page => if first ≤ page ∧ page < first + count then none else map page

/-- Mappings are removed, the pages in `freed` go to the front of the free list,
and no other memory changes. -/
structure Frees (space : Space) (ram : Ram) (map : Nat -> Option Nat) (freed : List Nat)
    (ram' : Ram) : Prop where
  holds : Holds { space with map := map } ram'.byte
  free : ram'.freelist = freed ++ ram.freelist
  frame : forall x, pgRoundDown x ∉ space.tables -> pgRoundDown x ∉ freed ->
    ram'.byte x = ram.byte x

theorem Frees.trans {map map' : Nat -> Option Nat} {freed freed' : List Nat}
    (first : Frees space ram map freed ram')
    (second : Frees { space with map := map } ram' map' freed' ram'') :
    Frees space ram map' (freed' ++ freed) ram'' where
  holds := second.holds
  free := by rw [second.free, first.free, append_assoc]
  frame := by
    intro x outside kept
    rw [mem_append, not_or] at kept
    exact (second.frame x outside kept.1).trans (first.frame x outside kept.2)

/-- The pages that `uvmunmap` frees. -/
def freedBy (do_free : Bool) (pages : List Nat) : List Nat := if do_free then pages else []

theorem Holds.unmapPage (holds : Holds space ram.byte) {va entry : Nat} {do_free : Bool}
    (low : va < MAXVA) (mapped : space.map (va / PGSIZE) = some entry)
    (leaf : PTE_FLAGS entry ≠ PTE_V)
    (free : do_free = true -> Freeable image (PTE2PA entry) ∧ PTE2PA entry ∉ space.tables)
    {goal : Unit -> Ram -> Prop}
    (next : ∀ ram', Frees space ram (update space.map (va / PGSIZE) none)
      (freedBy do_free [PTE2PA entry]) ram' -> goal () ram') :
    Meets () stop (Paging.unmapPage image space.root do_free va) goal ram := by
  obtain ⟨table, here, stored, valid⟩ := holds.found (lt_sv39 low) mapped
  have member := holds.tree.table_mem here
  simp only [Paging.unmapPage, meets_do]
  refine meets_walk low ?_
  rw [here, Option.map_some]
  simp only [meets_do, meets_load]
  have read : ram.byte.word (table + 8 * PX 0 va) 8 = entry := stored
  rw [read, if_neg valid, if_neg leaf]
  have small : 0 < 256 ^ 8 := by decide
  cases do_free with
  | false =>
    simp only [Bool.false_eq_true, if_false, meets_store]
    apply next
    refine ⟨?_, rfl, ?_⟩
    · have written := holds.setLeaf (lt_sv39 low) here small
      rwa [if_neg (by decide)] at written
    · intro x outside _
      exact setWord_page (holds.tree.mem_aligned member) (fun equal => outside (equal ▸ member))
        (index 0 va)
  | true =>
    have freeable := (free rfl).1
    have apart := (free rfl).2
    have same : ∀ x, pgRoundDown x ≠ PTE2PA entry ->
        (ram.give (PTE2PA entry)).byte x = ram.byte x :=
      fun x different => give_other freeable.1 different
    have given : Holds space (ram.give (PTE2PA entry)).byte :=
      holds.congr fun x inside => same x fun equal => apart (equal ▸ inside)
    have there : tableOf (ram.give (PTE2PA entry)).byte space.root va = some table :=
      (holds.tree.descend_eq (fun x inside => same x fun equal => apart (equal ▸ inside))
        (le_of_eq (length_pathFrom va 2))).trans here
    simp only [if_true, meets_do]
    refine meets_kfree freeable ?_
    rw [meets_store]
    apply next
    refine ⟨?_, ?_, ?_⟩
    · have written := given.setLeaf (lt_sv39 low) there small
      rwa [if_neg (by decide)] at written
    · rw [Ram.setByte_freelist, Ram.give_freelist]
      rfl
    · intro x outside kept
      refine (setWord_page (holds.tree.mem_aligned member)
        (fun equal => outside (equal ▸ member)) (index 0 va)).trans (same x ?_)
      exact fun equal => kept (equal ▸ mem_singleton_self _)

theorem Frees.refl (holds : Holds space ram.byte) : Frees space ram space.map [] ram where
  holds := holds
  free := rfl
  frame := fun _ _ _ => rfl

/-- Freed pages change their owner. -/
theorem Frees.sound {map : Nat -> Option Nat} {freed : List Nat}
    (frees : Frees space ram map freed ram')
    (sound : Sound image ram (space.tables.val + ((freed : Multiset Nat) + used)))
    (freeable : ∀ page, page ∈ freed -> Freeable image page) :
    Sound image ram' (space.tables.val + used) where
  once := by
    have once := sound.once
    rw [frees.free, ← Multiset.coe_add]
    convert once using 1
    rw [add_comm (freed : Multiset Nat) (ram.freelist : Multiset Nat), add_assoc,
      add_left_comm (freed : Multiset Nat)]
  freeable := by
    intro page member
    rw [frees.free, mem_append] at member
    exact member.elim (freeable page) (sound.freeable page)

theorem turns_eq {va npages : Nat} (low : va + npages * PGSIZE ≤ MAXVA) :
    turns va ((va + npages * PGSIZE) % ulongs) = List.range npages := by
  have small : va + npages * PGSIZE < ulongs := lt_of_le_of_lt low (by decide)
  rw [turns, Nat.mod_eq_of_lt small, Nat.add_sub_cancel_left]
  congr 1
  unfold PGSIZE
  omega

theorem freedBy_append (do_free : Bool) (first second : List Nat) :
    freedBy do_free first ++ freedBy do_free second = freedBy do_free (first ++ second) := by
  cases do_free <;> rfl

theorem unmapRange_zero (map : Nat -> Option Nat) (first : Nat) : unmapRange map first 0 = map := by
  funext page
  exact if_neg (by omega)

theorem unmapRange_succ (map : Nat -> Option Nat) (first count : Nat) :
    update (unmapRange map first count) (first + count) none =
      unmapRange map first (count + 1) := by
  funext page
  unfold unmapRange
  by_cases here : page = first + count
  · rw [here, update_self, if_pos (by omega)]
  · rw [update_of_ne here]
    by_cases inside : first ≤ page ∧ page < first + count
    · rw [if_pos inside, if_pos (by omega)]
    · rw [if_neg inside, if_neg (by omega)]

theorem Holds.uvmunmap (holds : Holds space ram.byte) {va npages : Nat} {do_free : Bool}
    {entry : Nat -> Nat} (aligned : va % PGSIZE = 0) (low : va + npages * PGSIZE ≤ MAXVA)
    (mapped : ∀ index, index < npages -> space.map (va / PGSIZE + index) = some (entry index))
    (leaf : ∀ index, index < npages -> PTE_FLAGS (entry index) ≠ PTE_V)
    (free : do_free = true -> ∀ index, index < npages ->
      Freeable image (PTE2PA (entry index)) ∧ PTE2PA (entry index) ∉ space.tables)
    {goal : Unit -> Ram -> Prop}
    (next : ∀ ram', Frees space ram (unmapRange space.map (va / PGSIZE) npages)
      (freedBy do_free ((List.range npages).map fun index => PTE2PA (entry index)).reverse) ram' ->
      goal () ram') :
    Meets () stop (Paging.uvmunmap image space.root va npages do_free) goal ram := by
  rw [Paging.uvmunmap, if_neg (not_not.mpr aligned), turns_eq low]
  refine (meets_forEach_range (fun index after =>
    Frees space ram (unmapRange space.map (va / PGSIZE) index)
      (freedBy do_free ((List.range index).map fun index => PTE2PA (entry index)).reverse) after)
    ?_ ?_).mono fun _ after => next after
  · intro index after inside freed
    have page : (va + index * PGSIZE) / PGSIZE = va / PGSIZE + index :=
      Nat.add_mul_div_right va index (by decide)
    have bound : (index + 1) * PGSIZE ≤ npages * PGSIZE := Nat.mul_le_mul_right _ inside
    have here : unmapRange space.map (va / PGSIZE) index ((va + index * PGSIZE) / PGSIZE) =
        some (entry index) := by
      rw [page, unmapRange, if_neg (by omega)]
      exact mapped index inside
    refine freed.holds.unmapPage ?_ here (leaf index inside)
      (fun frees => free frees index inside) fun later step => ?_
    · rw [Nat.succ_mul] at bound
      have positive : 0 < PGSIZE := by decide
      omega
    · have both := freed.trans step
      rw [page, unmapRange_succ, freedBy_append, ← singleton_append] at both
      rw [range_succ, map_append, reverse_append]
      exact both
  · have start := Frees.refl holds
    rw [unmapRange_zero]
    cases do_free <;> exact start

end Paging
end Xv6
