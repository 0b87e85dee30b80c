import Xv6.Paging.Mapping

namespace Xv6
namespace Paging

open Conc List

/-!
# User copies through the page table

`copyout`, `copyin` and `copyinstr` translate every page of the user's range on
its own.  A read shows what the user sees there.  As long as the user's pages
are different physical pages and none of them holds a table, what a write does
to physical memory is what it does on virtual addresses.  The failing page is
the first one the user may not access.
-/

/-! ## The user's view -/

/-- The entry through which the user may access an address. -/
def userEntry (byte : Bytes) (root va : Nat) : Option Nat :=
  if va < MAXVA then (translation byte root va).filter fun entry => entry &&& PTE_U != 0 else none

/-- The physical address behind a virtual one. -/
def location (byte : Bytes) (root va : Nat) : Nat :=
  ((userEntry byte root va).map PTE2PA).getD 0 + va % PGSIZE

/-- The address is below `MAXVA` on a page with `PTE_V` and `PTE_U`. -/
def Accessible (byte : Bytes) (root va : Nat) : Prop :=
  va < MAXVA ∧ ∃ entry, translation byte root va = some entry ∧ entry &&& PTE_U ≠ 0

/-- The page at address 0 is never the user's. -/
structure Backed (byte : Bytes) (root : Nat) : Prop where
  nonzero : forall va entry, userEntry byte root va = some entry -> PTE2PA entry ≠ 0

/-- The user's pages are different pages of memory, and page tables are not among
them. -/
structure Separate (byte : Bytes) (root : Nat) : Prop extends Backed byte root where
  aligned : root % PGSIZE = 0
  apart : forall va entry, userEntry byte root va = some entry ->
    ¬ Radix.Reaches pointer (entries byte) root 2 (PTE2PA entry)
  injective : forall va va' entry entry', userEntry byte root va = some entry ->
    userEntry byte root va' = some entry' -> PTE2PA entry = PTE2PA entry' ->
    va / PGSIZE = va' / PGSIZE

variable {stop : Ram -> Prop} {ram : Ram} {byte byte' : Bytes} {root : Nat} {va entry : Nat}

theorem accessible_iff {va : Nat} :
    Accessible byte root va <-> (userEntry byte root va).isSome = true := by
  unfold Accessible userEntry
  by_cases low : va < MAXVA
  · rw [if_pos low, Option.isSome_iff_exists]
    simp only [low, true_and, Option.filter_eq_some_iff, bne_iff_ne]
  · rw [if_neg low]
    simp [low]

theorem below_iff {va va' : Nat} (same : va / PGSIZE = va' / PGSIZE) :
    va < MAXVA <-> va' < MAXVA := by
  unfold MAXVA
  unfold PGSIZE at same
  omega

theorem userEntry_congr {va va' : Nat} (same : va / PGSIZE = va' / PGSIZE) :
    userEntry byte root va = userEntry byte root va' := by
  unfold userEntry
  rw [translation_congr same]
  by_cases low : va < MAXVA
  · rw [if_pos low, if_pos ((below_iff same).mp low)]
  · rw [if_neg low, if_neg (fun other => low ((below_iff same).mpr other))]

theorem location_eq (here : userEntry byte root va = some entry) :
    location byte root va = PTE2PA entry + va % PGSIZE := by
  rw [location, here, Option.map_some, Option.getD_some]

theorem location_page (here : userEntry byte root va = some entry) :
    pgRoundDown (location byte root va) = PTE2PA entry := by
  have aligned := PTE2PA_aligned entry
  rw [location_eq here, pgRoundDown_eq_iff aligned]
  have small : va % PGSIZE < PGSIZE := Nat.mod_lt _ (by decide)
  omega

/-- Different addresses are in different places. -/
theorem Separate.location_injective (separate : Separate byte root) {va va' : Nat}
    (here : (userEntry byte root va).isSome = true)
    (here' : (userEntry byte root va').isSome = true)
    (same : location byte root va = location byte root va') : va = va' := by
  obtain ⟨entry, found⟩ := Option.isSome_iff_exists.mp here
  obtain ⟨entry', found'⟩ := Option.isSome_iff_exists.mp here'
  have frames : PTE2PA entry = PTE2PA entry' := by
    rw [← location_page found, ← location_page found', same]
  have page := separate.injective va va' entry entry' found found' frames
  rw [location_eq found, location_eq found', frames] at same
  have offset : va % PGSIZE = va' % PGSIZE := Nat.add_left_cancel same
  rw [← Nat.div_add_mod va PGSIZE, page, offset, Nat.div_add_mod]

theorem meets_walkaddr (va : Nat) {goal : Nat -> Ram -> Prop}
    (next : goal (((userEntry ram.byte root va).map PTE2PA).getD 0) ram) :
    Meets () stop (walkaddr root va) goal ram := by
  unfold userEntry at next
  unfold walkaddr
  by_cases low : va < MAXVA
  · rw [if_neg (by omega)]
    rw [if_pos low] at next
    simp only [meets_do]
    refine meets_walk low ?_
    unfold translation at next
    cases here : tableOf ram.byte root va with
    | none =>
      rw [here] at next
      exact next
    | some table =>
      rw [here, Option.map_some, Option.filter_some] at next
      simp only [Option.map_some, meets_do, meets_load]
      have read : ram.byte.word (table + 8 * PX 0 va) 8 = entries ram.byte table (index 0 va) :=
        rfl
      rw [read]
      by_cases invalid : entries ram.byte table (index 0 va) &&& PTE_V = 0
      · rw [if_pos invalid]
        rw [if_neg (by simpa using invalid)] at next
        exact next
      · rw [if_neg invalid]
        rw [if_pos (by simpa using invalid), Option.filter_some] at next
        by_cases kernel : entries ram.byte table (index 0 va) &&& PTE_U = 0
        · rw [if_pos kernel]
          rw [if_neg (by simpa using kernel)] at next
          exact next
        · rw [if_neg kernel]
          rw [if_pos (by simpa using kernel)] at next
          exact next
  · rw [if_pos (by omega)]
    rw [if_neg low] at next
    exact next

/-! ## Memory during a copy -/

/-- The pages that the user may access, by number. -/
def userPages (byte : Bytes) (root : Nat) : Nat -> Bool :=
  fun page => (userEntry byte root (page * PGSIZE)).isSome

theorem walkaddr_userPages (va : Nat) :
    Vm.walkaddr (userPages byte root) va = (userEntry byte root va).isSome := by
  have page : va / PGSIZE * PGSIZE / PGSIZE = va / PGSIZE := Nat.mul_div_cancel _ (by decide)
  rw [Vm.walkaddr, userPages, userEntry_congr page]
  by_cases low : va < MAXVA
  · rw [decide_eq_true low, Bool.true_and]
  · rw [decide_eq_false low, Bool.false_and, userEntry, if_neg low]
    rfl

/-- Physical memory `byte'` differs from `byte` at most in the user's pages, where
it shows `memory`. -/
structure Shows (byte : Bytes) (root : Nat) (memory : Nat -> UInt8) (byte' : Bytes) : Prop where
  inside : forall va, (userEntry byte root va).isSome = true ->
    byte' (location byte root va) = memory va
  outside : forall x, (forall va, (userEntry byte root va).isSome = true ->
    x ≠ location byte root va) -> byte' x = byte x

variable {memory : Nat -> UInt8}

/-- No table changes. -/
theorem Separate.table_same (separate : Separate byte root) (shows_ : Shows byte root memory byte')
    {table : Nat} (reached : Radix.Reaches pointer (entries byte) root 2 table) :
    entries byte' table = entries byte table := by
  obtain ⟨path, short, here⟩ := reached
  funext entry
  apply entries_congr (descend_aligned separate.aligned here)
  intro x page
  apply shows_.outside
  rintro va accessible rfl
  obtain ⟨entry', found⟩ := Option.isSome_iff_exists.mp accessible
  rw [location_page found] at page
  exact separate.apart va entry' found ⟨path, short, page ▸ here⟩

theorem Separate.userEntry_same (separate : Separate byte root)
    (shows_ : Shows byte root memory byte') (va : Nat) :
    userEntry byte' root va = userEntry byte root va := by
  have way : tableOf byte' root va = tableOf byte root va :=
    Radix.descend_of_tables (fun _ => separate.table_same shows_)
      (le_of_eq (length_pathFrom va 2))
  unfold userEntry translation
  rw [way]
  cases here : tableOf byte root va with
  | none => simp only [Option.map_none]
  | some table =>
    have same := separate.table_same shows_ ⟨_, le_of_eq (length_pathFrom va 2), here⟩
    rw [Option.map_some, Option.map_some, same]

theorem Shows.refl (byte : Bytes) (root : Nat) :
    Shows byte root (fun va => byte (location byte root va)) byte :=
  ⟨fun _ _ => rfl, fun _ _ => rfl⟩

/-- Bytes are written to a part of one page. -/
theorem Separate.write (separate : Separate byte root) (shows_ : Shows byte root memory byte')
    {bytes : List UInt8} (found : userEntry byte root va = some entry)
    (fits : va % PGSIZE + bytes.length ≤ PGSIZE) :
    Shows byte root (fun address => if va ≤ address ∧ address < va + bytes.length then
        bytes.getD (address - va) 0 else memory address)
      (byte'.put (PTE2PA entry + va % PGSIZE) bytes) := by
  have near : ∀ offset, offset < bytes.length -> userEntry byte root (va + offset) = some entry ∧
        location byte root (va + offset) = PTE2PA entry + va % PGSIZE + offset := by
    intro offset small
    have page : (va + offset) / PGSIZE = va / PGSIZE := by
      unfold PGSIZE at *
      omega
    have there := (userEntry_congr page).trans found
    refine ⟨there, ?_⟩
    rw [location_eq there]
    unfold PGSIZE at *
    omega
  constructor
  · intro address accessible
    by_cases written : va ≤ address ∧ address < va + bytes.length
    · rw [if_pos written]
      obtain ⟨offset, rfl⟩ := Nat.exists_eq_add_of_le written.1
      have small : offset < bytes.length := by omega
      rw [(near offset small).2, Bytes.put_inside small, Nat.add_sub_cancel_left]
      simp [small]
    · rw [if_neg written, Bytes.put_outside, shows_.inside address accessible]
      by_contra inside
      obtain ⟨offset, place⟩ := Nat.exists_eq_add_of_le
        (show PTE2PA entry + va % PGSIZE ≤ location byte root address by omega)
      have small : offset < bytes.length := by omega
      have same := separate.location_injective accessible
        (Option.isSome_iff_exists.mpr ⟨entry, (near offset small).1⟩)
        (place.trans (near offset small).2.symm)
      omega
  · intro x nowhere
    rw [Bytes.put_outside, shows_.outside x nowhere]
    by_contra inside
    obtain ⟨offset, place⟩ := Nat.exists_eq_add_of_le (show PTE2PA entry + va % PGSIZE ≤ x by omega)
    have small : offset < bytes.length := by omega
    exact nowhere (va + offset) (Option.isSome_iff_exists.mpr ⟨entry, (near offset small).1⟩)
      (place.trans (near offset small).2.symm)

/-! ## `copyout` -/

/-- What one turn of `copyout` does to the user's memory. -/
def moveOut (dstva : Nat) (src : List UInt8) (va n : Nat) (memory : Nat -> UInt8) : Nat -> UInt8 :=
  fun address => if va ≤ address ∧ address < va + n then src.getD (address - dstva) 0
    else memory address

theorem moveOut_eq {dstva va n : Nat} {src : List UInt8} (ahead : dstva ≤ va)
    (enough : n ≤ (src.drop (va - dstva)).length) :
    (fun address => if va ≤ address ∧ address < va + ((src.drop (va - dstva)).take n).length then
      ((src.drop (va - dstva)).take n).getD (address - va) 0 else memory address) =
      moveOut dstva src va n memory := by
  funext address
  rw [moveOut, length_take, Nat.min_eq_left enough]
  by_cases inside : va ≤ address ∧ address < va + n
  · rw [if_pos inside, if_pos inside]
    have position : va - dstva + (address - va) = address - dstva := by omega
    rw [getD_eq_getElem?_getD, getD_eq_getElem?_getD,
      List.getElem?_take_of_lt (by omega), List.getElem?_drop, position]
  · rw [if_neg inside, if_neg inside]

theorem next_address {va : Nat} (low : va < MAXVA) :
    (pgRoundDown va + PGSIZE) % ulongs = pgRoundDown va + PGSIZE := by
  unfold MAXVA at low
  unfold Vm.pgRoundDown PGSIZE ulongs
  omega

/-- What is left after a turn starts at the next page. -/
theorem drop_next {α : Type} {src : List α} {dstva va n : Nat} (ahead : dstva ≤ va)
    (turn : n = min (PGSIZE - (va - pgRoundDown va)) (src.drop (va - dstva)).length) :
    (src.drop (va - dstva)).drop n = src.drop (pgRoundDown va + PGSIZE - dstva) := by
  have inside : pgRoundDown va ≤ va ∧ va < pgRoundDown va + PGSIZE := by
    unfold Vm.pgRoundDown PGSIZE
    omega
  rw [length_drop] at turn
  rw [drop_drop]
  by_cases last : PGSIZE - (va - pgRoundDown va) ≤ src.length - (va - dstva)
  · congr 1
    omega
  · rw [drop_of_length_le (by omega), drop_of_length_le (by omega)]

theorem Separate.copyoutLoop (separate : Separate byte root) {dstva : Nat} {src : List UInt8}
    {more va : Nat} (ahead : dstva ≤ va) (shows_ : Shows byte root memory ram.byte)
    {goal : Int -> Ram -> Prop}
    (next : ∀ byte', Shows byte root (Vm.pageLoop (userPages byte root) (moveOut dstva src)
        more va (src.drop (va - dstva)).length memory).2 byte' ->
      goal (if (Vm.pageLoop (userPages byte root) (moveOut dstva src)
        more va (src.drop (va - dstva)).length memory).1 then 0 else -1) (ram.setByte byte')) :
    Meets () stop (Paging.copyoutLoop root more va (src.drop (va - dstva))) goal ram := by
  induction more generalizing va memory ram with
  | zero => exact next ram.byte shows_
  | succ more ih =>
    rw [Paging.copyoutLoop]
    rw [Vm.pageLoop] at next
    by_cases empty : src.drop (va - dstva) = []
    · rw [if_pos empty]
      rw [empty, if_pos length_nil] at next
      exact next ram.byte shows_
    · rw [if_neg empty]
      rw [if_neg (fun zero => empty (eq_nil_of_length_eq_zero zero))] at next
      simp only [walkaddr_userPages] at next
      simp only [meets_do]
      refine meets_walkaddr _ ?_
      rw [separate.userEntry_same shows_]
      cases found : userEntry byte root (pgRoundDown va) with
      | none =>
        rw [found, Option.isSome_none, if_neg (by decide)] at next
        simp only [Option.map_none, Option.getD_none, if_true, meets_pure]
        exact next ram.byte shows_
      | some entry =>
        rw [found, Option.isSome_some, if_pos rfl] at next
        simp only [Option.map_some, Option.getD_some]
        rw [if_neg (separate.nonzero _ entry found)]
        simp only [meets_do, meets_write]
        have page : va / PGSIZE = pgRoundDown va / PGSIZE :=
          (Nat.mul_div_cancel _ (by decide)).symm
        have here : userEntry byte root va = some entry := (userEntry_congr page).trans found
        have low : va < MAXVA := by
          have some_ := Option.isSome_iff_exists.mpr ⟨entry, here⟩
          exact (accessible_iff.mpr some_).1
        have offset : va - pgRoundDown va = va % PGSIZE := by
          unfold Vm.pgRoundDown PGSIZE
          omega
        generalize turn : min (PGSIZE - (va - pgRoundDown va)) (src.drop (va - dstva)).length = n
          at next ⊢
        have enough : n ≤ (src.drop (va - dstva)).length := by omega
        have fits : va % PGSIZE + ((src.drop (va - dstva)).take n).length ≤ PGSIZE := by
          have small : va % PGSIZE < PGSIZE := Nat.mod_lt _ (by decide)
          rw [length_take]
          omega
        have written := separate.write shows_ here fits
        rw [moveOut_eq ahead enough] at written
        rw [offset, next_address low, drop_next ahead turn.symm]
        refine ih ?_ written ?_
        · have inside : va < pgRoundDown va + PGSIZE := by
            unfold Vm.pgRoundDown PGSIZE
            omega
          omega
        · rw [← drop_next ahead turn.symm, length_drop]
          exact next

/-- What `copyout` does. -/
theorem Separate.copyout (separate : Separate ram.byte root) (dstva : Nat) (src : List UInt8)
    {goal : Int -> Ram -> Prop}
    (next : ∀ byte', Shows ram.byte root (Vm.copyout (userPages ram.byte root) dstva src
          (fun va => ram.byte (location ram.byte root va))).2 byte' ->
      goal (if (Vm.copyout (userPages ram.byte root) dstva src
        (fun va => ram.byte (location ram.byte root va))).1 then 0 else -1) (ram.setByte byte')) :
    Meets () stop (Paging.copyout root dstva src) goal ram := by
  have whole : src.drop (dstva - dstva) = src := by rw [Nat.sub_self, drop_zero]
  have run := @Separate.copyoutLoop stop ram ram.byte root _ separate dstva src src.length dstva
    (le_refl _) (Shows.refl ram.byte root) goal
  rw [whole] at run
  exact run next

/-! ## `copyin` -/

/-- The user's bytes. -/
def userBytes (byte : Bytes) (root va count : Nat) : List UInt8 :=
  (List.range count).map fun index => byte (location byte root (va + index))

theorem userBytes_add (va first second : Nat) : userBytes byte root va (first + second) =
      userBytes byte root va first ++ userBytes byte root (va + first) second := by
  rw [userBytes, range_add, map_append, map_map]
  congr 2
  funext index
  rw [Function.comp_apply, Nat.add_assoc]

/-- Bytes on one page lie side by side. -/
theorem slice_page {va entry n : Nat} (found : userEntry byte root va = some entry)
    (fits : va % PGSIZE + n ≤ PGSIZE) :
    byte.slice (PTE2PA entry + va % PGSIZE) n = userBytes byte root va n := by
  apply map_congr_left
  intro offset member
  have small := mem_range.mp member
  have page : (va + offset) / PGSIZE = va / PGSIZE := by
    unfold PGSIZE at *
    omega
  rw [location_eq ((userEntry_congr page).trans found)]
  congr 1
  unfold PGSIZE at *
  omega

theorem Backed.copyinLoop (backed : Backed ram.byte root) {more va len : Nat}
    {dst : List UInt8} (enough : len ≤ more) {goal : Int × List UInt8 -> Ram -> Prop}
    (next : goal (if Vm.mappedCount (userPages ram.byte root) va len = len then 0 else -1,
      dst ++ userBytes ram.byte root va (Vm.mappedCount (userPages ram.byte root) va len)) ram) :
    Meets () stop (Paging.copyinLoop root more va len dst) goal ram := by
  induction more generalizing va len dst with
  | zero =>
    have none_ : len = 0 := by omega
    subst none_
    simpa [Paging.copyinLoop, Vm.mappedCount, userBytes] using next
  | succ more ih =>
    rw [Paging.copyinLoop]
    by_cases empty : len = 0
    · subst empty
      rw [if_pos rfl]
      simpa [Vm.mappedCount, userBytes] using next
    · rw [if_neg empty]
      simp only [meets_do]
      refine meets_walkaddr _ ?_
      have page : va / PGSIZE = pgRoundDown va / PGSIZE :=
        (Nat.mul_div_cancel _ (by decide)).symm
      rw [← userEntry_congr page]
      cases found : userEntry ram.byte root va with
      | none =>
        have unmapped : Vm.walkaddr (userPages ram.byte root) va = false := by
          rw [walkaddr_userPages, found]
          rfl
        rw [Vm.mappedCount_zero unmapped, if_neg (Ne.symm empty)] at next
        simp only [Option.map_none, Option.getD_none, if_true, meets_pure]
        simpa [userBytes] using next
      | some entry =>
        simp only [Option.map_some, Option.getD_some]
        rw [if_neg (backed.nonzero _ entry found)]
        simp only [meets_do, meets_look]
        have low : va < MAXVA :=
          (accessible_iff.mpr (Option.isSome_iff_exists.mpr ⟨entry, found⟩)).1
        have offset : va - pgRoundDown va = va % PGSIZE := by
          unfold Vm.pgRoundDown PGSIZE
          omega
        have room : pgRoundDown va ≤ va ∧ va < pgRoundDown va + PGSIZE := by
          unfold Vm.pgRoundDown PGSIZE
          omega
        generalize turn : min (PGSIZE - (va - pgRoundDown va)) len = n
        have counted := @Vm.mappedCount_add (userPages ram.byte root) n va len (by omega)
          fun index inside => by
            apply Vm.page_mapped
            · rw [walkaddr_userPages, found]
              rfl
            · omega
        rw [offset, slice_page found (by omega), next_address low]
        refine ih (by omega) ?_
        rw [counted, userBytes_add, ← append_assoc] at next
        by_cases last : len - n = 0
        · rw [last] at next ⊢
          simp only [Vm.mappedCount] at next ⊢
          simpa [userBytes, show n = len by omega] using next
        · have ahead : pgRoundDown va + PGSIZE = va + n := by omega
          rw [ahead]
          have same : n + Vm.mappedCount (userPages ram.byte root) (va + n) (len - n) = len <->
              Vm.mappedCount (userPages ram.byte root) (va + n) (len - n) = len - n := by
            omega
          simpa only [same] using next

/-- What `copyin` does. -/
theorem Backed.copyin (backed : Backed ram.byte root) (srcva len : Nat)
    {goal : Int × List UInt8 -> Ram -> Prop}
    (next : goal (if Vm.mappedCount (userPages ram.byte root) srcva len = len then 0 else -1,
      userBytes ram.byte root srcva (Vm.mappedCount (userPages ram.byte root) srcva len)) ram) :
    Meets () stop (Paging.copyin root srcva len) goal ram :=
  backed.copyinLoop (le_refl len) next

end Paging
end Xv6
