import Mathlib.Order.Interval.Finset.Nat
import Xv6.Paging.Mapping

namespace Xv6
namespace Paging

open Conc Finset

/-!
# Who has which page

A page behind the kernel is free or has one owner.  Kernel code takes pages off the
free list for the owner it works for and gives pages of that owner back; it writes to
no page but those.  Two such stretches make one, and what is said of the pages of one
owner holds beside any other owners.
-/

/-- The free pages and those in `used` are different pages that may be freed. -/
structure Allocated (image : Image) (ram : Ram) (used : Multiset Nat) : Prop where
  once : ((ram.freelist : Multiset Nat) + used).Nodup
  freeable : forall page, page ∈ (ram.freelist : Multiset Nat) + used -> Freeable image page

/-- Pages change hands between the free list and an owner, who has `mine` before and
`mine'` afterwards. -/
structure Exchange (ram : Ram) (mine : Multiset Nat) (ram' : Ram) (mine' : Multiset Nat) :
    Prop where
  conserve : (ram'.freelist : Multiset Nat) + mine' = (ram.freelist : Multiset Nat) + mine
  frame : forall x, pgRoundDown x ∉ mine -> pgRoundDown x ∉ ram.freelist -> ram'.byte x = ram.byte x

variable {stop : Ram -> Prop} {image : Image} {ram ram' ram'' : Ram} {page : Nat}
variable {used mine mine' mine'' : Multiset Nat} {space space' : Space}

/-! ## Owners -/

section

variable (allocated : Allocated image ram used)

include allocated

theorem Allocated.sound : Sound image ram used where
  once := allocated.once
  freeable := fun page member =>
    allocated.freeable page (Multiset.mem_add.mpr (Or.inl (Multiset.mem_coe.mpr member)))

theorem Allocated.mem_freeable (member : page ∈ used) : Freeable image page :=
  allocated.freeable page (Multiset.mem_add.mpr (Or.inr member))

theorem Allocated.free_freeable (member : page ∈ ram.freelist) : Freeable image page :=
  allocated.freeable page (Multiset.mem_add.mpr (Or.inl (Multiset.mem_coe.mpr member)))

/-- An owner's page is not free. -/
theorem Allocated.not_free (member : page ∈ used) : page ∉ ram.freelist :=
  fun free => Multiset.disjoint_left.mp (Multiset.nodup_add.mp allocated.once).2.2
    (Multiset.mem_coe.mpr free) member

theorem Allocated.nodup : used.Nodup :=
  (Multiset.nodup_add.mp allocated.once).2.1

end

/-- Two owners share no page. -/
theorem Allocated.apart (allocated : Allocated image ram (mine + used)) (member : page ∈ mine) :
    page ∉ used :=
  fun other => Multiset.disjoint_left.mp (Multiset.nodup_add.mp allocated.nodup).2.2 member other

/-- Owners may be forgotten. -/
theorem Allocated.left (allocated : Allocated image ram (mine + used)) :
    Allocated image ram mine where
  once := by
    have once := allocated.once
    rw [← add_assoc] at once
    exact (Multiset.nodup_add.mp once).1
  freeable := by
    intro page member
    apply allocated.freeable page
    rw [← add_assoc]
    exact Multiset.mem_add.mpr (Or.inl member)

/-- Memory is finite. -/
theorem Allocated.card_le (allocated : Allocated image ram used) :
    used.card ≤ (PHYSTOP - KERNBASE) / PGSIZE := by
  have pages : ∀ page, page ∈ used ->
      KERNBASE / PGSIZE ≤ page / PGSIZE ∧ page / PGSIZE < PHYSTOP / PGSIZE := by
    intro page member
    obtain ⟨_, above, below⟩ := allocated.mem_freeable member
    have based := image.based
    unfold PHYSTOP KERNBASE at *
    unfold PGSIZE at *
    omega
  have inside : used.toFinset.image (· / PGSIZE) ⊆
      Finset.Ico (KERNBASE / PGSIZE) (PHYSTOP / PGSIZE) := by
    intro number member
    obtain ⟨page, there, rfl⟩ := mem_image.mp member
    exact mem_Ico.mpr (pages page (Multiset.mem_toFinset.mp there))
  have injective : Set.InjOn (· / PGSIZE) (used.toFinset : Set Nat) := by
    intro page there page' there' same
    have aligned := (allocated.mem_freeable (Multiset.mem_toFinset.mp there)).1
    have aligned' := (allocated.mem_freeable (Multiset.mem_toFinset.mp there')).1
    unfold PGSIZE at *
    dsimp only at same
    omega
  calc used.card = used.toFinset.card := (Multiset.toFinset_card_of_nodup allocated.nodup).symm
    _ = (used.toFinset.image (· / PGSIZE)).card := (card_image_of_injOn injective).symm
    _ ≤ (Finset.Ico (KERNBASE / PGSIZE) (PHYSTOP / PGSIZE)).card := card_le_card inside
    _ = (PHYSTOP - KERNBASE) / PGSIZE := by
        rw [Nat.card_Ico]
        decide

/-! ## Exchanges -/

theorem Exchange.refl (ram : Ram) (mine : Multiset Nat) : Exchange ram mine ram mine :=
  ⟨rfl, fun _ _ _ => rfl⟩

/-- A page is the owner's or free afterwards only if it was so before. -/
theorem Exchange.mem_iff (exchange : Exchange ram mine ram' mine') (page : Nat) :
    page ∈ ram'.freelist ∨ page ∈ mine' <-> page ∈ ram.freelist ∨ page ∈ mine := by
  rw [← Multiset.mem_coe, ← Multiset.mem_coe, ← Multiset.mem_add, ← Multiset.mem_add,
    exchange.conserve]

theorem Exchange.trans (first : Exchange ram mine ram' mine')
    (second : Exchange ram' mine' ram'' mine'') : Exchange ram mine ram'' mine'' where
  conserve := second.conserve.trans first.conserve
  frame := by
    intro x outside unfree
    have neither : ¬ (pgRoundDown x ∈ ram'.freelist ∨ pgRoundDown x ∈ mine') := by
      rw [first.mem_iff]
      exact fun either => either.elim unfree outside
    rw [not_or] at neither
    rw [second.frame x neither.2 neither.1, first.frame x outside unfree]

section

variable (exchange : Exchange ram mine ram' mine')

include exchange

/-- Pages that do not change hands. -/
theorem Exchange.add (more : Multiset Nat) : Exchange ram (mine + more) ram' (mine' + more) where
  conserve := by rw [← add_assoc, exchange.conserve, add_assoc]
  frame := by
    intro x outside
    exact exchange.frame x fun member => outside (Multiset.mem_add.mpr (Or.inl member))

theorem Exchange.allocated (allocated : Allocated image ram (mine + used)) :
    Allocated image ram' (mine' + used) := by
  have same : (ram'.freelist : Multiset Nat) + (mine' + used) =
      (ram.freelist : Multiset Nat) + (mine + used) := by
    rw [← add_assoc, exchange.conserve, add_assoc]
  exact ⟨same ▸ allocated.once, same ▸ allocated.freeable⟩

/-- Pages of other owners stay as they are. -/
theorem Exchange.kept (allocated : Allocated image ram (mine + used)) {x : Nat}
    (other : pgRoundDown x ∈ used) : ram'.byte x = ram.byte x := by
  apply exchange.frame
  · exact fun member => allocated.apart member other
  · exact allocated.not_free (Multiset.mem_add.mpr (Or.inr other))

end

theorem Takes.exchange (takes : Takes space ram space' ram') :
    Exchange ram space.tables.val ram' space'.tables.val where
  conserve := by
    obtain ⟨taken, free, grown⟩ := takes.taken
    rw [grown, free, ← Multiset.coe_add, ← add_assoc,
      add_comm (ram'.freelist : Multiset Nat) (taken : Multiset Nat)]
  frame := takes.frame

theorem Frees.exchange {map : Nat -> Option Nat} {freed : List Nat}
    (frees : Frees space ram map freed ram') :
    Exchange ram (space.tables.val + (freed : Multiset Nat)) ram' space.tables.val where
  conserve := by
    rw [frees.free, ← Multiset.coe_add, add_comm (freed : Multiset Nat), add_assoc,
      add_comm (freed : Multiset Nat)]
  frame := by
    intro x outside _
    rw [Multiset.mem_add, not_or] at outside
    exact frees.frame x outside.1 outside.2

/-- A page is taken. -/
theorem Exchange.take {rest : List Nat} (free : ram.freelist = page :: rest)
    (aligned : page % PGSIZE = 0) : Exchange ram 0 (ram.take page rest) {page} where
  conserve := by
    rw [Ram.take_freelist, free, add_zero, ← Multiset.cons_coe, ← Multiset.singleton_add, add_comm]
  frame := by
    intro x _ unfree
    apply take_other aligned
    rintro same
    rw [free, same] at unfree
    exact unfree List.mem_cons_self

/-- A page is given back. -/
theorem Exchange.give (aligned : page % PGSIZE = 0) : Exchange ram {page} (ram.give page) 0 where
  conserve := by
    rw [Ram.give_freelist, add_zero, ← Multiset.cons_coe, ← Multiset.singleton_add, add_comm]
  frame := by
    intro x outside _
    apply give_other aligned
    exact fun same => outside (Multiset.mem_singleton.mpr same)

/-- A write to a page. -/
theorem Exchange.write {byte : Bytes} (outside : ∀ x, pgRoundDown x ≠ page -> byte x = ram.byte x) :
    Exchange ram {page} (ram.setByte byte) {page} where
  conserve := rfl
  frame := fun x away _ => outside x fun same => away (Multiset.mem_singleton.mpr same)

/-! ## The allocator -/

theorem Allocated.kalloc (allocated : Allocated image ram used) {goal : Option Nat -> Ram -> Prop}
    (none_ : ram.freelist = [] -> goal none ram)
    (some_ : ∀ page ram', Exchange ram 0 ram' {page} -> Freeable image page ->
      goal (some page) ram') :
    Meets () stop Paging.kalloc goal ram := by
  refine meets_kalloc none_ ?_
  intro page rest free
  have freeable := allocated.free_freeable (free ▸ List.mem_cons_self)
  exact some_ page _ (Exchange.take free freeable.1) freeable

end Paging
end Xv6
