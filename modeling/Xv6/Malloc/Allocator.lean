import Xv6.Paging.Growth
import Mathlib.Data.Finset.Max

namespace Xv6
namespace Malloc

open Paging (Image Ram Space UserSpace)
open Nat
open List

/-!
# The allocator of user programs

`malloc` and `free` of `user/umalloc.c` with the kernel's `sbrk`.  The circular list
of free blocks is the list of its blocks from `freep` on, so following a pointer turns
the list by one block.  The size that `morecore` asks for is a 64-bit product, and
`sbrk` has an `int` parameter.
-/

/-- `sizeof(Header)`. -/
def unit : Nat := 16

def uint (n : Nat) : Nat := n % 2 ^ 32

/-- A 64-bit number that is passed as an `int`. -/
def int (n : Nat) : Int := (n : Int).bmod (2 ^ 32)

/-- A block with its header, of `size` units. -/
structure Block where
  addr : Nat
  size : Nat
  deriving DecidableEq

def Block.finish (block : Block) : Nat := block.addr + unit * block.size

/-- The block that `p->s.ptr` points to, for the first block of the list. -/
def next (p : Block) (rest : List Block) : Block := rest.headD p

/-- Turn the list until its first two blocks satisfy the condition.  If no turn helps,
the loop does not end. -/
def turn (found : Block -> Block -> Bool) : Nat -> List Block -> Option (Block × List Block)
  | turns + 1, p :: rest =>
    if found p (next p rest) then some (p, rest) else turn found turns (rest ++ [p])
  | _, _ => none

/-- Where the loop of `free` ends. -/
def belongs (bp p ptr : Block) : Bool :=
  (p.addr < bp.addr ∧ bp.addr < ptr.addr) ∨
    (ptr.addr ≤ p.addr ∧ (p.addr < bp.addr ∨ bp.addr < ptr.addr))

/-- The rest of `free`, behind the first block of the list. -/
def link (bp p : Block) (rest : List Block) : List Block :=
  let ptr := next p rest
  let joined := if bp.finish = ptr.addr then ⟨bp.addr, uint (bp.size + ptr.size)⟩ else bp
  let rest := if bp.finish = ptr.addr then rest.tail else rest
  if p.finish = bp.addr then ⟨p.addr, uint (p.size + joined.size)⟩ :: rest
  else p :: joined :: rest

def free (ring : List Block) (bp : Block) : Option (List Block) :=
  (turn (belongs bp) ring.length ring).map fun place => link bp place.1 place.2

/-- The units at the end of a block. -/
def Block.taken (p : Block) (nunits : Nat) : Block := ⟨p.addr + unit * (p.size - nunits), nunits⟩

/-- The list after `malloc` has taken units from the block behind the first one, which is
the first one itself if there is no other. -/
def carve (nunits : Nat) : List Block -> List Block
  | prevp :: p :: rest =>
    if p.size = nunits then prevp :: rest else prevp :: ⟨p.addr, p.size - nunits⟩ :: rest
  | [p] => if p.size = nunits then [p] else [⟨p.addr, p.size - nunits⟩]
  | [] => []

/-- The units that `morecore` asks for. -/
def wanted (nu : Nat) : Nat := if nu < 4096 then 4096 else nu

def nunitsOf (nbytes : Nat) : Nat := uint ((nbytes + unit - 1) / unit + 1)

section Calls

variable {Env : Type} (sbrk : Int -> Env -> Option Nat × Env)

/-- `morecore(nu)`: the list with the new block in it, if `sbrk` does not fail. -/
def morecore (nu : Nat) (ring : List Block) (env : Env) : Option (Option (List Block) × Env) :=
  let answer := sbrk (int (wanted nu * unit)) env
  match answer.1 with
  | none => some (none, answer.2)
  | some hp => (free ring ⟨hp, wanted nu⟩).map fun ring => (some ring, answer.2)

/-- The loop of `malloc`, where `prevp` is the first block of the list. -/
def search (nunits : Nat) : Nat -> List Block -> Env -> Option (Option Nat × List Block × Env)
  | 0, _, _ => none
  | rounds + 1, ring, env =>
    match turn (fun _ p => nunits ≤ p.size) ring.length ring with
    | some (prevp, rest) =>
      some (some (((next prevp rest).taken nunits).addr + unit), carve nunits (prevp :: rest), env)
    | none =>
      match morecore sbrk nunits ring env with
      | none => none
      | some (none, env) => some (none, ring, env)
      | some (some ring, env) => search nunits rounds ring env

/-- The list with nothing but `base` before the first call. -/
def prepared (base : Nat) (ring : List Block) : List Block :=
  if ring = [] then [⟨base, 0⟩] else ring

def malloc (base rounds nbytes : Nat) (ring : List Block) (env : Env) :
    Option (Option Nat × List Block × Env) :=
  search sbrk (nunitsOf nbytes) rounds (prepared base ring) env

end Calls

/-- The memory and the size of a process. -/
abbrev Process := Ram × Nat

/-- `sys_sbrk` of a process with the given page table. -/
def sysSbrk (image : Image) (pagetable : Nat) (n : Int) (process : Process) :
    Option Nat × Process :=
  let addr := int process.2
  match (Paging.growproc image pagetable process.2 n).alone () process.1 with
  | (some (result, sz), ram) =>
    (if result < 0 ∨ addr = -1 then none else some addr.toNat, ram, sz)
  | (none, ram) => (none, ram, process.2)

/-! ## Turning the list -/

section Turns

variable {found : Block -> Block -> Bool} {turns : Nat} {ring rest before after : List Block}
variable {p b bp : Block}

theorem next_mem (p : Block) (rest : List Block) : next p rest ∈ p :: rest := by
  cases rest with
  | nil => exact mem_cons_self
  | cons b rest => exact mem_cons_of_mem _ mem_cons_self

theorem turn_some (result : turn found turns ring = some (p, rest)) :
    (∀ b, b ∈ p :: rest <-> b ∈ ring) ∧ found p (next p rest) = true := by
  induction turns generalizing ring with
  | zero => cases result
  | succ turns ih =>
    cases ring with
    | nil => cases result
    | cons p rest =>
      rw [turn] at result
      split at result
      · next here =>
          cases result
          exact ⟨fun _ => Iff.rfl, here⟩
      · rcases ih result with ⟨same, shape⟩
        refine ⟨?_, shape⟩
        intro b
        rw [same, mem_append, mem_singleton, mem_cons, or_comm]

/-- The list is turned as long as necessary. -/
theorem turn_isSome (here : found p (next p (rest ++ before)) = true)
    (enough : before.length < turns) :
    ∃ place, turn found turns (before ++ p :: rest) = some place := by
  induction before generalizing turns rest with
  | nil =>
    cases turns with
    | zero => cases enough
    | succ turns =>
      rw [append_nil] at here
      exact ⟨(p, rest), by rw [nil_append, turn, if_pos here]⟩
  | cons a before ih =>
    cases turns with
    | zero => cases enough
    | succ turns =>
      rw [cons_append, turn]
      split
      · exact ⟨_, rfl⟩
      · rw [append_assoc, cons_append]
        apply ih
        · rwa [append_assoc]
        · exact lt_of_succ_lt_succ enough

/-- Every block is found as the one behind another. -/
theorem turn_behind {fits : Block -> Bool} (member : b ∈ ring) (here : fits b = true) :
    ∃ place, turn (fun _ p => fits p) ring.length ring = some place := by
  rcases append_of_mem member with ⟨before, after, rfl⟩
  rcases eq_nil_or_concat before with rfl | ⟨front, z, rfl⟩
  · rcases eq_nil_or_concat after with rfl | ⟨front, z, rfl⟩
    · exact @turn_isSome _ _ [] [] b here (succ_pos _)
    · rw [concat_eq_append, nil_append, ← cons_append]
      refine @turn_isSome _ _ [] (b :: front) z here ?_
      simp
  · rw [concat_eq_append, append_assoc]
    refine @turn_isSome _ _ (b :: after) front z here ?_
    simp

/-- A block above all others has a place: behind the highest one. -/
theorem free_isSome (nonempty : ring ≠ []) (above : ∀ b, b ∈ ring -> b.addr < bp.addr) :
    ∃ p rest, (∀ b, b ∈ p :: rest <-> b ∈ ring) ∧ free ring bp = some (link bp p rest) := by
  have largest : ∃ p, p ∈ ring ∧ ∀ b, b ∈ ring -> b.addr ≤ p.addr := by
    rcases Finset.exists_max_image ring.toFinset Block.addr
        (toFinset_nonempty_iff ring |>.mpr nonempty) with ⟨p, member, most⟩
    exact ⟨p, mem_toFinset.mp member, fun b inside => most b (mem_toFinset.mpr inside)⟩
  rcases largest with ⟨p, member, most⟩
  rcases append_of_mem member with ⟨before, after, rfl⟩
  have inside : next p (after ++ before) ∈ before ++ p :: after := by
    have known := next_mem p (after ++ before)
    simp only [mem_cons, mem_append] at *
    tauto
  have here : belongs bp p (next p (after ++ before)) = true := by
    rw [belongs, decide_eq_true_eq]
    exact Or.inr ⟨most _ inside, Or.inl (above p member)⟩
  rcases @turn_isSome _ (before ++ p :: after).length _ _ _ here (by simp) with
    ⟨⟨q, rest⟩, result⟩
  refine ⟨q, rest, (turn_some result).1, ?_⟩
  rw [free, result]
  rfl

end Turns

/-! ## Blocks below the break -/

/-- `base` is in the list, and all blocks lie below the limit. -/
structure Below (base limit : Nat) (ring : List Block) : Prop where
  base : ⟨base, 0⟩ ∈ ring
  begins : forall b, b ∈ ring -> b.addr < limit
  ends : forall b, b ∈ ring -> b.finish ≤ limit

section Below

variable {base limit nunits : Nat} {ring rest : List Block} {p prevp : Block}

theorem Below.congr (below : Below base limit ring) {turned : List Block}
    (same : ∀ b, b ∈ turned <-> b ∈ ring) : Below base limit turned :=
  ⟨(same _).mpr below.base, fun b member => below.begins b ((same b).mp member),
    fun b member => below.ends b ((same b).mp member)⟩

/-- A region at the limit is linked behind a block, and is joined with it if they touch. -/
theorem Below.link (below : Below base limit (p :: rest)) {units : Nat} (some : 0 < units)
    (low : limit + unit * units < 2 ^ 36) :
    Below base (limit + unit * units) (Malloc.link ⟨limit, units⟩ p rest) ∧
      ∃ b, b ∈ Malloc.link ⟨limit, units⟩ p rest ∧ units ≤ b.size := by
  have loose : Block.finish ⟨limit, units⟩ ≠ (next p rest).addr := by
    have before := below.begins _ (next_mem p rest)
    unfold Block.finish
    dsimp only
    omega
  rw [Malloc.link]
  dsimp only
  rw [if_neg loose, if_neg loose]
  have old : ∀ b, b ∈ p :: rest ->
      b.addr < limit + unit * units ∧ b.finish ≤ limit + unit * units := by
    intro b member
    have one := below.begins b member
    have two := below.ends b member
    omega
  by_cases touch : p.finish = limit
  · have first := below.begins p mem_cons_self
    have size : uint (p.size + units) = p.size + units := by
      unfold uint
      unfold Block.finish unit at *
      omega
    rw [if_pos touch, size]
    refine ⟨⟨?_, ?_, ?_⟩, _, mem_cons_self, le_add_left _ _⟩
    · rcases mem_cons.mp below.base with rfl | member
      · unfold Block.finish unit at *
        dsimp only at *
        omega
      · exact mem_cons_of_mem _ member
    · intro b member
      rcases mem_cons.mp member with rfl | member
      · exact (old p mem_cons_self).1
      · exact (old b (mem_cons_of_mem _ member)).1
    · intro b member
      rcases mem_cons.mp member with rfl | member
      · unfold Block.finish at *
        dsimp only
        rw [mul_add]
        omega
      · exact (old b (mem_cons_of_mem _ member)).2
  · rw [if_neg touch]
    have parts : ∀ b, b ∈ p :: ⟨limit, units⟩ :: rest ->
        b ∈ p :: rest ∨ b = ⟨limit, units⟩ := by
      intro b member
      simp only [mem_cons] at *
      tauto
    refine ⟨⟨?_, ?_, ?_⟩, ⟨limit, units⟩, by simp, le_refl _⟩
    · have member := below.base
      simp only [mem_cons] at *
      tauto
    · intro b member
      rcases parts b member with known | rfl
      · exact (old b known).1
      · unfold unit
        dsimp only
        omega
    · intro b member
      rcases parts b member with known | rfl
      · exact (old b known).2
      · exact le_refl _

/-- Only the block behind the first one changes, and it gets shorter. -/
theorem mem_carve {b : Block} (member : b ∈ Malloc.carve nunits (prevp :: rest)) :
    b ∈ prevp :: rest ∨
      b = ⟨(next prevp rest).addr, (next prevp rest).size - nunits⟩ := by
  cases rest with
  | nil =>
    rw [Malloc.carve] at member
    split at member
    · exact Or.inl member
    · exact Or.inr (mem_singleton.mp member)
  | cons p rest =>
    rw [Malloc.carve] at member
    split at member
    · simp only [mem_cons] at *
      tauto
    · simp only [mem_cons, next, headD_cons] at *
      tauto

theorem mem_carve_of_ne {b : Block} (member : b ∈ prevp :: rest) (other : b ≠ next prevp rest) :
    b ∈ Malloc.carve nunits (prevp :: rest) := by
  cases rest with
  | nil => exact (other (mem_singleton.mp member)).elim
  | cons p rest =>
    rw [next, headD_cons] at other
    rw [Malloc.carve]
    split
    · simp only [mem_cons] at *
      tauto
    · simp only [mem_cons] at *
      tauto

theorem Below.carve (below : Below base limit (prevp :: rest)) (some : 0 < nunits)
    (fits : nunits ≤ (next prevp rest).size) :
    Below base limit (Malloc.carve nunits (prevp :: rest)) ∧
      ((next prevp rest).taken nunits).finish ≤ limit := by
  have first := below.begins _ (next_mem prevp rest)
  have last := below.ends _ (next_mem prevp rest)
  refine ⟨⟨?_, ?_, ?_⟩, ?_⟩
  · apply mem_carve_of_ne below.base
    intro same
    rw [← same] at fits
    dsimp only at fits
    omega
  · intro b member
    rcases mem_carve member with old | rfl
    · exact below.begins b old
    · exact first
  · intro b member
    rcases mem_carve member with old | rfl
    · exact below.ends b old
    · unfold Block.finish unit at *
      dsimp only
      omega
  · unfold Block.taken Block.finish unit at *
    dsimp only
    omega

end Below

/-! ## `sbrk` -/

section Sbrk

variable {image : Image} {ram : Ram} {space : Space} {leaves : List Nat}
variable {upper : Nat -> Option Nat} {sz nbytes : Nat}

section

variable (user : UserSpace image ram space leaves upper sz)

include user

theorem UserSpace.size_le : sz ≤ 2 ^ 27 := by
  have room := user.room
  have size := user.size
  unfold Paging.pages Paging.PGSIZE at size
  omega

/-- `sbrk` fails and keeps the size, or returns the old size.  The new size is the sum,
unless that is negative. -/
theorem sysSbrk_cases {n : Int} (low : -2 ^ 31 ≤ n) (high : n < 2 ^ 31) :
    (0 < n ∧ ∃ ram', sysSbrk image space.root n (ram, sz) = (none, ram', sz)) ∨
      ∃ ram' sz', sysSbrk image space.root n (ram, sz) = (some sz, ram', sz') ∧
        ((sz' : Int) = sz + n ∨ (sz + n < 0 ∧ sz' = sz)) := by
  have room := UserSpace.size_le user
  have addr : int sz = sz := by
    unfold int
    rw [Int.bmod_eq_of_le] <;> omega
  have run : ∃ value ram', (Paging.growproc image space.root sz n).alone () ram =
      (some value, ram') ∧ ((0 < n ∧ value = (-1, sz)) ∨
        ∃ sz' : Nat, value = (0, sz') ∧ ((sz' : Int) = sz + n ∨ (sz + n < 0 ∧ sz' = sz))) := by
    apply Conc.Meets.returns
    refine user.growproc low high ?_ ?_ ?_
    · intro ram' sz' sum _
      exact Or.inr ⟨sz', rfl, Or.inl sum⟩
    · intro ram' grow _
      exact Or.inl ⟨grow, rfl⟩
    · intro negative
      exact Or.inr ⟨sz, rfl, Or.inr ⟨negative, rfl⟩⟩
  rcases run with ⟨value, ram', run, ⟨grow, rfl⟩ | ⟨sz', rfl, sum⟩⟩
  · refine Or.inl ⟨grow, ram', ?_⟩
    rw [sysSbrk, run]
    rfl
  · refine Or.inr ⟨ram', sz', ?_, sum⟩
    rw [sysSbrk, run]
    dsimp only
    rw [addr, if_neg (by omega), Int.toNat_natCast]

theorem sbrk_fails {units : Nat} {after : Process}
    (answer : sysSbrk image space.root (int units) (ram, sz) = (none, after)) : after.2 = sz := by
  have bounds : -2 ^ 31 ≤ int units ∧ int units < 2 ^ 31 := by
    unfold int Int.bmod
    dsimp only
    split <;> omega
  rcases sysSbrk_cases user bounds.1 bounds.2 with ⟨_, ram', failed⟩ | ⟨ram', sz', grown, _⟩
  · rw [failed] at answer
    cases answer
    rfl
  · rw [grown] at answer
    cases answer

end

theorem nunitsOf_eq (small : nbytes < 2 ^ 32) :
    nunitsOf nbytes = (nbytes + unit - 1) / unit + 1 := by
  unfold nunitsOf uint unit
  omega

/-- A request that is passed on unchanged grows the break exactly, and a larger one by at
most sixteen bytes. -/
theorem sbrk_grows (user : UserSpace image ram space leaves upper sz) (small : nbytes < 2 ^ 32)
    {a : Nat} {after : Process}
    (answer : sysSbrk image space.root (int (wanted (nunitsOf nbytes) * unit)) (ram, sz) =
      (some a, after)) :
    a = sz ∧ (after.2 = sz + unit * wanted (nunitsOf nbytes) <-> nbytes ≤ 2 ^ 31 - 32) := by
  have bounds : -2 ^ 31 ≤ int (wanted (nunitsOf nbytes) * unit) ∧
      int (wanted (nunitsOf nbytes) * unit) < 2 ^ 31 ∧
      (nbytes ≤ 2 ^ 31 - 32 ->
        int (wanted (nunitsOf nbytes) * unit) = (unit * wanted (nunitsOf nbytes) : Nat)) ∧
      (¬ nbytes ≤ 2 ^ 31 - 32 -> int (wanted (nunitsOf nbytes) * unit) ≤ 16 ∧
        2 ^ 31 ≤ unit * wanted (nunitsOf nbytes)) := by
    rw [nunitsOf_eq small]
    unfold int wanted unit Int.bmod
    dsimp only
    split <;> split <;> omega
  rcases sysSbrk_cases user bounds.1 bounds.2.1 with ⟨_, ram', failed⟩ | ⟨ram', sz', grown, sum⟩
  · rw [failed] at answer
    cases answer
  · rw [grown] at answer
    cases answer
    refine ⟨rfl, ?_⟩
    dsimp only
    by_cases modest : nbytes ≤ 2 ^ 31 - 32
    · have same := bounds.2.2.1 modest
      omega
    · have narrowed := bounds.2.2.2 modest
      omega

end Sbrk

/-! ## `malloc` -/

section Search

variable {Env : Type} {sbrk : Int -> Env -> Option Nat × Env} {base limit nunits : Nat}
variable {ring : List Block} {env env' : Env}

/-- A block is found in the list. -/
theorem Below.search_fit (below : Below base limit ring) (units : 0 < nunits)
    (fit : ∃ b, b ∈ ring ∧ nunits ≤ b.size) (env : Env) :
    ∃ (block : Block) (ring' : List Block), block.size = nunits ∧ block.finish ≤ limit ∧
      Below base limit ring' ∧
      ∀ rounds, search sbrk nunits (rounds + 1) ring env =
        some (some (block.addr + unit), ring', env) := by
  rcases fit with ⟨b, member, large⟩
  rcases @turn_behind _ _ (fun p => nunits ≤ p.size) member (decide_eq_true large) with
    ⟨⟨prevp, rest⟩, result⟩
  rcases turn_some result with ⟨same, fits⟩
  have carved := (below.congr same).carve units (decide_eq_true_eq.mp fits)
  refine ⟨(next prevp rest).taken nunits, _, rfl, carved.2, carved.1, ?_⟩
  intro rounds
  rw [search, result]

/-- Nothing is found, and `morecore` is called. -/
theorem search_full (full : ∀ b, b ∈ ring -> b.size < nunits) (rounds : Nat) :
    search sbrk nunits (rounds + 1) ring env =
      match morecore sbrk nunits ring env with
      | none => none
      | some (none, env) => some (none, ring, env)
      | some (some ring, env) => search sbrk nunits rounds ring env := by
  rw [search]
  cases result : turn (fun _ p => decide (nunits ≤ p.size)) ring.length ring with
  | none => rfl
  | some place =>
    rcases turn_some result with ⟨same, fits⟩
    have small := full _ ((same _).mp (next_mem place.1 place.2))
    rw [decide_eq_true_eq] at fits
    omega

theorem wanted_ge (nu : Nat) : nu ≤ wanted nu := by
  unfold wanted
  split <;> omega

/-- `sbrk` has returned the limit, and a block comes from the new region or an old block. -/
theorem Below.search_grows (below : Below base limit ring) (units : 0 < nunits)
    (full : ∀ b, b ∈ ring -> b.size < nunits)
    (answer : sbrk (int (wanted nunits * unit)) env = (some limit, env'))
    (low : limit + unit * wanted nunits < 2 ^ 36) :
    ∃ (block : Block) (ring' : List Block), block.size = nunits ∧
      block.finish ≤ limit + unit * wanted nunits ∧
      Below base (limit + unit * wanted nunits) ring' ∧
      ∀ rounds, search sbrk nunits (rounds + 2) ring env =
        some (some (block.addr + unit), ring', env') := by
  have more : 0 < wanted nunits := lt_of_lt_of_le units (wanted_ge nunits)
  rcases @free_isSome ring ⟨limit, wanted nunits⟩ (ne_nil_of_mem below.base) below.begins with
    ⟨p, rest, same, freed⟩
  rcases (below.congr same).link more low with ⟨linked, b, member, large⟩
  rcases @Below.search_fit _ sbrk _ _ _ _ linked units
      ⟨b, member, le_trans (wanted_ge nunits) large⟩ env' with
    ⟨block, ring', size, ends, below', found⟩
  refine ⟨block, ring', size, ends, below', ?_⟩
  intro rounds
  have called : morecore sbrk nunits ring env =
      some (some (Malloc.link ⟨limit, wanted nunits⟩ p rest), env') := by
    rw [morecore, answer]
    dsimp only
    rw [freed]
    rfl
  rw [search_full full, called]
  exact found rounds

end Search

section Malloc

variable {image : Image} {ring : List Block}

/-- A block of enough units has the bytes that were asked for. -/
theorem usable {nbytes : Nat} (small : nbytes < 2 ^ 32) {block : Block}
    (size : block.size = nunitsOf nbytes) : block.addr + unit + nbytes ≤ block.finish := by
  rw [Block.finish, size, nunitsOf_eq small]
  unfold unit
  omega

/-- What a call of `malloc` should do to the break: `sbrk` grows it by the size that
`morecore` records, and the result and all free blocks lie below it. -/
structure Backed (image : Image) (pagetable base nbytes : Nat) (process : Process)
    (result : Option Nat) (ring : List Block) (process' : Process) : Prop where
  grown : forall a after,
    sysSbrk image pagetable (int (wanted (nunitsOf nbytes) * unit)) process = (some a, after) ->
      after.2 = process.2 + unit * wanted (nunitsOf nbytes)
  block : forall ap, result = some ap -> ap + nbytes ≤ process'.2
  free : Below base process'.2 ring

/-- `malloc` returns.  If `sbrk` reports success for what `morecore` asks, the break has
grown as recorded and lies above the block if and only if the request has at most
2^31 - 32 bytes.  If it reports failure, no memory beyond the break is handed out. -/
theorem malloc_backed_iff {ram : Ram} {space : Space} {leaves : List Nat}
    {upper : Nat -> Option Nat} {sz base nbytes : Nat}
    (user : UserSpace image ram space leaves upper sz) (below : Below base sz (prepared base ring))
    (small : nbytes < 2 ^ 32) :
    ∃ result ring' process',
      (forall rounds,
        malloc (sysSbrk image space.root) base (rounds + 2) nbytes ring (ram, sz) =
          some (result, ring', process')) ∧
      ((sysSbrk image space.root (int (wanted (nunitsOf nbytes) * unit)) (ram, sz)).1 = none ->
        Backed image space.root base nbytes (ram, sz) result ring' process') ∧
      (forall a after, sysSbrk image space.root (int (wanted (nunitsOf nbytes) * unit)) (ram, sz) =
          (some a, after) ->
        (Backed image space.root base nbytes (ram, sz) result ring' process' <->
          nbytes ≤ 2 ^ 31 - 32)) := by
  have room := UserSpace.size_le user
  have units : 0 < nunitsOf nbytes := by
    rw [nunitsOf_eq small]
    exact Nat.succ_pos _
  by_cases fit : ∃ b, b ∈ prepared base ring ∧ nunitsOf nbytes ≤ b.size
  · rcases @Below.search_fit _ (sysSbrk image space.root) _ _ _ _ below units fit (ram, sz) with
      ⟨block, ring', size, ends, below', found⟩
    have bytes := usable small size
    have modest : nbytes ≤ 2 ^ 31 - 32 := by omega
    have backed : Backed image space.root base nbytes (ram, sz) (some (block.addr + unit)) ring'
        (ram, sz) := by
      refine ⟨?_, ?_, below'⟩
      · intro a after answer
        exact (sbrk_grows user small answer).2.mpr modest
      · rintro ap ⟨⟩
        exact Nat.le_trans bytes ends
    exact ⟨_, ring', _, fun rounds => found (rounds + 1), fun _ => backed,
      fun _ _ _ => iff_of_true backed modest⟩
  · have full : forall b, b ∈ prepared base ring -> b.size < nunitsOf nbytes := by
      intro b member
      exact Nat.lt_of_not_le fun large => fit ⟨b, member, large⟩
    rcases answer : sysSbrk image space.root (int (wanted (nunitsOf nbytes) * unit)) (ram, sz) with
      ⟨_ | a, after⟩
    · have called : morecore (sysSbrk image space.root) (nunitsOf nbytes) (prepared base ring)
          (ram, sz) = some (none, after) := by
        rw [morecore, answer]
      refine ⟨none, prepared base ring, after, ?_, fun _ => ⟨?_, ?_, ?_⟩, fun _ _ granted => ?_⟩
      · intro rounds
        rw [malloc, search_full full, called]
      · intro a after' found
        rw [answer] at found
        cases found
      · intro ap impossible
        cases impossible
      · rw [sbrk_fails user answer]
        exact below
      · cases granted
    · have grows := sbrk_grows user small answer
      obtain rfl := grows.1
      have low : a + unit * wanted (nunitsOf nbytes) < 2 ^ 36 := by
        rw [nunitsOf_eq small]
        unfold wanted unit
        split <;> omega
      rcases below.search_grows units full answer low with
        ⟨block, ring', size, ends, below', found⟩
      have bytes := usable small size
      refine ⟨_, ring', after, found, fun failed => ?_, fun _ _ _ => ⟨?_, ?_⟩⟩
      · cases failed
      · intro backed
        exact grows.2.mp (backed.grown _ _ answer)
      · intro modest
        have exact_ := grows.2.mpr modest
        refine ⟨?_, ?_, ?_⟩
        · intro a' after' found
          exact (sbrk_grows user small found).2.mpr modest
        · rintro ap ⟨⟩
          rw [exact_]
          exact Nat.le_trans bytes ends
        · rw [exact_]
          exact below'

end Malloc

/-- A process of 100 bytes. -/
theorem exists_user_space : ∃ space leaves, space.root = Paging.startSpace.root ∧
    UserSpace Paging.onePageKernel (Paging.grownRam 100) space leaves (fun _ => none) 100 := by
  apply Paging.grownRam_user
  · decide
  · decide +kernel

theorem below_start : Below 16 100 (prepared 16 []) :=
  ⟨mem_singleton_self _, by decide, by decide⟩

/-- A first request of ten bytes: the break grows by 4096 units, and the last two of them
are the block. -/
theorem malloc_backed_small : ∃ space leaves,
    UserSpace Paging.onePageKernel (Paging.grownRam 100) space leaves (fun _ => none) 100 ∧
      ∃ process,
        malloc (sysSbrk Paging.onePageKernel space.root) 16 2 10 [] (Paging.grownRam 100, 100) =
          some (some 65620, [⟨16, 0⟩, ⟨100, 4094⟩], process) ∧
        process.2 = 100 + 65536 ∧
        Backed Paging.onePageKernel space.root 16 10 (Paging.grownRam 100, 100) (some 65620)
          [⟨16, 0⟩, ⟨100, 4094⟩] process := by
  rcases exists_user_space with ⟨space, leaves, root, user⟩
  rcases malloc_backed_iff user below_start (show 10 < 2 ^ 32 by decide) with
    ⟨result, ring, process, returns, _, backed⟩
  have value : (malloc (sysSbrk Paging.onePageKernel Paging.startSpace.root) 16 2 10 []
      (Paging.grownRam 100, 100)).map (fun answer => (answer.1, answer.2.1, answer.2.2.2)) =
        some (some 65620, [⟨16, 0⟩, ⟨100, 4094⟩], 65636) := by
    decide +kernel
  have granted : (sysSbrk Paging.onePageKernel Paging.startSpace.root
      (int (wanted (nunitsOf 10) * unit)) (Paging.grownRam 100, 100)).1 = some 100 := by
    decide +kernel
  rw [← root, returns 0] at value
  rw [← root] at granted
  obtain ⟨rfl, rfl, size⟩ : result = some 65620 ∧ ring = [⟨16, 0⟩, ⟨100, 4094⟩] ∧
      process.2 = 65636 := by
    simpa using value
  refine ⟨space, leaves, user, process, returns 0, size, ?_⟩
  exact (backed 100 _ (Prod.ext granted rfl)).mpr (by decide)

/-- A first request of 2^31 bytes: `sbrk` reports success without growing the break, and
`malloc` returns a block that ends far above it. -/
theorem malloc_beyond_break : ∃ space leaves,
    UserSpace Paging.onePageKernel (Paging.grownRam 100) space leaves (fun _ => none) 100 ∧
      ∃ ap ring ram',
        malloc (sysSbrk Paging.onePageKernel space.root) 16 2 (2 ^ 31) []
          (Paging.grownRam 100, 100) = some (some ap, ring, ram', 100) ∧
        100 < ap + 2 ^ 31 := by
  rcases exists_user_space with ⟨space, leaves, _, user⟩
  have asked : int (wanted (nunitsOf (2 ^ 31)) * unit) = -2 ^ 31 + 16 := by decide
  rcases sysSbrk_cases user (show -2 ^ 31 ≤ (-2 ^ 31 + 16 : Int) by decide) (by decide) with
    ⟨impossible, _⟩ | ⟨ram', sz', grown, sum⟩
  · exact absurd impossible (by decide)
  · have same : sz' = 100 := by omega
    rw [← asked, same] at grown
    rcases below_start.search_grows (by decide) (by decide) grown (by decide) with
      ⟨block, ring, _, _, _, found⟩
    refine ⟨space, leaves, user, _, ring, ram', found 0, ?_⟩
    omega

end Malloc
end Xv6
