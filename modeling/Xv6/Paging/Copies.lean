import Xv6.Paging.UserCopy

namespace Xv6
namespace Paging

open Conc List Option

/-!
# User copies respect the page table

How far `copyout`, `copyin` and `copyinstr` get, and what they have moved by then.
-/

variable {stop : Ram -> Prop} {ram : Ram} {byte byte' : Bytes} {root : Nat}
variable {memory : Nat -> UInt8}

/-- `count` bytes of a range are in front of the first one that the user may not
access. -/
structure UpTo (byte : Bytes) (root va len count : Nat) : Prop where
  within : count ≤ len
  good : forall index, index < count -> Accessible byte root (va + index)
  bad : count < len -> ¬ Accessible byte root (va + count)

theorem accessible_walkaddr {va : Nat} :
    Accessible byte root va <-> Vm.walkaddr (userPages byte root) va = true := by
  rw [accessible_iff, walkaddr_userPages]

theorem stopped_at {pages : Nat -> Bool} {len : Nat} : ∀ {va : Nat},
    Vm.mappedCount pages va len < len ->
      Vm.walkaddr pages (va + Vm.mappedCount pages va len) = false := by
  induction len with
  | zero => exact fun impossible => absurd impossible (Nat.not_lt_zero _)
  | succ len ih =>
    intro va short
    rw [Vm.mappedCount] at short ⊢
    by_cases mapped : Vm.walkaddr pages va = true
    · rw [if_pos mapped] at short ⊢
      rw [Nat.add_comm (Vm.mappedCount pages (va + 1) len), ← Nat.add_assoc]
      exact ih (by omega)
    · rw [if_neg mapped]
      simpa using mapped

theorem upTo_mappedCount (va len : Nat) :
    UpTo byte root va len (Vm.mappedCount (userPages byte root) va len) where
  within := Vm.mappedCount_le va len
  good := fun _ inside => accessible_walkaddr.mpr (Vm.walkaddr_of_counted inside)
  bad := by
    intro short accessible
    have stopped := stopped_at short
    rw [accessible_walkaddr.mp accessible] at stopped
    cases stopped

/-- A copy is complete exactly if the user may access every byte of the range. -/
theorem UpTo.complete_iff {va len count : Nat} (upTo : UpTo byte root va len count) :
    count = len <-> ∀ index, index < len -> Accessible byte root (va + index) := by
  constructor
  · rintro rfl
    exact upTo.good
  · intro all
    by_contra incomplete
    have short : count < len := lt_of_le_of_ne upTo.within incomplete
    exact upTo.bad short (all count short)

/-! ## `copyinstr` -/

/-- A string of `length` bytes and a zero at `va`, within the limit. -/
structure Terminated (byte : Bytes) (root va max length : Nat) : Prop where
  within : length < max
  good : forall index, index ≤ length -> Accessible byte root (va + index)
  zero : byte (location byte root (va + length)) = 0
  nonzero : forall index, index < length -> byte (location byte root (va + index)) ≠ 0

theorem copyBytes_cases (byte : Bytes) (n p : Nat) : (∃ length, length < n ∧ byte (p + length) = 0 ∧
      (∀ index, index < length -> byte (p + index) ≠ 0) ∧
      copyBytes byte n p = (true, byte.slice p (length + 1))) ∨
    ((∀ index, index < n -> byte (p + index) ≠ 0) ∧
      copyBytes byte n p = (false, byte.slice p n)) := by
  induction n generalizing p with
  | zero => exact Or.inr ⟨fun index inside => absurd inside (Nat.not_lt_zero _), rfl⟩
  | succ n ih =>
    rw [copyBytes]
    by_cases here : byte p = 0
    · refine Or.inl ⟨0, Nat.succ_pos n, here, ?_, ?_⟩
      · exact fun index inside => absurd inside (Nat.not_lt_zero _)
      · rw [if_pos here, Bytes.slice_succ, here]
        rfl
    · have before : ∀ count, (∀ index, index < count -> byte (p + 1 + index) ≠ 0) ->
          ∀ index, index < count + 1 -> byte (p + index) ≠ 0 := by
        intro count rest index inside
        cases index with
        | zero => exact here
        | succ index =>
          rw [Nat.add_comm index, ← Nat.add_assoc]
          exact rest index (by omega)
      rw [if_neg here]
      rcases ih (p + 1) with ⟨length, inside, zero, nonzero, copied⟩ | ⟨nonzero, copied⟩
      · refine Or.inl ⟨length + 1, by omega, ?_, before length nonzero, ?_⟩
        · rw [Nat.add_comm length, ← Nat.add_assoc]
          exact zero
        · rw [copied, @Bytes.slice_succ byte p (length + 1)]
      · exact Or.inr ⟨before n nonzero, by rw [copied, Bytes.slice_succ]⟩

/-- The limit is reached behind the bytes of one page. -/
theorem terminated_shift {va n max length : Nat}
    (good : ∀ index, index < n -> Accessible byte root (va + index))
    (nonzero : ∀ index, index < n -> byte (location byte root (va + index)) ≠ 0) :
    Terminated byte root (va + n) (max - n) length <->
      Terminated byte root va max (n + length) := by
  constructor
  · intro string
    refine ⟨?_, ?_, ?_, ?_⟩
    · have within := string.within
      omega
    · intro index inside
      by_cases early : index < n
      · exact good index early
      · obtain ⟨later, rfl⟩ := Nat.exists_eq_add_of_le (Nat.le_of_not_lt early)
        rw [← Nat.add_assoc]
        exact string.good later (by omega)
    · rw [← Nat.add_assoc]
      exact string.zero
    · intro index inside
      by_cases early : index < n
      · exact nonzero index early
      · obtain ⟨later, rfl⟩ := Nat.exists_eq_add_of_le (Nat.le_of_not_lt early)
        rw [← Nat.add_assoc]
        exact string.nonzero later (by omega)
  · intro string
    refine ⟨?_, ?_, ?_, ?_⟩
    · have within := string.within
      omega
    · intro index inside
      rw [Nat.add_assoc]
      exact string.good (n + index) (by omega)
    · rw [Nat.add_assoc]
      exact string.zero
    · intro index inside
      rw [Nat.add_assoc]
      exact string.nonzero (n + index) (by omega)

/-- No string ends in a page without a zero. -/
theorem terminated_beyond {va n max length : Nat}
    (nonzero : ∀ index, index < n -> byte (location byte root (va + index)) ≠ 0)
    (string : Terminated byte root va max length) : n ≤ length := by
  by_contra early
  exact nonzero length (by omega) string.zero

theorem Backed.copyinstrLoop (backed : Backed ram.byte root) {more va max : Nat}
    {dst : List UInt8} (enough : max ≤ more) {goal : Int × List UInt8 -> Ram -> Prop}
    (found : ∀ length, Terminated ram.byte root va max length ->
      goal (0, dst ++ userBytes ram.byte root va (length + 1)) ram)
    (missing : (∀ length, ¬ Terminated ram.byte root va max length) ->
      ∀ count, count ≤ max -> goal (-1, dst ++ userBytes ram.byte root va count) ram) :
    Meets () stop (Paging.copyinstrLoop root more va max dst) goal ram := by
  have nothing : (∀ length, ¬ Terminated ram.byte root va max length) -> goal (-1, dst) ram := by
    intro none_
    simpa [userBytes] using missing none_ 0 (Nat.zero_le _)
  induction more generalizing va max dst with
  | zero =>
    exact nothing fun length string => by
      have within := string.within
      omega
  | succ more ih =>
    rw [Paging.copyinstrLoop]
    by_cases empty : max = 0
    · rw [if_pos empty]
      exact nothing fun length string => by
        have within := string.within
        omega
    · rw [if_neg empty]
      simp only [meets_do]
      refine meets_walkaddr _ ?_
      have page : va / PGSIZE = pgRoundDown va / PGSIZE :=
        (Nat.mul_div_cancel _ (by decide)).symm
      rw [← userEntry_congr page]
      cases entry_ : userEntry ram.byte root va with
      | none =>
        simp only [map_none, getD_none, if_true, meets_pure]
        refine nothing fun length string => ?_
        have first := accessible_iff.mp (string.good 0 (Nat.zero_le _))
        rw [Nat.add_zero, entry_] at first
        cases first
      | some entry =>
        simp only [map_some, getD_some]
        rw [if_neg (backed.nonzero _ entry entry_)]
        simp only [meets_do, meets_look]
        have low : va < MAXVA :=
          (accessible_iff.mpr (isSome_iff_exists.mpr ⟨entry, entry_⟩)).1
        have offset : va - pgRoundDown va = va % PGSIZE := by
          unfold Vm.pgRoundDown PGSIZE
          omega
        have room : pgRoundDown va ≤ va ∧ va < pgRoundDown va + PGSIZE := by
          unfold Vm.pgRoundDown PGSIZE
          omega
        generalize turn : min (PGSIZE - (va - pgRoundDown va)) max = n
        have near : ∀ index, index < n -> Accessible ram.byte root (va + index) ∧
            PTE2PA entry + va % PGSIZE + index = location ram.byte root (va + index) := by
          intro index inside
          have same : (va + index) / PGSIZE = va / PGSIZE := by
            unfold Vm.pgRoundDown PGSIZE at *
            omega
          have there := (userEntry_congr same).trans entry_
          refine ⟨accessible_iff.mpr (isSome_iff_exists.mpr ⟨entry, there⟩), ?_⟩
          rw [location_eq there]
          unfold Vm.pgRoundDown PGSIZE at *
          omega
        rw [offset, next_address low]
        rcases copyBytes_cases ram.byte n (PTE2PA entry + va % PGSIZE) with
          ⟨length, inside, zero, nonzero, copied⟩ | ⟨nonzero, copied⟩
        · rw [copied, if_pos rfl, slice_page entry_ (by omega)]
          refine found length ⟨by omega, ?_, ?_, ?_⟩
          · exact fun index small => (near index (by omega)).1
          · rw [← (near length inside).2]
            exact zero
          · intro index small
            rw [← (near index (by omega)).2]
            exact nonzero index small
        · rw [copied, if_neg Bool.false_ne_true, slice_page entry_ (by omega)]
          have visible : ∀ index, index < n ->
              ram.byte (location ram.byte root (va + index)) ≠ 0 := by
            intro index small
            rw [← (near index small).2]
            exact nonzero index small
          have good := fun index small => (near index small).1
          -- The next page starts where the bytes of this one end.
          have ahead : max - n ≠ 0 -> pgRoundDown va + PGSIZE = va + n := by omega
          have none_ : (∀ length, ¬ Terminated ram.byte root (pgRoundDown va + PGSIZE)
              (max - n) length) -> ∀ length, ¬ Terminated ram.byte root va max length := by
            intro without length string
            have beyond := terminated_beyond visible string
            have within := string.within
            obtain ⟨rest, rfl⟩ := Nat.exists_eq_add_of_le beyond
            apply without rest
            rw [ahead (by omega)]
            exact (terminated_shift good visible).mpr string
          have all : max - n = 0 -> ∀ count, count ≤ max - n ->
              userBytes ram.byte root (pgRoundDown va + PGSIZE) count = [] := by
            intro done_ count small
            have zero : count = 0 := by omega
            rw [zero]
            rfl
          have more_ : ∀ count, count ≤ max - n -> dst ++ userBytes ram.byte root va n ++
                userBytes ram.byte root (pgRoundDown va + PGSIZE) count =
              dst ++ userBytes ram.byte root va (n + count) := by
            intro count small
            by_cases done_ : max - n = 0
            · have zero : count = 0 := by omega
              rw [all done_ count small, zero, append_nil, Nat.add_zero]
            · rw [ahead done_, userBytes_add, append_assoc]
          refine ih (by omega) ?_ ?_ ?_
          · intro length string
            have within := string.within
            rw [more_ (length + 1) (by omega)]
            rw [ahead (by omega)] at string
            exact found (n + length) ((terminated_shift good visible).mp string)
          · intro without count small
            rw [more_ count small]
            exact missing (none_ without) (n + count) (by omega)
          · intro without
            exact missing (none_ without) n (by omega)

/-- What `copyinstr` does. -/
theorem Backed.copyinstr (backed : Backed ram.byte root) (srcva max : Nat)
    {goal : Int × List UInt8 -> Ram -> Prop}
    (found : ∀ length, Terminated ram.byte root srcva max length ->
      goal (0, userBytes ram.byte root srcva (length + 1)) ram)
    (missing : (∀ length, ¬ Terminated ram.byte root srcva max length) ->
      ∀ count, count ≤ max -> goal (-1, userBytes ram.byte root srcva count) ram) :
    Meets () stop (Paging.copyinstr root srcva max) goal ram :=
  backed.copyinstrLoop (le_refl max) found missing

/-- `copyin` as a function of memory. -/
theorem Backed.copyin_eq (backed : Backed ram.byte root) (srcva len : Nat) :
    (Paging.copyin root srcva len).alone () ram =
      (some (if Vm.mappedCount (userPages ram.byte root) srcva len = len then 0 else -1,
        userBytes ram.byte root srcva (Vm.mappedCount (userPages ram.byte root) srcva len)),
        ram) := by
  have read : ∃ result after, (Paging.copyin root srcva len).alone () ram = (some result, after) ∧
      result = (if Vm.mappedCount (userPages ram.byte root) srcva len = len then 0 else -1,
        userBytes ram.byte root srcva (Vm.mappedCount (userPages ram.byte root) srcva len)) ∧
      after = ram := by
    apply Meets.returns
    refine backed.copyin srcva len ?_
    exact ⟨rfl, rfl⟩
  obtain ⟨_, _, read, rfl, rfl⟩ := read
  exact read

/-! ## `copyout`, and reading back -/

/-- Physical memory after the first `count` bytes of `src` were copied to `dstva`: those
bytes are at their places, and no other byte has changed. -/
structure Delivered (byte : Bytes) (root dstva : Nat) (src : List UInt8) (count : Nat)
    (byte' : Bytes) : Prop where
  inside : forall index, index < count ->
    byte' (location byte root (dstva + index)) = src.getD index 0
  outside : forall x, (forall index, index < count -> x ≠ location byte root (dstva + index)) ->
    byte' x = byte x

theorem Shows.delivered {dstva count : Nat} {src : List UInt8}
    (good : ∀ index, index < count -> Accessible byte root (dstva + index))
    (shows_ : Shows byte root (fun address => if dstva ≤ address ∧ address < dstva + count then
      src.getD (address - dstva) 0 else byte (location byte root address)) byte') :
    Delivered byte root dstva src count byte' where
  inside := by
    intro index small
    rw [shows_.inside _ (accessible_iff.mp (good index small)),
      if_pos (by omega), Nat.add_sub_cancel_left]
  outside := by
    intro x nowhere
    by_cases somewhere : ∃ va, (userEntry byte root va).isSome = true ∧ x = location byte root va
    · obtain ⟨va, accessible, rfl⟩ := somewhere
      rw [shows_.inside va accessible]
      by_cases written : dstva ≤ va ∧ va < dstva + count
      · obtain ⟨index, rfl⟩ := Nat.exists_eq_add_of_le written.1
        exact absurd rfl (nowhere index (by omega))
      · rw [if_neg written]
    · apply shows_.outside
      rintro va accessible rfl
      exact somewhere ⟨va, accessible, rfl⟩

theorem Separate.shows (separate : Separate byte root) (shows_ : Shows byte root memory byte') :
    Separate byte' root := by
  have same := separate.userEntry_same shows_
  refine ⟨⟨?_⟩, separate.aligned, ?_, ?_⟩
  · intro va entry here
    rw [same] at here
    exact separate.nonzero va entry here
  · intro va entry here
    rw [same] at here
    rintro ⟨path, short, reached⟩
    rw [Radix.descend_of_tables (fun _ => separate.table_same shows_) short] at reached
    exact separate.apart va entry here ⟨path, short, reached⟩
  · intro va va' entry entry' here here'
    rw [same] at here here'
    exact separate.injective va va' entry entry' here here'

theorem Separate.location_same (separate : Separate byte root)
    (shows_ : Shows byte root memory byte') (va : Nat) :
    location byte' root va = location byte root va := by
  rw [location, location, separate.userEntry_same shows_]

/-- A whole copy out and what `copyin` then reads. -/
theorem Separate.delivers (separate : Separate ram.byte root) (dstva : Nat) (src : List UInt8) :
    ∃ count ram', (Paging.copyout root dstva src).alone () ram =
        (some (if count = src.length then 0 else -1), ram') ∧
      UpTo ram.byte root dstva src.length count ∧
      ram' = ram.setByte ram'.byte ∧
      Delivered ram.byte root dstva src count ram'.byte ∧
      (Paging.copyin root dstva src.length).alone () ram' =
        (some (if count = src.length then 0 else -1, src.take count), ram') := by
  have upTo := @upTo_mappedCount ram.byte root dstva src.length
  generalize counted : Vm.mappedCount (userPages ram.byte root) dstva src.length = count at upTo
  have run : ∃ result ram', (Paging.copyout root dstva src).alone () ram = (some result, ram') ∧
      result = (if count = src.length then 0 else -1) ∧ ram' = ram.setByte ram'.byte ∧
      Shows ram.byte root (fun address => if dstva ≤ address ∧ address < dstva + count then
        src.getD (address - dstva) 0 else ram.byte (location ram.byte root address)) ram'.byte := by
    apply Meets.returns
    refine separate.copyout dstva src ?_
    intro byte' shows_
    rw [Vm.copyout_eq, counted] at shows_ ⊢
    refine ⟨?_, rfl, shows_⟩
    simp only [decide_eq_true_eq]
  obtain ⟨_, ram', run, rfl, frame, shows_⟩ := run
  have delivered := Shows.delivered upTo.good shows_
  refine ⟨count, ram', run, upTo, frame, delivered, ?_⟩
  have separate' := separate.shows shows_
  have pages : userPages ram'.byte root = userPages ram.byte root := by
    funext page
    rw [userPages, userPages, separate.userEntry_same shows_]
  have bytes : userBytes ram'.byte root dstva count = src.take count := by
    apply ext_getElem
    · rw [userBytes, length_map, length_range, length_take]
      exact (Nat.min_eq_left upTo.within).symm
    · intro index small small'
      have inside : index < count := by simpa [userBytes] using small
      have within := upTo.within
      simp only [userBytes, getElem_map, getElem_range, getElem_take]
      rw [separate.location_same shows_, delivered.inside index inside]
      simp [show index < src.length by omega]
  rw [separate'.copyin_eq, pages, counted, bytes]

theorem Terminated.unique {va max length length' : Nat}
    (string : Terminated byte root va max length)
    (string' : Terminated byte root va max length') : length = length' := by
  rcases Nat.lt_trichotomy length length' with less | same | more
  · exact absurd string.zero (string'.nonzero length less)
  · exact same
  · exact absurd string'.zero (string.nonzero length' more)

theorem Backed.readsString (backed : Backed ram.byte root) (srcva max : Nat) :
    ∃ result dst, (Paging.copyinstr root srcva max).alone () ram = (some (result, dst), ram) ∧
      (result = 0 ∨ result = -1) ∧ dst.length ≤ max ∧
      (result = 0 <-> ∃ length, Terminated ram.byte root srcva max length) ∧
      ∀ length, Terminated ram.byte root srcva max length ->
        dst = userBytes ram.byte root srcva (length + 1) := by
  have read : ∃ value after, (Paging.copyinstr root srcva max).alone () ram = (some value, after) ∧
      after = ram ∧ (value.1 = 0 ∨ value.1 = -1) ∧ value.2.length ≤ max ∧
      (value.1 = 0 <-> ∃ length, Terminated ram.byte root srcva max length) ∧
      ∀ length, Terminated ram.byte root srcva max length ->
        value.2 = userBytes ram.byte root srcva (length + 1) := by
    have size : ∀ count, (userBytes ram.byte root srcva count).length = count := by
      intro count
      rw [userBytes, length_map, length_range]
    apply Meets.returns
    refine backed.copyinstr srcva max ?_ ?_
    · intro length string
      refine ⟨rfl, Or.inl rfl, ?_, ⟨fun _ => ⟨length, string⟩, fun _ => rfl⟩, ?_⟩
      · rw [size]
        exact string.within
      · intro other string'
        rw [string.unique string']
    · intro without count small
      refine ⟨rfl, Or.inr rfl, ?_, ⟨fun zero => ?_, ?_⟩, ?_⟩
      · rw [size]
        exact small
      · cases zero
      · rintro ⟨length, string⟩
        exact absurd string (without length)
      · intro length string
        exact absurd string (without length)
  obtain ⟨⟨result, dst⟩, _, read, rfl, facts⟩ := read
  exact ⟨result, dst, read, facts⟩

/-! ## The whole -/

/-- The copies between the kernel and a user who has no page at physical address 0:
`copyout` and `copyin` return 0 exactly if the user may access every byte of the range;
they move exactly the bytes in front of the first one that the user may not access, and
`copyin` finds what `copyout` has left; `copyinstr` returns 0 exactly if there is a string
within its limit, which `dst` then holds.  For `copyout` the user's pages are different
pages of memory that hold no table. -/
theorem user_copies_respect_page_table (backed : Backed ram.byte root) :
    (Separate ram.byte root -> forall dstva (src : List UInt8), ∃ count ram',
      (copyout root dstva src).alone () ram =
        (some (if count = src.length then 0 else -1), ram') ∧
      UpTo ram.byte root dstva src.length count ∧
      (count = src.length <->
        forall index, index < src.length -> Accessible ram.byte root (dstva + index)) ∧
      ram' = ram.setByte ram'.byte ∧ Delivered ram.byte root dstva src count ram'.byte ∧
      (copyin root dstva src.length).alone () ram' =
        (some (if count = src.length then 0 else -1, src.take count), ram')) ∧
    (forall srcva len, ∃ count,
      (copyin root srcva len).alone () ram =
        (some (if count = len then 0 else -1, userBytes ram.byte root srcva count), ram) ∧
      UpTo ram.byte root srcva len count ∧
      (count = len <-> forall index, index < len -> Accessible ram.byte root (srcva + index))) ∧
    (forall srcva max, ∃ result dst,
      (copyinstr root srcva max).alone () ram = (some (result, dst), ram) ∧
      (result = 0 ∨ result = -1) ∧ dst.length ≤ max ∧
      (result = 0 <-> ∃ length, Terminated ram.byte root srcva max length) ∧
      forall length, Terminated ram.byte root srcva max length ->
        dst = userBytes ram.byte root srcva (length + 1)) := by
  refine ⟨?_, ?_, ?_⟩
  · intro separate dstva src
    obtain ⟨count, ram', run, upTo, frame, delivered, read⟩ := separate.delivers dstva src
    exact ⟨count, ram', run, upTo, upTo.complete_iff, frame, delivered, read⟩
  · intro srcva len
    have upTo := @upTo_mappedCount ram.byte root srcva len
    exact ⟨_, backed.copyin_eq srcva len, upTo, upTo.complete_iff⟩
  · exact backed.readsString

/-! ## Small page tables -/

/-- An entry for a page of the user. -/
def userPage (pa : Nat) : Nat := PA2PTE pa ||| (PTE_V ||| PTE_R ||| PTE_W ||| PTE_U)

/-- Three tables, and one entry in the last. -/
def oneEntry (entry : Nat) : Ram where
  byte := ((Bytes.zero.setWord 4096 8 (PA2PTE 8192 ||| PTE_V)).setWord 8192 8
    (PA2PTE 12288 ||| PTE_V)).setWord 12288 8 entry
  freelist := []
  panicked := none

theorem entries_setFirst {page value table : Nat} (aligned : page % PGSIZE = 0)
    (aligned' : table % PGSIZE = 0) (small : value < 256 ^ 8) (position : Fin 512) :
    entries (byte.setWord page 8 value) table position =
      if table = page ∧ position = 0 then value else entries byte table position := by
  change entries (byte.setWord (page + 8 * (0 : Fin 512).val) 8 value) table position = _
  by_cases here : table = page ∧ position = 0
  · rw [if_pos here, here.1, here.2]
    exact entries_setWord_self small
  · rw [if_neg here]
    exact entries_setWord_other aligned aligned' here

theorem oneEntry_entries {entry table : Nat} (aligned : table % PGSIZE = 0)
    (small : entry < 256 ^ 8) (position : Fin 512) :
    entries (oneEntry entry).byte table position =
      if table = 12288 ∧ position = 0 then entry
      else if table = 8192 ∧ position = 0 then PA2PTE 12288 ||| PTE_V
      else if table = 4096 ∧ position = 0 then PA2PTE 8192 ||| PTE_V else 0 := by
  have blank : entries Bytes.zero table position = 0 := Bytes.word_zero
  rw [oneEntry, entries_setFirst (by decide) aligned small,
    entries_setFirst (by decide) aligned (by decide),
    entries_setFirst (by decide) aligned (by decide), blank]

/-- Only the way through the first entries leads on. -/
theorem oneEntry_descend {entry table : Nat} (small : entry < 256 ^ 8) {path : List (Fin 512)}
    (short : path.length ≤ 2) (here : descend (oneEntry entry).byte 4096 path = some table) :
    (∀ position, position ∈ path -> position = 0) ∧ table = 4096 + path.length * 4096 := by
  have first : ∀ position, pointer (entries (oneEntry entry).byte 4096 position) =
      if position = 0 then some 8192 else none := by
    intro position
    rw [oneEntry_entries (by decide) small]
    by_cases zero : position = 0
    · simp [zero]
      decide
    · simp [zero, pointer_zero]
  have second : ∀ position, pointer (entries (oneEntry entry).byte 8192 position) =
      if position = 0 then some 12288 else none := by
    intro position
    rw [oneEntry_entries (by decide) small]
    by_cases zero : position = 0
    · simp [zero]
      decide
    · simp [zero, pointer_zero]
  rcases path with _ | ⟨position, _ | ⟨position', _ | ⟨_, rest⟩⟩⟩
  · simp_all [Radix.descend]
  · simp only [Radix.descend, first] at here
    by_cases zero : position = 0
    · simp_all
    · simp_all
  · simp only [Radix.descend, first] at here
    by_cases zero : position = 0
    · simp only [zero, if_true, bind_some, second] at here
      by_cases zero' : position' = 0
      · simp_all
      · simp_all
    · simp_all
  · simp at short

theorem oneEntry_userEntry {entry va found : Nat} (small : entry < 256 ^ 8)
    (here : userEntry (oneEntry entry).byte 4096 va = some found) :
    va / PGSIZE = 0 ∧ found = entry := by
  unfold userEntry at here
  by_cases low : va < MAXVA
  · rw [if_pos low] at here
    obtain ⟨table, way, read, valid⟩ :=
      translation_eq_some_iff.mp (filter_eq_some_iff.mp here).1
    have zeros := oneEntry_descend small (le_of_eq (length_pathFrom va 2)) way
    rw [length_pathFrom] at zeros
    rw [zeros.2, oneEntry_entries (by decide) small] at read
    simp only [pathFrom, mem_cons, not_mem_nil, or_false, forall_eq_or_imp, forall_eq] at zeros
    by_cases zero : index 0 va = 0
    · refine ⟨?_, ?_⟩
      · rw [page_of_indices (lt_sv39 low), zeros.1.1, zeros.1.2, zero]
        rfl
      · simpa [zero] using read.symm
    · rw [if_neg (by simp [zero]), if_neg (by simp [zero]), if_neg (by simp [zero])] at read
      rw [← read] at valid
      exact absurd rfl valid
  · rw [if_neg low] at here
    cases here

/-- One user page of its own. -/
theorem oneEntry_separate : Separate (oneEntry (userPage 16384)).byte 4096 := by
  have small : userPage 16384 < 256 ^ 8 := by decide
  refine ⟨⟨?_⟩, by decide, ?_, ?_⟩
  · intro va entry here
    rw [(oneEntry_userEntry small here).2]
    decide
  · rintro va entry here ⟨path, short, reached⟩
    have place := (oneEntry_descend small short reached).2
    have page : PTE2PA (userPage 16384) = 16384 := by decide
    rw [(oneEntry_userEntry small here).2, page] at place
    omega
  · intro va va' entry entry' here here' _
    rw [(oneEntry_userEntry small here).1, (oneEntry_userEntry small here').1]

/-- A copy to the last two bytes of the page succeeds and is read back. -/
theorem copyout_one_page : ∃ ram',
    (copyout 4096 4094 [7, 8]).alone () (oneEntry (userPage 16384)) = (some 0, ram') ∧
      (copyin 4096 4094 2).alone () ram' = (some (0, [7, 8]), ram') := by
  obtain ⟨count, ram', run, upTo, complete, _, _, read⟩ :=
    (user_copies_respect_page_table oneEntry_separate.toBacked).1 oneEntry_separate 4094 [7, 8]
  have both : ∀ va, va < PGSIZE -> Accessible (oneEntry (userPage 16384)).byte 4096 va := by
    intro va inside
    refine ⟨lt_trans inside (by decide), userPage 16384, ?_, by decide⟩
    have low : va / PGSIZE = 0 / PGSIZE := by
      rw [Nat.div_eq_of_lt inside, Nat.zero_div]
    rw [translation_congr low]
    decide +kernel
  have all := complete.mpr fun index small => both _ (by
    simp only [length_cons, length_nil] at small
    unfold PGSIZE
    omega)
  rw [all, if_pos rfl] at run read
  exact ⟨ram', run, read⟩

/-- The page is mapped at the two lowest pages of the user. -/
def twoEntries (entry : Nat) : Ram :=
  { oneEntry entry with byte := (oneEntry entry).byte.setWord 12296 8 entry }

/-- One byte more than a page. -/
def longText : List UInt8 := List.replicate 4096 7 ++ [8]

/-- Nothing can be copied to a user page at physical address 0.  A copy to two pages in
the same place loses its first byte.  A copy to a page that holds the table takes the page
away from the user. -/
theorem copyout_unseparated :
    (Accessible (oneEntry (userPage 0)).byte 4096 0 ∧
      ((copyout 4096 0 [7]).alone () (oneEntry (userPage 0))).1 = some (-1)) ∧
    (((copyout 4096 0 longText).alone () (twoEntries (userPage 16384))).1 = some 0 ∧
      ((copyin 4096 0 4097).alone () ((copyout 4096 0 longText).alone ()
        (twoEntries (userPage 16384))).2).1 ≠ some (0, longText)) ∧
    (((copyout 4096 0 (List.replicate 8 0)).alone () (oneEntry (userPage 12288))).1 = some 0 ∧
      ((copyin 4096 0 8).alone () ((copyout 4096 0 (List.replicate 8 0)).alone ()
        (oneEntry (userPage 12288))).2).1 = some (-1, [])) := by
  refine ⟨⟨⟨by decide, userPage 0, ?_, by decide⟩, ?_⟩, ⟨?_, ?_⟩, ?_, ?_⟩
  · decide +kernel
  · decide +kernel
  · decide +kernel
  · decide +kernel
  · decide +kernel
  · decide +kernel

end Paging
end Xv6
