import Xv6.Fs.Transfer
import Xv6.Fs.Calls

namespace Xv6
namespace Fs

open Conc Finset

/-!
# Directories inside an operation

The routines that read a directory leave the state alone, except that a lookup
takes a reference to the inode that it finds.  A new entry is a write of one
directory entry, and so is the removal of one.
-/

namespace Volume

/-- The directory entry at an offset. -/
def dirent (vol : Volume) (dir off : Nat) : Dirent :=
  Dirent.decode (((vol.contents dir).drop off).take DESIZE)

/-- The entry at an offset of a directory is in use. -/
structure Names (vol : Volume) (dir off : Nat) : Prop where
  entry : off ∈ offsets 0 (vol.node dir).size
  inside : off + DESIZE ≤ (vol.node dir).size
  used : (vol.dirent dir off).inum ≠ 0

theorem length_contents (vol : Volume) (inum : Nat) :
    (vol.contents inum).length = (vol.node inum).size := by
  rw [contents, List.length_map, List.length_range]

end Volume

theorem mem_offsets {first size off : Nat} : off ∈ offsets first size <->
      ∃ index, first ≤ index ∧ DESIZE * index < size ∧ off = DESIZE * index := by
  unfold offsets
  rw [List.range_eq_range', List.drop_range', List.mem_map]
  simp only [List.mem_range'_1]
  have positive : DESIZE = 16 := rfl
  constructor
  · rintro ⟨index, ⟨low, high⟩, rfl⟩
    refine ⟨index, by omega, ?_, rfl⟩
    rw [positive] at high ⊢
    omega
  · rintro ⟨index, low, below, rfl⟩
    refine ⟨index, ⟨by omega, ?_⟩, rfl⟩
    rw [positive] at below ⊢
    omega

section Entries

variable {sb : Superblock} {stop : State -> Prop} {past : List (List Nat)}
  {blocks : Finset Nat} {state : State} {count : Nat} {p : Pid} {dp : Entry}
  {name : List UInt8}

theorem Op.size_le (op : Op sb past blocks state) (held : Held p dp state) :
    (state.disk.node (state.entry dp).inum).size ≤ MAXFILE * BSIZE := by
  have sound := op.sound held
  have bound := sound.filled.size_le
  rwa [op.settled.seen_eq held.referenced held.valid] at bound

theorem Op.offset_lt (op : Op sb past blocks state) (held : Held p dp state) {first off : Nat}
    (member : off ∈ offsets first (state.entry dp).node.size) : off + DESIZE < 2 ^ 32 := by
  have bound := op.size_le held
  rw [← op.settled.clean dp held.referenced held.valid] at bound
  obtain ⟨index, _, below, rfl⟩ := mem_offsets.mp member
  have limit : MAXFILE * BSIZE + DESIZE < 2 ^ 32 := by decide
  omega

/-- A directory entry is read completely or the kernel panics. -/
theorem Op.readDirent (op : Op sb past blocks state) (fits : Fits stop sb past count)
    (within : blocks.card ≤ count) (held : Held p dp state) {off : Nat} {why : Panic}
    (elsewhere : why ≠ .freeingFreeBlock) (small : off + DESIZE < 2 ^ 32)
    {goal : Dirent -> State -> Prop}
    (next : off + DESIZE ≤ (state.disk.node (state.entry dp).inum).size ->
      goal (state.disk.dirent (state.entry dp).inum off) state) :
    Meets () stop (readDirent sb dp off why) goal state := by
  simp only [Fs.readDirent, meets_do]
  refine op.readi held (by omega) (by decide) ?_ ?_
  · rintro bytes rfl
    rw [if_pos small]
    split
    · exact op.panics fits within elsewhere
    · next complete =>
        rw [List.length_take, List.length_drop, Volume.length_contents] at complete
        refine (meets_pure _).mpr (next ?_)
        have positive : 0 < DESIZE := by decide
        omega
  · exact fun refused => absurd (Sink.kernel_accepts _) refused

/-- A loop over the entries of a directory that does not change anything before it
ends. -/
theorem Op.scan {α : Type} (op : Op sb past blocks state) (fits : Fits stop sb past count)
    (within : blocks.card ≤ count) (held : Held p dp state) {first : Nat} {why : Panic}
    (elsewhere : why ≠ .freeingFreeBlock) {body : Dirent -> Nat -> Routine (Option α)}
    {goal : Option α -> State -> Prop}
    (step : ∀ off, off ∈ offsets first (state.disk.node (state.entry dp).inum).size ->
      off + DESIZE ≤ (state.disk.node (state.entry dp).inum).size ->
      Meets () stop (body (state.disk.dirent (state.entry dp).inum off) off)
        (fun result after => result = none ∧ after = state ∨
          ∃ value, result = some value ∧ goal (some value) after) state)
    (miss : goal none state) :
    Meets () stop (Prog.firstSome (fun off => do
      let de ← Fs.readDirent sb dp off why
      body de off) (offsets first (state.entry dp).node.size)) goal state := by
  have clean := op.settled.clean dp held.referenced held.valid
  refine (meets_firstSome (fun items after => after = state ∧ ∀ off, off ∈ items ->
    off ∈ offsets first (state.entry dp).node.size) (fun value => goal (some value)) ?_ ?_).mono ?_
  · rintro off items after ⟨rfl, range⟩
    have member := range off List.mem_cons_self
    simp only [meets_do]
    refine op.readDirent fits within held elsewhere (op.offset_lt held member) fun inside => ?_
    refine (step off (clean ▸ member) inside).mono ?_
    rintro result later (⟨rfl, rfl⟩ | ⟨value, rfl, found⟩)
    · exact ⟨rfl, fun other rest => range other (List.mem_cons_of_mem _ rest)⟩
    · exact found
  · exact ⟨rfl, fun _ => id⟩
  · intro result after held
    cases result with
    | some value => exact held
    | none => exact held.1 ▸ miss

/-- `dirlookup` takes a reference to the inode that it finds. -/
theorem Op.dirlookup (op : Op sb past blocks state) (fits : Fits stop sb past count)
    (within : blocks.card ≤ count) (held : Held p dp state)
    {goal : Option (Entry × Nat) -> State -> Prop} (absent : goal none state)
    (found : ∀ off ip after, (state.entry dp).node.type = T_DIR ->
      state.disk.Names (state.entry dp).inum off -> Op sb past blocks after ->
      Got (state.disk.dirent (state.entry dp).inum off).inum state ip after ->
      goal (some (ip, off)) after) :
    Meets () stop (dirlookup sb dp name) goal state := by
  simp only [Fs.dirlookup, meets_do, meets_look]
  split
  · exact op.panics fits within (by decide)
  · next directory =>
      have type : (state.entry dp).node.type = T_DIR := not_not.mp directory
      refine @Op.scan sb stop past blocks state count p dp (Entry × Nat) op fits within held 0
        .dirlookupRead (by decide) (fun de off =>
          if de.inum = 0 then pure none
          else if namecmp name de.name = 0 then do
            let ip ← Fs.iget de.inum
            pure (some (ip, off))
          else pure none) goal ?_ absent
      intro off member inside
      split
      · exact (meets_pure _).mpr (Or.inl ⟨rfl, rfl⟩)
      · next used =>
          split
          · simp only [meets_do]
            refine op.iget fits within fun ip after op' got => (meets_pure _).mpr ?_
            exact Or.inr ⟨_, rfl, found off ip after type ⟨member, inside, used⟩ op' got⟩
          · exact (meets_pure _).mpr (Or.inl ⟨rfl, rfl⟩)

/-- The offset for a new entry is that of a free one, or the end of the
directory. -/
theorem Op.emptySlot (op : Op sb past blocks state) (fits : Fits stop sb past count)
    (within : blocks.card ≤ count) (held : Held p dp state) {goal : Nat -> State -> Prop}
    (next : ∀ off, DESIZE ∣ off -> off < 2 ^ 32 -> goal off state) :
    Meets () stop (emptySlot sb dp) goal state := by
  have bound := op.size_le held
  have limit : MAXFILE * BSIZE + 2 * DESIZE < 2 ^ 32 := by decide
  simp only [Fs.emptySlot, meets_do, meets_look]
  refine @Op.scan sb stop past blocks state count p dp Nat op fits within held 0 .dirlinkRead
    (by decide) (fun de off => pure (if de.inum = 0 then some off else none)) _ ?_ ?_
  · intro off member inside
    rw [meets_pure]
    split
    · obtain ⟨index, _, _, rfl⟩ := mem_offsets.mp member
      have small : DESIZE * index < 2 ^ 32 := by omega
      exact Or.inr ⟨_, rfl, (meets_pure _).mpr (next _ (Nat.dvd_mul_right _ _) small)⟩
    · exact Or.inl ⟨rfl, rfl⟩
  · have rounded := Nat.mul_div_le ((state.entry dp).node.size + DESIZE - 1) DESIZE
    rw [← op.settled.clean dp held.referenced held.valid] at bound
    refine (meets_pure _).mpr (next _ (Nat.dvd_mul_right _ _) (rounded.trans_lt ?_))
    omega

/-- `isdirempty` looks at all entries but the first two. -/
theorem Op.isdirempty (op : Op sb past blocks state) (fits : Fits stop sb past count)
    (within : blocks.card ≤ count) (held : Held p dp state) {goal : Bool -> State -> Prop}
    (next : ∀ value, goal value state) :
    Meets () stop (isdirempty sb dp) goal state := by
  simp only [Fs.isdirempty, meets_do, meets_look]
  refine @Op.scan sb stop past blocks state count p dp Unit op fits within held 2 .isdiremptyReadi
    (by decide) (fun de _ => pure (if de.inum ≠ 0 then some () else none)) _ ?_
    ((meets_pure _).mpr (next true))
  intro off member inside
  rw [meets_pure]
  split
  · exact Or.inr ⟨(), rfl, (meets_pure _).mpr (next false)⟩
  · exact Or.inl ⟨rfl, rfl⟩

/-! ## New entries -/

/-- Writing a directory entry touches one block and perhaps the indirect one. -/
theorem card_slotsOf_entry {off : Nat} (aligned : DESIZE ∣ off) :
    (slotsOf off DESIZE).card ≤ 2 := by
  have size : DESIZE = 16 := rfl
  have blocks := card_slotsOf_le off DESIZE
  obtain ⟨index, rfl⟩ := aligned
  unfold BSIZE at blocks
  rw [size] at *
  omega

theorem Op.dirlink (op : Op sb past blocks state) (fits : Fits stop sb past count)
    (within : blocks.card + 2 ≤ count) (held : Held p dp state)
    (allowed : sb.IBLOCK (state.entry dp).inum ∈ blocks) {inum : Nat}
    {goal : Int -> State -> Prop}
    (exists_ : ∀ inum ip middle after, Got inum state ip middle -> Put ip middle after ->
      Op sb past (insert (sb.IBLOCK (middle.entry ip).inum) blocks) after -> goal (-1) after)
    (linked : ∀ data after, data.card ≤ 2 -> Op sb past (blocks ∪ data) after ->
      Steady state after -> Refreshed dp state after -> goal 0 after) :
    Meets () stop (dirlink sb p dp name inum) goal state := by
  simp only [Fs.dirlink, meets_do]
  refine op.dirlookup fits (by omega) held ?_ ?_
  · simp only [meets_do]
    refine op.emptySlot fits (by omega) held fun off aligned small => ?_
    have card := card_slotsOf_entry aligned
    refine op.writei fits (by omega) held allowed small (by decide) ?_
    intro value data new few op' steady refreshed
    split
    · refine op'.panics fits ?_ (by decide)
      exact (card_union_le blocks data).trans (by omega)
    · exact (meets_pure _).mpr (linked data new (few.trans card) op' steady refreshed)
  · intro off ip middle _ _ op' got
    simp only [meets_do]
    have card := card_insert_le (sb.IBLOCK (middle.entry ip).inum) blocks
    refine (op'.mono (subset_insert _ blocks)).iput fits (by omega)
      (fun _ => mem_insert_self _ _) fun after final put => ?_
    exact (meets_pure _).mpr (exists_ _ ip middle after got put final)

end Entries

end Fs
end Xv6
