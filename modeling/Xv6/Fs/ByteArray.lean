import Xv6.Fs.Writing

namespace Xv6
namespace Fs

open Conc Function List

/-!
# Files as byte arrays

What a file is for: a sequence of bytes that `readi` shows and `writei`
overlays.  The blocks, the allocation and the other files are invisible at this
level.
-/

/-- The old bytes with `data` in place of those from `off` on. -/
def overlay (old : List UInt8) (off : Nat) (data : List UInt8) : List UInt8 :=
  old.take off ++ data ++ old.drop (off + data.length)

/-- The first `n` bytes of a source. -/
def Source.bytes (src : Source) (n : Nat) : List UInt8 := (List.range n).map src.byte

theorem overlay_map {f g : Nat -> UInt8} {off size n : Nat} (inside : off ≤ size) :
    overlay ((List.range size).map f) off ((List.range n).map g) =
      (List.range (max size (off + n))).map fun pos =>
        if off ≤ pos ∧ pos < off + n then g (pos - off) else f pos := by
  have length : (overlay ((List.range size).map f) off ((List.range n).map g)).length =
      max size (off + n) := by
    simp only [overlay, length_append, length_take, length_map, length_range, length_drop]
    omega
  apply ext_getElem
  · rw [length, length_map, length_range]
  · intro pos left right
    rw [length] at left
    simp only [overlay, getElem_append, length_append, length_take,
      length_map, length_range, getElem_take, getElem_map,
      getElem_range, getElem_drop]
    split_ifs <;> first | rfl | omega | (congr 1; omega)

namespace Volume

variable {sb : Superblock} {inum off put tot : Nat} {slots : Finset Nat} {old new : Volume}
  {src : Nat -> UInt8}

theorem resize_pointer (vol : Volume) (inum size other slot : Nat) :
    (vol.resize inum size).pointer other slot = vol.pointer other slot := by
  have node : ((vol.resize inum size).node other).type = (vol.node other).type ∧
      ((vol.resize inum size).node other).addrs = (vol.node other).addrs := by
    unfold resize
    by_cases same : other = inum
    · subst same
      simp only [update_self, and_self]
    · simp only [update_of_ne same, and_self]
  apply pointer_congr
  · rw [node.1]
  · intro index _
    rw [node.2]
  · exact fun _ => rfl

theorem resize_byte (vol : Volume) (inum size other pos : Nat) :
    (vol.resize inum size).byte other pos = vol.byte other pos := by
  rw [byte, resize_pointer]
  rfl

section

variable (grown : Grown sb inum slots old new)

include grown

/-- The bytes of a file that has been written. -/
theorem Grown.byte (holds : Holds inum off put src old new) (covers : Covers new inum off tot)
    (filled : old.Filled inum) (counted : tot ≤ put) {pos : Nat}
    (inside : pos < (old.node inum).size ∨ off ≤ pos ∧ pos < off + tot) :
    new.byte inum pos =
      if off ≤ pos ∧ pos < off + put then src (pos - off) else old.byte inum pos := by
  have before : pos < (old.node inum).size -> old.pointer inum (slotOf (pos / BSIZE)) ≠ 0 := by
    intro below
    apply filled
    have start := Nat.div_mul_le_self pos BSIZE
    omega
  have present : new.pointer inum (slotOf (pos / BSIZE)) ≠ 0 := by
    rcases inside with below | ⟨low, high⟩
    · rw [grown.kept _ (before below)]
      exact before below
    · exact covers pos low high
  rw [holds pos present]
  split
  · rfl
  · rw [if_neg (before (by omega))]

/-- A file has no holes after it has been extended over the written range. -/
theorem Grown.filled (covers : Covers new inum off tot) (filled : old.Filled inum)
    (inside : off ≤ (old.node inum).size) :
    (new.resize inum (max (old.node inum).size (off + tot))).Filled inum := by
  intro bn below
  rw [resize_pointer]
  simp only [resize, update_self] at below
  by_cases before : bn * BSIZE < (old.node inum).size
  · have present := filled bn before
    rw [grown.kept _ present]
    exact present
  · have present := covers (bn * BSIZE) (by omega) (by omega)
    rwa [Nat.mul_div_cancel _ (show 0 < BSIZE by decide)] at present

/-- After a complete write the file holds the old bytes overlaid with the new
ones. -/
theorem Grown.contents (holds : Holds inum off tot src old new) (covers : Covers new inum off tot)
    (filled : old.Filled inum) (inside : off ≤ (old.node inum).size) :
    (new.resize inum (max (old.node inum).size (off + tot))).contents inum =
      overlay (old.contents inum) off ((List.range tot).map src) := by
  unfold Volume.contents
  rw [overlay_map inside]
  simp only [resize, update_self]
  apply map_congr_left
  intro pos below
  rw [mem_range] at below
  refine Eq.trans (resize_byte new inum _ inum pos) ?_
  exact grown.byte holds covers filled (le_refl tot) (by omega)

/-- Another file is not affected. -/
theorem Grown.contents_other (owned : old.Owned sb) (size : Nat) {other : Nat}
    (different : other ≠ inum) : (new.resize inum size).contents other = old.contents other := by
  have node : (new.resize inum size).node other = old.node other :=
    (update_of_ne different _ _).trans (grown.others other different)
  have marked : ∀ slot, old.used (old.pointer other slot) = true := by
    intro slot
    by_cases absent : old.pointer other slot = 0
    · rw [absent]
      refine owned.reserved 0 ?_ Superblock.zero_not_data
      have bitmap := sb.bitmap
      generalize sb.size / BPB = maps at bitmap
      omega
    · exact owned.marked other slot absent
  unfold Volume.contents
  rw [node]
  apply map_congr_left
  intro pos _
  rw [resize_byte, Volume.byte, grown.foreign other _ different, Volume.byte,
    grown.data _ (marked _)]
  intro slot present same
  exact different (owned.once inum slot other _ present same).1.symm

end

end Volume

/-! ## The routines -/

/-- An allocated inode without holes, in an operation on a volume in which every
block has one owner. -/
structure Sound (sb : Superblock) (ip : Entry) (state : State) : Prop where
  running : 1 ≤ state.outstanding
  allocated : (state.entry ip).node.type ≠ 0
  owned : (state.seen ip).Owned sb
  filled : (state.seen ip).Filled (state.entry ip).inum
  distinct : state.log.Nodup

section Main

variable {sb : Superblock} {ip : Entry} {src : Source} {off n : Nat} {old new : State}

/-- Without free blocks, what is still missing was missing from the start. -/
theorem Progress.not_full {tot slot : Nat}
    (enough : (old.seen ip).missing (old.entry ip).inum (slotsOf off n) ≤ (old.seen ip).free sb)
    (progress : Progress sb ip src off n old tot new) (member : slot ∈ slotsOf off n)
    (vacant : (new.seen ip).pointer (old.entry ip).inum slot = 0)
    (used : ∀ block, block < sb.size -> new.disk.used block = true) : False := by
  have none : (new.seen ip).free sb = 0 := by
    refine Finset.card_eq_zero.mpr (Finset.filter_eq_empty_iff.mpr ?_)
    intro block inside
    rw [seen_used, used block (Finset.mem_range.mp inside)]
    decide
  have some_ : 0 < (new.seen ip).missing (old.entry ip).inum (slotsOf off n) :=
    Finset.card_pos.mpr ⟨slot, Finset.mem_filter.mpr ⟨member, vacant⟩⟩
  have count := progress.grown.count
  omega

/-- What holds after a complete write, in terms of the bytes of the files. -/
structure Wrote (ip : Entry) (off n : Nat) (src : Source) (old new : State) : Prop where
  size : (new.entry ip).node.size = max (old.entry ip).node.size (off + n)
  allocated : (new.entry ip).node.type ≠ 0
  filled : (new.seen ip).Filled (new.entry ip).inum
  contents : (new.seen ip).contents (new.entry ip).inum =
    overlay ((old.seen ip).contents (old.entry ip).inum) off (src.bytes n)
  others : forall inum, inum ≠ (old.entry ip).inum ->
    new.disk.node inum = old.disk.node inum ∧ new.disk.contents inum = old.disk.contents inum
  entries : forall jp, jp ≠ ip -> new.entry jp = old.entry jp

/-- The volume on the disk and the one the kernel sees agree on other inodes. -/
theorem contents_seen {state : State} {inum : Nat} (different : inum ≠ (state.entry ip).inum) :
    (state.seen ip).contents inum = state.disk.contents inum := by
  have node := @seen_node_other state ip inum different
  have pointer : ∀ slot, (state.seen ip).pointer inum slot = state.disk.pointer inum slot := by
    intro slot
    simp only [Volume.pointer, node, seen_data]
  unfold Volume.contents Volume.byte
  simp only [node, pointer, seen_data]

theorem Progress.wrote (sound : Sound sb ip old) (accepted : Accepted ip off n old)
    (progress : Progress sb ip src off n old n new) :
    Wrote ip off n src old (new.finish sb ip (off + n)) := by
  have here := progress.frame.inum
  have size : ((old.seen ip).node (old.entry ip).inum).size = (old.entry ip).node.size := by
    rw [seen_node_self]
  have inside : off ≤ ((old.seen ip).node (old.entry ip).inum).size := size ▸ accepted.1
  have seen : (new.finish sb ip (off + n)).seen ip = (new.seen ip).resize (old.entry ip).inum
      (max ((old.seen ip).node (old.entry ip).inum).size (off + n)) := by
    rw [finish_seen, here, progress.size, size]
  have number : ((new.finish sb ip (off + n)).entry ip).inum = (old.entry ip).inum := by
    rw [finish_entry_self, here]
  refine ⟨?_, ?_, ?_, ?_, ?_, ?_⟩
  · rw [finish_entry_self, progress.size]
  · rw [finish_entry_self]
    exact (progress.type).symm ▸ sound.allocated
  · rw [seen, number]
    exact progress.grown.filled progress.covers sound.filled inside
  · rw [seen, number]
    exact progress.grown.contents progress.holds progress.covers sound.filled inside
  · intro inum different
    rw [finish_disk, seen]
    constructor
    · refine (update_of_ne different _ _).trans ?_
      rw [progress.grown.others inum different, seen_node_other different]
    · rw [progress.grown.contents_other sound.owned _ different, contents_seen different]
  · intro jp different
    rw [finish_entry_other different]
    exact progress.frame.entry jp different

/-- `readi` and `writei` implement a byte array, as long as the log has room for
the blocks that the write touches.  `readi` shows nothing if the sum of its
arguments wraps.  A refused write changes nothing, whatever the inode, the data
and the log are. -/
theorem writei_byte_array (small : off < 2 ^ 32) (short : n < 2 ^ 32) :
    (Accepted ip off n old -> Sound sb ip old -> src.avail n = n ->
      (old.seen ip).missing (old.entry ip).inum (slotsOf off n) ≤ (old.seen ip).free sb ->
      old.log.length + maps sb + (slotsOf off n).card < logLimit sb -> ∃ new,
      (writei sb ip src off n).alone () old = (some (n : Int), new) ∧
      (new.entry ip).node.size = max (old.entry ip).node.size (off + n) ∧
      (forall dst off' n', off' < 2 ^ 32 -> n' < 2 ^ 32 -> Sink.Accepts dst n' ->
        ∃ bytes, bytes = (if off' + n' < 2 ^ 32 then
            ((overlay ((old.seen ip).contents (old.entry ip).inum) off (src.bytes n)).drop
              off').take n'
          else []) ∧
        (readi sb ip dst off' n').alone () new = (some ((bytes.length : Int), bytes), new)) ∧
      (forall inum, inum ≠ (old.entry ip).inum ->
        new.disk.node inum = old.disk.node inum ∧
        new.disk.contents inum = old.disk.contents inum) ∧
      forall jp, jp ≠ ip -> new.entry jp = old.entry jp) ∧
    (¬ Accepted ip off n old ->
      (writei sb ip src off n).alone () old = (some (-1), old)) := by
  constructor
  · intro accepted sound supplied enough room
    have run : Meets () (fun _ => False) (writei sb ip src off n)
        (fun value new => value = n ∧ Wrote ip off n src old new) old := by
      refine meets_writei small short (fun _ => ⟨sound.running, sound.allocated, sound.owned,
        sound.distinct, accepted.2.2⟩) (Or.inr room) (fun refused => (refused accepted).elim)
        (fun new _ _ progress => ⟨rfl, progress.wrote sound accepted⟩) ?_ ?_
      · intro tot new _ more _ shortage
        rw [supplied] at shortage
        have bound := chunk_le (off + tot) (n - tot)
        omega
      · intro tot slot new _ progress member vacant used
        exact progress.not_full enough member vacant used
    obtain ⟨value, new, ran, rfl, wrote⟩ := run.returns
    refine ⟨new, ran, wrote.size, ?_, wrote.others, wrote.entries⟩
    intro dst off' n' small' short' accepts
    refine ⟨_, rfl, ?_⟩
    have read : Meets () (fun _ => False) (readi sb ip dst off' n') (fun value after =>
        after = new ∧ value = (((if off' + n' < 2 ^ 32 then
          ((overlay ((old.seen ip).contents (old.entry ip).inum) off (src.bytes n)).drop
            off').take n' else []).length : Int), if off' + n' < 2 ^ 32 then
          ((overlay ((old.seen ip).contents (old.entry ip).inum) off (src.bytes n)).drop
            off').take n' else [])) new := by
      refine meets_readi wrote.allocated wrote.filled small' short' ?_
        fun refused => absurd accepts refused
      rintro bytes rfl
      rw [wrote.contents]
      exact ⟨rfl, rfl⟩
    obtain ⟨value, after, ran, rfl, rfl⟩ := read.returns
    exact ran
  · intro refused
    have run : Meets () (fun _ => False) (writei sb ip src off n)
        (fun value new => value = -1 ∧ new = old) old :=
      meets_writei_refused small short refused ⟨rfl, rfl⟩
    obtain ⟨value, new, ran, rfl, rfl⟩ := run.returns
    exact ran

end Main

/-! ## A small file system -/

/-- A disk of one hundred blocks, fifty of them for data. -/
def smallDisk : Superblock where
  size := 100
  nblocks := 50
  ninodes := 16
  nlog := LOGSIZE
  inodestart := 32
  bmapstart := 34
  bounded := by decide
  inodes := by decide
  bitmap := by decide
  roomy := by decide

/-- The names `.`, `..` and `f` in the root directory. -/
def rootEntries : List UInt8 :=
  Dirent.encode ⟨ROOTINO, strncpy [dot] DIRSIZ⟩ ++
    Dirent.encode ⟨ROOTINO, strncpy [dot, dot] DIRSIZ⟩ ++ Dirent.encode ⟨2, strncpy [102] DIRSIZ⟩

/-- One file with the given bytes in block 50, and the root directory in block 51. -/
def oneFile (bytes : List UInt8) : Volume where
  node := fun inum =>
    if inum = 2 then
      ⟨T_FILE, 0, 0, 1, bytes.length, fun index => if index = 0 then 50 else 0⟩
    else if inum = ROOTINO then
      ⟨T_DIR, 0, 0, 1, 3 * DESIZE, fun index => if index = 0 then 51 else 0⟩
    else Dinode.fresh 0
  used := fun block => decide (block ≤ 51)
  data := fun block =>
    if block = 50 then Bytes.zero.put 0 bytes
    else if block = 51 then Bytes.zero.put 0 rootEntries else Bytes.zero

/-- The file is locked by process 0 in an operation. -/
def oneFileOpen (bytes : List UInt8) : State where
  entry := fun ip =>
    if ip = 0 then ⟨2, 1, some 0, true, (oneFile bytes).node 2⟩
    else ⟨0, 0, none, false, Dinode.fresh 0⟩
  file := fun _ => ⟨.fdNone, 0, false, false, none, 0, 0⟩
  proc := fun _ => ⟨fun _ => none, none⟩
  disk := oneFile bytes
  home := oneFile bytes
  log := []
  outstanding := 1
  transactions := []
  panicked := none

theorem oneFile_pointer (bytes : List UInt8) (inum slot : Nat) :
    (oneFile bytes).pointer inum slot =
      if inum = 2 ∧ slot = 0 then 50 else if inum = ROOTINO ∧ slot = 0 then 51 else 0 := by
  unfold Volume.pointer
  by_cases file : inum = 2
  · subst file
    by_cases first : slot = 0
    · subst first
      rfl
    · simp [oneFile, Dinode.pointer, T_FILE, NDIRECT, first]
  · by_cases root : inum = ROOTINO
    · subst root
      by_cases first : slot = 0
      · subst first
        rfl
      · simp [oneFile, Dinode.pointer, T_DIR, NDIRECT, first, file]
    · simp [oneFile, Dinode.fresh, file, root]

theorem oneFile_type {bytes : List UInt8} {inum : Nat}
    (allocated : ((oneFile bytes).node inum).type ≠ 0) : inum = 2 ∨ inum = ROOTINO := by
  by_contra other
  rw [not_or] at other
  exact allocated (by simp [oneFile, Dinode.fresh, other.1, other.2])

theorem oneFile_owned (bytes : List UInt8) : (oneFile bytes).Owned smallDisk where
  number := by
    intro inum allocated
    rcases oneFile_type allocated with rfl | rfl <;> decide
  data := by
    intro inum slot
    rw [oneFile_pointer]
    split_ifs
    · decide
    · decide
    · exact fun zero => (zero rfl).elim
  marked := by
    intro inum slot
    rw [oneFile_pointer]
    split_ifs
    · exact fun _ => rfl
    · exact fun _ => rfl
    · exact fun zero => (zero rfl).elim
  once := by
    intro inum slot other slot'
    rw [oneFile_pointer, oneFile_pointer]
    intro present same
    split_ifs at present same <;> omega
  reserved := by
    intro block inside reserved
    have below : block ≤ 51 := by
      by_contra far
      exact reserved ⟨by change 100 - 50 ≤ block; omega, inside⟩
    exact decide_eq_true below

theorem oneFileOpen_seen (bytes : List UInt8) : (oneFileOpen bytes).seen 0 = oneFile bytes := by
  have same := update_eq_self 2 (oneFile bytes).node
  exact congrArg (fun node => { oneFile bytes with node := node }) same

theorem oneFileOpen_sound {bytes : List UInt8} (small : bytes.length ≤ BSIZE) :
    Sound smallDisk 0 (oneFileOpen bytes) where
  running := le_refl 1
  allocated := by
    change T_FILE ≠ 0
    decide
  owned := by
    rw [oneFileOpen_seen]
    exact oneFile_owned bytes
  filled := by
    rw [oneFileOpen_seen]
    intro bn below
    have size : ((oneFile bytes).node 2).size = bytes.length := rfl
    change bn * BSIZE < ((oneFile bytes).node 2).size at below
    have first : bn = 0 := by
      by_contra later
      have long := Nat.le_mul_of_pos_left BSIZE (Nat.pos_of_ne_zero later)
      omega
    subst first
    change (oneFile bytes).pointer 2 0 ≠ 0
    rw [oneFile_pointer, if_pos ⟨rfl, rfl⟩]
    decide
  distinct := nodup_nil

/-- One byte is written behind the first one of two. -/
theorem writei_second_byte : ∃ new,
    (writei smallDisk 0 (.kernel [5]) 1 1).alone () (oneFileOpen [7, 9]) = (some 1, new) ∧
      (new.entry 0).node.size = 2 := by
  have result := (@writei_byte_array smallDisk 0 (.kernel [5]) 1 1 (oneFileOpen [7, 9])
    (by decide) (by decide)).1 (by decide) (oneFileOpen_sound (by decide)) rfl
    (by decide +kernel) (by decide +kernel)
  obtain ⟨new, run, size, _⟩ := result
  exact ⟨new, run, size⟩

/-- The same with a log that has no block left. -/
def oneFileFull : State := { oneFileOpen [7, 9] with log := List.range' 60 29 }

/-- After a write that changes nothing, `readi` from the second byte on with
the largest length shows nothing of a file of two bytes.  With a full log an
accepted write that needs no block panics. -/
theorem byte_array_limits :
    (Sound smallDisk 0 (oneFileOpen [7, 9]) ∧
      ((writei smallDisk 0 (.kernel []) 0 0).alone () (oneFileOpen [7, 9])).1 = some 0 ∧
      ((readi smallDisk 0 Sink.kernel 1 (2 ^ 32 - 1)).alone ()
        ((writei smallDisk 0 (.kernel []) 0 0).alone () (oneFileOpen [7, 9])).2).1 =
          some (0, []) ∧
      ((overlay (((oneFileOpen [7, 9]).seen 0).contents 2) 0 (Source.bytes (.kernel []) 0)).drop
        1).take (2 ^ 32 - 1) = [9]) ∧
    (Sound smallDisk 0 oneFileFull ∧ Accepted 0 1 1 oneFileFull ∧
      (oneFileFull.seen 0).missing 2 (slotsOf 1 1) = 0 ∧
      ((writei smallDisk 0 (.kernel [5]) 1 1).alone () oneFileFull).1 = none ∧
      ((writei smallDisk 0 (.kernel [5]) 1 1).alone () oneFileFull).2.panicked =
        some .tooBigTransaction) := by
  have sound : Sound smallDisk 0 (oneFileOpen [7, 9]) := oneFileOpen_sound (by decide)
  refine ⟨⟨sound, by decide +kernel, by decide +kernel, by decide +kernel⟩, ?_, by decide,
    by decide +kernel, by decide +kernel, by decide +kernel⟩
  exact { sound with distinct := by decide }

end Fs
end Xv6
