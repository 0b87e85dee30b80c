import Xv6.Fs.ByteArray

namespace Xv6
namespace Fs

open Conc Function List

/-!
# Writes that end in the middle

`either_copyin` copies page by page into the buffer of the block.  If it fails,
`writei` does not count the bytes of this block and does not list the block in
the log, but the bytes in front of the unmapped page are in the buffer already.
So the file shows them where it has bytes, and the buffer differs from the disk
without being listed, unless the block is in the log for another reason or the
bytes are those that were there before.
-/

/-- One block of two volumes has the same contents, as inodes, as a part of the
bitmap and as bytes. -/
def Volume.SameBlock (sb : Superblock) (block : Nat) (vol other : Volume) : Prop :=
  (forall index, index < BSIZE -> vol.data block index = other.data block index) ∧
  (forall inum, sb.IBLOCK inum = block -> vol.node inum = other.node inum) ∧
  forall bit, sb.BBLOCK bit = block -> vol.used bit = other.used bit

/-- Every buffer equals its block on the disk or is listed in the log. -/
def Coherent (sb : Superblock) (state : State) : Prop :=
  forall block, block ∉ state.log -> Volume.SameBlock sb block state.disk state.home

section Failed

variable {sb : Superblock} {ip : Entry} {src : Source} {off n tot : Nat} {old middle : State}

/-- The end of the loop of `writei` at a copy that fails. -/
structure Failed (sb : Superblock) (ip : Entry) (src : Source) (off n : Nat) (old : State)
    (tot : Nat) (middle : State) : Prop where
  accepted : Accepted ip off n old
  more : tot < n
  counted : tot ≤ src.avail n
  short : src.avail n < tot + chunk (off + tot) (n - tot)
  progress : Progress sb ip src off n old tot middle
  present : nextBlock ip off tot middle ≠ 0

/-- The state in which `writei` returns. -/
def State.gaveUp (sb : Superblock) (src : Source) (ip : Entry) (off n tot : Nat)
    (middle : State) : State :=
  (middle.setData (nextBlock ip off tot middle)
    (nextBytes src ip off tot (src.avail n - tot) middle)).finish sb ip (off + tot)

/-- The volume in that state, but for the size. -/
def leftover (src : Source) (ip : Entry) (off n tot : Nat) (middle : State) : Volume :=
  (middle.seen ip).store (nextBlock ip off tot middle)
    (nextBytes src ip off tot (src.avail n - tot) middle)

variable (failed : Failed sb ip src off n old tot middle)

include failed

theorem Failed.inside : (off + tot) % BSIZE + (src.avail n - tot) ≤ BSIZE := by
  have short := failed.short
  have counted := failed.counted
  have small := Nat.mod_lt (off + tot) (show 0 < BSIZE by decide)
  unfold chunk at short
  omega

/-- What is counted ends at the beginning of the block in which the copy fails. -/
theorem Failed.counts : tot = (off + src.avail n) / BSIZE * BSIZE - off := by
  have short := failed.short
  have counted := failed.counted
  have aligned := failed.progress.aligned failed.more
  unfold chunk at short
  unfold BSIZE at *
  omega

theorem Failed.pointer : (middle.seen ip).pointer (old.entry ip).inum
    (slotOf ((off + tot) / BSIZE)) = nextBlock ip off tot middle := by
  rw [nextBlock, failed.progress.frame.inum]

theorem Failed.grown : Volume.Grown sb (old.entry ip).inum (slotsOf off n) (old.seen ip)
    (leftover src ip off n tot middle) := by
  have present := failed.present
  unfold leftover
  rw [← failed.pointer] at present ⊢
  exact failed.progress.grown.store present

theorem Failed.holds : Volume.Holds (old.entry ip).inum off (src.avail n) src.byte
    (old.seen ip) (leftover src ip off n tot middle) := by
  have present := failed.present
  have counted := failed.counted
  have here := failed.progress.frame.inum
  have bytes : ∀ pos, pos / BSIZE = (off + tot) / BSIZE ->
      nextBytes src ip off tot (src.avail n - tot) middle (pos % BSIZE) =
        if off + tot ≤ pos ∧ pos < off + tot + (src.avail n - tot) then src.byte (pos - off)
        else (middle.seen ip).byte (old.entry ip).inum pos := by
    intro pos same
    rw [nextBytes_at same, here]
  unfold leftover
  rw [← failed.pointer] at present ⊢
  have all := failed.progress.holds.store failed.progress.grown present bytes
    fun pos => same_block failed.inside
  rwa [Nat.add_sub_cancel' counted] at all

theorem Failed.covers : Volume.Covers (leftover src ip off n tot middle)
    (old.entry ip).inum off tot := by
  have present := failed.present
  unfold leftover
  rw [← failed.pointer] at present ⊢
  intro pos low high
  rw [Volume.store_pointer failed.progress.grown.owned present]
  exact failed.progress.covers pos low high

theorem Failed.seen : (middle.gaveUp sb src ip off n tot).seen ip =
    (leftover src ip off n tot middle).resize (old.entry ip).inum
      (max ((old.seen ip).node (old.entry ip).inum).size (off + tot)) := by
  have size := failed.progress.size
  have here := failed.progress.frame.inum
  rw [State.gaveUp, finish_seen, seen_node_self, ← size, ← here]
  rfl

theorem Failed.inum :
    ((middle.gaveUp sb src ip off n tot).entry ip).inum = (old.entry ip).inum := by
  rw [State.gaveUp, finish_entry_self]
  exact failed.progress.frame.inum

/-- The bytes of the file afterwards. -/
theorem Failed.contents (sound : Sound sb ip old) :
    ((middle.gaveUp sb src ip off n tot).seen ip).contents (old.entry ip).inum =
      (List.range (max ((old.seen ip).node (old.entry ip).inum).size (off + tot))).map fun pos =>
        if off ≤ pos ∧ pos < off + src.avail n then src.byte (pos - off)
        else (old.seen ip).byte (old.entry ip).inum pos := by
  have inside : off ≤ ((old.seen ip).node (old.entry ip).inum).size := by
    rw [seen_node_self]
    exact failed.accepted.1
  rw [failed.seen, Volume.contents]
  simp only [Volume.resize, update_self]
  apply map_congr_left
  intro pos below
  rw [mem_range] at below
  refine Eq.trans (Volume.resize_byte _ _ _ _ pos) ?_
  exact failed.grown.byte failed.holds failed.covers sound.filled failed.counted (by omega)

/-- The file is what was reported if and only if the bytes behind the reported
ones are, as far as the file reaches, the old ones. -/
theorem Failed.contents_iff (sound : Sound sb ip old) :
    ((middle.gaveUp sb src ip off n tot).seen ip).contents (old.entry ip).inum =
        overlay ((old.seen ip).contents (old.entry ip).inum) off (src.bytes tot) <->
      ∀ index, tot ≤ index -> index < src.avail n -> off + index < (old.entry ip).node.size ->
        src.byte index = (old.seen ip).byte (old.entry ip).inum (off + index) := by
  have inside : off ≤ ((old.seen ip).node (old.entry ip).inum).size := by
    rw [seen_node_self]
    exact failed.accepted.1
  have counted := failed.counted
  rw [failed.contents sound]
  unfold Source.bytes Volume.contents
  rw [overlay_map inside, seen_node_self]
  constructor
  · intro same index low high below
    have at_ := map_inj_left.mp same (off + index) (mem_range.mpr (by omega))
    rw [if_pos (by omega), if_neg (by omega), Nat.add_sub_cancel_left] at at_
    exact at_
  · intro same
    apply map_congr_left
    intro pos below
    rw [mem_range] at below
    by_cases written : off ≤ pos ∧ pos < off + tot
    · rw [if_pos (by omega), if_pos written]
    · rw [if_neg written]
      split
      · next extra =>
          have byte := same (pos - off) (by omega) (by omega) (by omega)
          rwa [Nat.add_sub_cancel' (by omega)] at byte
      · rfl

/-! ## The cache -/

theorem Failed.log : (middle.gaveUp sb src ip off n tot).log =
    State.listBlock middle.log (sb.IBLOCK (old.entry ip).inum) := by
  rw [State.gaveUp, finish_log, ← failed.progress.frame.inum]
  rfl

theorem Failed.home : (middle.gaveUp sb src ip off n tot).home = old.home := by
  rw [State.gaveUp, finish_steady.home]
  exact failed.progress.frame.steady.home

/-- A block with a number other than those of the changed block and of the
inode's block is as the loop left it. -/
theorem Failed.sameBlock (coherent : Coherent sb old) {block : Nat}
    (unlisted : block ∉ middle.log) (inode : block ≠ sb.IBLOCK (old.entry ip).inum)
    (bytes : block = nextBlock ip off tot middle -> ∀ index, index < BSIZE ->
      nextBytes src ip off tot (src.avail n - tot) middle index = middle.disk.data block index) :
    Volume.SameBlock sb block (middle.gaveUp sb src ip off n tot).disk old.home := by
  have disk : (middle.gaveUp sb src ip off n tot).disk =
      (leftover src ip off n tot middle).resize (old.entry ip).inum
        (max ((old.seen ip).node (old.entry ip).inum).size (off + tot)) := by
    rw [← failed.seen]
    exact finish_disk
  obtain ⟨oldBytes, oldNodes, oldBits⟩ :=
    coherent block fun before => unlisted (failed.progress.logged.kept block before)
  obtain ⟨sameBytes, sameBits⟩ := failed.progress.logged.unlisted block unlisted
  rw [disk]
  refine ⟨?_, ?_, ?_⟩
  · intro index inside
    rw [← oldBytes index inside, ← sameBytes]
    change update middle.disk.data (nextBlock ip off tot middle)
      (nextBytes src ip off tot (src.avail n - tot) middle) block index = _
    by_cases changed : block = nextBlock ip off tot middle
    · rw [changed, update_self, ← changed]
      exact bytes changed index inside
    · rw [update_of_ne changed]
  · intro inum here
    have other : inum ≠ (old.entry ip).inum := by
      intro same
      exact inode (same ▸ here.symm)
    rw [← oldNodes inum here, ← @seen_node_other old ip inum other,
      ← failed.grown.others inum other]
    exact update_of_ne other _ _
  · intro bit here
    rw [← oldBits bit here]
    exact sameBits bit here

/-- The block that was changed last, if it is an old block of the file. -/
theorem Failed.block (before : (old.seen ip).pointer (old.entry ip).inum
      (slotOf ((off + tot) / BSIZE)) ≠ 0) :
    nextBlock ip off tot middle =
      (old.seen ip).pointer (old.entry ip).inum (slotOf ((off + tot) / BSIZE)) := by
  rw [← failed.pointer]
  exact failed.progress.grown.kept _ before

/-- It is not listed by this write. -/
theorem Failed.unlisted (before : (old.seen ip).pointer (old.entry ip).inum
      (slotOf ((off + tot) / BSIZE)) ≠ 0)
    (free : (old.seen ip).pointer (old.entry ip).inum (slotOf ((off + tot) / BSIZE)) ∉ old.log) :
    nextBlock ip off tot middle ∉ middle.log := by
  rw [failed.block before]
  intro listed
  refine free (failed.progress.quiet _ (slotOf_ne_indirect _) before ?_ listed)
  -- The blocks written before end at a block boundary.
  intro pos low high same
  have block := slotOf_injective same
  rcases failed.progress.aligned failed.more with zero | boundary
  · omega
  · unfold BSIZE at *
    omega

theorem Failed.coherent_iff (sound : Sound sb ip old) (coherent : Coherent sb old) :
    Coherent sb (middle.gaveUp sb src ip off n tot) <->
      ∀ index, tot ≤ index -> index < src.avail n ->
        (old.seen ip).pointer (old.entry ip).inum (slotOf ((off + tot) / BSIZE)) ≠ 0 ->
        (old.seen ip).pointer (old.entry ip).inum (slotOf ((off + tot) / BSIZE)) ∉ old.log ->
        src.byte index = (old.seen ip).byte (old.entry ip).inum (off + index) := by
  have inside := failed.inside
  have counted := failed.counted
  -- The extra bytes of the buffer, by their offset in the file.
  have extra : ∀ index, tot ≤ index -> index < src.avail n ->
      (off + index) / BSIZE = (off + tot) / BSIZE ∧
      (off + index) % BSIZE = (off + tot) % BSIZE + (index - tot) := by
    intro index low high
    unfold BSIZE at *
    omega
  constructor
  · intro after index low high before free
    have unlisted := failed.unlisted before free
    have block := failed.block before
    have isData := sound.owned.data _ _ before
    have outside : nextBlock ip off tot middle ∉ (middle.gaveUp sb src ip off n tot).log := by
      rw [failed.log, mem_listBlock]
      rintro (same | listed)
      · rw [← block, same] at isData
        refine Superblock.IBLOCK_not_data (sound.owned.number _ ?_) isData
        rw [seen_node_self]
        exact sound.allocated
      · exact unlisted listed
    obtain ⟨bytes, _, _⟩ := after _ outside
    obtain ⟨oldBytes, _, _⟩ := coherent _ free
    obtain ⟨row, column⟩ := extra index low high
    have small := Nat.mod_lt (off + index) (show 0 < BSIZE by decide)
    have reached := bytes _ small
    rw [failed.home, block, ← oldBytes _ small] at reached
    have stored : (middle.gaveUp sb src ip off n tot).disk.data
        (nextBlock ip off tot middle) = nextBytes src ip off tot (src.avail n - tot) middle := by
      rw [State.gaveUp, finish_disk, finish_seen]
      exact update_self _ _ _
    rw [← block, stored, nextBytes, if_pos (by omega), column, Nat.add_sub_cancel_left,
      Nat.add_sub_cancel' low] at reached
    rw [reached, Volume.byte, row, column, block]
    rfl
  · intro same block free
    rw [failed.log, mem_listBlock, not_or] at free
    rw [failed.home]
    refine failed.sameBlock coherent free.2 free.1 ?_
    rintro rfl index small
    have before : (old.seen ip).pointer (old.entry ip).inum (slotOf ((off + tot) / BSIZE)) ≠ 0 := by
      intro absent
      have listed := failed.progress.attached _ absent (failed.pointer ▸ failed.present)
      rw [failed.pointer] at listed
      exact free.2 listed
    have block := failed.block before
    have unlisted : (old.seen ip).pointer (old.entry ip).inum
        (slotOf ((off + tot) / BSIZE)) ∉ old.log := by
      rw [← block]
      exact fun listed => free.2 (failed.progress.logged.kept _ listed)
    unfold nextBytes
    split
    · next now =>
        have byte := same (tot + (index - (off + tot) % BSIZE)) (by omega) (by omega) before
          unlisted
        obtain ⟨row, column⟩ := extra (tot + (index - (off + tot) % BSIZE)) (by omega) (by omega)
        have data := (failed.progress.logged.unlisted _ free.2).1
        have position : (off + tot) % BSIZE + (tot + (index - (off + tot) % BSIZE) - tot) =
            index := by omega
        rw [byte, data, Volume.byte, row, column, block, position]
        rfl
    · rfl

end Failed

/-! ## What is reported and what has happened -/

section Main

variable {sb : Superblock} {ip : Entry} {src : Source} {off n tot : Nat} {old new : State}

/-- `readi` shows the given bytes, for every range. -/
def Shows (sb : Superblock) (ip : Entry) (state : State) (bytes : List UInt8) : Prop :=
  forall off n, off + n < 2 ^ 32 -> (readi sb ip Sink.kernel off n).alone () state =
    (some ((((bytes.drop off).take n).length : Int), (bytes.drop off).take n), state)

theorem shows_iff {state : State} {bytes : List UInt8} (allocated : (state.entry ip).node.type ≠ 0)
    (filled : (state.seen ip).Filled (state.entry ip).inum) (short : bytes.length < 2 ^ 32) :
    Shows sb ip state bytes <-> (state.seen ip).contents (state.entry ip).inum = bytes := by
  have read : ∀ off n, off + n < 2 ^ 32 -> (readi sb ip Sink.kernel off n).alone () state =
      (some ((((((state.seen ip).contents (state.entry ip).inum).drop off).take n).length : Int),
        (((state.seen ip).contents (state.entry ip).inum).drop off).take n), state) := by
    intro off n fits
    have run : Meets () (fun _ => False) (readi sb ip Sink.kernel off n) (fun value after =>
        after = state ∧ value =
          ((((((state.seen ip).contents (state.entry ip).inum).drop off).take n).length : Int),
            (((state.seen ip).contents (state.entry ip).inum).drop off).take n)) state := by
      refine meets_readi allocated filled (by omega) (by omega) ?_
        fun refused => absurd (Sink.kernel_accepts n) refused
      rintro bytes rfl
      rw [if_pos fits]
      exact ⟨rfl, rfl⟩
    obtain ⟨value, after, ran, rfl, rfl⟩ := run.returns
    exact ran
  constructor
  · intro shows
    have whole := shows 0 (2 ^ 32 - 1) (by omega)
    rw [read 0 (2 ^ 32 - 1) (by omega)] at whole
    have same := congrArg (fun result => (result.1.map Prod.snd).getD []) whole
    simp only [Option.map_some, Option.getD_some, drop_zero] at same
    have length : ((state.seen ip).contents (state.entry ip).inum).length ≤ MAXFILE * BSIZE := by
      rw [Volume.contents, length_map, length_range]
      exact filled.size_le
    have limit : MAXFILE * BSIZE < 2 ^ 32 - 1 := by decide
    rwa [take_of_length_le (by omega), take_of_length_le (by omega)] at same
  · rintro rfl off n fits
    exact read off n fits

/-- What a write should have done when it reports `tot` bytes. -/
structure Reported (sb : Superblock) (ip : Entry) (src : Source) (off tot : Nat)
    (old new : State) : Prop where
  contents : Shows sb ip new
    (overlay ((old.seen ip).contents (old.entry ip).inum) off (src.bytes tot))
  size : (new.entry ip).node.size = max (old.entry ip).node.size (off + tot)
  coherent : Coherent sb new

theorem Failed.reported_iff {middle : State} (sound : Sound sb ip old)
    (coherent : Coherent sb old) (failed : Failed sb ip src off n old tot middle) :
    Reported sb ip src off tot old (middle.gaveUp sb src ip off n tot) <->
      ∀ index, tot ≤ index -> index < src.avail n -> (off + index < (old.entry ip).node.size ∨
          ((old.seen ip).pointer (old.entry ip).inum (slotOf ((off + tot) / BSIZE)) ≠ 0 ∧
            (old.seen ip).pointer (old.entry ip).inum (slotOf ((off + tot) / BSIZE)) ∉ old.log)) ->
        src.byte index = (old.seen ip).byte (old.entry ip).inum (off + index) := by
  have inside : off ≤ ((old.seen ip).node (old.entry ip).inum).size := by
    rw [seen_node_self]
    exact failed.accepted.1
  have size : ((middle.gaveUp sb src ip off n tot).entry ip).node.size =
      max (old.entry ip).node.size (off + tot) := by
    rw [State.gaveUp, finish_entry_self, ← failed.progress.size]
    rfl
  have allocated : ((middle.gaveUp sb src ip off n tot).entry ip).node.type ≠ 0 := by
    rw [State.gaveUp, finish_entry_self]
    exact failed.progress.type.symm ▸ sound.allocated
  have filled : ((middle.gaveUp sb src ip off n tot).seen ip).Filled
      ((middle.gaveUp sb src ip off n tot).entry ip).inum := by
    rw [failed.seen, failed.inum]
    exact failed.grown.filled failed.covers sound.filled inside
  have short : (overlay ((old.seen ip).contents (old.entry ip).inum) off
      (src.bytes tot)).length < 2 ^ 32 := by
    have old_ := sound.filled.size_le
    have fits := failed.accepted.2.2
    have more := failed.more
    have limit : MAXFILE * BSIZE < 2 ^ 32 := by decide
    rw [Volume.contents, Source.bytes, overlay_map inside, length_map, length_range]
    omega
  have shows := @shows_iff sb ip _ _ allocated filled short
  rw [failed.inum] at shows
  constructor
  · intro reported index low high visible
    rcases visible with below | ⟨before, free⟩
    · exact (failed.contents_iff sound).mp (shows.mp reported.contents) index low high below
    · exact (failed.coherent_iff sound coherent).mp reported.coherent index low high before free
  · intro same
    refine ⟨shows.mpr ((failed.contents_iff sound).mpr ?_), size,
      (failed.coherent_iff sound coherent).mpr ?_⟩
    · exact fun index low high below => same index low high (Or.inl below)
    · exact fun index low high before free => same index low high (Or.inr ⟨before, free⟩)

/-- A write from user memory that reports fewer bytes than it was asked for reports
those in front of the block in which the mapped memory ends.  It has done what it
reports if and only if the bytes that were copied beyond those are the ones that were
there, wherever the file has bytes, and everywhere if the block is an old one that is
not in the log. -/
theorem partial_write_exact_iff {space : Vm.Space} {va : Nat} (sound : Sound sb ip old)
    (coherent : Coherent sb old) (small : off < 2 ^ 32) (short : n < 2 ^ 32)
    (run : (writei sb ip (.user space va) off n).alone () old = (some (tot : Int), new))
    (more : tot < n) :
    tot = (off + Vm.mappedCount space.pages va n) / BSIZE * BSIZE - off ∧
    (Reported sb ip (.user space va) off tot old new <->
      forall index, tot ≤ index -> index < Vm.mappedCount space.pages va n ->
        (off + index < (old.entry ip).node.size ∨
          ((old.seen ip).pointer (old.entry ip).inum (slotOf ((off + tot) / BSIZE)) ≠ 0 ∧
            (old.seen ip).pointer (old.entry ip).inum (slotOf ((off + tot) / BSIZE)) ∉ old.log)) ->
        space.memory (va + index) = (old.seen ip).byte (old.entry ip).inum (off + index)) := by
  have ready : Accepted ip off n old -> Ready sb ip off n old := fun accepted =>
    ⟨sound.running, sound.allocated, sound.owned, sound.distinct, accepted.2.2⟩
  have outcome : Meets () (fun _ => True) (writei sb ip (.user space va) off n)
      (fun value new => value = (tot : Int) -> ∃ middle,
        Failed sb ip (.user space va) off n old tot middle ∧
          new = middle.gaveUp sb (.user space va) ip off n tot) old := by
    refine meets_writei small short ready (Or.inl fun _ _ => trivial) ?_ ?_ ?_ ?_
    · intro _ value
      omega
    · intro new _ _ _ value
      omega
    · intro count middle accepted more counted short progress present value
      have same : count = tot := by omega
      subst same
      exact ⟨middle, ⟨accepted, more, counted, short, progress, present⟩, rfl⟩
    · exact fun _ _ _ _ _ _ _ _ => trivial
  obtain ⟨middle, failed, rfl⟩ := outcome.of_returns run rfl
  exact ⟨failed.counts, failed.reported_iff sound coherent⟩

end Main

/-! ## A write across the end of a page -/

/-- The first page is mapped and full of fives, the second one is not mapped. -/
def onePage : Vm.Space := ⟨fun page => page == 0, fun _ => 5⟩

/-- Two bytes from the last address of the page: nothing is reported, and the
first byte of the file has changed. -/
theorem partial_write_changes_file :
    Sound smallDisk 0 (oneFileOpen [7, 9]) ∧ Coherent smallDisk (oneFileOpen [7, 9]) ∧
    ((writei smallDisk 0 (.user onePage 4095) 0 2).alone () (oneFileOpen [7, 9])).1 = some 0 ∧
    ((readi smallDisk 0 Sink.kernel 0 2).alone ()
      ((writei smallDisk 0 (.user onePage 4095) 0 2).alone () (oneFileOpen [7, 9])).2).1 =
        some (2, [5, 9]) ∧
    overlay (((oneFileOpen [7, 9]).seen 0).contents 2) 0
      (Source.bytes (.user onePage 4095) 0) = [7, 9] := by
  refine ⟨oneFileOpen_sound (by decide), fun block _ => ⟨fun _ _ => rfl, fun _ _ => rfl,
    fun _ _ => rfl⟩, by decide +kernel, by decide +kernel, by decide +kernel⟩

/-- The same write does what it reports if the file has the byte of the page
already. -/
theorem partial_write_harmless : ∃ new,
    (writei smallDisk 0 (.user onePage 4095) 0 2).alone () (oneFileOpen [5, 9]) = (some 0, new) ∧
      Reported smallDisk 0 (.user onePage 4095) 0 0 (oneFileOpen [5, 9]) new := by
  have first : ((writei smallDisk 0 (.user onePage 4095) 0 2).alone () (oneFileOpen [5, 9])).1 =
      some 0 := by decide +kernel
  refine ⟨_, Prod.ext first rfl, ?_⟩
  refine (@partial_write_exact_iff smallDisk 0 0 2 0 (oneFileOpen [5, 9]) _ onePage 4095
    (oneFileOpen_sound (by decide)) (fun block _ => ⟨fun _ _ => rfl, fun _ _ => rfl,
      fun _ _ => rfl⟩) (by decide) (by decide) (Prod.ext first rfl) (by decide)).2.mpr ?_
  intro index _ below _
  have count : Vm.mappedCount onePage.pages 4095 2 = 1 := by decide +kernel
  have only : index = 0 := by omega
  subst only
  decide +kernel

end Fs
end Xv6
