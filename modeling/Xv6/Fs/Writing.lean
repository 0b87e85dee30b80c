import Xv6.Fs.Reading

namespace Xv6
namespace Fs

open Conc Finset

/-!
# Writing an inode

`Progress` is the invariant of the loop of `writei`: the volume has grown, the
blocks of the file hold the bytes written so far, and the log lists every block
that has been changed.  When a copy fails, the buffer of the last block has been
changed as well, and that block need not be in the log.
-/

/-- What a routine that works on the contents of one inode leaves alone. -/
structure Frame (ip : Entry) (old new : State) : Prop where
  entry : forall jp, jp ≠ ip -> new.entry jp = old.entry jp
  inode : new.entry ip = { old.entry ip with node := (new.entry ip).node }
  steady : Steady old new

theorem Frame.refl (ip : Entry) (state : State) : Frame ip state state :=
  ⟨fun _ _ => rfl, rfl, Steady.refl state⟩

theorem Frame.inum {ip : Entry} {old new : State} (frame : Frame ip old new) :
    (new.entry ip).inum = (old.entry ip).inum := by
  rw [frame.inode]

variable {slot block : Nat}

theorem Frame.attach {sb : Superblock} {ip : Entry} {old new : State} (frame : Frame ip old new) :
    Frame ip old (new.attach sb ip slot block) := by
  refine ⟨fun jp different => ?_, ?_, frame.steady.trans attach_steady⟩
  · rw [attach_entry_other different, frame.entry jp different]
  · rw [attach_entry_self, frame.inode]

/-- The number of bitmap blocks. -/
def maps (sb : Superblock) : Nat := (sb.size + BPB - 1) / BPB

def bitmapBlocks (sb : Superblock) : Finset Nat :=
  (Finset.range (maps sb)).image (· + sb.bmapstart)

theorem card_bitmapBlocks_le (sb : Superblock) : (bitmapBlocks sb).card ≤ maps sb := by
  have card := card_image_le (s := Finset.range (maps sb)) (f := (· + sb.bmapstart))
  rwa [card_range] at card

/-- How the log grows when blocks are attached to the given slots and written:
it lists what was changed and nothing else. -/
structure Logged (sb : Superblock) (ip : Entry) (slots : Finset Nat) (old new : State) : Prop where
  distinct : new.log.Nodup
  kept : forall block, block ∈ old.log -> block ∈ new.log
  listed : forall block, block ∈ new.log -> block ∈ old.log ∨
    (∃ bit, bit < sb.size ∧ block = sb.BBLOCK bit) ∨
    block ≠ 0 ∧ ∃ slot, slot ∈ slots ∧ block = (new.seen ip).pointer (new.entry ip).inum slot
  unlisted : forall block, block ∉ new.log -> new.disk.data block = old.disk.data block ∧
    forall bit, sb.BBLOCK bit = block -> new.disk.used bit = old.disk.used bit

section Logged

variable {sb : Superblock} {ip : Entry} {slots : Finset Nat} {old new : State}

theorem Logged.refl (distinct : old.log.Nodup) : Logged sb ip slots old old :=
  ⟨distinct, fun _ => id, fun _ => Or.inl, fun _ _ => ⟨rfl, fun _ _ => rfl⟩⟩

theorem BBLOCK_mem {bit : Nat} (inside : bit < sb.size) : sb.BBLOCK bit ∈ bitmapBlocks sb := by
  refine mem_image.mpr ⟨bit / BPB, mem_range.mpr ?_, rfl⟩
  unfold maps BPB BSIZE
  omega

/-- A log without repetitions is not longer than the set it lists. -/
theorem length_le_card {log : List Nat} {blocks : Finset Nat} (distinct : log.Nodup)
    (inside : ∀ block, block ∈ log -> block ∈ blocks) : log.length ≤ blocks.card := by
  rw [← List.toFinset_card_of_nodup distinct]
  apply card_le_card
  intro block member
  exact inside block (List.mem_toFinset.mp member)

/-- The blocks that can be in the log. -/
def logBound (sb : Superblock) (ip : Entry) (slots : Finset Nat) (old new : State) :
    Finset Nat :=
  old.log.toFinset ∪ (bitmapBlocks sb ∪
    (slots.filter fun slot => (new.seen ip).pointer (new.entry ip).inum slot ≠ 0).image
      ((new.seen ip).pointer (new.entry ip).inum))

theorem Logged.mem_bound (logged : Logged sb ip slots old new) {block : Nat}
    (member : block ∈ new.log) : block ∈ logBound sb ip slots old new := by
  unfold logBound
  rcases logged.listed block member with before | ⟨bit, inside, same⟩ |
    ⟨nonzero, slot, inside, same⟩
  · exact mem_union_left _ (List.mem_toFinset.mpr before)
  · subst same
    exact mem_union_right _ (mem_union_left _ (BBLOCK_mem inside))
  · refine mem_union_right _ (mem_union_right _ (mem_image.mpr ?_))
    exact ⟨slot, mem_filter.mpr ⟨inside, same ▸ nonzero⟩, same.symm⟩

theorem card_logBound_le : (logBound sb ip slots old new).card ≤ old.log.length + maps sb +
    (slots.filter fun slot => (new.seen ip).pointer (new.entry ip).inum slot ≠ 0).card := by
  unfold logBound
  have first := card_union_le old.log.toFinset (bitmapBlocks sb ∪
      (slots.filter fun slot => (new.seen ip).pointer (new.entry ip).inum slot ≠ 0).image
        ((new.seen ip).pointer (new.entry ip).inum))
  have second := card_union_le (bitmapBlocks sb)
    ((slots.filter fun slot => (new.seen ip).pointer (new.entry ip).inum slot ≠ 0).image
      ((new.seen ip).pointer (new.entry ip).inum))
  have before := List.toFinset_card_le old.log
  have bitmap := card_bitmapBlocks_le sb
  have blocks := card_image_le
    (s := slots.filter fun slot => (new.seen ip).pointer (new.entry ip).inum slot ≠ 0)
    (f := (new.seen ip).pointer (new.entry ip).inum)
  omega

theorem Logged.length_le (logged : Logged sb ip slots old new) :
    new.log.length ≤ old.log.length + maps sb + slots.card := by
  have bound := length_le_card logged.distinct fun _ => logged.mem_bound
  have card := @card_logBound_le sb ip slots old new
  have fewer := card_filter_le slots fun slot => (new.seen ip).pointer (new.entry ip).inum slot ≠ 0
  omega

/-- While a slot is vacant there is room for one more block. -/
theorem Logged.length_allocated_le (logged : Logged sb ip slots old new) (member : slot ∈ slots)
    (vacant : (new.seen ip).pointer (new.entry ip).inum slot = 0) (inside : block < sb.size) :
    (new.allocated sb block).log.length ≤ old.log.length + maps sb + slots.card := by
  have bound : (new.allocated sb block).log.length ≤
      (insert block (logBound sb ip slots old new)).card := by
    refine length_le_card (nodup_allocated logged.distinct) fun other listed => ?_
    rcases mem_allocated_log.mp listed with rfl | rfl | before
    · exact mem_insert_self _ _
    · refine mem_insert_of_mem (mem_union_right _ (mem_union_left _ ?_))
      exact BBLOCK_mem inside
    · exact mem_insert_of_mem (logged.mem_bound before)
  have one := card_insert_le block (logBound sb ip slots old new)
  have card := @card_logBound_le sb ip slots old new
  have fewer : (slots.filter fun slot => (new.seen ip).pointer (new.entry ip).inum slot ≠ 0).card <
      slots.card := by
    apply card_lt_card
    refine filter_ssubset.mpr ⟨slot, member, ?_⟩
    exact fun nonzero => nonzero vacant
  omega

theorem Logged.attach (logged : Logged sb ip slots old new) (owned : (new.seen ip).Owned sb)
    (vacant : Volume.Vacant (new.seen ip) (new.entry ip).inum slot)
    (fresh : Volume.Fresh sb (new.seen ip) block) (member : slot ∈ slots)
    (above : NDIRECT < slot -> NDIRECT ∈ slots) :
    Logged sb ip slots old (new.attach sb ip slot block) where
  distinct := nodup_attach logged.distinct
  kept := fun b before => mem_attach_log.mpr (Or.inr (Or.inr (Or.inr (logged.kept b before))))
  listed := by
    intro b listed
    rw [seen_attach, attach_inum]
    rcases mem_attach_log.mp listed with ⟨far, same⟩ | same | same | before
    · have present := vacant.indirect far
      have top : (new.seen ip).pointer (new.entry ip).inum NDIRECT = b := by
        rw [Volume.pointer_direct vacant.allocated (le_refl _), seen_node_self, same]
      refine Or.inr (Or.inr ⟨top ▸ present, NDIRECT, above far, ?_⟩)
      rw [Volume.attach_pointer_ne owned vacant fresh fun h => absurd h.2 (by omega), top]
    · refine Or.inr (Or.inr ⟨same ▸ fresh.ne_zero owned, slot, member, ?_⟩)
      rw [Volume.attach_pointer_self owned vacant fresh, same]
    · exact Or.inr (Or.inl ⟨block, fresh.inside, same⟩)
    · rcases logged.listed b before with before | bitmap | ⟨nonzero, s, inside, same⟩
      · exact Or.inl before
      · exact Or.inr (Or.inl bitmap)
      · refine Or.inr (Or.inr ⟨nonzero, s, inside, ?_⟩)
        have different : s ≠ slot := by
          intro here
          rw [here, vacant.empty] at same
          exact nonzero same
        rw [Volume.attach_pointer_ne owned vacant fresh fun h => different h.2, same]
  unlisted := by
    intro b unlisted
    have outside : ¬ ((NDIRECT < slot ∧ b = (new.entry ip).node.addrs NDIRECT) ∨ b = block ∨
        b = sb.BBLOCK block ∨ b ∈ new.log) := fun h => unlisted (mem_attach_log.mpr h)
    simp only [not_or, not_and] at outside
    obtain ⟨apart, old_, bitmap, before⟩ := outside
    obtain ⟨data, bits⟩ := logged.unlisted b before
    constructor
    · rw [← data, ← @seen_data (new.attach sb ip slot block) ip, seen_attach,
        Volume.attach_data old_]
      · rfl
      · rw [seen_node_self]
        exact apart
    · intro bit here
      rw [← bits bit here, ← @seen_used (new.attach sb ip slot block) ip, seen_attach,
        Volume.attach_used, if_neg]
      · rfl
      · intro same
        exact bitmap (same ▸ here.symm)

/-- A block of the file is changed and listed. -/
theorem Logged.store {bn : Nat} {bytes : Bytes} (logged : Logged sb ip slots old new)
    (owned : (new.seen ip).Owned sb) (member : slotOf bn ∈ slots)
    (present : (new.seen ip).pointer (new.entry ip).inum (slotOf bn) ≠ 0) :
    Logged sb ip slots old
      ((new.setData ((new.seen ip).pointer (new.entry ip).inum (slotOf bn)) bytes).logBlock
        ((new.seen ip).pointer (new.entry ip).inum (slotOf bn))) where
  distinct := nodup_listBlock logged.distinct
  kept := fun b before => mem_listBlock.mpr (Or.inr (logged.kept b before))
  listed := by
    intro b listed
    have pointers := @Volume.store_pointer sb (new.entry ip).inum (new.seen ip) bn bytes owned
      present
    change _ ∨ _ ∨ b ≠ 0 ∧ ∃ slot, slot ∈ slots ∧ b = ((new.seen ip).store _ bytes).pointer
      (new.entry ip).inum slot
    simp only [pointers]
    rcases mem_listBlock.mp listed with rfl | before
    · exact Or.inr (Or.inr ⟨present, slotOf bn, member, rfl⟩)
    · exact logged.listed b before
  unlisted := by
    intro b unlisted
    have outside : ¬ (b = (new.seen ip).pointer (new.entry ip).inum (slotOf bn) ∨ b ∈ new.log) :=
      fun h => unlisted (mem_listBlock.mpr h)
    rw [not_or] at outside
    obtain ⟨data, bits⟩ := logged.unlisted b outside.2
    refine ⟨?_, bits⟩
    rw [← data]
    exact Function.update_of_ne outside.1 _ _

end Logged

/-! ## The loop -/

/-- What `writei` can rely on when the loop starts. -/
structure Ready (sb : Superblock) (ip : Entry) (off n : Nat) (state : State) : Prop where
  running : 1 ≤ state.outstanding
  allocated : (state.entry ip).node.type ≠ 0
  owned : (state.seen ip).Owned sb
  distinct : state.log.Nodup
  fits : off + n ≤ MAXFILE * BSIZE

/-- The state after `tot` bytes have been written.  New blocks are listed in the
log; an old block of the file is not, unless bytes have been written to it. -/
structure Progress (sb : Superblock) (ip : Entry) (src : Source) (off n : Nat) (old : State)
    (tot : Nat) (new : State) : Prop where
  grown : Volume.Grown sb (old.entry ip).inum (slotsOf off n) (old.seen ip) (new.seen ip)
  holds : Volume.Holds (old.entry ip).inum off tot src.byte (old.seen ip) (new.seen ip)
  covers : Volume.Covers (new.seen ip) (old.entry ip).inum off tot
  frame : Frame ip old new
  nodes : new.disk.node = old.disk.node
  logged : Logged sb ip (slotsOf off n) old new
  attached : forall slot, (old.seen ip).pointer (old.entry ip).inum slot = 0 ->
    (new.seen ip).pointer (old.entry ip).inum slot ≠ 0 ->
    (new.seen ip).pointer (old.entry ip).inum slot ∈ new.log
  quiet : forall slot, slot ≠ NDIRECT -> (old.seen ip).pointer (old.entry ip).inum slot ≠ 0 ->
    (forall pos, off ≤ pos -> pos < off + tot -> slotOf (pos / BSIZE) ≠ slot) ->
    (old.seen ip).pointer (old.entry ip).inum slot ∈ new.log ->
    (old.seen ip).pointer (old.entry ip).inum slot ∈ old.log
  aligned : tot < n -> tot = 0 ∨ (off + tot) % BSIZE = 0

section Progress

variable {sb : Superblock} {ip : Entry} {src : Source} {off n tot : Nat} {old new : State}

theorem Progress.refl (ready : Ready sb ip off n old) : Progress sb ip src off n old 0 old where
  grown := Volume.Grown.refl ready.owned
  holds := Volume.Holds.refl
  covers := Volume.Covers.zero
  frame := Frame.refl ip old
  nodes := rfl
  logged := Logged.refl ready.distinct
  attached := fun _ absent present => absurd absent present
  quiet := fun _ _ _ _ => id
  aligned := fun _ => Or.inl rfl

theorem needs_mem {slot : Nat} (more : tot < n) (needs : Needs ((off + tot) / BSIZE) slot) :
    slot ∈ slotsOf off n := by
  rcases needs with rfl | ⟨far, rfl⟩
  · exact mem_slotsOf (Nat.le_add_right _ _) (by omega)
  · exact indirect_mem_slotsOf (Nat.le_add_right _ _) (by omega) far

theorem Progress.type (progress : Progress sb ip src off n old tot new) :
    (new.entry ip).node.type = (old.entry ip).node.type := by
  have node := progress.grown.node
  rw [← progress.frame.inum, seen_node_self, progress.frame.inum, seen_node_self] at node
  rw [node]

theorem Progress.mappable (ready : Ready sb ip off n old)
    (progress : Progress sb ip src off n old tot new) : Mappable sb ip new where
  running := by
    rw [progress.frame.steady.outstanding]
    exact ready.running
  allocated := by
    rw [progress.type]
    exact ready.allocated
  owned := progress.grown.owned

theorem Progress.attach (progress : Progress sb ip src off n old tot new) (more : tot < n)
    (needs : Needs ((off + tot) / BSIZE) slot)
    (vacant : Volume.Vacant (new.seen ip) (new.entry ip).inum slot)
    (fresh : Volume.Fresh sb (new.seen ip) block) :
    Progress sb ip src off n old tot (new.attach sb ip slot block) := by
  have member := needs_mem more needs
  have here := progress.frame.inum
  have above : NDIRECT < slot -> NDIRECT ∈ slotsOf off n := by
    intro far
    refine needs_mem more (Or.inr ⟨?_, rfl⟩)
    rcases needs with rfl | ⟨_, rfl⟩
    · unfold slotOf at far
      split at far <;> omega
    · omega
  have logged := progress.logged.attach progress.grown.owned vacant fresh member above
  rw [here] at vacant
  have owned := progress.grown.owned
  refine ⟨?_, ?_, ?_, progress.frame.attach, ?_, logged, ?_, ?_, progress.aligned⟩
  · rw [seen_attach, here]
    exact progress.grown.attach vacant fresh member
  · rw [seen_attach, here]
    exact progress.holds.attach progress.grown progress.covers vacant fresh
  · rw [seen_attach, here]
    exact progress.covers.attach progress.grown.owned vacant fresh
  · rw [attach_nodes]
    exact progress.nodes
  · intro s absent
    rw [seen_attach, here]
    by_cases same : s = slot
    · rw [same, Volume.attach_pointer_self owned vacant fresh]
      exact fun _ => mem_attach_log.mpr (Or.inr (Or.inl rfl))
    · rw [Volume.attach_pointer_ne owned vacant fresh fun h => same h.2]
      intro present
      exact mem_attach_log.mpr (Or.inr (Or.inr (Or.inr (progress.attached s absent present))))
  · intro s data present untouched listed
    have kept := progress.grown.kept s present
    have nonzero : (new.seen ip).pointer (old.entry ip).inum s ≠ 0 := by rwa [kept]
    rcases mem_attach_log.mp listed with ⟨_, same⟩ | same | same | before
    · -- A data block is not the indirect block.
      rw [← @seen_node_self new, here, ← Volume.pointer_direct vacant.allocated (le_refl _),
        ← kept] at same
      exact (data (owned.once _ _ _ _ nonzero same).2).elim
    · exact (owned.not_fresh fresh nonzero (kept.trans same)).elim
    · have isData := owned.data _ _ nonzero
      rw [kept, same] at isData
      exact (Superblock.BBLOCK_not_data fresh.inside isData).elim
    · exact progress.quiet s data present untouched before

/-- The block of the next byte to be written. -/
def nextBlock (ip : Entry) (off tot : Nat) (state : State) : Nat :=
  (state.seen ip).pointer (state.entry ip).inum (slotOf ((off + tot) / BSIZE))

/-- The contents of that block when the next `count` bytes of the source have
been copied to it. -/
def nextBytes (src : Source) (ip : Entry) (off tot count : Nat) (state : State) : Bytes :=
  fun index =>
    if (off + tot) % BSIZE ≤ index ∧ index < (off + tot) % BSIZE + count then
      src.byte (tot + (index - (off + tot) % BSIZE))
    else state.disk.data (nextBlock ip off tot state) index

/-- Within the block, the copied bytes are the next ones of the file. -/
theorem nextBytes_at {count pos : Nat} (here : pos / BSIZE = (off + tot) / BSIZE) :
    nextBytes src ip off tot count new (pos % BSIZE) =
      if off + tot ≤ pos ∧ pos < off + tot + count then src.byte (pos - off)
      else (new.seen ip).byte (new.entry ip).inum pos := by
  have range : ((off + tot) % BSIZE ≤ pos % BSIZE ∧ pos % BSIZE < (off + tot) % BSIZE + count) <->
      (off + tot ≤ pos ∧ pos < off + tot + count) := by
    unfold BSIZE at *
    omega
  unfold nextBytes
  simp only [range]
  split
  · next now =>
      congr 1
      unfold BSIZE at *
      omega
  · rw [Volume.byte, here]
    rfl

theorem same_block {count pos : Nat} (inside : (off + tot) % BSIZE + count ≤ BSIZE)
    (low : off + tot ≤ pos) (high : pos < off + tot + count) :
    pos / BSIZE = (off + tot) / BSIZE := by
  unfold BSIZE at *
  omega

/-- A copy that succeeds. -/
theorem Progress.store (progress : Progress sb ip src off n old tot new) {count : Nat}
    (more : tot < n) (inside : (off + tot) % BSIZE + count ≤ BSIZE) (positive : 0 < count)
    (whole : tot + count < n -> (off + tot) % BSIZE + count = BSIZE)
    (present : nextBlock ip off tot new ≠ 0) :
    Progress sb ip src off n old (tot + count)
      ((new.setData (nextBlock ip off tot new) (nextBytes src ip off tot count new)).logBlock
        (nextBlock ip off tot new)) := by
  have here := progress.frame.inum
  have member : slotOf ((off + tot) / BSIZE) ∈ slotsOf off n := needs_mem more (Or.inl rfl)
  have logged := @Logged.store sb ip (slotsOf off n) old new ((off + tot) / BSIZE)
    (nextBytes src ip off tot count new) progress.logged progress.grown.owned member present
  have bytes : ∀ pos, pos / BSIZE = (off + tot) / BSIZE ->
      nextBytes src ip off tot count new (pos % BSIZE) =
        if off + tot ≤ pos ∧ pos < off + tot + count then src.byte (pos - off)
        else (new.seen ip).byte (old.entry ip).inum pos := by
    intro pos same
    rw [nextBytes_at same, here]
  unfold nextBlock at present logged ⊢
  rw [here] at present logged ⊢
  have owned := progress.grown.owned
  have pointers := @Volume.store_pointer sb (old.entry ip).inum (new.seen ip)
    ((off + tot) / BSIZE) (nextBytes src ip off tot count new) owned present (old.entry ip).inum
  refine ⟨progress.grown.store present, ?_, ?_, ?_, progress.nodes, logged, ?_, ?_, ?_⟩
  · exact progress.holds.store progress.grown present bytes fun pos => same_block inside
  · exact progress.covers.store progress.grown.owned present fun pos => same_block inside
  · exact ⟨progress.frame.entry, progress.frame.inode,
      progress.frame.steady.trans ⟨rfl, rfl, rfl, rfl, rfl, rfl⟩⟩
  · intro slot absent nonzero
    have same := pointers slot
    have before : (new.seen ip).pointer (old.entry ip).inum slot ≠ 0 := same ▸ nonzero
    refine mem_listBlock.mpr (Or.inr ?_)
    exact same ▸ progress.attached slot absent before
  · intro slot data old_ untouched listed
    rcases mem_listBlock.mp listed with same | before
    · have kept := progress.grown.kept slot old_
      have nonzero : (new.seen ip).pointer (old.entry ip).inum slot ≠ 0 := by rwa [kept]
      have here := (owned.once _ _ _ _ nonzero (kept.trans same)).2
      exact (untouched (off + tot) (by omega) (by omega) here.symm).elim
    · exact progress.quiet slot data old_ (fun pos low high => untouched pos low (by omega)) before
  · intro further
    have full := whole further
    right
    unfold BSIZE at *
    omega

end Progress

section Loop

variable {sb : Superblock} {ip : Entry} {src : Source} {off n : Nat} {old : State}
  {stop : State -> Prop} {goal : Nat × Nat -> State -> Prop}

/-- The loop of `writei` ends when everything has been written, when a copy has
failed, or when there is no free block. -/
theorem meets_writeiLoop (ready : Ready sb ip off n old)
    (room : Room stop sb (old.log.length + maps sb + (slotsOf off n).card))
    (done : ∀ new, src.avail n = n -> Progress sb ip src off n old n new -> goal (n, off + n) new)
    (failed : ∀ tot new, tot < n -> tot ≤ src.avail n ->
      src.avail n < tot + chunk (off + tot) (n - tot) ->
      Progress sb ip src off n old tot new -> nextBlock ip off tot new ≠ 0 ->
      goal (tot, off + tot) (new.setData (nextBlock ip off tot new)
        (nextBytes src ip off tot (src.avail n - tot) new)))
    (full : ∀ tot slot new, Progress sb ip src off n old tot new -> slot ∈ slotsOf off n ->
      (new.seen ip).pointer (old.entry ip).inum slot = 0 ->
      (∀ block, block < sb.size -> new.disk.used block = true) ->
      stop { new with panicked := some .ballocOutOfBlocks }) :
    ∀ turns tot new, Progress sb ip src off n old tot new -> tot ≤ n ->
      tot ≤ src.avail n -> n ≤ tot + turns ->
      Meets () stop (writeiLoop sb ip src n turns tot (off + tot)) goal new := by
  intro turns
  induction turns with
  | zero =>
    intro tot new progress low counted high
    have complete : tot = n := by omega
    subst complete
    have all : src.avail tot = tot := Nat.le_antisymm (src.avail_le tot) counted
    exact done new all progress
  | succ turns ih =>
    intro tot new progress low counted high
    unfold writeiLoop
    by_cases more : tot < n
    · rw [if_pos more]
      have inside : (off + tot) / BSIZE < MAXFILE := by
        have fits := ready.fits
        exact Nat.div_lt_of_lt_mul (by rw [Nat.mul_comm]; omega)
      have forward := @chunk_pos (off + tot) (n - tot) (by omega)
      have short := chunk_le (off + tot) (n - tot)
      have small := Nat.mod_lt (off + tot) (show 0 < BSIZE by decide)
      have block : (off + tot) % BSIZE + chunk (off + tot) (n - tot) ≤ BSIZE := by
        unfold chunk
        omega
      have whole : tot + chunk (off + tot) (n - tot) < n ->
          (off + tot) % BSIZE + chunk (off + tot) (n - tot) = BSIZE := by
        unfold chunk
        omega
      simp only [meets_do]
      refine meets_bmap (Progress sb ip src off n old tot) (fun _ => Progress.mappable ready)
        ?_ (fun _ _ _ progress needs => progress.attach more needs) ?_ inside progress ?_
      · intro new slot block progress needs vacant fresh
        have bound := progress.logged.length_allocated_le (needs_mem more needs) vacant.empty
          fresh.inside
        exact room.mono bound
      · intro new slot progress needs vacant used
        refine full tot slot new progress (needs_mem more needs) ?_ used
        rw [← progress.frame.inum]
        exact vacant.empty
      · intro new progress present
        have avail := src.avail_shift counted (show tot + chunk (off + tot) (n - tot) ≤ n by omega)
        have bytes : (Bytes.copyAt (new.disk.data (nextBlock ip off tot new))
            ((off + tot) % BSIZE) ((src.shift tot).copyin (chunk (off + tot) (n - tot)))).2 =
              nextBytes src ip off tot ((src.shift tot).avail (chunk (off + tot) (n - tot)))
                new := by
          rw [copyAt_eq]
          funext index
          simp only [Source.byte_shift]
          rfl
        have result : (Bytes.copyAt (new.disk.data (nextBlock ip off tot new))
            ((off + tot) % BSIZE) ((src.shift tot).copyin (chunk (off + tot) (n - tot)))).1 =
              decide ((src.shift tot).avail (chunk (off + tot) (n - tot)) =
                chunk (off + tot) (n - tot)) := by
          rw [copyAt_eq]
        simp only [meets_look, meets_change]
        have named : (new.seen ip).pointer (new.entry ip).inum (slotOf ((off + tot) / BSIZE)) =
            nextBlock ip off tot new := rfl
        rw [named] at present ⊢
        rw [bytes, result, avail]
        by_cases copied : chunk (off + tot) (n - tot) ≤ src.avail n - tot
        · rw [Nat.min_eq_left copied, decide_eq_true rfl, if_pos rfl]
          simp only [meets_do]
          have running := (Progress.mappable ready progress).running
          have length := progress.logged.length_le
          refine meets_log_write ⟨running, room.mono length⟩ ?_
          have next := ih (tot + chunk (off + tot) (n - tot)) _
            (progress.store more block forward whole present) (by omega) (by omega) (by omega)
          rw [← Nat.add_assoc] at next
          exact next
        · have partial_ : min (chunk (off + tot) (n - tot)) (src.avail n - tot) =
              src.avail n - tot := by omega
          rw [partial_, decide_eq_false (by omega), if_neg (by decide)]
          exact failed tot new more counted (by omega) progress present
    · rw [if_neg more]
      have complete : tot = n := by omega
      subst complete
      have all : src.avail tot = tot := Nat.le_antisymm (src.avail_le tot) counted
      exact done new all progress

end Loop

/-! ## The whole routine -/

/-- The end of `writei`: the size, and the copy of the inode on the disk. -/
def State.finish (sb : Superblock) (state : State) (ip : Entry) (last : Nat) : State :=
  ((if (state.entry ip).node.size < last then
      state.edit ip fun node => { node with size := last }
    else state).flush ip).logBlock (sb.IBLOCK (state.entry ip).inum)

/-- A volume with another size for one of its inodes. -/
def Volume.resize (vol : Volume) (inum size : Nat) : Volume :=
  { vol with node := Function.update vol.node inum { vol.node inum with size := size } }

section Finish

variable {sb : Superblock} {ip : Entry} {last : Nat} {state : State}

@[simp] theorem flush_entry : (state.flush ip).entry = state.entry := rfl

@[simp] theorem logBlock_entry {block : Nat} : (state.logBlock block).entry = state.entry := rfl

theorem finish_seen : (state.finish sb ip last).seen ip =
    (state.seen ip).resize (state.entry ip).inum (max (state.entry ip).node.size last) := by
  have flushed : (state.finish sb ip last).seen ip = (if (state.entry ip).node.size < last then
        state.edit ip fun node => { node with size := last }
      else state).seen ip := seen_flush
  rw [flushed, Volume.resize, seen_node_self]
  split
  · next longer =>
      rw [seen_edit, Nat.max_eq_right (by omega)]
  · next within =>
      rw [Nat.max_eq_left (by omega)]
      have same := Function.update_eq_self (state.entry ip).inum (state.seen ip).node
      rw [seen_node_self] at same
      exact congrArg (fun node => { state.seen ip with node := node }) same.symm

theorem finish_entry_other {jp : Entry} (different : jp ≠ ip) :
    (state.finish sb ip last).entry jp = state.entry jp := by
  unfold State.finish
  split
  · rw [logBlock_entry, flush_entry, edit_entry_other different]
  · rfl

theorem finish_entry_self : (state.finish sb ip last).entry ip = { state.entry ip with
    node := { (state.entry ip).node with size := max (state.entry ip).node.size last } } := by
  unfold State.finish
  split
  · next longer =>
      rw [Nat.max_eq_right (by omega)]
      rw [logBlock_entry, flush_entry, edit_entry_self]
  · next within =>
      rw [Nat.max_eq_left (by omega)]
      rfl

theorem finish_disk : (state.finish sb ip last).disk = (state.finish sb ip last).seen ip := by
  have clean := @seen_flush (if (state.entry ip).node.size < last then
    state.edit ip fun node => { node with size := last } else state) ip
  exact clean.symm

theorem finish_log : (state.finish sb ip last).log =
    State.listBlock state.log (sb.IBLOCK (state.entry ip).inum) := by
  unfold State.finish
  split <;> rfl

theorem finish_steady : Steady state (state.finish sb ip last) := by
  unfold State.finish
  constructor <;> split <;>
    simp only [State.logBlock, State.flush, State.edit, State.setInode]

end Finish

section Writei

variable {sb : Superblock} {ip : Entry} {src : Source} {off n : Nat} {old : State}
  {stop : State -> Prop} {goal : Int -> State -> Prop}

/-- The arguments that `writei` accepts. -/
def Accepted (ip : Entry) (off n : Nat) (state : State) : Prop :=
  off ≤ (state.entry ip).node.size ∧ off + n < 2 ^ 32 ∧ off + n ≤ MAXFILE * BSIZE

instance (ip : Entry) (off n : Nat) (state : State) : Decidable (Accepted ip off n state) :=
  inferInstanceAs (Decidable (_ ∧ _))

theorem Progress.size {tot : Nat} {new : State} (progress : Progress sb ip src off n old tot new) :
    (new.entry ip).node.size = (old.entry ip).node.size := by
  have node := progress.grown.node
  rw [← progress.frame.inum, seen_node_self, progress.frame.inum, seen_node_self] at node
  rw [node]

/-- Arguments that are refused, whatever the inode and the log are. -/
theorem meets_writei_refused (small : off < 2 ^ 32) (short : n < 2 ^ 32)
    (refused : ¬ Accepted ip off n old) (returns : goal (-1) old) :
    Meets () stop (writei sb ip src off n) goal old := by
  have bad : (old.entry ip).node.size < off ∨ uint32 (off + n) < off ∨
      MAXFILE * BSIZE < uint32 (off + n) := by
    by_cases wraps : off + n < 2 ^ 32
    · have sum : uint32 (off + n) = off + n := Nat.mod_eq_of_lt wraps
      rw [sum]
      unfold Accepted at refused
      omega
    · have sum : uint32 (off + n) = off + n - 2 ^ 32 := by
        unfold uint32
        omega
      omega
  simp only [writei, meets_do, meets_look]
  split
  · exact returns
  · next first =>
      rw [if_pos (by omega)]
      exact returns

/-- `writei` with its three ends: arguments that are refused, a complete write,
and a write that ends at a copy that fails. -/
theorem meets_writei (small : off < 2 ^ 32) (short : n < 2 ^ 32)
    (ready : Accepted ip off n old -> Ready sb ip off n old)
    (room : Room stop sb (old.log.length + maps sb + (slotsOf off n).card))
    (refused : ¬ Accepted ip off n old -> goal (-1) old)
    (done : ∀ new, Accepted ip off n old -> src.avail n = n ->
      Progress sb ip src off n old n new -> goal n (new.finish sb ip (off + n)))
    (failed : ∀ tot new, Accepted ip off n old -> tot < n -> tot ≤ src.avail n ->
      src.avail n < tot + chunk (off + tot) (n - tot) ->
      Progress sb ip src off n old tot new -> nextBlock ip off tot new ≠ 0 ->
      goal tot ((new.setData (nextBlock ip off tot new)
        (nextBytes src ip off tot (src.avail n - tot) new)).finish sb ip (off + tot)))
    (full : ∀ tot slot new, Accepted ip off n old -> Progress sb ip src off n old tot new ->
      slot ∈ slotsOf off n -> (new.seen ip).pointer (old.entry ip).inum slot = 0 ->
      (∀ block, block < sb.size -> new.disk.used block = true) ->
      stop { new with panicked := some .ballocOutOfBlocks }) :
    Meets () stop (writei sb ip src off n) goal old := by
  by_cases accepted : Accepted ip off n old
  · simp only [writei, meets_do, meets_look]
    have sum : uint32 (off + n) = off + n := Nat.mod_eq_of_lt accepted.2.1
    have ready := ready accepted
    rw [sum, if_neg (by have low := accepted.1; omega), if_neg (by have fits := ready.fits; omega)]
    simp only [meets_do]
    -- The size and the inode, once the loop is over.
    have finish : ∀ (tot : Nat) (new : State), new.outstanding = old.outstanding ->
        Room stop sb new.log.length ->
        (new.entry ip).node.size = (old.entry ip).node.size ->
        goal tot (new.finish sb ip (off + tot)) ->
        Meets () stop (if (old.entry ip).node.size < off + tot then do
            change (·.edit ip fun node => { node with size := off + tot })
            iupdate sb ip
            pure (tot : Int)
          else do
            iupdate sb ip
            pure (tot : Int)) goal new := by
      intro tot new running room size reached
      have writable : Writable stop sb new := ⟨running ▸ ready.running, room⟩
      unfold State.finish at reached
      rw [size] at reached
      split at reached
      · next longer =>
          rw [if_pos longer]
          simp only [meets_do, meets_change]
          refine meets_iupdate (⟨writable.running, writable.room⟩ : Writable stop sb
            (new.edit ip fun node => { node with size := off + tot })) ?_
          rw [edit_entry_self]
          exact reached
      · next within =>
          rw [if_neg within]
          exact (meets_iupdate writable reached).seq fun _ _ => id
    have roomy : ∀ {tot new}, Progress sb ip src off n old tot new ->
        Room stop sb new.log.length := fun progress => room.mono progress.logged.length_le
    refine meets_writeiLoop ready room ?_ ?_ (fun tot slot new => full tot slot new accepted) n 0
      old (Progress.refl ready) (Nat.zero_le _) (Nat.zero_le _) (by omega)
    · intro new all progress
      exact finish n new progress.frame.steady.outstanding (roomy progress) progress.size
        (done new accepted all progress)
    · intro tot new more counted short progress present
      have room := roomy progress
      have size := progress.size
      exact finish tot (new.setData _ _) progress.frame.steady.outstanding room size
        (failed tot new accepted more counted short progress present)
  · exact meets_writei_refused small short accepted (refused accepted)

end Writei

end Fs
end Xv6
