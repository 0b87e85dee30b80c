import Xv6.Fs.Inodes
import Xv6.Fs.PartialWrite

namespace Xv6
namespace Fs

open Conc Finset

/-!
# Reads and writes inside an operation

A read leaves the state alone.  A write lists the blocks of its range and the
inode block, and keeps the volume consistent, also when it ends at a copy that
fails.
-/

section Read

variable {sb : Superblock} {stop : State -> Prop} {past : List (List Nat)}
  {blocks : Finset Nat} {state : State} {p : Pid} {ip : Entry} {off n : Nat}

theorem Calm.readi (op : Calm sb past blocks state) (held : Held p ip state) {dst : Sink}
    (small : off < 2 ^ 32) (short : n < 2 ^ 32) {goal : Int × List UInt8 -> State -> Prop}
    (done : ∀ bytes, bytes = (if off + n < 2 ^ 32 then
        ((state.disk.contents (state.entry ip).inum).drop off).take n else []) ->
      goal (bytes.length, bytes) state)
    (failed : ¬ dst.Accepts n -> goal (-1, []) state) :
    Meets () stop (readi sb ip dst off n) goal state := by
  have clean := op.settled.clean ip held.referenced held.valid
  have typed := op.settled.typed ip held.referenced held.valid
  have seen := op.settled.seen_eq held.referenced held.valid
  refine meets_readi typed ?_ small short ?_ failed
  · rw [seen]
    exact op.consistent.filled _ (clean ▸ typed)
  · rw [seen]
    exact done

end Read

/-! ## Writes -/

section Write

variable {sb : Superblock} {stop : State -> Prop} {past : List (List Nat)}
  {blocks : Finset Nat} {old middle : State} {count : Nat} {p : Pid} {ip : Entry}
  {src : Source} {off n tot : Nat}

theorem Op.sound (op : Op sb past blocks old) (held : Held p ip old) : Sound sb ip old where
  running := op.running
  allocated := op.settled.typed ip held.referenced held.valid
  owned := by
    rw [op.settled.seen_eq held.referenced held.valid]
    exact op.consistent.toOwned
  filled := by
    have clean := op.settled.clean ip held.referenced held.valid
    have typed := op.settled.typed ip held.referenced held.valid
    rw [op.settled.seen_eq held.referenced held.valid]
    exact op.consistent.filled _ (clean ▸ typed)
  distinct := op.spent.distinct

/-- The blocks of the file that a write can list. -/
def touched (slots : Finset Nat) (ip : Entry) (state : State) : Finset Nat :=
  slots.image ((state.seen ip).pointer (state.entry ip).inum)

theorem Logged.spent {slots : Finset Nat} (logged : Logged sb ip slots old middle)
    (spent : Spent sb blocks old.log) :
    Spent sb (blocks ∪ touched slots ip middle) middle.log where
  distinct := logged.distinct
  listed := by
    intro block member
    rw [← union_assoc]
    rcases logged.listed block member with before | ⟨bit, inside, rfl⟩ | ⟨_, slot, inside, same⟩
    · exact mem_union_left _ (spent.listed block before)
    · exact mem_union_left _ (mem_union_left _ (BBLOCK_mem inside))
    · refine mem_union_right _ (mem_image.mpr ?_)
      exact ⟨slot, inside, same.symm⟩

/-- The end of a write, whether or not it is complete. -/
theorem Op.finish {more : Finset Nat} (op : Op sb past blocks old) (held : Held p ip old)
    (frame : Frame ip old middle) (nodes : middle.disk.node = old.disk.node)
    (grown : Volume.Grown sb (old.entry ip).inum (slotsOf off n) (old.seen ip) (middle.seen ip))
    (covers : Volume.Covers (middle.seen ip) (old.entry ip).inum off tot)
    (inside : off ≤ (old.entry ip).node.size)
    (size : (middle.entry ip).node.size = (old.entry ip).node.size)
    (spent : Spent sb more middle.log) (allowed : sb.IBLOCK (old.entry ip).inum ∈ more) :
    Op sb past more (middle.finish sb ip (off + tot)) ∧
      Refreshed ip old (middle.finish sb ip (off + tot)) ∧
      Steady old (middle.finish sb ip (off + tot)) := by
  have typed := op.settled.typed ip held.referenced held.valid
  have clean := op.settled.clean ip held.referenced held.valid
  have seen := op.settled.seen_eq held.referenced held.valid
  have number : ((middle.finish sb ip (off + tot)).entry ip).inum = (old.entry ip).inum := by
    rw [finish_entry_self]
    exact frame.inum
  have steady := frame.steady.trans (@finish_steady sb ip (off + tot) middle)
  have self : (middle.finish sb ip (off + tot)).disk.node (old.entry ip).inum =
      ((middle.finish sb ip (off + tot)).entry ip).node := by
    rw [finish_disk, ← number, seen_node_self]
  have refreshed : Refreshed ip old (middle.finish sb ip (off + tot)) := by
    refine ⟨?_, ?_, ?_⟩
    · rw [self, finish_entry_self, frame.inode]
    · intro jp different
      rw [finish_entry_other different, frame.entry jp different]
    · intro inum different
      rw [finish_disk, seen_node_other (by rwa [number]), finish_disk, finish_seen]
      refine (Function.update_of_ne (by rwa [frame.inum]) _ _).trans ?_
      rw [seen_node_other (by rwa [frame.inum]), nodes]
  refine ⟨op.step steady ?_ ?_ ?_, refreshed, steady⟩
  · refine refreshed.settled op.settled held.referenced ?_
    rw [self, finish_entry_self, ← @seen_node_self middle ip, frame.inum, grown.node]
    rwa [seen_node_self]
  · have disk : (middle.finish sb ip (off + tot)).disk = (middle.seen ip).resize
        (old.entry ip).inum (max ((old.seen ip).node (old.entry ip).inum).size (off + tot)) := by
      rw [finish_disk, finish_seen, frame.inum, size, seen_node_self]
    rw [disk]
    refine grown.consistent covers (seen ▸ op.consistent) ?_ ?_
    · rwa [seen_node_self]
    · rwa [seen_node_self]
  · rw [finish_log, frame.inum]
    exact spent.list (mem_union_right _ allowed)

theorem Op.writei (op : Op sb past blocks old) (fits : Fits stop sb past count)
    (within : blocks.card + (slotsOf off n).card ≤ count) (held : Held p ip old)
    (allowed : sb.IBLOCK (old.entry ip).inum ∈ blocks) (small : off < 2 ^ 32)
    (short : n < 2 ^ 32) {goal : Int -> State -> Prop}
    (next : ∀ value data new, data.card ≤ (slotsOf off n).card ->
      Op sb past (blocks ∪ data) new -> Steady old new -> Refreshed ip old new ->
      goal value new) :
    Meets () stop (writei sb ip src off n) goal old := by
  have sound := op.sound held
  have length := op.spent.length_le
  have allowed' : ∀ data : Finset Nat, sb.IBLOCK (old.entry ip).inum ∈ blocks ∪ data :=
    fun data => mem_union_left _ allowed
  refine meets_writei small short ?_ ?_ ?_ ?_ ?_ ?_
  · exact fun accepted => ⟨sound.running, sound.allocated, sound.owned, sound.distinct,
      accepted.2.2⟩
  · exact fits.room.mono (by omega)
  · intro _
    refine next (-1) ∅ old (by simp) ?_ (Steady.refl old) ⟨?_, fun _ _ => rfl, fun _ _ => rfl⟩
    · rwa [union_empty]
    · rw [← op.settled.clean ip held.referenced held.valid]
  · intro new accepted _ progress
    obtain ⟨op', refreshed, steady⟩ := op.finish held progress.frame progress.nodes
      progress.grown progress.covers accepted.1 progress.size
      (progress.logged.spent op.spent) (allowed' _)
    exact next n _ _ card_image_le op' steady refreshed
  · intro tot new accepted more counted short' progress present
    have failed : Failed sb ip src off n old tot new :=
      ⟨accepted, more, counted, short', progress, present⟩
    obtain ⟨op', refreshed, steady⟩ := @Op.finish sb past blocks old (new.setData
        (nextBlock ip off tot new) (nextBytes src ip off tot (src.avail n - tot) new)) p ip off n
        tot _ op held ⟨progress.frame.entry, progress.frame.inode,
          progress.frame.steady.trans ⟨rfl, rfl, rfl, rfl, rfl, rfl⟩⟩ progress.nodes failed.grown
        failed.covers accepted.1 progress.size (progress.logged.spent op.spent) (allowed' _)
    exact next tot _ _ card_image_le op' steady refreshed
  · intro tot slot new _ progress _ _ _
    have bound := progress.logged.length_le
    refine fits.stops (by change new.log.length ≤ _; omega) ?_ fun impossible => nomatch impossible
    exact progress.frame.steady.transactions.trans op.committed

end Write

end Fs
end Xv6
