import Xv6.Fs.OpenFiles

namespace Xv6
namespace Fs

open Conc

/-!
# Operations fit their log reservation

`begin_op` reserves `MAXOPBLOCKS` blocks of the log.  On a disk with one bitmap
block, no operation of a system call lists more than that, as long as the state is
well formed.
-/

/-- A state in which the kernel can start a system call of process `p`. -/
structure WellFormed (sb : Superblock) (p : Pid) (state : State) : Prop where
  quiet : Quiet sb state
  named : Named state
  cwd : forall ip, (state.proc p).cwd = some ip -> 0 < (state.entry ip).ref
  files : FilesOk state

/-- Neither the transactions committed since `start` nor the running one list more
blocks than an operation may. -/
structure Within (start state : State) : Prop where
  running : state.log.length ≤ MAXOPBLOCKS
  committed : ∃ recent, state.transactions = recent ++ start.transactions ∧
    forall blocks, blocks ∈ recent -> blocks.length ≤ MAXOPBLOCKS

section Main

variable {sb : Superblock} {p : Pid} {state : State}

theorem maps_le_one (small : sb.size ≤ BPB) : maps sb ≤ 1 := by
  unfold maps
  unfold BPB BSIZE at *
  omega

theorem reservation (small : sb.size ≤ BPB) (state : State) :
    Regime sb (Within state) (fun past => ∃ recent, past = recent ++ state.transactions ∧
      ∀ blocks, blocks ∈ recent -> blocks.length ≤ MAXOPBLOCKS) ∅ 8 where
  room := le_refl 8
  fits := by
    intro past committed
    have one := maps_le_one small
    refine Or.inr ⟨by unfold MAXOPBLOCKS; omega, fun after running same => ⟨running, ?_⟩⟩
    rw [same]
    exact committed
  commit := by
    rintro past blocks log ⟨recent, rfl, short⟩ spent few
    have one := maps_le_one small
    have length := spent.length_le
    refine ⟨log :: recent, rfl, fun listed member => ?_⟩
    rcases List.mem_cons.mp member with rfl | before
    · unfold MAXOPBLOCKS
      omega
    · exact short listed before

/-- Every operation of every system call lists at most `MAXOPBLOCKS` blocks. -/
theorem syscall_fits_reservation (small : sb.size ≤ BPB) (formed : WellFormed sb p state)
    (call : Call) : Within state ((syscall sb p call).alone () state).2 := by
  have regime := reservation small state
  have callable : Callable sb (fun past => ∃ recent, past = recent ++ state.transactions ∧
      forall blocks, blocks ∈ recent -> blocks.length ≤ MAXOPBLOCKS) ∅ p state :=
    ⟨⟨formed.quiet, [], rfl, fun _ none => by cases none⟩, Or.inl formed.named, formed.cwd,
      formed.files⟩
  refine Meets.ends ((callable.syscall regime call).mono fun _ after rest => ⟨?_, rest.good⟩)
  rw [rest.quiet.empty]
  exact Nat.zero_le _

end Main

/-! ## A small file system between operations -/

/-- File 0 is descriptor 0 of process 0. -/
def oneFileQuiet : State :=
  { oneFileOpen [7, 9] with
    entry := fun ip =>
      if ip = 0 then ⟨2, 1, none, true, (oneFile [7, 9]).node 2⟩
      else ⟨0, 0, none, false, Dinode.fresh 0⟩
    file := fun f =>
      if f = 0 then ⟨.fdInode, 1, true, true, some 0, 0, 0⟩
      else ⟨.fdNone, 0, false, false, none, 0, 0⟩
    proc := fun _ => ⟨fun fd => if fd = 0 then some 0 else none, none⟩
    outstanding := 0 }

theorem oneFile_consistent : (oneFile [7, 9]).Consistent smallDisk where
  toOwned := oneFile_owned [7, 9]
  filled := by
    intro inum allocated bn below
    have small : ((oneFile [7, 9]).node inum).size ≤ BSIZE ∧
        (oneFile [7, 9]).pointer inum 0 ≠ 0 := by
      rcases oneFile_type allocated with rfl | rfl <;> decide
    have first : bn = 0 := by
      by_contra later
      have long := Nat.le_mul_of_pos_left BSIZE (Nat.pos_of_ne_zero later)
      omega
    subst first
    exact small.2

theorem oneFileQuiet_used {ip : Entry} (referenced : 0 < (oneFileQuiet.entry ip).ref) : ip = 0 := by
  by_contra other
  have unused : (oneFileQuiet.entry ip).ref = 0 := by simp [oneFileQuiet, other]
  omega

/-- Only the root and the file can be found. -/
theorem oneFileQuiet_findable {inum : Nat} (found : Findable oneFileQuiet inum) :
    inum = 2 ∨ inum = ROOTINO := by
  induction found with
  | root => exact Or.inr rfl
  | used referenced =>
    rw [oneFileQuiet_used referenced]
    exact Or.inl rfl
  | @named dir off _ directory names ih =>
    rcases ih with rfl | rfl
    · exact absurd directory (by decide)
    · have each : ∀ off, off ∈ offsets 0 (3 * DESIZE) ->
          (oneFileQuiet.disk.dirent ROOTINO off).inum = 2 ∨
            (oneFileQuiet.disk.dirent ROOTINO off).inum = ROOTINO := by
        decide +kernel
      exact each off names.entry

theorem oneFileQuiet_formed : WellFormed smallDisk 0 oneFileQuiet where
  quiet := by
    refine ⟨⟨?_, ?_, ?_⟩, oneFile_consistent, rfl, rfl, rfl⟩
    · intro ip jp first second _
      rw [oneFileQuiet_used first, oneFileQuiet_used second]
    · intro ip referenced _
      rw [oneFileQuiet_used referenced]
      rfl
    · intro ip referenced _
      rw [oneFileQuiet_used referenced]
      change T_FILE ≠ 0
      decide
  named := by
    intro inum found
    refine Or.inr (Or.inl ?_)
    rcases oneFileQuiet_findable found with rfl | rfl <;> decide
  cwd := by
    intro ip here
    cases here
  files := by
    refine ⟨fun f unused => ?_, fun f => ?_⟩
    · by_cases here : f = 0
      · subst here
        cases unused
      · simp [oneFileQuiet, here]
    · by_cases here : f = 0 <;> simp [oneFileQuiet, here]

/-- One byte of the process's memory is written to the file. -/
theorem write_fits_reservation :
    ((syscall smallDisk 0 (.write 0 (.user onePage 0) 1 0)).alone () oneFileQuiet).1 = some 1 ∧
      Within oneFileQuiet
        ((syscall smallDisk 0 (.write 0 (.user onePage 0) 1 0)).alone () oneFileQuiet).2 :=
  ⟨by decide +kernel, syscall_fits_reservation (by decide) oneFileQuiet_formed _⟩

/-! ## A directory with holes -/

/-- A root directory of ten blocks of which none is allocated. -/
def hollowDisk : Volume where
  node := fun inum =>
    if inum = ROOTINO then ⟨T_DIR, 0, 0, 1, 10 * BSIZE, fun _ => 0⟩ else Dinode.fresh 0
  used := fun block => decide (block < 50)
  data := fun _ => Bytes.zero

/-- Nothing is open. -/
def hollow : State where
  entry := fun _ => ⟨0, 0, none, false, Dinode.fresh 0⟩
  file := fun _ => ⟨.fdNone, 0, false, false, none, 0, 0⟩
  proc := fun _ => ⟨fun _ => none, none⟩
  disk := hollowDisk
  home := hollowDisk
  log := []
  outstanding := 0
  transactions := []
  panicked := none

/-- Looking up a name in this directory allocates all of its blocks: the ten blocks
and the bitmap are in one transaction. -/
theorem open_exceeds_reservation : smallDisk.size ≤ BPB ∧
    ((syscall smallDisk 0 (.open (some ⟨[slash, 97], by simp [slash]⟩) 0)).alone ()
      hollow).2.transactions.map List.length = [11] ∧ MAXOPBLOCKS < 11 := by
  refine ⟨by decide, by decide +kernel, by decide⟩

end Fs
end Xv6
