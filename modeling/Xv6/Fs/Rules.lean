import Xv6.Fs.Blocks
import Xv6.Fs.Code

namespace Xv6
namespace Fs

open Conc List

/-!
# Rules for the statements of the file system

One rule for each small routine that writes through the log.  `log_write`
panics when the log is full; the callers show that there is room, because they
know which blocks they can list, or that it does not matter how a run stops.
-/

section Statements

variable {α : Type} {stop : State -> Prop} {goal : α -> State -> Prop} {state : State}

@[simp] theorem meets_look (view : State -> α) :
    Meets () stop (look view) goal state <-> goal (view state) state :=
  Iff.rfl

@[simp] theorem meets_change (update : State -> State) {goal : Unit -> State -> Prop} :
    Meets () stop (change update) goal state <-> goal () (update state) :=
  Iff.rfl

@[simp] theorem meets_panic (why : Panic) : Meets () stop (panic why : Routine α) goal state <->
      stop { state with panicked := some why } :=
  Iff.rfl

@[simp] theorem meets_atomically (run : State -> α × State) :
    Meets () stop (atomically run) goal state <-> goal (run state).1 (run state).2 :=
  Iff.rfl

@[simp] theorem meets_pure (value : α) :
    Meets () stop (pure value : Routine α) goal state <-> goal value state :=
  Iff.rfl

@[simp] theorem meets_do {β : Type} (program : Routine β) (rest : β -> Routine α) :
    Meets () stop (program >>= rest) goal state <->
      Meets () stop program (fun value after => Meets () stop (rest value) goal after) state :=
  meets_bind program rest

end Statements

/-! ## Routines that only read -/

/-- A routine that returns to the state in which it began. -/
def Reads {α : Type} (stop : State -> Prop) (state : State) (program : Routine α) : Prop :=
  forall goal : α -> State -> Prop, (forall value, goal value state) ->
    Meets () stop program goal state

section Reads

variable {α β : Type} {stop : State -> Prop} {state : State}

theorem Reads.pure (value : α) : Reads stop state (pure value : Routine α) :=
  fun _ all => (meets_pure value).mpr (all value)

theorem Reads.bind {program : Routine β} {rest : β -> Routine α}
    (first : Reads stop state program) (second : ∀ value, Reads stop state (rest value)) :
    Reads stop state (program >>= rest) :=
  fun goal all => (meets_do program rest).mpr (first _ fun value => second value goal all)

theorem Reads.ite {condition : Prop} [Decidable condition] {yes no : Routine α}
    (first : Reads stop state yes) (second : Reads stop state no) :
    Reads stop state (if condition then yes else no) := by
  split
  · exact first
  · exact second

theorem Reads.firstSome {body : β -> Routine (Option α)} {items : List β}
    (each : ∀ item, Reads stop state (body item)) :
    Reads stop state (Prog.firstSome body items) := by
  induction items with
  | nil => exact Reads.pure none
  | cons item items ih =>
    intro goal all
    refine (each item (fun _ after => after = state) fun _ => rfl).seq ?_
    rintro result after rfl
    cases result with
    | some value => exact all (some value)
    | none => exact ih goal all

end Reads

/-- What the routines that work on inodes and blocks leave alone. -/
structure Steady (old new : State) : Prop where
  file : new.file = old.file
  proc : new.proc = old.proc
  home : new.home = old.home
  outstanding : new.outstanding = old.outstanding
  transactions : new.transactions = old.transactions
  panicked : new.panicked = old.panicked

theorem Steady.refl (state : State) : Steady state state := ⟨rfl, rfl, rfl, rfl, rfl, rfl⟩

theorem Steady.trans {first second third : State} (one : Steady first second)
    (two : Steady second third) : Steady first third where
  file := two.file.trans one.file
  proc := two.proc.trans one.proc
  home := two.home.trans one.home
  outstanding := two.outstanding.trans one.outstanding
  transactions := two.transactions.trans one.transactions
  panicked := two.panicked.trans one.panicked

/-! ## The log -/

section Log

variable {sb : Superblock} {state : State} {block : Nat}

/-- The log can hold more than `length` blocks, unless a run may stop because it
is full. -/
def Room (stop : State -> Prop) (sb : Superblock) (length : Nat) : Prop :=
  (forall state, state.panicked = some .tooBigTransaction -> stop state) ∨ length < logLimit sb

theorem Room.mono {stop : State -> Prop} {length longer : Nat} (room : Room stop sb longer)
    (shorter : length ≤ longer) : Room stop sb length :=
  room.imp_right (Nat.lt_of_le_of_lt shorter)

/-- An operation is running and the log can take another block. -/
structure Writable (stop : State -> Prop) (sb : Superblock) (state : State) : Prop where
  running : 1 ≤ state.outstanding
  room : Room stop sb state.log.length

theorem mem_listBlock {log : List Nat} {other : Nat} :
    other ∈ State.listBlock log block <-> other = block ∨ other ∈ log := by
  unfold State.listBlock
  split
  · next listed =>
      constructor
      · exact Or.inr
      · rintro (rfl | member)
        · exact listed
        · exact member
  · simp only [mem_append, mem_singleton]
    exact or_comm

theorem nodup_listBlock {log : List Nat} (distinct : log.Nodup) :
    (State.listBlock log block).Nodup := by
  unfold State.listBlock
  split
  · exact distinct
  · next absent =>
      exact List.Nodup.append distinct (nodup_singleton block) (disjoint_singleton.mpr absent)

theorem length_listBlock_le (log : List Nat) (block : Nat) :
    log.length ≤ (State.listBlock log block).length := by
  unfold State.listBlock
  split
  · exact le_refl _
  · rw [length_append]
    exact Nat.le_add_right _ _

theorem meets_log_write {stop : State -> Prop} {goal : Unit -> State -> Prop}
    (writable : Writable stop sb state) (next : goal () (state.logBlock block)) :
    Meets () stop (log_write sb block) goal state := by
  have running := writable.running
  simp only [log_write, meets_do, meets_look]
  split
  · next full =>
      rcases writable.room with tolerant | room
      · exact tolerant _ rfl
      · omega
  · simp only [meets_do, meets_look]
    rw [if_neg (by omega)]
    exact next

end Log

/-! ## Allocating and freeing blocks -/

section Allocation

variable {sb : Superblock} {state : State} {block : Nat}

theorem firstFree_fresh {disk : Volume} {index : Nat}
    (found : firstFree sb disk index = some block) : Volume.Fresh sb disk block := by
  unfold firstFree at found
  obtain ⟨bi, hit, rfl⟩ := Option.map_eq_some_iff.mp found
  have member := mem_of_find?_eq_some hit
  have free := List.find?_some hit
  rw [mem_range] at member
  refine ⟨by omega, ?_⟩
  simpa using free

theorem firstFree_none {disk : Volume} {index : Nat} (none : firstFree sb disk index = none)
    (inside : block < sb.size) (here : block / BPB = index) : disk.used block = true := by
  unfold firstFree at none
  rw [Option.map_eq_none_iff, List.find?_eq_none] at none
  have positive : 0 < BPB := by decide
  have split := Nat.div_add_mod block BPB
  have small := Nat.mod_lt block positive
  rw [here, Nat.mul_comm] at split
  have used := none (block % BPB) (mem_range.mpr (by omega))
  rw [split] at used
  simpa using used

/-- The state after `balloc` has returned a block. -/
def State.allocated (sb : Superblock) (state : State) (block : Nat) : State :=
  (((state.setUsed block true).logBlock (sb.BBLOCK block)).setData block Bytes.zero).logBlock block

theorem allocated_log : (state.allocated sb block).log =
    State.listBlock (State.listBlock state.log (sb.BBLOCK block)) block := rfl

theorem mem_allocated_log {other : Nat} : other ∈ (state.allocated sb block).log <->
    other = block ∨ other = sb.BBLOCK block ∨ other ∈ state.log := by
  rw [allocated_log, mem_listBlock, mem_listBlock]

theorem nodup_allocated (distinct : state.log.Nodup) : (state.allocated sb block).log.Nodup :=
  nodup_listBlock (nodup_listBlock distinct)

/-- `balloc` returns a block that was free, or panics when there is none. -/
theorem meets_balloc {stop : State -> Prop} {goal : Nat -> State -> Prop}
    (running : 1 ≤ state.outstanding)
    (room : ∀ block, Volume.Fresh sb state.disk block ->
      Room stop sb (state.allocated sb block).log.length)
    (found : ∀ block, Volume.Fresh sb state.disk block -> goal block (state.allocated sb block))
    (full : (∀ block, block < sb.size -> state.disk.used block = true) ->
      stop { state with panicked := some .ballocOutOfBlocks }) :
    Meets () stop (balloc sb) goal state := by
  unfold balloc
  -- What the remaining bitmap blocks do not cover is in use.
  refine (meets_firstSome (fun items after => after = state ∧ ∀ block, block < sb.size ->
      block / BPB ∉ items -> state.disk.used block = true)
    (fun block after => Volume.Fresh sb state.disk block ∧
      after = (state.setUsed block true).logBlock (sb.BBLOCK block)) ?_ ?_).seq ?_
  · rintro index items after ⟨same, covered⟩
    subst same
    simp only [ballocIn, meets_do, meets_look]
    cases hit : firstFree sb after.disk index with
    | some block =>
      have fresh := firstFree_fresh hit
      have shorter := length_listBlock_le after.log (sb.BBLOCK block)
      simp only [meets_do, meets_change]
      refine meets_log_write ⟨running, ?_⟩ ?_
      · exact (room block fresh).mono (shorter.trans (length_listBlock_le _ block))
      exact (meets_pure _).mpr ⟨fresh, rfl⟩
    | none =>
      refine ⟨rfl, fun block inside outside => ?_⟩
      by_cases here : block / BPB = index
      · exact firstFree_none hit inside here
      · exact covered block inside (by simp [here, outside])
  · refine ⟨rfl, fun block inside outside => (outside ?_).elim⟩
    rw [mem_range]
    unfold BPB BSIZE
    omega
  · intro result after held
    cases result with
    | none =>
      rcases held with ⟨rfl, used⟩
      exact full fun block inside => used block inside (by simp)
    | some block =>
      rcases held with ⟨fresh, rfl⟩
      simp only [bzero, meets_do, meets_change]
      refine meets_log_write ⟨running, ?_⟩ (found block fresh)
      exact (room block fresh).mono (length_listBlock_le _ block)

theorem meets_bfree {stop : State -> Prop} {goal : Unit -> State -> Prop}
    (writable : Writable stop sb state) (used : state.disk.used block = true)
    (next : goal () ((state.setUsed block false).logBlock (sb.BBLOCK block))) :
    Meets () stop (bfree sb block) goal state := by
  simp only [bfree, meets_do, meets_look, used, if_true, meets_change]
  exact meets_log_write ⟨writable.running, writable.room⟩ next

theorem meets_iupdate {ip : Entry} {stop : State -> Prop} {goal : Unit -> State -> Prop}
    (writable : Writable stop sb state)
    (next : goal () ((state.flush ip).logBlock (sb.IBLOCK (state.entry ip).inum))) :
    Meets () stop (iupdate sb ip) goal state := by
  simp only [iupdate, meets_do, meets_look, meets_change]
  exact meets_log_write ⟨writable.running, writable.room⟩ next

end Allocation

end Fs
end Xv6
