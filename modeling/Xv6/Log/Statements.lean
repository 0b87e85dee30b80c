import Xv6.Log.Preservation

namespace Xv6
namespace Log

open Conc List Logic Prog

/-!
# Specifications of the buffer and log statements

`Local` records everything a process itself owns: whether it is inside an
operation, holds `log.lock` or commits, which buffers it references, has locked
and has modified without logging them.  All of it survives interference.
`SameView` is what the statements on buffers leave alone, so the
committing process carries its knowledge of the disk and of the log across
them.
-/

variable {geometry : Geometry} {base : Disk} {state now after : State} {process : Proc}
  {pre : Label -> Proc -> State -> Prop} {post : Label -> Proc -> State -> Int -> State -> Prop}

theorem coherent : (logLogic geometry base pre post).Coherent (machine geometry) where
  rely_refl := Rely.refl
  rely_trans := fun _ _ _ _ => Rely.trans
  guar_inv := fun _ _ _ _ inv _ step => step.inv inv
  guar_rely := fun _ _ _ _ _ inv _ step different => step.rely inv different

/-- What a process owns. -/
structure Local (process : Proc) (active locked commits : Bool)
    (refs held dirty : List Nat) (state : State) : Prop where
  inOps : process ∈ state.ops <-> active = true
  hasLock : state.lock = some process <-> locked = true
  isCommitter : state.committer = some process <-> commits = true
  refCount : forall block, (state.buf block).holders.count (.proc process) = refs.count block
  holds : forall block, (state.buf block).lock = some process <-> block ∈ held
  marked : forall block, state.dirty block = some process <-> block ∈ dirty

/-- The same for a process that has read and locked every buffer it refers to. -/
abbrev Owns (process : Proc) (active locked commits : Bool) (held dirty : List Nat)
    (state : State) : Prop :=
  Local process active locked commits held held dirty state

/-- The process commits or recovers, and has released all buffers. -/
abbrev Commits (process : Proc) (state : State) : Prop :=
  Owns process false false true [] [] state

abbrev Wp (geometry : Geometry) (base : Disk) (pre : Label -> Proc -> State -> Prop)
    (post : Label -> Proc -> State -> Int -> State -> Prop) (process : Proc) {α : Type}
    (program : LogProg α) (goal : α -> State -> Prop) (state : State) : Prop :=
  (logLogic geometry base pre post).wp (machine geometry).runs process program goal state

/-! ## Pinned buffers -/

/-- No pin is outside the in-memory header. -/
def Settled (state : State) : Prop :=
  forall block, .log ∈ (state.buf block).holders -> block ∈ state.lh

theorem Inv.settled_of_free (inv : Inv geometry base state) (free : state.lock = none) :
    Settled state := by
  intro block pinned
  rcases (inv.buffer block).pinned_logged pinned with logged | ⟨holder, locked, _⟩
  · exact logged
  · rw [free] at locked
    cases locked

theorem Inv.settled_of_committer (inv : Inv geometry base state)
    (mine : state.committer ≠ none) : Settled state := by
  intro block pinned
  rcases (inv.buffer block).pinned_logged pinned with logged | ⟨holder, _, active⟩
  · exact logged
  · rw [inv.committer_alone mine] at active
    cases active

theorem Inv.settled_of_inactive (inv : Inv geometry base state)
    (locked : state.lock = some process) (inactive : process ∉ state.ops) :
    Settled state := by
  intro block pinned
  rcases (inv.buffer block).pinned_logged pinned with logged | ⟨holder, held, active⟩
  · exact logged
  · rw [locked] at held
    cases held
    exact (inactive active).elim

theorem Settled.rely (settled : Settled state) (rely : Rely process state now)
    (locked : state.lock = some process) (ready : state.ready = true)
    (quiet : state.committing = false) : Settled now := by
  have same := rely.quiet_log locked ready quiet
  intro block pinned
  rw [same.1]
  exact settled block ((same.2 block).mp pinned)

/-! ## The end of a transaction -/

/-- Without an operation and without a commit under way the log is empty. -/
def Fresh (state : State) : Prop :=
  state.ready = true -> state.committing = false -> state.ops = [] -> state.lh = []

theorem Inv.fresh_of_free (inv : Inv geometry base state) (free : state.lock = none) :
    Fresh state :=
  inv.idle_empty free

theorem fresh_of_active (active : process ∈ state.ops) : Fresh state := by
  intro _ _ none
  rw [none] at active
  cases active

theorem fresh_of_committing (committing : state.committing = true) : Fresh state := by
  intro _ quiet
  rw [committing] at quiet
  cases quiet

theorem Fresh.rely (fresh : Fresh state) (rely : Rely process state now)
    (locked : state.lock = some process) (ready : state.ready = true) : Fresh now := by
  intro _ quiet none
  have same := rely.log locked
  rw [same.1] at quiet
  rw [same.2.2] at none
  rw [(rely.quiet_log locked ready quiet).1]
  exact fresh ready quiet none

/-- The part of the state that no statement on buffers changes. -/
structure SameLog (state now : State) : Prop where
  lh : now.lh = state.lh
  installing : now.installing = state.installing
  ready : now.ready = state.ready
  committing : now.committing = state.committing
  leaked : now.leaked = state.leaked
  pins : forall block, .log ∈ (now.buf block).holders <-> .log ∈ (state.buf block).holders

theorem SameLog.trans (first : SameLog state now) (second : SameLog now after) :
    SameLog state after where
  lh := second.lh.trans first.lh
  installing := second.installing.trans first.installing
  ready := second.ready.trans first.ready
  committing := second.committing.trans first.committing
  leaked := second.leaked.trans first.leaked
  pins := fun block => (second.pins block).trans (first.pins block)

theorem SameLog.tracked (same : SameLog state now) {block : Nat} (tracked : state.Tracked block) :
    now.Tracked block :=
  tracked.imp (fun sound => same.leaked ▸ sound) (same.pins block).mpr

/-- The part of the state that reading and releasing buffers does not change. -/
structure SameView (state now : State) : Prop extends SameLog state now where
  disk : now.disk = state.disk
  logical : forall block, state.Tracked block -> now.logical block = state.logical block

theorem SameView.refl (state : State) : SameView state state :=
  ⟨⟨rfl, rfl, rfl, rfl, rfl, fun _ => Iff.rfl⟩, rfl, fun _ _ => rfl⟩

theorem SameView.trans (first : SameView state now) (second : SameView now after) :
    SameView state after where
  toSameLog := first.toSameLog.trans second.toSameLog
  disk := second.disk.trans first.disk
  logical := fun block tracked =>
    (second.logical block (first.tracked tracked)).trans (first.logical block tracked)

theorem SameView.of_rely (rely : Rely process state now)
    (mine : state.committer = some process) : SameView state now where
  disk := (rely.mine mine).1
  lh := (rely.mine mine).2.1
  installing := (rely.mine mine).2.2.1
  ready := (rely.mine mine).2.2.2.1
  committing := (rely.mine mine).2.2.2.2.1
  leaked := (rely.mine mine).2.2.2.2.2
  pins := rely.mine_pins mine
  logical := rely.mine_logical mine

section Local

variable {active locked commits : Bool} {refs held dirty : List Nat} {block : Nat}
  {buffer : Buf}

theorem Local.rely (here : Local process active locked commits refs held dirty state)
    (rely : Rely process state now) :
    Local process active locked commits refs held dirty now where
  inOps := rely.ops.trans here.inOps
  hasLock := rely.lock.trans here.hasLock
  isCommitter := rely.committer.trans here.isCommitter
  refCount := fun block => (rely.refs block).trans (here.refCount block)
  holds := fun block => (rely.held block).trans (here.holds block)
  marked := fun block => (rely.dirty block).trans (here.marked block)

/-- The committing process sees no change. -/
theorem Local.view (here : Local process active locked true refs held dirty state)
    (rely : Rely process state now) : SameView state now :=
  SameView.of_rely rely (here.isCommitter.mpr rfl)

theorem Local.setBuf (here : Local process active locked commits refs held dirty state)
    {refs' held' : List Nat}
    (refsHere : buffer.holders.count (.proc process) = refs'.count block)
    (refsThere : ∀ other, other ≠ block -> refs'.count other = refs.count other)
    (heldHere : buffer.lock = some process <-> block ∈ held')
    (heldThere : ∀ other, other ≠ block -> (other ∈ held' <-> other ∈ held)) :
    Local process active locked commits refs' held' dirty (state.setBuf block buffer) := by
  have buffers : ∀ other, (state.setBuf block buffer).buf other =
      if other = block then buffer else state.buf other := by
    intro other
    simp only [State.setBuf, Function.update_apply]
  refine { here with refCount := ?_, holds := ?_ }
  · intro other
    rw [buffers]
    split
    · next same => exact same ▸ refsHere
    · next different => exact (here.refCount other).trans (refsThere other different).symm
  · intro other
    rw [buffers]
    split
    · next same => exact same ▸ heldHere
    · next different => exact (here.holds other).trans (heldThere other different).symm

theorem SameView.setBuf (pins : .log ∈ buffer.holders <-> .log ∈ (state.buf block).holders)
    (same : state.Tracked block -> buffer.data.getD (state.disk block) = state.logical block) :
    SameView state (state.setBuf block buffer) := by
  refine { SameView.refl state with pins := ?_, logical := ?_ }
  · intro other
    simp only [State.setBuf, Function.update_apply]
    split
    · next equal => exact equal ▸ pins
    · exact Iff.rfl
  · intro other tracked
    rw [logical_setBuf]
    split
    · next equal =>
        subst equal
        exact same tracked
    · rfl

end Local

/-! ## Reading and releasing a buffer -/

section Buffers

variable {active locked commits : Bool} {held dirty : List Nat} {block : Nat} {α : Type}
  {rest : Unit -> LogProg α} {goal : α -> State -> Prop}

/-- What the rest of a program may assume after statements on buffers. -/
structure Carried (commits : Bool) (state now : State) : Prop where
  view : commits = true -> SameView state now
  ready : state.ready = true -> now.ready = true

theorem Carried.refl (commits : Bool) (state : State) : Carried commits state state :=
  ⟨fun _ => SameView.refl state, id⟩

theorem Carried.trans (first : Carried commits state now) (second : Carried commits now after) :
    Carried commits state after :=
  ⟨fun mine => (first.view mine).trans (second.view mine),
    fun ready => second.ready (first.ready ready)⟩

theorem Carried.of_rely {refs : List Nat}
    (here : Local process active locked commits refs held dirty state)
    (rely : Rely process state now) : Carried commits state now :=
  ⟨fun mine => SameView.of_rely rely (here.isCommitter.mpr mine), rely.ready⟩

theorem Carried.setBuf (pins : .log ∈ buffer.holders <-> .log ∈ (state.buf block).holders)
    (same : state.Tracked block -> buffer.data.getD (state.disk block) = state.logical block) :
    Carried commits state (state.setBuf block buffer) :=
  ⟨fun _ => SameView.setBuf pins same, id⟩

theorem Local.recycle (inv : Inv geometry base state)
    (here : Owns process active locked commits held dirty state) (victim : Nat) :
    Owns process active locked commits held dirty (state.recycle victim) ∧
      Carried commits state (state.recycle victim) := by
  unfold State.recycle
  split
  · next free =>
      rcases inv.unreferenced free with ⟨unheld, _, undirty⟩
      refine ⟨here.setBuf (here.refCount victim) (fun _ _ => rfl) (here.holds victim)
        (fun _ _ => Iff.rfl), ?_⟩
      refine Carried.setBuf Iff.rfl ?_
      rintro (sound | pinned)
      · exact (inv.logical_of_clean sound undirty (by simp [unheld])).symm
      · simp [unheld] at pinned
  · exact ⟨here, Carried.refl commits state⟩

theorem wp_bread (here : Owns process active locked commits held dirty state)
    (next : ∀ now, Inv geometry base now ->
      Owns process active locked commits (block :: held) dirty now ->
      Carried commits state now ->
      Wp geometry base pre post process (rest ()) goal now) :
    Wp geometry base pre post process ((bread block).bind rest) goal state := by
  unfold bread bget
  simp only [bind_eq, bind_assoc]
  refine wp_any (fun victim => ?_)
  refine wp_modify (fun s1 rely1 inv1 _ runs => ?_)
  cases runs
  have here1 := here.rely rely1
  have carried1 := Carried.of_rely here rely1
  have step1 := here1.recycle inv1 victim
  refine ⟨.recycle victim, wp_modify (fun s2 rely2 inv2 _ runs => ?_)⟩
  cases runs
  have here2 := step1.1.rely rely2
  have carried2 := (carried1.trans step1.2).trans (Carried.of_rely step1.1 rely2)
  -- The reference is taken before the lock, so the buffer cannot be recycled meanwhile.
  have step2 : Local process active locked commits (block :: held) held dirty
      (s2.bref (.proc process) block) := by
    refine here2.setBuf ?_ ?_ (here2.holds block) (fun _ _ => Iff.rfl)
    · simp only [count_cons_self, here2.refCount block]
    · exact fun other different => count_cons_of_ne (Ne.symm different)
  have ref2 : Carried commits s2 (s2.bref (.proc process) block) :=
    Carried.setBuf (by simp) (fun _ => rfl)
  refine ⟨.bref block, wp_await (fun s3 rely3 inv3 _ runs free => ?_)⟩
  cases runs
  have here3 := step2.rely rely3
  have carried3 := (carried2.trans ref2).trans (Carried.of_rely step2 rely3)
  have unlocked : (s3.buf block).lock = none := by simpa using free
  have referenced : .proc process ∈ (s3.buf block).holders := by
    rw [← count_pos_iff, here3.refCount block]
    simp
  have step3 : Owns process active locked commits (block :: held) dirty
      (s3.setBuf block { s3.buf block with lock := some process }) :=
    here3.setBuf (here3.refCount block) (fun _ _ => rfl) (by simp)
      (fun other different => by simp [different])
  have ref3 : Carried commits s3 (s3.setBuf block { s3.buf block with lock := some process }) :=
    Carried.setBuf Iff.rfl (fun _ => rfl)
  refine ⟨.lockBuf block unlocked referenced, wp_modify (fun s4 rely4 inv4 _ runs => ?_)⟩
  cases runs
  have here4 := step3.rely rely4
  have carried4 := (carried3.trans ref3).trans (Carried.of_rely step3 rely4)
  have holding : (s4.buf block).lock = some process :=
    (here4.holds block).mpr mem_cons_self
  have step4 : Owns process active locked commits (block :: held) dirty (s4.load block) :=
    here4.setBuf (here4.refCount block) (fun _ _ => rfl) (here4.holds block) (fun _ _ => Iff.rfl)
  refine ⟨.load block holding, next _ (inv4.load block) step4 (carried4.trans ?_)⟩
  exact Carried.setBuf Iff.rfl (fun _ => rfl)

/-- Only an operation releases a buffer that it has modified and not logged. -/
theorem Local.unlockBuf (inv : Inv geometry base state)
    (here : Owns process active locked commits held dirty state) (nodup : held.Nodup)
    (member : block ∈ held) (own : block ∈ dirty -> active = true) :
    LStep geometry process state (state.unlockBuf block) ∧
      Local process active locked commits held (held.erase block) (dirty.filter (· ≠ block))
        (state.unlockBuf block) ∧
      Carried commits state (state.unlockBuf block) := by
  have removed : block ∉ held.erase block := nodup.not_mem_erase
  have holding : (state.buf block).lock = some process := (here.holds block).mpr member
  have mine : ∀ marker, state.dirty block = some marker -> marker = process := by
    intro marker marked
    have locker := inv.dirty_locked marked
    rw [holding] at locker
    cases locker
    rfl
  have active_of : ∀ marker, state.dirty block = some marker ->
      process ∈ state.ops ∧ ¬ geometry.InArea block := by
    intro marker marked
    cases mine marker marked
    have active := here.inOps.mpr (own ((here.marked block).mp marked))
    rcases ((inv.buffer block).dirty process marked).2 with ⟨_, outside⟩ | committer
    · exact ⟨active, outside⟩
    · exact (not_committer_of_active inv active process committer).elim
  have unlocked : Local process active locked commits held (held.erase block) dirty
      (state.setBuf block { state.buf block with lock := none }) :=
    here.setBuf (here.refCount block) (fun _ _ => rfl) (by simp [removed])
      (fun other different => mem_erase_of_ne different)
  refine ⟨.unlockBuf block holding active_of, ?_⟩
  unfold State.unlockBuf
  split
  · next clean =>
      have absent : block ∉ dirty := by
        intro there
        have marked := (here.marked block).mpr there
        rw [clean] at marked
        cases marked
      have same : dirty.filter (· ≠ block) = dirty :=
        filter_eq_self.mpr (fun other there => by grind)
      rw [same]
      exact ⟨unlocked, Carried.setBuf Iff.rfl (fun _ => rfl)⟩
  · next marked =>
      rcases Option.ne_none_iff_exists'.mp marked with ⟨marker, equal⟩
      have active := (active_of marker equal).1
      refine ⟨{ unlocked with marked := fun other => ?_ }, fun commits => ?_, id⟩
      · have old := here.marked other
        simp only [State.setDirty, State.setBuf, Function.update_apply, mem_filter,
          decide_eq_true_eq]
        grind
      · exact (not_committer_of_active inv active process (here.isCommitter.mpr commits)).elim

theorem wp_brelse (here : Owns process active locked commits held dirty state)
    (nodup : held.Nodup) (member : block ∈ held) (own : block ∈ dirty -> active = true)
    (next : ∀ now, Inv geometry base now ->
      Owns process active locked commits (held.erase block) (dirty.filter (· ≠ block)) now ->
      Carried commits state now ->
      Wp geometry base pre post process (rest ()) goal now) :
    Wp geometry base pre post process ((brelse block).bind rest) goal state := by
  have removed : block ∉ held.erase block := nodup.not_mem_erase
  unfold brelse
  simp only [bind_eq, bind_assoc]
  refine wp_await (fun s1 rely1 inv1 _ runs _ => ?_)
  cases runs
  have here1 := here.rely rely1
  have carried1 := Carried.of_rely here rely1
  rcases here1.unlockBuf inv1 nodup member own with ⟨step, step1, ref1⟩
  refine ⟨step, wp_modify (fun s2 rely2 inv2 _ runs => ?_)⟩
  cases runs
  have here2 := step1.rely rely2
  have carried2 := (carried1.trans ref1).trans (Carried.of_rely step1 rely2)
  have referenced : .proc process ∈ (s2.buf block).holders := by
    rw [← count_pos_iff, here2.refCount block]
    exact count_pos_iff.mpr member
  have unlocked : (s2.buf block).lock ≠ some process :=
    fun still => removed ((here2.holds block).mp still)
  have step2 : Owns process active locked commits (held.erase block) (dirty.filter (· ≠ block))
      (s2.bunref (.proc process) block) := by
    refine here2.setBuf ?_ ?_ (here2.holds block) (fun _ _ => Iff.rfl)
    · simp only [count_erase_self, here2.refCount block]
    · exact fun other different => count_erase_of_ne different
  refine ⟨.bunref block referenced unlocked,
    next _ (inv2.bunref referenced unlocked) step2 (carried2.trans ?_)⟩
  exact Carried.setBuf (mem_erase_of_ne (by simp)) (fun _ => rfl)

end Buffers

end Log
end Xv6
