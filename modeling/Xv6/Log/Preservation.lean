import Xv6.Log.Invariant

namespace Xv6
namespace Log

open List

/-!
# Every statement keeps the invariant

The lemmas follow the statements.  A statement that changes one buffer is
reduced to conditions on that buffer alone; the two kinds of disk write are
separated by whether the recovered contents stay or become the current ones.
The last part shows what the statements of one process look like to another.
-/

variable {geometry : Geometry} {base : Disk} {state : State} {process : Proc} {block : Nat}
  {data : Block} {other : Proc}

/-! ## Buffers -/

theorem logical_setBuf (state : State) (block : Nat) (buffer : Buf) (other : Nat) :
    (state.setBuf block buffer).logical other =
      if other = block then buffer.data.getD (state.disk block) else state.logical other := by
  unfold State.logical State.setBuf
  by_cases same : other = block
  · subst same
    simp
  · simp [same]

/-- The mark of another block. -/
theorem GoodBuf.setDirty {buffer : Buf} (good : GoodBuf geometry state other buffer)
    (mark : Option Proc) (different : other ≠ block) :
    GoodBuf geometry (state.setDirty block mark) other buffer := by
  have same : (state.setDirty block mark).dirty other = state.dirty other :=
    Function.update_of_ne different ..
  exact { good with clean := same ▸ good.clean, dirty := same ▸ good.dirty }

/-- A reference of a process is taken or dropped. -/
theorem GoodBuf.setHolders {buffer : Buf} (good : GoodBuf geometry state block buffer)
    {holders : List Holder} {refcnt : Nat} (counts : refcnt = holders.length)
    (pins : holders.count .log = buffer.holders.count .log)
    (lock_ref : ∀ process, buffer.lock = some process -> .proc process ∈ holders) :
    GoodBuf geometry state block { buffer with refcnt := refcnt, holders := holders } := by
  have same : .log ∈ holders <-> .log ∈ buffer.holders := by
    rw [← count_pos_iff, pins, count_pos_iff]
  exact { good with
    refcnt := counts
    pin_once := pins.le.trans good.pin_once
    lock_ref := lock_ref
    clean := fun data sound cached undirty unpinned =>
      good.clean data sound cached undirty (mt same.mpr unpinned)
    pinned_logged := fun pinned => good.pinned_logged (same.mp pinned)
    logged_pinned := fun idle logged => same.mpr (good.logged_pinned idle logged) }

section

variable (inv : Inv geometry base state)

include inv

theorem Inv.setBuf {buffer : Buf} (good : GoodBuf geometry state block buffer)
    (same : block ∉ state.leaked -> buffer.data.getD (state.disk block) = state.logical block) :
    Inv geometry base (state.setBuf block buffer) := by
  refine { inv with buffer := ?_, current := ?_ }
  · exact (Function.forall_update_iff state.buf (GoodBuf geometry (state.setBuf block buffer))).mpr
      ⟨{ good with }, fun other _ => { inv.buffer other with }⟩
  · intro ready other outside sound
    refine Eq.trans ?_ (inv.current ready other outside sound)
    rw [logical_setBuf]
    split
    · next equal =>
        subst equal
        exact same sound
    · rfl

theorem Inv.dirty_locked (dirty : state.dirty block = some process) :
    (state.buf block).lock = some process :=
  ((inv.buffer block).dirty process dirty).1

/-- An unreferenced buffer is neither locked nor modified nor pinned. -/
theorem Inv.unreferenced (free : (state.buf block).refcnt = 0) :
    (state.buf block).holders = [] ∧ (∀ process, (state.buf block).lock ≠ some process) ∧
      state.dirty block = none := by
  have unheld : (state.buf block).holders = [] := by
    rw [(inv.buffer block).refcnt] at free
    exact eq_nil_of_length_eq_zero free
  have unlocked : ∀ process, (state.buf block).lock ≠ some process := by
    intro process locked
    have ref := (inv.buffer block).lock_ref process locked
    simp [unheld] at ref
  refine ⟨unheld, unlocked, ?_⟩
  cases dirty : state.dirty block with
  | none => rfl
  | some process => exact (unlocked process (inv.dirty_locked dirty)).elim

/-- Losing a buffer that agrees with the disk loses nothing. -/
theorem Inv.logical_of_clean (sound : block ∉ state.leaked) (undirty : state.dirty block = none)
    (unpinned : .log ∉ (state.buf block).holders) : state.logical block = state.disk block := by
  unfold State.logical
  cases cached : (state.buf block).data with
  | none => rfl
  | some data => exact (inv.buffer block).clean data sound cached undirty unpinned

theorem Inv.recycle (victim : Nat) : Inv geometry base (state.recycle victim) := by
  unfold State.recycle
  split
  · next free =>
      rcases inv.unreferenced free with ⟨unheld, unlocked, undirty⟩
      refine inv.setBuf { inv.buffer victim with clean := ?_, dirty := ?_ } ?_
      · simp
      · simp [undirty]
      · exact fun sound => (inv.logical_of_clean sound undirty (by simp [unheld])).symm
  · exact inv

theorem Inv.bref (block : Nat) : Inv geometry base (state.bref (.proc process) block) := by
  have old := inv.buffer block
  refine inv.setBuf (old.setHolders ?_ (by simp) ?_) (fun _ => rfl)
  · simpa using old.refcnt
  · exact fun other locked => mem_cons_of_mem _ (old.lock_ref other locked)

theorem Inv.lockBuf (free : (state.buf block).lock = none)
    (ref : .proc process ∈ (state.buf block).holders) :
    Inv geometry base (state.setBuf block { state.buf block with lock := some process }) := by
  refine inv.setBuf { inv.buffer block with lock_ref := ?_, dirty := ?_ } (fun _ => rfl)
  · intro other locked
    cases locked
    exact ref
  · intro other dirty
    have locked := inv.dirty_locked dirty
    rw [free] at locked
    cases locked

theorem Inv.load (block : Nat) : Inv geometry base (state.load block) := by
  refine inv.setBuf { inv.buffer block with clean := ?_ } (fun _ => rfl)
  intro data sound loaded undirty unpinned
  cases loaded
  exact inv.logical_of_clean sound undirty unpinned

/-- A modified buffer that is released stays different from the disk; what is
claimed of its block is given up. -/
theorem Inv.unlockBuf (outside : state.dirty block ≠ none -> ¬ geometry.InArea block) :
    Inv geometry base (state.unlockBuf block) := by
  unfold State.unlockBuf
  split
  · next clean =>
      refine inv.setBuf { inv.buffer block with lock_ref := ?_, dirty := ?_ } (fun _ => rfl)
      · intro other locked
        cases locked
      · intro other dirty
        rw [clean] at dirty
        cases dirty
  · next marked =>
      have fewer : ∀ other, other ∉ block :: state.leaked -> other ≠ block ∧ other ∉ state.leaked :=
        fun other sound => not_or.mp (mt mem_cons.mpr sound)
      refine { inv with
        buffer := ?_, leaked_outside := ?_,
        crash_safe := fun other away sound => inv.crash_safe other away (fewer other sound).2,
        committed := fun other away sound => inv.committed other away (fewer other sound).2,
        current := ?_ }
      · refine (Function.forall_update_iff state.buf (GoodBuf geometry _)).mpr
          ⟨?_, fun other different => ?_⟩
        · refine { inv.buffer block with lock_ref := ?_, clean := ?_, dirty := ?_ }
          · intro other locked
            cases locked
          · exact fun _ sound => (sound mem_cons_self).elim
          · simp [State.setDirty]
        · have still := (inv.buffer other).setDirty none different
          exact { still with clean := fun data sound => still.clean data (fewer other sound).2 }
      · intro other member
        rcases mem_cons.mp member with same | old
        · exact same ▸ outside marked
        · exact inv.leaked_outside other old
      · intro ready other away sound
        refine (logical_setBuf state block _ other).trans ?_
        rw [if_neg (fewer other sound).1]
        exact inv.current ready other away (fewer other sound).2

theorem Inv.bunref (ref : .proc process ∈ (state.buf block).holders)
    (unlocked : (state.buf block).lock ≠ some process) :
    Inv geometry base (state.bunref (.proc process) block) := by
  have old := inv.buffer block
  refine inv.setBuf (old.setHolders ?_ (count_erase_of_ne (by simp)) ?_) (fun _ => rfl)
  · simp only [length_erase_of_mem ref, old.refcnt]
  · intro other locked
    refine (mem_erase_of_ne ?_).mpr (old.lock_ref other locked)
    intro same
    cases same
    exact unlocked locked

theorem Inv.pin (locked : state.lock = some process) (active : process ∈ state.ops)
    (once : .log ∉ (state.buf block).holders) :
    Inv geometry base (state.bref .log block) := by
  have old := inv.buffer block
  refine inv.setBuf { old with
    refcnt := ?_, pin_once := ?_, lock_ref := ?_, clean := ?_, pinned_logged := ?_,
    logged_pinned := ?_ } (fun _ => rfl)
  · simpa using old.refcnt
  · rw [count_cons_self, count_eq_zero_of_not_mem once]
  · intro other held
    exact mem_cons_of_mem _ (old.lock_ref other held)
  · exact fun _ _ _ _ unpinned => (unpinned mem_cons_self).elim
  · exact fun _ => Or.inr ⟨process, locked, active⟩
  · exact fun _ _ => mem_cons_self

theorem Inv.unpin (installing : state.installing = true) (pinned : .log ∈ (state.buf block).holders)
    (written : state.logical block = state.disk block) :
    Inv geometry base (state.bunref .log block) := by
  have old := inv.buffer block
  have unpinned : .log ∉ (state.buf block).holders.erase .log := by
    rw [← count_eq_zero, count_erase_self]
    have once := old.pin_once
    omega
  refine inv.setBuf { old with
    refcnt := ?_, pin_once := ?_, lock_ref := ?_, clean := ?_, pinned_logged := ?_,
    logged_pinned := ?_ } (fun _ => rfl)
  · simp only [length_erase_of_mem pinned, old.refcnt]
  · rw [count_eq_zero_of_not_mem unpinned]
    exact Nat.zero_le 1
  · intro other locked
    exact (mem_erase_of_ne (by simp)).mpr (old.lock_ref other locked)
  · intro data _ cached _ _
    dsimp only at cached
    rw [State.logical, cached, Option.getD_some] at written
    exact written
  · exact fun still => (unpinned still).elim
  · intro idle
    rw [installing] at idle
    cases idle

end

/-! ## Modified buffers -/

theorem logical_fill (state : State) (process : Proc) (block : Nat) (data : Block) (other : Nat) :
    (state.fill process block data).logical other =
      if other = block then data else state.logical other :=
  logical_setBuf state block _ other

/-- A locked buffer is overwritten and marked, and the history may grow by the
same step.  What the new history has to satisfy is left to the caller. -/
theorem Inv.fill_history (inv : Inv geometry base state) (history : List Update)
    (held : (state.buf block).lock = some process)
    (owner : process ∈ state.ops ∧ ¬ geometry.InArea block ∨ state.committer = some process)
    (current : state.ready = true -> ∀ other, ¬ geometry.InArea other -> other ∉ state.leaked ->
      (if other = block then data else state.logical other) = replay base history other)
    (past : history.take state.stable = state.history.take state.stable)
    (grown : state.stable ≤ history.length)
    (down : state.ready = false -> state.stable = history.length)
    (fresh : ∀ update, update ∈ history -> update.op < state.nextOp)
    (split : ∀ early late, early ∈ history.take state.stable ->
      late ∈ history.drop state.stable -> early.op ≠ late.op) :
    Inv geometry base { state.fill process block data with history := history } := by
  refine { inv with
    buffer := ?buffer, current := ?current, committed := ?committed, stable_le := grown,
    down_stable := down, update_fresh := fresh, stable_inactive := ?inactive,
    stable_split := split }
  case buffer =>
    refine (Function.forall_update_iff state.buf (GoodBuf geometry _)).mpr
      ⟨?_, fun other different => { (inv.buffer other).setDirty (some process) different with }⟩
    refine { inv.buffer block with clean := ?_, dirty := ?_ }
    · simp [State.fill, State.setDirty]
    · intro marker marked
      simp only [State.fill, State.setDirty, Function.update_self, Option.some.injEq] at marked
      subst marked
      exact ⟨held, owner⟩
  case current =>
    intro ready other outside sound
    exact (logical_fill state process block data other).trans (current ready other outside sound)
  case committed =>
    intro other outside sound
    exact (inv.committed other outside sound).trans
      (congrArg (fun updates => replay base updates other) past.symm)
  case inactive => exact past ▸ inv.stable_inactive

theorem Inv.fill (inv : Inv geometry base state) (held : (state.buf block).lock = some process)
    (mine : state.committer = some process)
    (same : state.ready = true -> ¬ geometry.InArea block -> data = state.logical block) :
    Inv geometry base (state.fill process block data) := by
  refine inv.fill_history state.history held (Or.inr mine) ?_ rfl inv.stable_le
    inv.down_stable inv.update_fresh inv.stable_split
  intro ready other outside sound
  rw [← inv.current ready other outside sound]
  split
  · next equal => rw [equal, same ready (equal ▸ outside)]
  · rfl

theorem replay_append (base : Disk) (history : List Update) (update : Update) :
    replay base (history ++ [update]) =
      Function.update (replay base history) update.block update.data := by
  simp [replay]

theorem Inv.update (inv : Inv geometry base state) (active : process ∈ state.ops)
    (held : (state.buf block).lock = some process) (outside : ¬ geometry.InArea block) :
    Inv geometry base (state.update process block data) := by
  have up : state.ready = true := by
    cases ready : state.ready with
    | true => rfl
    | false =>
      have alone := inv.committer_alone (inv.down_committer ready)
      simp [alone] at active
  let made : Update := ⟨state.opOf process, block, data⟩
  have past : (state.history ++ [made]).take state.stable = state.history.take state.stable :=
    take_append_of_le_length inv.stable_le
  have later : (state.history ++ [made]).drop state.stable =
      state.history.drop state.stable ++ [made] :=
    drop_append_of_le_length inv.stable_le
  refine inv.fill_history _ held (Or.inl ⟨active, outside⟩) ?_ past ?_ ?_ ?_ ?_
  · intro ready other otherOutside sound
    rw [replay_append, Function.update_apply]
    split
    · rfl
    · exact inv.current ready other otherOutside sound
  · have bound := inv.stable_le
    simp only [length_append, length_singleton]
    omega
  · intro down
    rw [up] at down
    cases down
  · intro update member
    rcases mem_append.mp member with old | new
    · exact inv.update_fresh update old
    · rw [mem_singleton.mp new]
      exact inv.op_fresh process active
  · intro early late earlyMember lateMember
    rw [past] at earlyMember
    rw [later] at lateMember
    rcases mem_append.mp lateMember with old | new
    · exact inv.stable_split early late earlyMember old
    · rw [mem_singleton.mp new]
      exact inv.stable_inactive early earlyMember process active

/-! ## Disk writes -/

theorem logical_writeBack (state : State) (block other : Nat) :
    (state.writeBack block).logical other = state.logical other := by
  unfold State.logical State.writeBack
  by_cases same : other = block
  · subst same
    cases cached : (state.buf other).data <;> simp [State.logical, cached]
  · simp [same]

section

variable (inv : Inv geometry base state)

include inv

section

variable (mine : state.committer = some process)

include mine

/-- A disk write as far as buffers and the in-memory log are concerned.  What
it does to the recovered contents is left to the caller. -/
theorem Inv.write {durable : Disk} {stable : Nat} {installing : Bool}
    (good : GoodHeader geometry (header ((state.writeBack block).disk geometry.start)))
    (stage : installing = false -> state.installing = false)
    (safe : ∀ other, ¬ geometry.InArea other -> other ∉ state.leaked ->
      recovered geometry (state.writeBack block).disk other = durable other)
    (committed : ∀ other, ¬ geometry.InArea other -> other ∉ state.leaked ->
      durable other = replay base (state.history.take stable) other)
    (stable_le : stable ≤ state.history.length)
    (down : state.ready = false -> stable = state.history.length)
    (split : ∀ early late, early ∈ state.history.take stable ->
      late ∈ state.history.drop stable -> early.op ≠ late.op) :
    Inv geometry base
      { state.writeBack block with
        installing := installing, stable := stable, durable := durable } := by
  have alone : state.ops = [] := inv.committer_alone (by simp [mine])
  refine { inv with
    buffer := ?_, head_good := good, idle_not_installing := ?_, idle_head := ?_,
    crash_safe := safe, current := ?_, committed := committed, stable_le := stable_le,
    down_stable := down, stable_inactive := ?_, stable_split := split }
  · intro other
    have old := inv.buffer other
    by_cases same : other = block
    · subst same
      refine { old with
        clean := ?_, dirty := ?_, logged_pinned := fun done => old.logged_pinned (stage done) }
      · intro data _ cached _ _
        dsimp only [State.writeBack] at cached ⊢
        rw [Function.update_self, State.logical, cached, Option.getD_some]
      · simp [State.writeBack]
    · have still := old.setDirty none same
      refine { still with
        clean := ?_, logged_pinned := fun done => old.logged_pinned (stage done) }
      simp only [State.writeBack, Function.update_of_ne same]
      exact old.clean
  · intro idle
    dsimp only [State.writeBack] at idle
    rw [mine] at idle
    cases idle
  · intro idle
    dsimp only [State.writeBack] at idle
    rw [mine] at idle
    cases idle
  · intro ready other outside sound
    exact (logical_writeBack state block other).trans (inv.current ready other outside sound)
  · intro update _ active member
    dsimp only [State.writeBack] at member
    simp [alone] at member

theorem Inv.writeBack
    (good : GoodHeader geometry (header ((state.writeBack block).disk geometry.start)))
    (quiet : ∀ other, ¬ geometry.InArea other ->
      recovered geometry (state.writeBack block).disk other =
        recovered geometry state.disk other) : Inv geometry base (state.writeBack block) :=
  inv.write mine good id
    (fun other outside sound => (quiet other outside).trans (inv.crash_safe other outside sound))
    inv.committed inv.stable_le inv.down_stable inv.stable_split

/-- The commit point: from here on a recovery finds the whole transaction. -/
theorem Inv.commitPoint (ready : state.ready = true)
    (nonempty : state.lh ≠ [])
    (head : header ((state.writeBack geometry.start).disk geometry.start) = state.lh)
    (full : ∀ other, ¬ geometry.InArea other -> other ∉ state.leaked ->
      recovered geometry (state.writeBack geometry.start).disk other = state.logical other) :
    Inv geometry base (state.writeHeadBack geometry) := by
  have written : Inv geometry base
      { state.writeBack geometry.start with
        installing := true, stable := state.history.length, durable := state.logical } :=
    inv.write mine (head ▸ inv.lh_good) (by simp) full
      (by simpa using inv.current ready) le_rfl (fun _ => rfl) (by simp)
  simpa only [State.writeHeadBack, if_neg nonempty] using written

end

/-! ## The in-memory log -/

theorem Inv.acquire (free : state.lock = none) :
    Inv geometry base { state with lock := some process } :=
  { inv with
    buffer := fun block => { inv.buffer block with
      pinned_logged := fun pinned => by
        rcases (inv.buffer block).pinned_logged pinned with logged | ⟨other, locked, _⟩
        · exact Or.inl logged
        · rw [free] at locked
          cases locked }
    idle_empty := fun impossible => by cases impossible }

theorem Inv.release (logged : ∀ block, .log ∈ (state.buf block).holders -> block ∈ state.lh)
    (empty : state.ready = true -> state.committing = false -> state.ops = [] -> state.lh = []) :
    Inv geometry base { state with lock := none } :=
  { inv with
    buffer := fun block => { inv.buffer block with
      pinned_logged := fun pinned => Or.inl (logged block pinned) }
    idle_empty := fun _ => empty }

theorem Inv.begin (ready : state.ready = true) (quiet : state.committing = false)
    (new : process ∉ state.ops)
    (logged : ∀ block, .log ∈ (state.buf block).holders -> block ∈ state.lh) :
    Inv geometry base (state.enter process) := by
  have idle : state.committer = none := by
    by_contra busy
    rw [(inv.committing ready).mpr busy] at quiet
    cases quiet
  have opOf : ∀ other, Function.update state.opOf process state.nextOp other =
      if other = process then state.nextOp else state.opOf other :=
    Function.update_apply _ _ _
  have bound := inv.op_fresh
  unfold State.enter
  refine { inv with
    buffer := ?_, outstanding := ?_, ops_nodup := ?_, committer_alone := ?_,
    idle_empty := ?_, op_fresh := ?_, op_inj := ?_, update_fresh := ?_, stable_inactive := ?_ }
  · intro block
    have old := inv.buffer block
    exact { old with
      dirty := fun marker marked => (old.dirty marker marked).imp_right
        (Or.imp_left (fun owned => ⟨mem_cons_of_mem _ owned.1, owned.2⟩))
      pinned_logged := fun pinned => Or.inl (logged block pinned) }
  · simp only [length_cons, inv.outstanding]
  · exact nodup_cons.mpr ⟨new, inv.ops_nodup⟩
  · exact fun busy => (busy idle).elim
  · exact fun _ _ _ impossible => by cases impossible
  · simp only [opOf]
    grind
  · simp only [opOf]
    grind [inv.op_inj]
  · exact fun update member => Nat.lt_succ_of_lt (inv.update_fresh update member)
  · simp only [opOf]
    intro update member
    have old := inv.update_fresh update (mem_of_mem_take member)
    grind [inv.stable_inactive]

theorem Inv.leave (locked : state.lock = some process) (active : process ∈ state.ops)
    (clean : ∀ block, state.dirty block ≠ some process)
    (logged : ∀ block, .log ∈ (state.buf block).holders -> block ∈ state.lh) :
    Inv geometry base
      { state with
        outstanding := state.outstanding - 1
        ops := state.ops.erase process } := by
  have sub : ∀ other, other ∈ state.ops.erase process -> other ∈ state.ops :=
    fun other => mem_of_mem_erase
  refine { inv with
    buffer := ?_, outstanding := ?_, ops_nodup := ?_, committer_alone := ?_,
    idle_empty := ?_, op_fresh := ?_, op_inj := ?_, stable_inactive := ?_ }
  · intro block
    refine { inv.buffer block with
      dirty := fun marker marked => ((inv.buffer block).dirty marker marked).imp_right
        (Or.imp_left (fun owned => ⟨?_, owned.2⟩))
      pinned_logged := fun pinned => Or.inl (logged block pinned) }
    refine (mem_erase_of_ne ?_).mpr owned.1
    intro same
    exact clean block (same ▸ marked)
  · simp only [length_erase_of_mem active, inv.outstanding]
  · exact inv.ops_nodup.erase process
  · intro busy
    simp [inv.committer_alone busy]
  · intro free
    rw [locked] at free
    cases free
  · exact fun other member => inv.op_fresh other (sub other member)
  · exact fun first second firstIn secondIn =>
      inv.op_inj first second (sub first firstIn) (sub second secondIn)
  · exact fun update member other active =>
      inv.stable_inactive update member other (sub other active)

theorem Inv.startCommit (idle : state.committer = none) (last : state.ops = []) :
    Inv geometry base { state with committing := true, committer := some process } := by
  refine { inv with
    buffer := ?_, committing := ?_, committer_alone := ?_, idle_empty := ?_,
    idle_not_installing := ?_, idle_head := ?_, down_committer := ?_ }
  · intro block
    refine { inv.buffer block with dirty := fun marker marked => ?_ }
    rcases ((inv.buffer block).dirty marker marked).2 with owned | mine
    · simp [last] at owned
    · rw [idle] at mine
      cases mine
  · simp
  · exact fun _ => last
  · exact fun _ _ impossible => by cases impossible
  · intro impossible
    cases impossible
  · intro impossible
    cases impossible
  · simp

theorem Inv.append (locked : state.lock = some process) (outside : ¬ geometry.InArea block)
    (room : state.lh.length < geometry.size - 1) (pinned : .log ∈ (state.buf block).holders) :
    Inv geometry base (state.append process block) := by
  have members : ∀ other, other ∈ (state.append process block).lh <->
      other ∈ state.lh ∨ other = block := by
    intro other
    simp only [State.append]
    split <;> grind
  refine { inv with
    buffer := ?_, lh_good := ?_, idle_empty := ?_ }
  · intro other
    have old := inv.buffer other
    have listed : .log ∈ (state.buf other).holders -> other ∈ (state.append process block).lh ∨
        ∃ process, state.lock = some process ∧ process ∈ state.ops :=
      fun otherPinned => (old.pinned_logged otherPinned).imp_left
        (fun logged => (members other).mpr (Or.inl logged))
    by_cases same : other = block
    · subst same
      refine { old with
        clean := ?_, dirty := ?_, pinned_logged := listed, logged_pinned := fun _ _ => pinned }
      · exact fun _ _ _ _ unpinned => (unpinned pinned).elim
      · simp [State.append]
    · exact { old.setDirty none same with
        pinned_logged := listed
        logged_pinned := fun idle member =>
          old.logged_pinned idle (((members other).mp member).resolve_right same) }
  · have good := inv.lh_good
    simp only [State.append]
    split
    · exact good
    · next new =>
        refine ⟨?_, ?_, ?_⟩
        · rw [nodup_append]
          refine ⟨good.nodup, by simp, ?_⟩
          intro other member last lastMember same
          rw [mem_singleton.mp lastMember] at same
          exact new (same ▸ member)
        · intro other member
          rcases mem_append.mp member with old | last
          · exact good.outside other old
          · exact mem_singleton.mp last ▸ outside
        · simp only [length_append, length_singleton]
          omega
  · intro free
    exact absurd (locked.symm.trans free) (by simp)

theorem Inv.panic (message : Option Panic) : Inv geometry base { state with panicked := message } :=
  { inv with buffer := fun block => { inv.buffer block with } }

theorem Inv.readHead (down : state.ready = false) (installing : state.installing = true)
    (same : state.logical geometry.start = state.disk geometry.start)
    (unpinned : ∀ block, .log ∉ (state.buf block).holders) :
    Inv geometry base { state with lh := header (state.logical geometry.start) } := by
  refine { inv with buffer := ?_, lh_good := same ▸ inv.head_good, idle_empty := ?_ }
  · intro block
    refine { inv.buffer block with
      pinned_logged := fun pinned => (unpinned block pinned).elim
      logged_pinned := fun idle => ?_ }
    rw [installing] at idle
    cases idle
  · intro _ ready
    exact absurd (down.symm.trans ready) (by simp)

theorem Inv.clearHead (unpinned : ∀ block, .log ∉ (state.buf block).holders) :
    Inv geometry base { state with lh := [], installing := false } := by
  refine { inv with
    buffer := ?_, lh_good := ⟨nodup_nil, by simp, Nat.zero_le _⟩,
    idle_empty := fun _ _ _ _ => rfl, idle_not_installing := fun _ => rfl }
  exact fun block => { inv.buffer block with
    pinned_logged := fun pinned => (unpinned block pinned).elim
    logged_pinned := by simp }

/-- Nobody holds a modified buffer when the committer does not. -/
theorem Inv.clean_of_committer (mine : state.committer = some process)
    (clean : state.dirty block ≠ some process) : state.dirty block = none := by
  cases marked : state.dirty block with
  | none => rfl
  | some marker =>
    rcases ((inv.buffer block).dirty marker marked).2 with owned | same
    · rw [inv.committer_alone (by simp [mine])] at owned
      simp at owned
    · rw [mine] at same
      cases same
      exact (clean marked).elim

theorem Inv.finish (clean : ∀ block, state.dirty block = none)
    (locked : state.lock = some process) (clear : header (state.disk geometry.start) = [])
    (installed : state.installing = false) (ready : state.ready = true) :
    Inv geometry base { state with committing := false, committer := none } := by
  refine { inv with
    buffer := ?_, committing := ?_, committer_alone := ?_,
    idle_empty := ?_, idle_not_installing := fun _ => installed, idle_head := fun _ => clear,
    down_committer := ?_ }
  · intro block
    refine { inv.buffer block with dirty := fun marker marked => ?_ }
    rw [clean block] at marked
    cases marked
  · simp
  · simp
  · intro free
    exact absurd (locked.symm.trans free) (by simp)
  · intro down
    rw [ready] at down
    cases down

theorem Inv.ready (undirty : ∀ block, state.dirty block = none) (down : state.ready = false)
    (clear : header (state.disk geometry.start) = []) (installed : state.installing = false)
    (quiet : state.committing = false) (empty : state.lh = [])
    (clean : ∀ block, block ∉ state.leaked -> state.logical block = state.disk block) :
    Inv geometry base { state with ready := true, committer := none } := by
  refine { inv with
    buffer := ?_, committing := ?_, committer_alone := ?_,
    idle_empty := fun _ _ _ _ => empty, idle_not_installing := fun _ => installed,
    idle_head := fun _ => clear, current := ?_,
    down_stable := ?_, down_committer := ?_ }
  · intro block
    refine { inv.buffer block with dirty := fun marker marked => ?_ }
    rw [undirty block] at marked
    cases marked
  · simp [quiet]
  · simp
  · intro _ block outside sound
    have durable := (inv.crash_safe block outside sound).trans (inv.committed block outside sound)
    rw [recovered, clear, inv.down_stable down, take_length] at durable
    exact (clean block sound).trans (by simpa using durable)
  · simp
  · simp

end

/-- Every statement keeps the invariant. -/
theorem LStep.inv {after : State} (step : LStep geometry process state after)
    (inv : Inv geometry base state) : Inv geometry base after := by
  cases step with
  | recycle victim => exact inv.recycle victim
  | bref block => exact inv.bref block
  | lockBuf block free ref => exact inv.lockBuf free ref
  | load block => exact inv.load block
  | fill block data held mine same => exact inv.fill held mine same
  | writeBack block held mine good quiet => exact inv.writeBack mine good quiet
  | commitPoint held mine ready nonempty head full =>
    exact inv.commitPoint mine ready nonempty head full
  | unlockBuf block held own =>
    refine inv.unlockBuf (fun marked => ?_)
    rcases Option.ne_none_iff_exists'.mp marked with ⟨marker, same⟩
    exact (own marker same).2
  | bunref block ref unlocked => exact inv.bunref ref unlocked
  | pin block locked active once => exact inv.pin locked active once
  | unpin block mine installing pinned written => exact inv.unpin installing pinned written
  | acquire free => exact inv.acquire free
  | release locked logged empty => exact inv.release logged empty
  | begin locked ready quiet new logged => exact inv.begin ready quiet new logged
  | leave locked active clean logged => exact inv.leave locked active clean logged
  | startCommit locked idle last => exact inv.startCommit idle last
  | append block locked active held outside room pinned =>
    exact inv.append locked outside room pinned
  | panic => exact inv.panic _
  | update block data active held outside => exact inv.update active held outside
  | readHead mine down installing same unpinned => exact inv.readHead down installing same unpinned
  | clearHead mine unpinned => exact inv.clearHead unpinned
  | finish mine locked ready clear installed undirty =>
    exact inv.finish (fun block => inv.clean_of_committer mine (undirty block)) locked clear
      installed ready
  | ready mine down clear installed quiet empty undirty clean =>
    exact inv.ready (fun block => inv.clean_of_committer mine (undirty block)) down clear
      installed quiet empty clean

/-! ## Interference -/

theorem Rely.refl (process : Proc) (state : State) : Rely process state state where
  ops := Iff.rfl
  lock := Iff.rfl
  held := fun _ => Iff.rfl
  refs := fun _ => rfl
  dirty := fun _ => Iff.rfl
  committer := Iff.rfl
  data := fun _ _ => rfl
  ready := id
  log := fun _ => ⟨rfl, rfl, rfl⟩
  quiet_log := fun _ _ _ => ⟨rfl, fun _ => Iff.rfl⟩
  mine := fun _ => ⟨rfl, rfl, rfl, rfl, rfl, rfl⟩
  mine_pins := fun _ _ => Iff.rfl
  mine_logical := fun _ _ _ => rfl

theorem Rely.trans {first second third : State} (one : Rely process first second)
    (two : Rely process second third) : Rely process first third where
  ops := two.ops.trans one.ops
  lock := two.lock.trans one.lock
  held := fun block => (two.held block).trans (one.held block)
  refs := fun block => (two.refs block).trans (one.refs block)
  dirty := fun block => (two.dirty block).trans (one.dirty block)
  committer := two.committer.trans one.committer
  data := fun block held =>
    (two.data block ((one.held block).mpr held)).trans (one.data block held)
  ready := fun ready => two.ready (one.ready ready)
  log := fun locked => by
    have here := one.log locked
    have there := two.log (one.lock.mpr locked)
    exact ⟨there.1.trans here.1, there.2.1.trans here.2.1, there.2.2.trans here.2.2⟩
  quiet_log := fun locked ready quiet => by
    have here := one.quiet_log locked ready quiet
    have there := two.quiet_log (one.lock.mpr locked) (one.ready ready)
      ((one.log locked).1.trans quiet)
    exact ⟨there.1.trans here.1, fun block => (there.2 block).trans (here.2 block)⟩
  mine := fun mine => by
    have here := one.mine mine
    have there := two.mine (one.committer.mpr mine)
    exact ⟨there.1.trans here.1, there.2.1.trans here.2.1, there.2.2.1.trans here.2.2.1,
      there.2.2.2.1.trans here.2.2.2.1, there.2.2.2.2.1.trans here.2.2.2.2.1,
      there.2.2.2.2.2.trans here.2.2.2.2.2⟩
  mine_pins := fun mine block =>
    (two.mine_pins (one.committer.mpr mine) block).trans (one.mine_pins mine block)
  mine_logical := fun mine block tracked => by
    have still := tracked.imp (fun sound => (one.mine mine).2.2.2.2.2 ▸ sound)
      (one.mine_pins mine block).mpr
    exact (two.mine_logical (one.committer.mpr mine) block still).trans
      (one.mine_logical mine block tracked)

/-- A changed buffer that a process neither holds nor can tell from the old
one is interference to it. -/
theorem Rely.setBuf {buffer : Buf}
    (held : buffer.lock = some other <-> (state.buf block).lock = some other)
    (refs : buffer.holders.count (.proc other) = (state.buf block).holders.count (.proc other))
    (data : (state.buf block).lock = some other -> buffer.data = (state.buf block).data)
    (pins : state.lock = some other -> state.ready = true -> state.committing = false ->
      (.log ∈ buffer.holders <-> .log ∈ (state.buf block).holders))
    (mine : state.committer = some other ->
      (.log ∈ buffer.holders <-> .log ∈ (state.buf block).holders) ∧
        (state.Tracked block -> buffer.data.getD (state.disk block) = state.logical block)) :
    Rely other state (state.setBuf block buffer) := by
  have buffers : ∀ position, (state.setBuf block buffer).buf position =
      if position = block then buffer else state.buf position := by
    intro position
    simp only [State.setBuf, Function.update_apply]
  refine { Rely.refl other state with
    held := ?_, refs := ?_, data := ?_, quiet_log := ?_, mine_pins := ?_,
    mine_logical := ?_ }
  · intro position
    rw [buffers]
    split
    · next same => exact same ▸ held
    · exact Iff.rfl
  · intro position
    rw [buffers]
    split
    · next same => exact same ▸ refs
    · rfl
  · intro position locked
    rw [buffers]
    split
    · next same =>
        subst same
        exact data locked
    · rfl
  · intro locked ready quiet
    refine ⟨rfl, fun position => ?_⟩
    rw [buffers]
    split
    · next same => exact same ▸ pins locked ready quiet
    · exact Iff.rfl
  · intro committer position
    rw [buffers]
    split
    · next same => exact same ▸ (mine committer).1
    · exact Iff.rfl
  · intro committer position tracked
    rw [logical_setBuf]
    split
    · next same =>
        subst same
        exact (mine committer).2 tracked
    · rfl

theorem not_committer_of_active (inv : Inv geometry base state) (active : process ∈ state.ops)
    (other : Proc) : state.committer ≠ some other := by
  intro busy
  rw [inv.committer_alone (by simp [busy])] at active
  cases active

/-- Another process does not see the mark of a buffer that it has not locked. -/
theorem Inv.mark_iff (inv : Inv geometry base state) {mark : Option Proc}
    (unheld : (state.buf block).lock ≠ some other) (foreign : mark ≠ some other) (position : Nat) :
    Function.update state.dirty block mark position = some other <->
      state.dirty position = some other := by
  rw [Function.update_apply]
  split
  · next same =>
      subst same
      exact ⟨fun marked => (foreign marked).elim,
        fun marked => (unheld (inv.dirty_locked marked)).elim⟩
  · exact Iff.rfl

/-- A process that overwrites a buffer it has locked does not disturb the
others, unless it is modified under the committer. -/
theorem Rely.fill (inv : Inv geometry base state) (different : other ≠ process)
    (held : (state.buf block).lock = some process) (busy : state.committer ≠ some other) :
    Rely other state (state.fill process block data) := by
  have foreign : some process ≠ some other := fun same => different (Option.some.inj same).symm
  have unheld : (state.buf block).lock ≠ some other := held ▸ foreign
  have buffers : Rely other state (state.setBuf block { state.buf block with data := some data }) :=
    Rely.setBuf Iff.rfl rfl (fun locked => (unheld locked).elim) (fun _ _ _ => Iff.rfl)
      (fun committer => (busy committer).elim)
  exact { buffers with dirty := inv.mark_iff unheld foreign }

/-- A disk write by the committer concerns no other process. -/
theorem Rely.writeBack (inv : Inv geometry base state) (different : other ≠ process)
    (held : (state.buf block).lock = some process) (busy : state.committer ≠ some other) :
    Rely other state (state.writeBack block) := by
  have unheld : (state.buf block).lock ≠ some other := by
    rw [held]
    exact fun same => different (Option.some.inj same).symm
  exact { Rely.refl other state with
    dirty := inv.mark_iff unheld (by simp)
    mine := fun committer => (busy committer).elim
    mine_logical := fun _ position _ => logical_writeBack state block position }

/-- Every statement of one process is interference to every other. -/
theorem LStep.rely {after : State} (step : LStep geometry process state after)
    (inv : Inv geometry base state) (different : other ≠ process) : Rely other state after := by
  have notSame : some process ≠ some other := by
    intro same
    cases same
    exact different rfl
  have some_ne_of_mine : state.committer = some process -> state.committer ≠ some other := by
    intro mine
    rw [mine]
    exact notSame
  have some_ne_of_locked : state.lock = some process -> state.lock ≠ some other := by
    intro locked
    rw [locked]
    exact notSame
  cases step with
  | recycle victim =>
    unfold State.recycle
    split
    · next free =>
        rcases inv.unreferenced free with ⟨unheld, unlocked, undirty⟩
        refine Rely.setBuf Iff.rfl rfl ?_ (fun _ _ _ => Iff.rfl) (fun _ => ⟨Iff.rfl, ?_⟩)
        · exact fun locked => (unlocked other locked).elim
        · rintro (sound | pinned)
          · exact (inv.logical_of_clean sound undirty (by simp [unheld])).symm
          · simp [unheld] at pinned
    · exact Rely.refl other state
  | bref block =>
    refine Rely.setBuf Iff.rfl ?_ (fun _ => rfl) (fun _ _ _ => by simp)
      (fun _ => ⟨by simp, fun _ => rfl⟩)
    exact count_cons_of_ne (by simpa using Ne.symm different)
  | lockBuf block free ref =>
    refine Rely.setBuf ?_ rfl (fun _ => rfl) (fun _ _ _ => Iff.rfl)
      (fun _ => ⟨Iff.rfl, fun _ => rfl⟩)
    simp [free, Ne.symm different]
  | load block held =>
    refine Rely.setBuf Iff.rfl rfl ?_ (fun _ _ _ => Iff.rfl) (fun _ => ⟨Iff.rfl, fun _ => rfl⟩)
    intro locked
    rw [held] at locked
    exact (notSame locked).elim
  | fill block data held mine same =>
    exact Rely.fill inv different held (some_ne_of_mine mine)
  | writeBack block held mine good quiet =>
    exact Rely.writeBack inv different held (some_ne_of_mine mine)
  | commitPoint held mine ready nonempty head full =>
    have written := Rely.writeBack inv different held (some_ne_of_mine mine)
    unfold State.writeHeadBack
    rw [if_neg nonempty]
    exact { written with mine := fun committer => (some_ne_of_mine mine committer).elim }
  | unlockBuf block held own =>
    have unlocked : Rely other state
        (state.setBuf block { state.buf block with lock := none }) := by
      refine Rely.setBuf ?_ rfl (fun _ => rfl) (fun _ _ _ => Iff.rfl)
        (fun _ => ⟨Iff.rfl, fun _ => rfl⟩)
      simp [held, different.symm]
    unfold State.unlockBuf
    split
    · exact unlocked
    · next marked =>
        rcases Option.ne_none_iff_exists'.mp marked with ⟨marker, same⟩
        have busy := not_committer_of_active inv (own marker same).1 other
        exact { unlocked with
          dirty := inv.mark_iff (held ▸ notSame) (by simp)
          mine := fun committer => (busy committer).elim }
  | bunref block ref unlocked =>
    have pins : .log ∈ (state.buf block).holders.erase (.proc process) <->
        .log ∈ (state.buf block).holders :=
      mem_erase_of_ne (by simp)
    refine Rely.setBuf Iff.rfl ?_ (fun _ => rfl) (fun _ _ _ => pins)
      (fun _ => ⟨pins, fun _ => rfl⟩)
    exact count_erase_of_ne (by simpa using different)
  | pin block locked active once =>
    refine Rely.setBuf Iff.rfl (by simp) (fun _ => rfl) ?_ ?_
    · intro otherLocked
      rw [locked] at otherLocked
      exact (notSame otherLocked).elim
    · exact fun committer => (not_committer_of_active inv active other committer).elim
  | unpin block mine installing pinned written =>
    refine Rely.setBuf Iff.rfl (by simp) (fun _ => rfl) ?_ ?_
    · intro _ ready quiet
      rw [(inv.committing ready).mpr (by simp [mine])] at quiet
      cases quiet
    · intro committer
      rw [mine] at committer
      exact (notSame committer).elim
  | acquire free => exact { Rely.refl other state with lock := by simp [free, different.symm] }
  | release locked =>
    exact { Rely.refl other state with lock := by simp [locked, different.symm] }
  | begin locked ready quiet new logged =>
    exact { Rely.refl other state with
      ops := by simp [State.enter, different]
      log := fun otherLocked => (some_ne_of_locked locked otherLocked).elim }
  | leave locked active clean logged =>
    exact { Rely.refl other state with
      ops := mem_erase_of_ne different
      log := fun otherLocked => (some_ne_of_locked locked otherLocked).elim }
  | startCommit locked idle last =>
    exact { Rely.refl other state with
      committer := by simp [idle, different.symm]
      log := fun otherLocked => (some_ne_of_locked locked otherLocked).elim
      mine := fun committer => by simp [idle] at committer }
  | append block locked active held outside room pinned =>
    have busy := not_committer_of_active inv active other
    exact { Rely.refl other state with
      dirty := inv.mark_iff (held ▸ notSame) (by simp)
      quiet_log := fun otherLocked => (some_ne_of_locked locked otherLocked).elim
      mine := fun committer => (busy committer).elim }
  | panic => exact { Rely.refl other state with }
  | update block data active held outside =>
    have filled : Rely other state (state.fill process block data) :=
      Rely.fill inv different held (not_committer_of_active inv active other)
    exact { filled with }
  | readHead mine down installing same unpinned =>
    exact { Rely.refl other state with
      quiet_log := fun _ ready => by simp [down] at ready
      mine := fun committer => (some_ne_of_mine mine committer).elim }
  | clearHead mine unpinned =>
    exact { Rely.refl other state with
      quiet_log := fun _ ready quiet => by
        rw [(inv.committing ready).mpr (by simp [mine])] at quiet
        cases quiet
      mine := fun committer => (some_ne_of_mine mine committer).elim }
  | finish mine locked ready clear installed undirty =>
    exact { Rely.refl other state with
      committer := by simp [mine, different.symm]
      log := fun otherLocked => (some_ne_of_locked locked otherLocked).elim
      mine := fun committer => (some_ne_of_mine mine committer).elim }
  | ready mine down clear installed quiet empty undirty clean =>
    exact { Rely.refl other state with
      committer := by simp [mine, different.symm]
      ready := fun _ => rfl
      mine := fun committer => (some_ne_of_mine mine committer).elim }

end Log
end Xv6
