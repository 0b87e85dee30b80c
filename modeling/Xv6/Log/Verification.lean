import Xv6.Log.Commit

namespace Xv6
namespace Log

open Conc Function List Logic Prog

/-!
# The log code meets its specification

An operation holds `log.lock` only inside the calls of the log.  While it holds
the lock and no commit is under way, the in-memory header and the pins stand
still, which is what `log_write` and `end_op` rest on.  The procedures of the
machine are specified by what the calling process owns before and after them.
-/

variable {geometry : Geometry} {base : Disk} {state now after : State} {process : Proc}
  {pre : Label -> Proc -> State -> Prop} {post : Label -> Proc -> State -> Int -> State -> Prop}

/-! ## The lock of the log -/

section Lock

variable {active locked commits : Bool} {held dirty : List Nat} {α : Type}
  {rest : Unit -> LogProg α} {goal : α -> State -> Prop}

theorem Inv.not_committing (inv : Inv geometry base state) (ready : state.ready = true)
    (active : process ∈ state.ops) : state.committing = false := by
  have idle : state.committer = none := by
    by_contra busy
    rw [inv.committer_alone busy] at active
    cases active
  by_contra committing
  exact (inv.committing ready).mp (by simpa using committing) idle

theorem wp_acquire (here : Owns process active false commits held dirty state)
    (next : ∀ now, Inv geometry base now ->
      Owns process active true commits held dirty now -> Carried commits state now ->
      Settled now -> Fresh now ->
      Wp geometry base pre post process (rest ()) goal now) :
    Wp geometry base pre post process (acquire.bind rest) goal state := by
  refine wp_await (fun s1 rely1 inv1 _ runs free => ?_)
  cases runs
  have unlocked : s1.lock = none := by simpa using free
  have step : LStep geometry process s1 { s1 with lock := some process } := .acquire unlocked
  refine ⟨step, next _ (step.inv inv1) { here.rely rely1 with hasLock := by simp } ?_ ?_ ?_⟩
  · exact (Carried.of_rely here rely1).trans ⟨fun _ => { SameView.refl s1 with }, id⟩
  · exact inv1.settled_of_free unlocked
  · exact inv1.fresh_of_free unlocked

theorem wp_release (here : Owns process active true commits held dirty state)
    (settled : ∀ now, Inv geometry base now -> Rely process state now -> Settled now)
    (fresh : ∀ now, Inv geometry base now -> Rely process state now -> Fresh now)
    (next : ∀ now, Inv geometry base now -> Owns process active false commits held dirty now ->
      Carried commits state now ->
      Wp geometry base pre post process (rest ()) goal now) :
    Wp geometry base pre post process (release.bind rest) goal state := by
  refine wp_modify (fun s1 rely1 inv1 _ runs => ?_)
  cases runs
  have here1 := here.rely rely1
  have step : LStep geometry process s1 { s1 with lock := none } :=
    .release (here1.hasLock.mpr rfl) (settled s1 inv1 rely1) (fresh s1 inv1 rely1)
  refine ⟨step, next _ (step.inv inv1) { here1 with hasLock := by simp } ?_⟩
  exact (Carried.of_rely here rely1).trans ⟨fun _ => { SameView.refl s1 with }, id⟩

/-- A process outside every operation leaves no pin behind when it drops the lock. -/
theorem wp_release_inactive (here : Owns process false true commits held dirty state)
    (fresh : ∀ now, Inv geometry base now -> Rely process state now -> Fresh now)
    (next : ∀ now, Inv geometry base now -> Owns process false false commits held dirty now ->
      Carried commits state now ->
      Wp geometry base pre post process (rest ()) goal now) :
    Wp geometry base pre post process (release.bind rest) goal state := by
  refine wp_release here (fun s1 inv1 rely1 => ?_) fresh next
  have here1 := here.rely rely1
  exact inv1.settled_of_inactive (here1.hasLock.mpr rfl)
    (fun active => by cases here1.inOps.mp active)

end Lock

/-! ## Specifications of the procedures -/

/-- What a process owns when it enters a procedure. -/
def entry (label : Label) (process : Proc) (state : State) : Prop :=
  match label with
  | .boot => Owns process false false true [] [] state ∧ Booting state
  | .process => Owns process false false false [] [] state
  | .beginLoop => Owns process false true false [] [] state ∧ state.ready = true ∧
      Fresh state
  | .opLoop held => (∃ dirty, Owns process true false false held dirty state) ∧
      held.Nodup ∧ state.ready = true
  | .idle => True

/-- What it owns when it leaves the procedure. -/
def exits (label : Label) (process : Proc) (before : State) (_ : Int) (state : State) : Prop :=
  match label with
  | .beginLoop | .opLoop _ =>
    Owns process true false false [] [] state ∧ state.ready = true
  | .boot | .process => True
  | .idle => Rely process before state

abbrev specification (geometry : Geometry) (base : Disk) : Logic State Proc Proc Label :=
  logLogic geometry base entry exits

abbrev Verified (geometry : Geometry) (base : Disk) (process : Proc) {α : Type}
    (program : LogProg α) (goal : α -> State -> Prop) (state : State) : Prop :=
  Wp geometry base entry exits process program goal state

/-! ## Entering an operation -/

theorem Rely.same_log (rely : Rely process state now) (locked : state.lock = some process)
    (ready : state.ready = true) (quiet : state.committing = false) :
    now.lh = state.lh ∧ now.committing = false ∧ now.ready = true :=
  ⟨(rely.quiet_log locked ready quiet).1, (rely.log locked).1.trans quiet, rely.ready ready⟩

section

variable (here : Owns process false true false [] [] state) (ready : state.ready = true)

include here ready

/-- Waiting on the log and trying again. -/
theorem wp_retry (fresh : Fresh state) :
    Verified geometry base process (sleepOnLog.bind (fun _ => Prog.invoke .beginLoop))
      (fun _ now => Owns process true false false [] [] now ∧ now.ready = true)
      state := by
  unfold sleepOnLog
  simp only [bind_eq, bind_assoc]
  refine wp_release_inactive here (fun s1 _ rely1 => fresh.rely rely1 (here.hasLock.mpr rfl) ready)
    (fun s1 _ here1 carried1 => ?_)
  refine wp_acquire here1 (fun s2 _ here2 carried2 _ fresh2 => ?_)
  have ready2 := carried2.ready (carried1.ready ready)
  intro s3 rely3 _
  refine ⟨⟨here2.rely rely3, rely3.ready ready2,
    fresh2.rely rely3 (here2.hasLock.mpr rfl) ready2⟩, fun _ s4 _ left => ?_⟩
  exact fun s5 rely5 _ => ⟨left.1.rely rely5, rely5.ready left.2⟩

theorem beginLoop_spec (fresh : Fresh state) : Verified geometry base process beginLoop
      (fun _ now => Owns process true false false [] [] now ∧ now.ready = true)
      state := by
  unfold beginLoop
  refine wp_read (fun s1 rely1 inv1 _ _ => ?_)
  have here1 := here.rely rely1
  have ready1 := rely1.ready ready
  have fresh1 := fresh.rely rely1 (here.hasLock.mpr rfl) ready
  cases committing1 : s1.committing with
  | true => exact wp_retry here1 ready1 fresh1
  | false =>
    refine wp_read (fun s2 rely2 inv2 _ _ => ?_)
    have here2 := here1.rely rely2
    have ready2 := rely2.ready ready1
    have fresh2 := fresh1.rely rely2 (here1.hasLock.mpr rfl) ready1
    have quiet2 : s2.committing = false :=
      (rely2.log (here1.hasLock.mpr rfl)).1.trans committing1
    split
    · exact wp_retry here2 ready2 fresh2
    · next fits =>
      refine wp_modify (fun s3 rely3 inv3 _ runs => ?_)
      cases runs
      have here3 := here2.rely rely3
      have ready3 := rely3.ready ready2
      have locked := here3.hasLock.mpr rfl
      have quiet3 : s3.committing = false :=
        (rely3.log (here2.hasLock.mpr rfl)).1.trans quiet2
      have inactive : process ∉ s3.ops := fun active => by cases here3.inOps.mp active
      have settled := inv3.settled_of_inactive locked inactive
      have active : Owns process true true false [] [] (s3.enter process) :=
        { here3 with inOps := by simp [State.enter] }
      have logged : Settled (s3.enter process) := settled
      have same3 := rely3.same_log (here2.hasLock.mpr rfl) ready2 quiet2
      have room3 : s3.lh.length + (s3.outstanding + 1) * MAXOPBLOCKS ≤ LOGSIZE := by
        rw [same3.1, (rely3.log (here2.hasLock.mpr rfl)).2.1]
        exact Nat.le_of_not_gt fits
      have fresh3 := fresh2.rely rely3 (here2.hasLock.mpr rfl) ready2
      refine ⟨.begin locked ready3 quiet3 inactive settled room3 (fresh3 ready3 quiet3), ?_⟩
      refine wp_release active (fun s4 _ rely4 => logged.rely rely4 locked ready3 quiet3)
        (fun s4 _ rely4 => fresh_of_active ((active.rely rely4).inOps.mpr rfl))
        (fun s4 _ here4 carried4 => ?_)
      exact fun s5 rely5 _ => ⟨here4.rely rely5, rely5.ready (carried4.ready ready3)⟩

/-! ## Leaving an operation -/

/-- The part of `end_op` that the last operation of a group executes. -/
theorem finishOp_spec (quiet : state.committing = false) (empty : state.ops = []) :
    Verified geometry base process ((Prog.modify (fun process state =>
          { state with committing := true, committer := some process })).bind (fun _ =>
        release.bind (fun _ => (commit geometry).bind (fun _ => acquire.bind (fun _ =>
          (Prog.modify (fun _ state =>
            { state with committing := false, committer := none })).bind (fun _ =>
              release.bind Prog.ret))))))
      (fun _ now => Owns process false false false [] [] now) state := by
  refine wp_modify (fun s1 rely1 inv1 _ runs => ?_)
  cases runs
  have here1 := here.rely rely1
  have locked := here1.hasLock.mpr rfl
  have same := rely1.log (here.hasLock.mpr rfl)
  have ready1 := rely1.ready ready
  have idle1 : s1.committer = none := by
    by_contra busy
    have committing := (inv1.committing ready1).mpr busy
    rw [same.1, quiet] at committing
    cases committing
  let started : State := { s1 with committing := true, committer := some process }
  have mine : Owns process false true true [] [] started :=
    { here1 with isCommitter := by simp [started] }
  refine ⟨.startCommit locked idle1 (same.2.2.trans empty), ?_⟩
  refine wp_release_inactive mine (fun s2 _ rely2 => fresh_of_committing (rely2.log locked).1)
    (fun s2 inv2 here2 carried2 => ?_)
  have view2 := carried2.view rfl
  have head2 : header (s2.disk geometry.start) = [] := by
    rw [view2.disk]
    exact inv1.idle_head idle1
  have installing2 : s2.installing = false :=
    view2.installing.trans (inv1.idle_not_installing idle1)
  refine wp_bind coherent inv2 (wp_mono (commit_spec here2
    (view2.ready.trans ready1) view2.committing installing2 head2) ?_)
  rintro _ s3 inv3 ⟨here3, ready3, installing3, head3, empty3⟩
  refine wp_acquire here3 (fun s4 inv4 here4 carried4 _ _ => ?_)
  refine wp_modify (fun s5 rely5 inv5 _ runs => ?_)
  cases runs
  have here5 := here4.rely rely5
  have view5 := (carried4.view rfl).trans (here4.view rely5)
  have undirty : ∀ block, s5.dirty block ≠ some process :=
    fun block dirty => by simpa using (here5.marked block).mp dirty
  have step : LStep geometry process s5 { s5 with committing := false, committer := none } :=
    .finish (here5.isCommitter.mpr rfl) (here5.hasLock.mpr rfl) (view5.ready.trans ready3)
      (by rw [view5.disk]; exact head3) (view5.installing.trans installing3) undirty
  have done : Owns process false true false [] []
      { s5 with committing := false, committer := none } :=
    { here5 with isCommitter := by simp }
  have fresh : Fresh { s5 with committing := false, committer := none } :=
    fun _ _ _ => view5.lh.trans empty3
  refine ⟨step, wp_release_inactive done
    (fun s6 _ rely6 => fresh.rely rely6 (here5.hasLock.mpr rfl) (view5.ready.trans ready3))
    (fun s6 _ here6 _ => ?_)⟩
  exact fun s7 rely7 _ => here6.rely rely7

end

theorem endOp_spec (here : Owns process true false false [] [] state) (ready : state.ready = true) :
    Verified geometry base process (endOp geometry)
      (fun _ now => Owns process false false false [] [] now) state := by
  rw [← bind_ret (endOp geometry)]
  unfold endOp
  simp only [bind_eq, bind_assoc]
  refine wp_acquire here (fun s1 inv1 here1 carried1 settled1 _ => ?_)
  have ready1 := carried1.ready ready
  refine wp_modify (fun s2 rely2 inv2 _ runs => ?_)
  cases runs
  have here2 := here1.rely rely2
  have ready2 := rely2.ready ready1
  have locked1 := here1.hasLock.mpr rfl
  have quiet1 := inv1.not_committing ready1 (here1.inOps.mpr rfl)
  have settled2 := settled1.rely rely2 locked1 ready1 quiet1
  have quiet2 : s2.committing = false := (rely2.log locked1).1.trans quiet1
  have clean : ∀ block, s2.dirty block ≠ some process :=
    fun block dirty => by simpa using (here2.marked block).mp dirty
  let left : State :=
    { s2 with outstanding := s2.outstanding - 1, ops := s2.ops.erase process }
  have outside : Owns process false true false [] [] left :=
    { here2 with inOps := by simp [left, inv2.ops_nodup.mem_erase_iff] }
  refine ⟨.leave (here2.hasLock.mpr rfl) (here2.inOps.mpr rfl) clean settled2, ?_⟩
  refine wp_read (fun s3 rely3 inv3 _ _ => ?_)
  have here3 := outside.rely rely3
  have quiet3 : s3.committing = false := (rely3.log (here2.hasLock.mpr rfl)).1.trans quiet2
  have ready3 : s3.ready = true := rely3.ready ready2
  simp only [quiet3, Bool.false_eq_true, if_false]
  refine wp_read (fun s4 rely4 inv4 _ _ => ?_)
  have here4 := here3.rely rely4
  have quiet4 : s4.committing = false := (rely4.log (here3.hasLock.mpr rfl)).1.trans quiet3
  have ready4 : s4.ready = true := rely4.ready ready3
  cases last : s4.outstanding == 0 with
  | false =>
    refine wp_release_inactive here4 (fun s5 inv5 rely5 _ _ none => ?_) (fun s5 _ here5 _ => ?_)
    · have same := (rely5.log (here4.hasLock.mpr rfl)).2.1
      rw [inv5.outstanding, none] at same
      simp [← same] at last
    exact fun s6 rely6 _ => here5.rely rely6
  | true =>
    have empty : s4.ops = [] := by
      rw [← length_eq_zero_iff, ← inv4.outstanding]
      simpa using last
    simp only [ret_bind, if_pos, bind_assoc]
    exact finishOp_spec here4 ready4 quiet4 empty

/-! ## Logging a block -/

theorem Local.append {held dirty : List Nat} {block : Nat} {active locked commits : Bool}
    (here : Owns process active locked commits held dirty state) :
    Owns process active locked commits held (dirty.filter (· ≠ block))
      (state.append process block) := by
  refine { here with marked := ?_ }
  intro other
  have marked := here.marked other
  by_cases same : other = block
  · subst same
    simp [State.append]
  · simpa [State.append, update_of_ne same, same] using marked

theorem Settled.append {block : Nat} (settled : ∀ other, other ≠ block ->
    .log ∈ (state.buf other).holders -> other ∈ state.lh) :
    Settled (state.append process block) := by
  intro other pinned
  have grown : ∀ member, member ∈ (state.append process block).lh <->
      member ∈ state.lh ∨ member = block := by
    intro member
    simp only [State.append]
    split
    · next present =>
        exact ⟨Or.inl, fun cases => cases.elim id (fun same => same ▸ present)⟩
    · simp
  rw [grown]
  by_cases same : other = block
  · exact Or.inr same
  · exact Or.inl (settled other same pinned)

section LogWrite

variable {held dirty : List Nat} {block : Nat}

section

variable (here : Owns process true true false held dirty state)

include here

/-- The end of `log_write`, once the buffer is pinned. -/
theorem wp_append (member : block ∈ held) (outside : ¬ geometry.InArea block)
    (ready : state.ready = true) (quiet : state.committing = false)
    (room : state.lh.length < geometry.size - 1) (pinned : .log ∈ (state.buf block).holders)
    (settled : ∀ other, other ≠ block -> .log ∈ (state.buf other).holders -> other ∈ state.lh) :
    Verified geometry base process
      ((Prog.modify (fun process state => state.append process block)).bind
        (fun _ => release.bind Prog.ret))
      (fun _ now => Owns process true false false held (dirty.filter (· ≠ block)) now ∧
        now.ready = true) state := by
  refine wp_modify (fun s1 rely1 inv1 _ runs => ?_)
  cases runs
  have here1 := here.rely rely1
  have locked1 := here1.hasLock.mpr rfl
  have stands := rely1.quiet_log (here.hasLock.mpr rfl) ready quiet
  have same := rely1.same_log (here.hasLock.mpr rfl) ready quiet
  have settled1 : Settled (s1.append process block) := by
    refine Settled.append (fun other different pin => ?_)
    rw [stands.1]
    exact settled other different ((stands.2 other).mp pin)
  refine ⟨.append block locked1 (here1.inOps.mpr rfl) ((here1.holds block).mpr member) outside
    (by rw [same.1]; exact room) ((stands.2 block).mpr pinned), ?_⟩
  refine wp_release here1.append (fun s2 _ rely2 => settled1.rely rely2 locked1 same.2.2 same.2.1)
    (fun s2 _ rely2 => fresh_of_active ((here1.append.rely rely2).inOps.mpr rfl))
    (fun s2 _ here2 carried2 => ?_)
  exact fun s3 rely3 _ => ⟨here2.rely rely3, rely3.ready (carried2.ready same.2.2)⟩

/-- The end of `log_write` for a block that is not yet in the log. -/
theorem wp_pin (member : block ∈ held) (outside : ¬ geometry.InArea block)
    (ready : state.ready = true) (quiet : state.committing = false)
    (room : state.lh.length < geometry.size - 1) (new : block ∉ state.lh)
    (settled : Settled state) :
    Verified geometry base process
      ((bpin block).bind (fun _ =>
        (Prog.modify (fun process state => state.append process block)).bind
          (fun _ => release.bind Prog.ret)))
      (fun _ now => Owns process true false false held (dirty.filter (· ≠ block)) now ∧
        now.ready = true) state := by
  refine wp_modify (fun s1 rely1 inv1 _ runs => ?_)
  cases runs
  have here1 := here.rely rely1
  have locked1 := here1.hasLock.mpr rfl
  have settled1 := settled.rely rely1 (here.hasLock.mpr rfl) ready quiet
  have same := rely1.same_log (here.hasLock.mpr rfl) ready quiet
  have new1 : block ∉ s1.lh := by rw [same.1]; exact new
  refine ⟨.pin block locked1 (here1.inOps.mpr rfl) (fun pin => new1 (settled1 block pin)), ?_⟩
  have here2 : Owns process true true false held dirty (s1.bref .log block) := by
    refine here1.setBuf ?_ (fun _ _ => rfl) (here1.holds block) (fun _ _ => Iff.rfl)
    rw [count_cons_of_ne (by simp)]
    exact here1.refCount block
  refine wp_append here2 member outside same.2.2 same.2.1 (by exact same.1 ▸ room) ?_ ?_
  · simp [State.bref, State.setBuf]
  · intro other different pin
    refine settled1 other ?_
    simpa [State.bref, State.setBuf, different] using pin

/-- The panic of `log_write` on a full log. -/
theorem wp_tooBig {α : Type} {rest : Unit -> LogProg α} {goal : α -> State -> Prop}
    (ready : state.ready = true) (quiet : state.committing = false)
    (full : LOGSIZE ≤ state.lh.length ∨ geometry.size - 1 ≤ state.lh.length) :
    Verified geometry base process ((panic .tooBigATransaction).bind rest) goal state := by
  unfold panic
  simp only [bind_eq, bind_assoc]
  refine wp_modify (fun s1 rely1 _ _ runs => ?_)
  cases runs
  have here1 := here.rely rely1
  have same := rely1.same_log (here.hasLock.mpr rfl) ready quiet
  exact ⟨.panic (here1.inOps.mpr rfl) (same.1 ▸ full), wp_halt⟩

end

theorem logWrite_spec (here : Owns process true false false held dirty state)
    (member : block ∈ held) (outside : ¬ geometry.InArea block) (ready : state.ready = true) :
    Verified geometry base process (logWrite geometry block)
      (fun _ now => Owns process true false false held (dirty.filter (· ≠ block)) now ∧
        now.ready = true) state := by
  rw [← bind_ret (logWrite geometry block)]
  unfold logWrite
  simp only [bind_eq, bind_assoc]
  refine wp_acquire here (fun s1 inv1 here1 carried1 settled1 _ => ?_)
  have ready1 := carried1.ready ready
  have locked1 := here1.hasLock.mpr rfl
  have quiet1 := inv1.not_committing ready1 (here1.inOps.mpr rfl)
  refine wp_read (fun s2 rely2 inv2 _ _ => ?_)
  have here2 := here1.rely rely2
  have locked2 := here2.hasLock.mpr rfl
  have settled2 := settled1.rely rely2 locked1 ready1 quiet1
  have same2 := rely2.same_log locked1 ready1 quiet1
  split
  · next full =>
      simp only [Bool.or_eq_true, decide_eq_true_eq, ge_iff_le] at full
      rw [bind_assoc]
      exact wp_tooBig here2 (rely2.ready ready1) same2.2.1 full
  · next fits =>
      simp only [Bool.or_eq_true, decide_eq_true_eq, not_or, not_le, ge_iff_le] at fits
      rw [bind_assoc]
      refine wp_read (fun s3 rely3 inv3 _ _ => ?_)
      have here3 := here2.rely rely3
      have locked3 := here3.hasLock.mpr rfl
      have settled3 := settled2.rely rely3 locked2 same2.2.2 same2.2.1
      have same3 := rely3.same_log locked2 same2.2.2 same2.2.1
      split
      · next outside =>
          have active := here3.inOps.mpr rfl
          have some := length_pos_of_mem active
          rw [inv3.outstanding] at outside
          exact absurd outside (Nat.not_lt.mpr some)
      · rw [bind_assoc]
        refine wp_read (fun s4 rely4 inv4 _ _ => ?_)
        have here4 := here3.rely rely4
        have locked4 := here4.hasLock.mpr rfl
        have settled4 := settled3.rely rely4 locked3 same3.2.2 same3.2.1
        have same4 := rely4.same_log locked3 same3.2.2 same3.2.1
        have room4 : s4.lh.length < geometry.size - 1 := by
          rw [same4.1, same3.1]
          exact fits.2
        by_cases absorbed : block ∈ s4.lh
        · simp only [absorbed, decide_true, Bool.true_eq_false, if_false, bind_assoc]
          have idle : s4.committer = none := by
            by_contra busy
            have active := here4.inOps.mpr rfl
            rw [inv4.committer_alone busy] at active
            cases active
          exact wp_append here4 member outside same4.2.2 same4.2.1 room4
            ((inv4.buffer block).logged_pinned (inv4.idle_not_installing idle) absorbed)
            (fun other _ pin => settled4 other pin)
        · simp only [absorbed, decide_false, if_true, bind_assoc]
          exact wp_pin here4 member outside same4.2.2 same4.2.1 room4 absorbed settled4

end LogWrite

/-! ## Operations -/

section Operation

variable {held dirty : List Nat}

/-- Going on with the operation. -/
theorem wp_opLoop (here : Owns process true false false held dirty state)
    (nodup : held.Nodup) (ready : state.ready = true) :
    Verified geometry base process (Prog.invoke (.opLoop held))
      (fun _ now => Owns process true false false [] [] now ∧ now.ready = true)
      state := by
  intro s1 rely1 _
  refine ⟨⟨⟨dirty, here.rely rely1⟩, nodup, rely1.ready ready⟩, fun _ s2 _ left => ?_⟩
  exact fun s3 rely3 _ => ⟨left.1.rely rely3, rely3.ready left.2⟩

theorem Local.update {block : Nat} {data : Block}
    (here : Owns process true false false held dirty state) :
    Owns process true false false held (block :: dirty) (state.update process block data) := by
  have filled : Owns process true false false held dirty
      (state.setBuf block { state.buf block with data := some data }) :=
    here.setBuf (here.refCount block) (fun _ _ => rfl) (here.holds block)
      (fun _ _ => Iff.rfl)
  refine { filled with marked := ?_ }
  intro other
  have marked := here.marked other
  by_cases same : other = block
  · subst same
    simp [State.update, State.fill, State.setDirty]
  · simpa [State.update, State.fill, State.setDirty, State.setBuf, update_of_ne same,
      same] using marked

theorem opLoop_spec (inv : Inv geometry base state)
    (here : Owns process true false false held dirty state)
    (nodup : held.Nodup) (ready : state.ready = true) :
    Verified geometry base process (opLoop geometry held)
      (fun _ now => Owns process true false false [] [] now ∧ now.ready = true)
      state := by
  unfold opLoop
  refine wp_any (fun action => ?_)
  cases action with
  | bread block =>
    dsimp only
    split
    · exact wp_opLoop here nodup ready
    · next new =>
        refine wp_bread here (fun s1 _ here1 carried1 => ?_)
        exact wp_opLoop here1 (nodup_cons.mpr ⟨new, nodup⟩) (carried1.ready ready)
  | modify block data =>
    dsimp only
    split
    · next allowed =>
        refine wp_modify (fun s1 rely1 inv1 _ runs => ?_)
        cases runs
        have here1 := here.rely rely1
        refine ⟨.update block data (here1.inOps.mpr rfl)
          ((here1.holds block).mpr allowed.1) allowed.2, ?_⟩
        exact wp_opLoop here1.update nodup (rely1.ready ready)
    · exact wp_opLoop here nodup ready
  | logWrite block =>
    dsimp only
    split
    · next allowed =>
        refine wp_bind coherent inv (wp_mono (logWrite_spec here allowed.1 allowed.2 ready) ?_)
        exact fun _ s1 _ logged => wp_opLoop logged.1 nodup logged.2
    · exact wp_opLoop here nodup ready
  | brelse block =>
    dsimp only
    split
    · next member =>
        refine wp_brelse here nodup member (fun _ => rfl) (fun s1 _ here1 carried1 => ?_)
        exact wp_opLoop here1 (nodup.erase block) (carried1.ready ready)
    · exact wp_opLoop here nodup ready
  | finish =>
    dsimp only
    split
    · next released =>
        subst released
        refine fun s1 rely1 inv1 => ⟨?_, rely1.ready ready⟩
        have here1 := here.rely rely1
        -- A modified buffer is locked, so none is left without a locked buffer.
        refine { here1 with marked := fun block => ?_ }
        refine ⟨fun marked => ?_, fun impossible => by cases impossible⟩
        exact (here1.holds block).mp (inv1.dirty_locked marked)
    · exact wp_opLoop here nodup ready

end Operation

/-- Calling `process` again. -/
theorem wp_process {goal : Int -> State -> Prop} (always : ∀ value now, goal value now)
    (here : Owns process false false false [] [] state) :
    Verified geometry base process (Prog.invoke .process) goal state :=
  fun _ rely1 _ => ⟨here.rely rely1, fun value _ _ _ => fun now _ _ => always value now⟩

theorem process_spec {goal : Int -> State -> Prop} (always : ∀ value now, goal value now)
    (here : Owns process false false false [] [] state) :
    Verified geometry base process (Log.process geometry) goal state := by
  unfold Log.process
  refine wp_wait (fun s1 rely1 inv1 _ _ ready1 => ?_)
  have here1 := here.rely rely1
  refine wp_any (fun choice => ?_)
  cases choice with
  | some block =>
    refine wp_bread here1 (fun s2 _ here2 _ => ?_)
    refine wp_brelse here2 (by simp) (by simp) (by simp) (fun s3 _ here3 _ => ?_)
    rw [erase_cons_head] at here3
    exact wp_process always here3
  | none =>
    unfold beginOp
    simp only [bind_eq, bind_assoc]
    refine wp_acquire here1 (fun s2 _ here2 carried2 _ fresh2 => ?_)
    have ready2 := carried2.ready ready1
    refine wp_invoke (fun s3 rely3 _ => ⟨⟨here2.rely rely3, rely3.ready ready2,
      fresh2.rely rely3 (here2.hasLock.mpr rfl) ready2⟩, ?_⟩)
    rintro _ s4 _ ⟨here4, ready4⟩
    refine wp_invoke (fun s5 rely5 _ =>
      ⟨⟨⟨[], here4.rely rely5⟩, nodup_nil, rely5.ready ready4⟩, ?_⟩)
    rintro _ s6 inv6 ⟨here6, ready6⟩
    refine wp_bind coherent inv6 (wp_mono (endOp_spec here6 ready6) ?_)
    exact fun _ s7 _ here7 => wp_process always here7

theorem boot_spec {goal : Int -> State -> Prop} (always : ∀ value now, goal value now)
    (inv : Inv geometry base state)
    (here : Commits process state) (booting : Booting state) :
    Verified geometry base process (boot geometry) goal state := by
  refine wp_bind coherent inv (wp_mono (recoverFromLog_spec inv here booting) ?_)
  rintro _ s1 inv1 ⟨here1, cleared1, empty1⟩
  refine wp_modify (fun s2 rely2 inv2 _ runs => ?_)
  cases runs
  have here2 := here1.rely rely2
  have mine : s2.committer = some process := here2.isCommitter.mpr rfl
  have view2 : SameView s1 s2 := here1.view rely2
  have cleared2 := cleared1.sameView view2
  have undirty : ∀ block, s2.dirty block ≠ some process :=
    fun block dirty => by simpa using (here2.marked block).mp dirty
  refine ⟨.ready mine cleared2.ready (by rw [view2.disk]; exact empty1) cleared2.idle
    cleared2.committing cleared2.lh undirty ?_, ?_⟩
  · exact fun block sound => inv2.logical_of_clean sound
      (inv2.clean_of_committer mine (undirty block)) (cleared2.unpinned block)
  · exact wp_process always { here2 with isCommitter := by simp }

/-- Every procedure of the log meets its specification. -/
theorem verifies : (specification geometry base).Verifies (machine geometry) where
  toCoherent := coherent
  code := by
    intro label thread state inv enters
    cases label with
    | boot => exact boot_spec (fun _ _ => trivial) inv enters.1 enters.2
    | process => exact process_spec (fun _ _ => trivial) enters
    | beginLoop => exact beginLoop_spec enters.1 enters.2.1 enters.2.2
    | opLoop held =>
      rcases enters.1 with ⟨dirty, here⟩
      exact opLoop_spec inv here enters.2.1 enters.2.2
    | idle => exact fun _ rely _ => rely
  handler_pre := fun _ _ _ _ _ _ impossible => impossible.elim
  handler_rely := fun _ _ _ _ _ _ returned => returned

end Log
end Xv6
