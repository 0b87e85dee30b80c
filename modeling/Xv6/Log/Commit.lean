import Xv6.Log.Statements
import Mathlib.Data.List.Nodup

namespace Xv6
namespace Log

open Conc Function List Logic Prog

/-!
# Committing and recovering

The committing process walks through four views of the disk: the log area is
being filled under an empty header, the header is on disk and the home blocks
are being installed, everything is installed under a header that is no longer
needed, and the header is empty again.  Recovery enters this walk at the second
view with no pinned buffers.  Each view is stated only in terms of what the
statements on buffers leave alone, so it holds across them.
-/

variable {geometry : Geometry} {base : Disk} {state now after : State} {process : Proc}
  {pre : Label -> Proc -> State -> Prop} {post : Label -> Proc -> State -> Int -> State -> Prop}
  {lh : List Nat} {tail : Nat} {disk : Disk} {block : Nat} {recovering : Bool}

/-! ## The header block -/

theorem header_setHeader (block : Block) (lh : List Nat) : header (setHeader block lh) = lh := by
  apply ext_getElem
  · simp [header, setHeader]
  · intro index _ inside
    simp [header, setHeader, inside]

theorem getD_mem {index : Nat} (inside : index < lh.length) : lh.getD index 0 ∈ lh := by
  simp [List.getD, inside]

theorem goodHeader_nil : GoodHeader geometry [] :=
  ⟨nodup_nil, fun _ member => (not_mem_nil member).elim, Nat.zero_le _⟩

theorem slot_inArea (good : GoodHeader geometry lh) (inside : tail < lh.length) :
    geometry.InArea (geometry.slot tail) := by
  have := good.fits
  unfold Geometry.InArea Geometry.slot
  omega

theorem start_inArea : geometry.InArea geometry.start := by
  have := geometry.size_pos
  unfold Geometry.InArea
  omega

theorem slot_ne_start (tail : Nat) : geometry.slot tail ≠ geometry.start := by
  unfold Geometry.slot
  omega

theorem slot_inj {first second : Nat} (same : geometry.slot first = geometry.slot second) :
    first = second := by
  unfold Geometry.slot at same
  omega

theorem recovered_of_empty (empty : header (disk geometry.start) = []) (block : Nat) :
    recovered geometry disk block = disk block := by
  simp [recovered, empty]

theorem recovered_of_logged (head : header (disk geometry.start) = lh) (member : block ∈ lh) :
    recovered geometry disk block = disk (geometry.slot (lh.idxOf block)) := by
  simp [recovered, head, member]

theorem recovered_of_other (head : header (disk geometry.start) = lh) (member : block ∉ lh) :
    recovered geometry disk block = disk block := by
  simp [recovered, head, member]

/-! ## The views -/

/-- The first `tail` blocks have been copied to the log. -/
structure Logged (geometry : Geometry) (tail : Nat) (state : State) : Prop where
  ready : state.ready = true
  committing : state.committing = true
  empty : header (state.disk geometry.start) = []
  idle : state.installing = false
  pins : forall block, block ∈ state.lh -> .log ∈ (state.buf block).holders
  copied : forall index, index < tail -> index < state.lh.length ->
    state.disk (geometry.slot index) = state.logical (state.lh.getD index 0)

/-- The header is on disk and the first `tail` blocks are installed. -/
structure Installed (geometry : Geometry) (recovering : Bool) (tail : Nat) (state : State) :
    Prop where
  ready : state.ready = !recovering
  committing : state.committing = !recovering
  head : header (state.disk geometry.start) = state.lh
  installing : state.installing = true
  home : forall index, index < tail -> index < state.lh.length ->
    state.disk (state.lh.getD index 0) = state.disk (geometry.slot index)
  pins : forall block, .log ∈ (state.buf block).holders <->
    recovering = false ∧ block ∈ state.lh.drop tail
  same : recovering = false -> forall index, tail ≤ index -> index < state.lh.length ->
    state.logical (state.lh.getD index 0) = state.disk (geometry.slot index)

theorem Logged.tracked (logged : Logged geometry tail state) {index : Nat}
    (inside : index < state.lh.length) : state.Tracked (state.lh.getD index 0) :=
  Or.inr (logged.pins _ (getD_mem inside))

theorem getD_mem_drop {index : Nat} (later : tail ≤ index) (inside : index < lh.length) :
    lh.getD index 0 ∈ lh.drop tail := by
  refine mem_drop_iff_getElem.mpr ⟨index - tail, by omega, ?_⟩
  simp [List.getD, inside, Nat.add_sub_cancel' later]

/-- A block that is not yet installed is still pinned. -/
theorem Installed.tracked (installed : Installed geometry false tail state) {index : Nat}
    (later : tail ≤ index) (inside : index < state.lh.length) :
    state.Tracked (state.lh.getD index 0) :=
  Or.inr ((installed.pins _).mpr ⟨rfl, getD_mem_drop later inside⟩)

/-- The in-memory header is empty and the one on disk is not needed. -/
structure Cleared (geometry : Geometry) (recovering : Bool) (state : State) : Prop where
  ready : state.ready = !recovering
  committing : state.committing = !recovering
  lh : state.lh = []
  idle : state.installing = false
  unpinned : forall block, .log ∉ (state.buf block).holders
  settled : forall block, ¬ geometry.InArea block ->
    recovered geometry state.disk block = state.disk block

theorem Logged.sameView (logged : Logged geometry tail state) (view : SameView state now) :
    Logged geometry tail now where
  ready := view.ready.trans logged.ready
  committing := view.committing.trans logged.committing
  empty := by rw [view.disk]; exact logged.empty
  idle := view.installing.trans logged.idle
  pins := by
    intro block member
    exact (view.pins block).mpr (logged.pins block (view.lh ▸ member))
  copied := by
    intro index before inside
    rw [view.lh] at inside ⊢
    rw [view.disk, view.logical _ (logged.tracked inside)]
    exact logged.copied index before inside

theorem Installed.sameView (installed : Installed geometry recovering tail state)
    (view : SameView state now) : Installed geometry recovering tail now where
  ready := view.ready.trans installed.ready
  committing := view.committing.trans installed.committing
  head := by rw [view.disk, view.lh]; exact installed.head
  installing := view.installing.trans installed.installing
  home := by
    intro index before inside
    rw [view.lh] at inside ⊢
    rw [view.disk]
    exact installed.home index before inside
  pins := by
    intro block
    rw [view.pins, view.lh]
    exact installed.pins block
  same := by
    rintro rfl index later inside
    rw [view.lh] at inside ⊢
    rw [view.disk, view.logical _ (installed.tracked later inside)]
    exact installed.same rfl index later inside

theorem Cleared.sameView (cleared : Cleared geometry recovering state) (view : SameView state now) :
    Cleared geometry recovering now where
  ready := view.ready.trans cleared.ready
  committing := view.committing.trans cleared.committing
  lh := view.lh.trans cleared.lh
  idle := view.installing.trans cleared.idle
  unpinned := fun block pinned => cleared.unpinned block ((view.pins block).mp pinned)
  settled := by
    intro block outside
    rw [view.disk]
    exact cleared.settled block outside

/-! ## Overwriting a block -/

section Overwrite

variable {active locked : Bool} {held : List Nat} {target : Nat} {contents : Block} {α : Type}
  {rest : Unit -> LogProg α} {goal : α -> State -> Prop}

/-- The buffer of `target` holds `contents`. -/
structure Changed (target : Nat) (contents : Block) (state now : State) :
    Prop extends SameLog state now where
  written : now.logical target = contents
  logical : forall block, block ≠ target -> state.Tracked block ->
    now.logical block = state.logical block

/-- The disk is unchanged. -/
structure Filled (target : Nat) (contents : Block) (state now : State) :
    Prop extends Changed target contents state now where
  disk : now.disk = state.disk

/-- The disk holds `contents`, too. -/
structure Wrote (target : Nat) (contents : Block) (state now : State) :
    Prop extends Changed target contents state now where
  disk : now.disk = Function.update state.disk target contents

theorem Filled.after_view (view : SameView state now) (filled : Filled target contents now after) :
    Filled target contents state after where
  toSameLog := view.toSameLog.trans filled.toSameLog
  disk := filled.disk.trans view.disk
  written := filled.written
  logical := fun block away tracked =>
    (filled.logical block away (view.tracked tracked)).trans (view.logical block tracked)

/-- Nobody changes the contents of a locked buffer under the committer. -/
theorem Local.logical_held {refs dirty : List Nat}
    (here : Local process active locked true refs held dirty state) (member : target ∈ held)
    (rely : Rely process state now) : now.logical target = state.logical target := by
  unfold State.logical
  rw [rely.data target ((here.holds target).mpr member), (here.view rely).disk]

theorem Filled.rely (filled : Filled target contents state now) {dirty : List Nat}
    (here : Owns process active locked true held dirty now) (member : target ∈ held)
    (rely : Rely process now after) : Filled target contents state after where
  toSameLog := filled.toSameLog.trans (here.view rely).toSameLog
  disk := (here.view rely).disk.trans filled.disk
  written := (here.logical_held member rely).trans filled.written
  logical := fun block away tracked =>
    ((here.view rely).logical block (filled.tracked tracked)).trans
      (filled.logical block away tracked)

theorem Filled.writeBack (filled : Filled target contents state now) :
    Wrote target contents state (now.writeBack target) where
  toSameLog := { filled.toSameLog with }
  disk := by
    simp only [State.writeBack, filled.disk, filled.written]
  written := by
    rw [logical_writeBack, filled.written]
  logical := by
    intro block away tracked
    rw [logical_writeBack, filled.logical block away tracked]

theorem Filled.fill (state : State) (process : Proc) (target : Nat) (contents : Block) :
    Filled target contents state (state.fill process target contents) where
  disk := rfl
  lh := rfl
  installing := rfl
  ready := rfl
  committing := rfl
  leaked := rfl
  pins := by
    intro block
    by_cases same : block = target
    · subst same
      simp [State.fill, State.setDirty, State.setBuf]
    · simp [State.fill, State.setDirty, State.setBuf, update_of_ne same]
  written := by
    rw [logical_fill, if_pos rfl]
  logical := by
    intro block away _
    rw [logical_fill, if_neg away]

theorem Local.fill {commits : Bool} (here : Owns process active locked commits held [] state) :
    Owns process active locked commits held [target] (state.fill process target contents) := by
  have filled : Owns process active locked commits held []
      (state.setBuf target { state.buf target with data := some contents }) :=
    here.setBuf (here.refCount target) (fun _ _ => rfl) (here.holds target)
      (fun _ _ => Iff.rfl)
  refine { filled with marked := ?_ }
  intro block
  have unmarked := here.marked block
  by_cases same : block = target
  · subst same
    simp [State.fill, State.setDirty]
  · simpa [State.fill, State.setDirty, State.setBuf, update_of_ne same, same] using unmarked

theorem Local.writeBack {commits : Bool}
    (here : Owns process active locked commits held [target] state) :
    Owns process active locked commits held [] (state.writeBack target) := by
  refine { here with marked := ?_ }
  intro block
  have marked := here.marked block
  by_cases same : block = target
  · subst same
    simp [State.writeBack]
  · simpa [State.writeBack, update_of_ne same, same] using marked

theorem wp_fill (contents : Block) (here : Owns process active locked true held [] state)
    (member : target ∈ held) {data : State -> Block}
    (value : ∀ now, Inv geometry base now -> SameView state now ->
      Owns process active locked true held [] now -> data now = contents)
    (same : state.ready = true -> ¬ geometry.InArea target -> contents = state.logical target)
    (next : ∀ now, Inv geometry base now -> Owns process active locked true held [target] now ->
      Filled target contents state now ->
      Wp geometry base pre post process (rest ()) goal now) :
    Wp geometry base pre post process
      ((Prog.modify (fun process state => state.fill process target (data state))).bind rest)
      goal state := by
  refine wp_modify (fun s1 rely1 inv1 _ runs => ?_)
  cases runs
  have here1 := here.rely rely1
  have mine : s1.committer = some process := here1.isCommitter.mpr rfl
  have view1 : SameView state s1 := here.view rely1
  rw [value s1 inv1 view1 here1]
  have step : LStep geometry process s1 (s1.fill process target contents) := by
    refine .fill target contents ((here1.holds target).mpr member) mine ?_
    intro ready outside
    rw [view1.ready] at ready
    rw [here.logical_held member rely1]
    exact same ready outside
  refine ⟨step, next _ (step.inv inv1) here1.fill ?_⟩
  exact (Filled.fill s1 process target contents).after_view view1

/-- Overwrite a locked buffer and write it to the disk. -/
theorem wp_overwrite (contents : Block) (here : Owns process active locked true held [] state)
    (member : target ∈ held) {data : State -> Block}
    (value : ∀ now, Inv geometry base now -> SameView state now ->
      Owns process active locked true held [] now -> data now = contents)
    (same : state.ready = true -> ¬ geometry.InArea target -> contents = state.logical target)
    (good : GoodHeader geometry (header (update state.disk target contents geometry.start)))
    (quiet : ∀ other, ¬ geometry.InArea other ->
      recovered geometry (update state.disk target contents) other =
        recovered geometry state.disk other)
    (next : ∀ now, Inv geometry base now -> Owns process active locked true held [] now ->
      Wrote target contents state now ->
      Wp geometry base pre post process (rest ()) goal now) :
    Wp geometry base pre post process
      ((Prog.modify (fun process state => state.fill process target (data state))).bind
        (fun _ => (bwrite target).bind rest)) goal state := by
  refine wp_fill contents here member value same (fun s1 inv1 here1 filled => ?_)
  refine wp_await (fun s2 rely2 inv2 _ runs _ => ?_)
  cases runs
  have here2 := here1.rely rely2
  have mine : s2.committer = some process := here2.isCommitter.mpr rfl
  have filled2 := filled.rely here1 member rely2
  have wrote := filled2.writeBack
  have step : LStep geometry process s2 (s2.writeBack target) := by
    refine .writeBack target ((here2.holds target).mpr member) mine ?_ ?_
    · rw [wrote.disk]
      exact good
    · intro other outside
      rw [wrote.disk, filled2.disk]
      exact quiet other outside
  exact ⟨step, next _ (step.inv inv2) here2.writeBack wrote⟩

end Overwrite

/-! ## Filling the log -/

section Commit

theorem range_step {item tail count : Nat} {items : List Nat}
    (same : item :: items = List.range' tail (count - tail)) :
    item = tail ∧ tail < count ∧ items = List.range' (tail + 1) (count - (tail + 1)) := by
  have inside : tail < count := by
    by_contra outside
    rw [Nat.sub_eq_zero_of_le (Nat.le_of_not_lt outside)] at same
    cases same
  have shape : count - tail = (count - (tail + 1)) + 1 := by omega
  rw [shape, List.range'_succ] at same
  cases same
  exact ⟨rfl, inside, rfl⟩

theorem Logged.wrote {contents : Block} (logged : Logged geometry tail state)
    (good : GoodHeader geometry state.lh) (inside : tail < state.lh.length)
    (same : contents = state.logical (state.lh.getD tail 0))
    (wrote : Wrote (geometry.slot tail) contents state now) : Logged geometry (tail + 1) now where
  ready := wrote.ready.trans logged.ready
  committing := wrote.committing.trans logged.committing
  empty := by
    rw [wrote.disk, update_of_ne (slot_ne_start tail).symm]
    exact logged.empty
  idle := wrote.installing.trans logged.idle
  pins := by
    intro block member
    exact (wrote.pins block).mpr (logged.pins block (wrote.lh ▸ member))
  copied := by
    intro index before within
    rw [wrote.lh] at within ⊢
    have home : state.lh.getD index 0 ≠ geometry.slot tail := by
      intro equal
      exact good.outside _ (getD_mem within) (equal ▸ slot_inArea good inside)
    rw [wrote.logical _ home (logged.tracked within), wrote.disk]
    by_cases last : index = tail
    · subst last
      rw [update_self, same]
    · rw [update_of_ne (fun equal => last (slot_inj equal))]
      exact logged.copied index (by omega) within

/-- The two loops over the header.  What is left of the loop counter determines
how far the stage has come. -/
theorem wp_headerLoop {stage : Nat -> State -> Prop} {body : Nat -> LogProg Unit}
    (keeps : ∀ tail state now, stage tail state -> SameView state now -> stage tail now)
    (visit : ∀ tail state, Inv geometry base state ->
      Commits process state -> tail < state.lh.length ->
      stage tail state ->
      Wp geometry base pre post process (body tail)
        (fun _ now => Commits process now ∧ now.lh = state.lh ∧
          stage (tail + 1) now) state)
    (here : Commits process state) (start : stage 0 state) :
    Wp geometry base pre post process ((Prog.read (fun _ state => state.lh.length)).bind
        (fun n => Prog.forEach body (List.range n)))
      (fun _ now => Commits process now ∧ now.lh = state.lh ∧
        stage state.lh.length now) state := by
  refine wp_read (fun s1 rely1 inv1 _ _ => ?_)
  have view1 : SameView state s1 := here.view rely1
  rw [view1.lh]
  let left (items : List Nat) (s : State) : Prop :=
    ∃ tail, tail ≤ state.lh.length ∧ items = List.range' tail (state.lh.length - tail) ∧
      Commits process s ∧ s.lh = state.lh ∧ stage tail s
  have stable : ∀ items s now, Rely process s now -> left items s -> left items now := by
    rintro items s now rely ⟨tail, within, shape, own, same, done⟩
    have view : SameView s now := own.view rely
    exact ⟨tail, within, shape, own.rely rely, view.lh.trans same, keeps tail s now done view⟩
  have begins : left (List.range state.lh.length) s1 :=
    ⟨0, Nat.zero_le _, by simp [List.range_eq_range'], here.rely rely1, view1.lh,
      keeps 0 state s1 start view1⟩
  refine wp_mono (wp_forEach coherent left stable ?_ inv1 begins) ?_
  · rintro item items s inv ⟨tail, _, shape, own, same, done⟩
    rcases range_step shape with ⟨rfl, inside, rest⟩
    refine wp_mono (visit item s inv own (same ▸ inside) done) ?_
    rintro _ now _ ⟨own', same', done'⟩
    exact ⟨item + 1, inside, rest, own', same'.trans same, done'⟩
  · rintro _ now _ ⟨tail, within, shape, own, same, done⟩
    have count := congrArg List.length shape
    simp only [length_nil, List.length_range'] at count
    have last : tail = state.lh.length := by omega
    exact ⟨own, same, last ▸ done⟩

/-- The end of both loop bodies. -/
theorem wp_brelse_both {stage : State -> Prop} {held lh : List Nat} {first second : Nat}
    (keeps : ∀ state now, stage state -> SameView state now -> stage now)
    (here : Owns process false false true held [] state) (nodup : held.Nodup)
    (member : first ∈ held) (left : held.erase first = [second]) (same : state.lh = lh)
    (done : stage state) :
    Wp geometry base pre post process ((brelse first).bind (fun _ => (brelse second).bind Prog.ret))
      (fun _ now => Commits process now ∧ now.lh = lh ∧
        stage now) state := by
  refine wp_brelse here nodup member (by simp) (fun s1 inv1 own1 carried1 => ?_)
  rw [left] at own1
  refine wp_brelse own1 (by simp) (by simp) (by simp)
    (fun s2 inv2 own2 carried2 => fun s3 rely3 _ => ?_)
  rw [erase_cons_head] at own2
  have view3 := ((carried1.trans carried2).view rfl).trans (own2.view rely3)
  exact ⟨own2.rely rely3, view3.lh.trans same, keeps state s3 done view3⟩

/-- The beginning of both loop bodies. -/
theorem wp_bread_both {rest : Nat -> LogProg Unit} {goal : Unit -> State -> Prop}
    (own : Commits process state) (inside : tail < state.lh.length)
    (next : ∀ now, Inv geometry base now ->
      Owns process false false true [state.lh.getD tail 0, geometry.slot tail] [] now ->
      SameView state now -> geometry.slot tail ≠ state.lh.getD tail 0 ->
      Wp geometry base pre post process (rest (state.lh.getD tail 0)) goal now) :
    Wp geometry base pre post process ((bread (geometry.slot tail)).bind fun _ =>
      (Prog.read fun _ state => state.lh.getD tail 0).bind fun home =>
        (bread home).bind fun _ => rest home) goal state := by
  refine wp_bread own (fun s1 inv1 own1 carried1 => ?_)
  refine wp_read (fun s2 rely2 inv2 _ _ => ?_)
  have view2 := (carried1.view rfl).trans (own1.view rely2)
  have good := inv2.lh_good
  rw [view2.lh] at good ⊢
  have different : geometry.slot tail ≠ state.lh.getD tail 0 :=
    fun equal => good.outside _ (getD_mem inside) (equal ▸ slot_inArea good inside)
  refine wp_bread (own1.rely rely2) (fun s3 inv3 own3 carried3 => ?_)
  exact next s3 inv3 own3 (view2.trans (carried3.view rfl)) different

theorem writeLog_spec (here : Commits process state) (logged : Logged geometry 0 state) :
    Wp geometry base pre post process (writeLog geometry)
      (fun _ now => Commits process now ∧ now.lh = state.lh ∧
        Logged geometry state.lh.length now) state := by
  refine wp_headerLoop (fun _ _ _ => Logged.sameView) ?_ here logged
  intro item state _ own inside done
  rw [← bind_ret (_ >>= _)]
  simp only [bind_eq, bind_assoc]
  refine wp_bread_both own inside (fun s3 inv3 own3 view3 different => ?_)
  have good := inv3.lh_good
  rw [view3.lh] at good
  have area : geometry.InArea (geometry.slot item) := slot_inArea good inside
  have done3 := done.sameView view3
  refine wp_overwrite (s3.logical (s3.lh.getD item 0)) own3 (by simp)
    (fun s4 _ view4 _ => ?_) (fun _ away => (away area).elim) ?_ ?_
    (fun s4 inv4 own4 wrote => ?_)
  · rw [← view3.lh]
    exact view4.logical _ (done3.tracked (view3.lh ▸ inside))
  · rw [update_of_ne (slot_ne_start item).symm]
    exact inv3.head_good
  · intro other away
    have empty : header (update s3.disk (geometry.slot item)
        (s3.logical (s3.lh.getD item 0)) geometry.start) = [] := by
      rw [update_of_ne (slot_ne_start item).symm]
      exact done3.empty
    have elsewhere : other ≠ geometry.slot item := fun equal => away (equal ▸ area)
    rw [recovered_of_empty empty, recovered_of_empty done3.empty, update_of_ne elsewhere]
  have done4 : Logged geometry (item + 1) s4 :=
    done3.wrote inv3.lh_good (view3.lh ▸ inside) rfl wrote
  exact wp_brelse_both (fun _ _ => Logged.sameView) own4 (by simpa using different.symm)
    (by simp) (erase_cons_head ..) (wrote.lh.trans view3.lh) done4

/-! ## Writing the header -/

theorem writeHead_spec {goal : State -> Prop} (here : Commits process state)
    (write : ∀ now, Inv geometry base now ->
      Owns process false false true [geometry.start] [geometry.start] now ->
      Filled geometry.start (setHeader (state.logical geometry.start) state.lh) state now ->
      LStep geometry process now (now.writeHeadBack geometry))
    (done : ∀ filled now, Inv geometry base filled -> filled.committer = some process ->
      Filled geometry.start (setHeader (state.logical geometry.start) state.lh) state filled ->
      SameView (filled.writeHeadBack geometry) now ->
      Commits process now -> goal now) :
    Wp geometry base pre post process (writeHead geometry) (fun _ now => goal now) state := by
  rw [← bind_ret (writeHead geometry)]
  unfold writeHead
  simp only [bind_eq, bind_assoc]
  refine wp_bread here (fun s1 inv1 own1 carried1 => ?_)
  have view1 := carried1.view rfl
  refine wp_fill (setHeader (state.logical geometry.start) state.lh) own1 (by simp)
    (fun s2 _ view2 _ => ?_) (fun _ away => (away start_inArea).elim)
    (fun s2 inv2 own2 filled2 => ?_)
  · have view := view1.trans view2
    have tracked : state.Tracked geometry.start :=
      Or.inl (fun leaked => inv1.leaked_outside _ (view1.leaked ▸ leaked) start_inArea)
    rw [view.logical _ tracked, view.lh]
  refine wp_await (fun s3 rely3 inv3 _ runs _ => ?_)
  cases runs
  have own3 := own2.rely rely3
  have filled3 := (filled2.rely own2 (by simp) rely3).after_view view1
  have step := write s3 inv3 own3 filled3
  have own4 : Owns process false false true [geometry.start] [] (s3.writeHeadBack geometry) := by
    unfold State.writeHeadBack
    split
    · exact own3.writeBack
    · exact { own3.writeBack with }
  refine ⟨step, wp_brelse own4 (by simp) (by simp) (by simp)
    (fun s5 _ own5 carried5 => fun s6 rely6 _ => ?_)⟩
  rw [erase_cons_head] at own5
  have view6 := (carried5.view rfl).trans (own5.view rely6)
  exact done s3 s6 inv3 (own3.isCommitter.mpr rfl) filled3 view6 (own5.rely rely6)

theorem start_ne (outside : ¬ geometry.InArea block) : block ≠ geometry.start :=
  fun same => outside (same ▸ start_inArea)

/-- With the whole log written, a recovery from the new header would install
the logical contents. -/
theorem Logged.full {contents : Block} (logged : Logged geometry state.lh.length state)
    (inv : Inv geometry base now) (mine : now.committer = some process)
    (marked : ∀ block, now.dirty block = some process -> block = geometry.start)
    (filled : Filled geometry.start contents state now)
    (head : header contents = state.lh) {other : Nat} (outside : ¬ geometry.InArea other)
    (sound : other ∉ now.leaked) :
    recovered geometry (now.writeBack geometry.start).disk other = now.logical other := by
  have newHead : header ((now.writeBack geometry.start).disk geometry.start) = state.lh := by
    rw [filled.writeBack.disk, update_self, head]
  by_cases member : other ∈ state.lh
  · have inside := idxOf_lt_length_of_mem member
    rw [recovered_of_logged newHead member, filled.writeBack.disk,
      update_of_ne (slot_ne_start _), logged.copied _ inside inside,
      filled.logical other (start_ne outside) (Or.inr (logged.pins other member))]
    simp [List.getD, inside]
  · have unpinned : .log ∉ (now.buf other).holders := by
      intro pinned
      exact member (filled.lh ▸ inv.settled_of_committer (by simp [mine]) other pinned)
    have undirty : now.dirty other = none :=
      inv.clean_of_committer mine (fun dirty => start_ne outside (marked other dirty))
    rw [recovered_of_other newHead member, filled.writeBack.disk,
      update_of_ne (start_ne outside), inv.logical_of_clean sound undirty unpinned,
      filled.disk]

/-- The header write of `commit` that reaches the commit point. -/
theorem writeHead_commit_spec (here : Commits process state)
    (nonempty : state.lh ≠ []) (logged : Logged geometry state.lh.length state) :
    Wp geometry base pre post process (writeHead geometry) (fun _ now => Commits process now ∧
        Installed geometry false 0 now) state := by
  have head := header_setHeader (state.logical geometry.start) state.lh
  refine writeHead_spec here ?_ ?_
  · intro now inv own filled
    have mine : now.committer = some process := own.isCommitter.mpr rfl
    have marked : ∀ block, now.dirty block = some process -> block = geometry.start :=
      fun block dirty => mem_singleton.mp ((own.marked block).mp dirty)
    refine .commitPoint ((own.holds _).mpr (by simp)) mine
      (filled.ready.trans logged.ready) (filled.lh ▸ nonempty) ?_
      (fun other outside sound => logged.full inv mine marked filled head outside sound)
    rw [filled.writeBack.disk, update_self, head, filled.lh]
  · intro filled now inv mine same view own
    have wrote := same.writeBack
    have shape : filled.writeHeadBack geometry = { filled.writeBack geometry.start with
        installing := true, stable := filled.history.length, durable := filled.logical } := by
      simp only [State.writeHeadBack, if_neg (same.lh ▸ nonempty : filled.lh ≠ [])]
    have good := inv.lh_good
    rw [same.lh] at good
    rw [shape] at view
    have lh : now.lh = state.lh := view.lh.trans wrote.lh
    refine ⟨own, ?_, ?_, ?_, view.installing,
      fun _ impossible => (Nat.not_lt_zero _ impossible).elim, ?_, ?_⟩
    · exact (view.ready.trans wrote.ready).trans logged.ready
    · exact (view.committing.trans wrote.committing).trans logged.committing
    · rw [view.disk, wrote.disk, update_self, head, lh]
    · intro block
      rw [view.pins, lh, drop_zero]
      refine ⟨fun pinned => ⟨rfl, ?_⟩, fun member => ?_⟩
      · exact same.lh ▸ inv.settled_of_committer (by simp [mine]) block pinned
      · exact (inv.buffer block).logged_pinned (same.installing.trans logged.idle)
          (same.lh ▸ member.2)
    · intro _ index _ inside
      rw [lh] at inside ⊢
      have outside := good.outside _ (getD_mem inside)
      have tracked := logged.tracked inside
      rw [view.disk, wrote.disk, update_of_ne (slot_ne_start index),
        logged.copied index inside inside, view.logical _ (wrote.tracked tracked)]
      exact wrote.logical _ (start_ne outside) tracked

/-- The header write that empties the log. -/
theorem writeHead_clear_spec (here : Commits process state)
    (cleared : Cleared geometry recovering state) :
    Wp geometry base pre post process (writeHead geometry) (fun _ now => Commits process now ∧
        Cleared geometry recovering now ∧ header (now.disk geometry.start) = []) state := by
  have head := header_setHeader (state.logical geometry.start) state.lh
  rw [cleared.lh] at head
  have newHead : ∀ now, Filled geometry.start
      (setHeader (state.logical geometry.start) state.lh) state now ->
      header ((now.writeBack geometry.start).disk geometry.start) = [] := by
    intro now filled
    rw [filled.writeBack.disk, update_self, cleared.lh, head]
  have shape : ∀ now, Filled geometry.start
      (setHeader (state.logical geometry.start) state.lh) state now ->
      now.writeHeadBack geometry = now.writeBack geometry.start := by
    intro now filled
    simp only [State.writeHeadBack, if_pos (filled.lh.trans cleared.lh)]
  refine writeHead_spec here ?_ ?_
  · intro now inv own filled
    have mine : now.committer = some process := own.isCommitter.mpr rfl
    rw [shape now filled]
    refine .writeBack geometry.start ((own.holds _).mpr (by simp)) mine ?_ ?_
    · rw [newHead now filled]
      exact goodHeader_nil
    · intro other outside
      rw [recovered_of_empty (newHead now filled), filled.writeBack.disk,
        update_of_ne (start_ne outside), filled.disk, cleared.settled other outside]
  · intro filled now inv mine same view own
    rw [shape filled same] at view
    have wrote := same.writeBack
    have empty : header (now.disk geometry.start) = [] := by
      rw [view.disk]
      exact newHead filled same
    refine ⟨own, ⟨?_, ?_, ?_, ?_, ?_, ?_⟩, empty⟩
    · exact (view.ready.trans wrote.ready).trans cleared.ready
    · exact (view.committing.trans wrote.committing).trans cleared.committing
    · exact (view.lh.trans wrote.lh).trans cleared.lh
    · exact (view.installing.trans wrote.installing).trans cleared.idle
    · intro block pinned
      exact cleared.unpinned block ((wrote.pins block).mp ((view.pins block).mp pinned))
    · exact fun block _ => recovered_of_empty empty block

/-! ## Installing the home blocks -/

theorem drop_getD (inside : tail < lh.length) :
    lh.drop tail = lh.getD tail 0 :: lh.drop (tail + 1) := by
  rw [drop_eq_getElem_cons inside]
  simp [List.getD, inside]

theorem mem_drop_step (nodup : lh.Nodup) (inside : tail < lh.length) (block : Nat) :
    block ∈ lh.drop (tail + 1) <-> block ≠ lh.getD tail 0 ∧ block ∈ lh.drop tail := by
  have fresh : lh.getD tail 0 ∉ lh.drop (tail + 1) := by
    have tailNodup : (lh.drop tail).Nodup := nodup.sublist (drop_sublist tail lh)
    rw [drop_getD inside] at tailNodup
    exact (nodup_cons.mp tailNodup).1
  rw [drop_getD inside, mem_cons]
  constructor
  · exact fun member => ⟨fun same => fresh (same ▸ member), Or.inr member⟩
  · rintro ⟨different, same | member⟩
    · exact (different same).elim
    · exact member

theorem Installed.advance (installed : Installed geometry recovering tail state)
    (good : GoodHeader geometry state.lh) (inside : tail < state.lh.length)
    (ready : now.ready = state.ready) (committing : now.committing = state.committing)
    (lh : now.lh = state.lh) (installing : now.installing = state.installing)
    (disk : now.disk = update state.disk (state.lh.getD tail 0)
      (state.disk (geometry.slot tail))) (pins : ∀ block, .log ∈ (now.buf block).holders <->
      recovering = false ∧ block ∈ state.lh.drop (tail + 1))
    (logical : recovering = false -> ∀ block, block ∈ state.lh.drop (tail + 1) ->
      now.logical block = state.logical block) :
    Installed geometry recovering (tail + 1) now := by
  have outside := good.outside _ (getD_mem inside)
  have slots : ∀ index, index < state.lh.length ->
      now.disk (geometry.slot index) = state.disk (geometry.slot index) := by
    intro index within
    have different : geometry.slot index ≠ state.lh.getD tail 0 :=
      fun same => outside (same ▸ slot_inArea good within)
    rw [disk, update_of_ne different]
  refine ⟨ready.trans installed.ready, committing.trans installed.committing, ?_,
    installing.trans installed.installing, ?_, ?_, ?_⟩
  · rw [disk, update_of_ne (start_ne (good.outside _ (getD_mem inside))).symm, lh]
    exact installed.head
  · intro index before within
    rw [lh] at within ⊢
    rw [slots index within, disk, update_apply]
    split
    · next same =>
        -- Block numbers are not repeated, so this is the block just written.
        have position : index = tail := by
          simp only [List.getD, within, inside, getElem?_pos, Option.getD_some] at same
          exact (List.Nodup.getElem_inj_iff good.nodup).mp same
        rw [position]
    · next different =>
        have earlier : index ≠ tail := fun same => different (same ▸ rfl)
        exact installed.home index (by omega) within
  · rw [lh]
    exact pins
  · intro normal index later within
    rw [lh] at within ⊢
    rw [slots index within, logical normal _ (getD_mem_drop later within)]
    exact installed.same normal index (Nat.le_of_succ_le later) within

/-- Installing a block does not change what a recovery would give. -/
theorem recovered_install {home : Nat} {contents : Block} (head : header (disk geometry.start) = lh)
    (good : GoodHeader geometry lh) (member : home ∈ lh) (other : Nat) :
    recovered geometry (update disk home contents) other =
      recovered geometry disk other := by
  have outside := good.outside home member
  have newHead : header (update disk home contents geometry.start) = lh := by
    rw [update_of_ne (start_ne outside).symm, head]
  by_cases logged : other ∈ lh
  · have area := slot_inArea good (idxOf_lt_length_of_mem logged)
    have different : geometry.slot (lh.idxOf other) ≠ home :=
      fun equal => outside (equal ▸ area)
    rw [recovered_of_logged newHead logged, recovered_of_logged head logged, update_of_ne different]
  · have different : other ≠ home := fun equal => logged (equal ▸ member)
    rw [recovered_of_other newHead logged, recovered_of_other head logged, update_of_ne different]

/-- Drop the pin of an installed block. -/
theorem wp_bunpin {held : List Nat} {rest : Unit -> LogProg Unit} {goal : Unit -> State -> Prop}
    (here : Owns process false false true held [] state) (installing : state.installing = true)
    (pinned : .log ∈ (state.buf block).holders) (written : state.logical block = state.disk block)
    (next : ∀ now, Inv geometry base now -> Owns process false false true held [] now ->
      now.disk = state.disk -> now.lh = state.lh -> now.installing = state.installing ->
      now.ready = state.ready -> now.committing = state.committing ->
      (∀ other, .log ∈ (now.buf other).holders <->
        other ≠ block ∧ .log ∈ (state.buf other).holders) ->
      (∀ other, state.Tracked other -> now.logical other = state.logical other) ->
      Wp geometry base pre post process (rest ()) goal now) :
    Wp geometry base pre post process ((bunpin block).bind rest) goal state := by
  refine wp_modify (fun s1 rely1 inv1 _ runs => ?_)
  cases runs
  have here1 := here.rely rely1
  have view1 : SameView state s1 := here.view rely1
  have step : LStep geometry process s1 (s1.bunref .log block) := by
    refine .unpin block (here1.isCommitter.mpr rfl) (view1.installing.trans installing)
      ((view1.pins block).mpr pinned) ?_
    rw [view1.logical block (Or.inr pinned), view1.disk, written]
  have here2 : Owns process false false true held [] (s1.bunref .log block) := by
    refine here1.setBuf ?_ (fun _ _ => rfl) (here1.holds block) (fun _ _ => Iff.rfl)
    rw [count_erase_of_ne (by simp)]
    exact here1.refCount block
  refine ⟨step, next _ (step.inv inv1) here2 view1.disk view1.lh view1.installing view1.ready
    view1.committing ?_ ?_⟩
  · intro other
    rw [← view1.pins other]
    by_cases same : other = block
    · subst same
      have once := (inv1.buffer other).pin_once
      simp only [State.bunref, State.setBuf, update_self]
      rw [← count_pos_iff, count_erase_self]
      constructor
      · omega
      · exact fun impossible => (impossible.1 rfl).elim
    · simp [State.bunref, State.setBuf, same]
  · intro other tracked
    rw [← view1.logical other tracked]
    unfold State.bunref
    rw [logical_setBuf]
    split
    · next same => exact same ▸ rfl
    · rfl

theorem installTrans_spec (here : Commits process state)
    (installed : Installed geometry recovering 0 state) :
    Wp geometry base pre post process (installTrans geometry recovering)
      (fun _ now => Commits process now ∧ now.lh = state.lh ∧
        Installed geometry recovering state.lh.length now) state := by
  refine wp_headerLoop (fun _ _ _ => Installed.sameView) ?_ here installed
  intro item state _ own inside done
  rw [← bind_ret (_ >>= _)]
  simp only [bind_eq, bind_assoc]
  refine wp_bread_both own inside (fun s3 inv3 own3 view3 different => ?_)
  have good := inv3.lh_good
  rw [view3.lh] at good
  have area : geometry.InArea (geometry.slot item) := slot_inArea good inside
  have done3 := done.sameView view3
  refine wp_overwrite (s3.disk (geometry.slot item)) own3 (by simp)
    (fun s4 inv4 view4 own4 => ?_) ?_ ?_ ?_
    (fun s4 inv4 own4 wrote => ?_)
  · -- The copy in the log is neither dirty nor pinned, so it is what the disk holds.
    have unpinned : .log ∉ (s4.buf (geometry.slot item)).holders := by
      intro pinned
      have member := ((done3.sameView view4).pins _).mp pinned
      rw [(view3.trans view4).lh] at member
      exact good.outside _ (mem_of_mem_drop member.2) area
    have undirty : s4.dirty (geometry.slot item) = none :=
      inv4.clean_of_committer (own4.isCommitter.mpr rfl)
        (fun dirty => by simpa using (own4.marked _).mp dirty)
    have sound : geometry.slot item ∉ s4.leaked :=
      fun leaked => inv4.leaked_outside _ leaked area
    rw [inv4.logical_of_clean sound undirty unpinned, view4.disk]
  · intro ready _
    have normal : recovering = false := by
      have := done3.ready
      rw [ready] at this
      simpa using this.symm
    rw [← done3.same normal item (Nat.le_refl item) (view3.lh ▸ inside), view3.lh]
  · rw [update_of_ne (start_ne (good.outside _ (getD_mem inside))).symm]
    exact inv3.head_good
  · exact fun other _ => recovered_install done3.head inv3.lh_good
      (by rw [view3.lh]; exact getD_mem inside) other
  have good3 := inv3.lh_good
  have inside3 : item < s3.lh.length := view3.lh ▸ inside
  have disk4 : s4.disk = update s3.disk (s3.lh.getD item 0) (s3.disk (geometry.slot item)) := by
    rw [wrote.disk, view3.lh]
  have nodup : [state.lh.getD item 0, geometry.slot item].Nodup := by simpa using different.symm
  have left : [state.lh.getD item 0, geometry.slot item].erase (geometry.slot item) =
      [state.lh.getD item 0] := by
    rw [erase_cons_tail (by simpa using different.symm), erase_cons_head]
  cases recovering with
  | true =>
    have done4 : Installed geometry true (item + 1) s4 := by
      refine done3.advance good3 inside3 wrote.ready wrote.committing wrote.lh
        wrote.installing disk4 (fun block => ?_) (fun normal => by cases normal)
      rw [wrote.pins, done3.pins]
      simp
    exact wp_brelse_both (fun _ _ => Installed.sameView) own4 nodup (by simp) left
      (wrote.lh.trans view3.lh) done4
  | false =>
    have pinned : .log ∈ (s4.buf (state.lh.getD item 0)).holders := by
      rw [wrote.pins, done3.pins, view3.lh]
      refine ⟨rfl, ?_⟩
      rw [drop_getD inside]
      exact mem_cons_self
    have written : s4.logical (state.lh.getD item 0) = s4.disk (state.lh.getD item 0) := by
      rw [wrote.written, wrote.disk, update_self]
    simp only [if_pos, bind_assoc]
    refine wp_bunpin own4 (wrote.installing.trans done3.installing) pinned written
      (fun s5 inv5 own5 disk5 lh5 installing5 ready5 committing5 pins5 logical5 => ?_)
    have done5 : Installed geometry false (item + 1) s5 := by
      refine done3.advance good3 inside3 (ready5.trans wrote.ready)
        (committing5.trans wrote.committing) (lh5.trans wrote.lh)
        (installing5.trans wrote.installing) (disk5.trans disk4) (fun block => ?_)
        (fun _ block later => ?_)
      · rw [pins5, wrote.pins, done3.pins, mem_drop_step good3.nodup inside3, view3.lh]
        exact and_left_comm
      · have still := (mem_drop_step good3.nodup inside3 block).mp later
        have tracked : s3.Tracked block := Or.inr ((done3.pins block).mpr ⟨rfl, still.2⟩)
        rw [logical5 block (wrote.tracked tracked)]
        exact wrote.logical block (view3.lh ▸ still.1) tracked
    exact wp_brelse_both (fun _ _ => Installed.sameView) own5 nodup (by simp) left
      (lh5.trans (wrote.lh.trans view3.lh)) done5

/-- After the last block, a recovery would change nothing. -/
theorem Installed.settled (installed : Installed geometry recovering state.lh.length state)
    (block : Nat) : recovered geometry state.disk block = state.disk block := by
  by_cases member : block ∈ state.lh
  · have inside := idxOf_lt_length_of_mem member
    rw [recovered_of_logged installed.head member, ← installed.home _ inside inside]
    simp [List.getD, inside]
  · exact recovered_of_other installed.head member

theorem wp_clearHead {rest : Unit -> LogProg Unit} {goal : Unit -> State -> Prop}
    (here : Commits process state)
    (installed : Installed geometry recovering state.lh.length state)
    (next : ∀ now, Inv geometry base now ->
      Commits process now -> Cleared geometry recovering now ->
      Wp geometry base pre post process (rest ()) goal now) :
    Wp geometry base pre post process (clearHead.bind rest) goal state := by
  refine wp_modify (fun s1 rely1 inv1 _ runs => ?_)
  cases runs
  have here1 := here.rely rely1
  have view1 : SameView state s1 := here.view rely1
  have installed1 := installed.sameView view1
  rw [← view1.lh] at installed1
  have unpinned : ∀ block, .log ∉ (s1.buf block).holders := by
    intro block pinned
    have member := ((installed1.pins block).mp pinned).2
    simp at member
  have step : LStep geometry process s1 { s1 with lh := [], installing := false } :=
    .clearHead (here1.isCommitter.mpr rfl) unpinned
  exact ⟨step, next _ (step.inv inv1) { here1 with }
    ⟨installed1.ready, installed1.committing, rfl, rfl, unpinned,
      fun block _ => installed1.settled block⟩⟩

theorem install_clear_spec (inv : Inv geometry base state) (here : Commits process state)
    (installed : Installed geometry recovering 0 state) :
    Wp geometry base pre post process ((installTrans geometry recovering).bind
        (fun _ => clearHead.bind (fun _ => writeHead geometry)))
      (fun _ now => Commits process now ∧
        Cleared geometry recovering now ∧ header (now.disk geometry.start) = []) state := by
  refine wp_bind coherent inv (wp_mono (installTrans_spec here installed) ?_)
  rintro _ s1 inv1 ⟨own1, same1, done1⟩
  rw [← same1] at done1
  exact wp_clearHead own1 done1 (fun _ _ own2 cleared => writeHead_clear_spec own2 cleared)

/-- `commit`, from an idle log with an empty header to an empty header. -/
theorem commit_spec (here : Commits process state)
    (ready : state.ready = true) (committing : state.committing = true)
    (idle : state.installing = false) (empty : header (state.disk geometry.start) = []) :
    Wp geometry base pre post process (commit geometry)
      (fun _ now => Commits process now ∧ now.ready = true ∧
        now.installing = false ∧ header (now.disk geometry.start) = [] ∧ now.lh = []) state := by
  unfold commit
  refine wp_read (fun s1 rely1 inv1 _ _ => ?_)
  have here1 := here.rely rely1
  have view1 : SameView state s1 := here.view rely1
  have idle1 : s1.installing = false := view1.installing.trans idle
  have logged1 : Logged geometry 0 s1 :=
    ⟨view1.ready.trans ready, view1.committing.trans committing, view1.disk ▸ empty, idle1,
      fun block => (inv1.buffer block).logged_pinned idle1,
      fun _ impossible => (Nat.not_lt_zero _ impossible).elim⟩
  split
  · next some =>
      refine wp_bind coherent inv1 (wp_mono (writeLog_spec here1 logged1) ?_)
      rintro _ s2 inv2 ⟨own2, same2, logged2⟩
      rw [← same2] at logged2 some
      refine wp_bind coherent inv2
        (wp_mono (writeHead_commit_spec own2 (length_pos_iff.mp some) logged2) ?_)
      rintro _ s3 inv3 ⟨own3, installed3⟩
      refine wp_mono (install_clear_spec inv3 own3 installed3) ?_
      rintro _ s4 _ ⟨own4, cleared4, empty4⟩
      exact ⟨own4, cleared4.ready, cleared4.idle, empty4, cleared4.lh⟩
  · next none =>
      refine fun s2 rely2 _ => ?_
      have view2 : SameView s1 s2 := here1.view rely2
      have logged2 := logged1.sameView view2
      refine ⟨here1.rely rely2, logged2.ready, logged2.idle, logged2.empty, ?_⟩
      rw [view2.lh]
      exact length_eq_zero_iff.mp (Nat.eq_zero_of_not_pos none)

/-! ## Recovery -/

/-- After a reset, before the header has been read. -/
structure Booting (state : State) : Prop where
  ready : state.ready = false
  committing : state.committing = false
  installing : state.installing = true
  unpinned : forall block, .log ∉ (state.buf block).holders

theorem Booting.sameView (booting : Booting state) (view : SameView state now) : Booting now where
  ready := view.ready.trans booting.ready
  committing := view.committing.trans booting.committing
  installing := view.installing.trans booting.installing
  unpinned := fun block pinned => booting.unpinned block ((view.pins block).mp pinned)

theorem readHead_spec (here : Commits process state) (booting : Booting state) :
    Wp geometry base pre post process (readHead geometry) (fun _ now => Commits process now ∧
        Installed geometry true 0 now) state := by
  rw [← bind_ret (readHead geometry)]
  unfold readHead
  simp only [bind_eq, bind_assoc]
  refine wp_bread here (fun s1 inv1 own1 carried1 => ?_)
  refine wp_modify (fun s2 rely2 inv2 _ runs => ?_)
  cases runs
  have own2 := own1.rely rely2
  have mine : s2.committer = some process := own2.isCommitter.mpr rfl
  have booting2 := booting.sameView ((carried1.view rfl).trans (own1.view rely2))
  have same : s2.logical geometry.start = s2.disk geometry.start :=
    inv2.logical_of_clean (fun leaked => inv2.leaked_outside _ leaked start_inArea)
      (inv2.clean_of_committer mine (fun dirty => by simpa using (own2.marked _).mp dirty))
      (booting2.unpinned _)
  have step : LStep geometry process s2
      { s2 with lh := header (s2.logical geometry.start) } :=
    .readHead mine booting2.ready booting2.installing same booting2.unpinned
  have installed : Installed geometry true 0
      { s2 with lh := header (s2.logical geometry.start) } := by
    refine ⟨booting2.ready, booting2.committing, congrArg header same.symm,
      booting2.installing, fun _ impossible => (Nat.not_lt_zero _ impossible).elim, ?_, ?_⟩
    · intro block
      simp [booting2.unpinned block]
    · exact fun impossible => by cases impossible
  refine ⟨step, wp_brelse { own2 with } (by simp) (by simp) (by simp)
    (fun s3 _ own3 carried3 => fun s4 rely4 _ => ?_)⟩
  rw [erase_cons_head] at own3
  exact ⟨own3.rely rely4, installed.sameView ((carried3.view rfl).trans (own3.view rely4))⟩

theorem recoverFromLog_spec (inv : Inv geometry base state)
    (here : Commits process state) (booting : Booting state) :
    Wp geometry base pre post process (recoverFromLog geometry) (fun _ now => Commits process now ∧
        Cleared geometry true now ∧ header (now.disk geometry.start) = []) state := by
  refine wp_bind coherent inv (wp_mono (readHead_spec here booting) ?_)
  rintro _ s1 inv1 ⟨own1, installed1⟩
  exact install_clear_spec inv1 own1 installed1

end Commit

end Log
end Xv6
