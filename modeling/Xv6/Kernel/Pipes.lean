import Xv6.Kernel.Contracts

namespace Xv6
namespace Kernel

open Conc List Logic Prog View

/-!
# Pipes and other kernel activity

The functions of `pipe.c` under the pipe's lock, and the activity of system
calls that is only described by the locks it takes and the channels it uses.
Whoever removes bytes or closes the reading end wakes the writers before it
releases the lock.  The corresponding statement about readers has one exception,
the path of `pipewrite` that returns early.
-/

variable {H : Type} [DecidableEq H] {setting : Setting H} {α : Type} {goal : α -> State H -> Prop}
  {thread : Thread H} {view : View} {state now : State H} {slot : Slot} {base : Mode} {trap : Trap}
  {pi : Nat} {rest : Unit -> KProg H α} {n : Nat}

theorem below_proc_of_pipe (pi : Nat) (slot : Slot) : Below (.pipe pi) (.proc slot) := by
  intro low high same
  cases same

/-- What a `wakeup` on one of the channels of a pipe settles. -/
def Pipe.paid (pipe : Pipe) : Chan -> Pipe
  | .nread _ => { pipe with readersOwed := false }
  | .nwrite _ => { pipe with writersOwed := false }
  | _ => pipe

theorem wp_wakePipe {chan : Chan} (sees : Sees thread (view.push (.pipe pi)) state)
    (scans : view.Scans thread) (guards : guardOf chan = some (.pipe pi))
    (next : ∀ now, Inv now -> Sees thread (view.push (.pipe pi)) now ->
      Frame thread view.held state now -> now.pipe pi = (state.pipe pi).paid chan ->
      Verified setting thread (rest ()) goal now) :
    Verified setting thread ((wakeup chan).bind rest) goal state := by
  have mine : .pipe pi ∈ (view.push (.pipe pi)).held := mem_cons_self
  refine wp_wakeup sees (scans.push (below_proc_of_pipe pi)) ?_
    (fun before hart marks frame _ inv seen => ?_)
  · intro lock same
    cases guards.symm.trans same
    exact mine
  · cases chan with
    | nread | nwrite =>
      cases guards
      rcases seen with ⟨there, active, shown⟩
      have once := shown.once inv
      refine next _ inv ⟨there, active, by simpa [settled] using shown⟩ ?_ ?_
      · exact (frame.push.trans (Keeps.setPipe once)).trans Keeps.harts
      · rw [← frame.pipes pi mine]
        exact Function.update_self ..
    | _ => cases guards

/-- An update of a pipe under its lock. -/
theorem wp_pipeStep (change : Pipe -> Pipe) (sees : Sees thread (view.push (.pipe pi)) state)
    (step : PipeStep (state.pipe pi) (change (state.pipe pi)))
    (next : ∀ now, Inv now -> Sees thread (view.push (.pipe pi)) now ->
      Frame thread view.held state now -> now.pipe pi = change (state.pipe pi) ->
      Verified setting thread (rest ()) goal now) :
    Verified setting thread ((Prog.modify (fun _ now =>
      State.setPipe now pi (change (now.pipe pi)))).bind rest) goal state := by
  have mine : .pipe pi ∈ (view.push (.pipe pi)).held := mem_cons_self
  refine wp_do sees (fun s1 hart inv1 active shown frame1 => ?_)
  have same := frame1.pipes pi mine
  rw [← same] at step
  refine ⟨.pipe pi _ (shown.held ▸ mine) step, fun inv2 => ?_⟩
  refine next _ inv2 ⟨hart, active, shown⟩ ?_ ?_
  · exact frame1.push.trans (Keeps.setPipe (shown.once inv1))
  · rw [← same]
    exact Function.update_self ..

theorem wp_releasePipe (sees : Sees thread (view.push (.pipe pi)) state) (fit : view.Fit)
    (settled : (state.pipe pi).Settled)
    (next : Next setting contract thread view view.held state (rest ()) goal) :
    Verified setting thread ((release (.pipe pi)).bind rest) goal state := by
  have ready : Releasable thread (view.push (.pipe pi)) (.pipe pi) state := by
    refine Releasable.push fit (by simp) (fun slot same => by cases same) (fun any same => ?_)
    cases same
    exact settled
  refine wp_release sees rfl fit.dispatch ready (fun s1 inv1 sees1 frame1 => ?_)
  rw [pop_push fit] at sees1 frame1
  exact next s1 inv1 sees1 frame1

/-! ## Closing -/

theorem wp_closeEnd {writable : Bool} (sees : Sees thread (view.push (.pipe pi)) state)
    (scans : view.Scans thread) (settled : (state.pipe pi).Settled)
    (next : ∀ now, Inv now -> Sees thread (view.push (.pipe pi)) now ->
      Frame thread view.held state now -> (now.pipe pi).Settled ->
      Verified setting thread (rest ()) goal now) :
    Verified setting thread ((closeEnd pi writable).bind rest) goal state := by
  unfold closeEnd
  cases writable with
  | true =>
    simp only [bind_eq, bind_assoc]
    refine wp_pipeStep (fun pipe => { pipe with writeopen := false, readersOwed := true }) sees
      .closeWrite (fun s1 inv1 sees1 frame1 pipe1 => ?_)
    refine wp_wakePipe sees1 scans rfl (fun s2 inv2 sees2 frame2 pipe2 => ?_)
    refine next s2 inv2 sees2 (frame1.trans frame2) ?_
    rw [pipe2, pipe1]
    exact ⟨settled.1, fun owed => by cases owed⟩
  | false =>
    simp only [bind_eq, bind_assoc]
    refine wp_pipeStep (fun pipe => { pipe with readopen := false, writersOwed := true }) sees
      .closeRead (fun s1 inv1 sees1 frame1 pipe1 => ?_)
    refine wp_wakePipe sees1 scans rfl (fun s2 inv2 sees2 frame2 pipe2 => ?_)
    refine next s2 inv2 sees2 (frame1.trans frame2) ?_
    rw [pipe2, pipe1]
    exact ⟨rfl, settled.2⟩

theorem wp_pipeclose {writable : Bool} (sees : Plain slot base trap state)
    (next : Next setting contract (.proc slot) (View.plain (some slot) base trap) [] state
      (rest ()) goal) :
    Verified setting (.proc slot) ((pipeclose pi writable).bind rest) goal state := by
  have scans := scans_plain (H := H) slot base trap
  unfold pipeclose
  simp only [bind_eq, bind_assoc]
  refine wp_acquire sees rfl rfl (fun _ member => by cases member)
    (fun s1 inv1 sees1 frame1 taken => ?_)
  refine wp_closeEnd sees1 scans (taken.settled pi rfl) (fun s2 inv2 sees2 frame2 settled2 => ?_)
  refine wp_see sees2 (fun s3 inv3 sees3 frame3 => ?_)
  have settled3 : (s3.pipe pi).Settled := by
    rw [frame3.pipes pi mem_cons_self]
    exact settled2
  split
  · simp only [bind_assoc]
    refine wp_releasePipe sees3 scans.toFit settled3
      (fun s4 inv4 sees4 frame4 => ?_)
    refine wp_touch sees4 scans.toFit (fun _ member => by cases member) (by simp) (by simp)
      (by simp) (fun s5 inv5 sees5 frame5 => ?_)
    exact next s5 inv5 sees5
      ((((frame1.trans frame2).trans frame3.forget).trans frame4).trans frame5)
  · refine wp_releasePipe sees3 scans.toFit settled3
      (fun s4 inv4 sees4 frame4 => ?_)
    exact next s4 inv4 sees4 (((frame1.trans frame2).trans frame3.forget).trans frame4)

/-! ## Writing and reading -/

/-- The last statements of `pipewrite` and `piperead`. -/
theorem wp_leavePipe {value : Int} {goal : Int -> State H -> Prop}
    (sees : Sees (.proc slot) (View.inCall slot (.pipe pi)) state)
    (settled : (state.pipe pi).Settled)
    (holds : ∀ value now, Plain slot true .none now -> goal value now) :
    Verified setting (.proc slot) ((release (.pipe pi)).bind (fun _ => .ret value)) goal
      state := by
  refine wp_releasePipe sees (fit_plain _ _ _) settled (fun s1 inv1 sees1 frame1 => ?_)
  exact wp_value sees1 (fun s2 _ sees2 _ => holds value s2 sees2)

theorem writeLoop_verified {left : Nat} {unsaid : Bool}
    (sees : Sees (.proc slot) (View.inCall slot (.pipe pi)) state)
    (writing : (state.pipe pi).Writing unsaid) :
    Verified setting (.proc slot) (writeLoop slot pi left unsaid)
      (fun _ after => Plain slot true .none after) state := by
  have scans := scans_plain (H := H) slot true .none
  have mine : .pipe pi ∈ (View.inCall slot (.pipe pi)).held := mem_cons_self
  have again : ∀ left unsaid s, Sees (.proc slot) (View.inCall slot (.pipe pi)) s ->
      (s.pipe pi).Writing unsaid ->
      Verified setting (.proc slot) (Prog.invoke (.writeLoop slot pi left unsaid))
        (fun _ after => Plain slot true .none after) s := by
    intro left unsaid s seen paid
    refine wp_tailCall (fun now rely _ => ?_)
    rcases rely.sees _ seen with ⟨still, frame⟩
    refine ⟨⟨rfl, still, by rw [frame.pipes pi mine]; exact paid⟩, ?_⟩
    exact fun _ _ _ post _ further _ => (further.sees _ post).1
  unfold writeLoop
  split
  · simp only [bind_eq]
    refine wp_wakePipe sees scans rfl (fun s1 inv1 sees1 _ pipe1 => ?_)
    exact wp_leavePipe sees1 (by rw [pipe1]; exact writing.woken) (fun _ _ ends => ends)
  · simp only [bind_eq]
    refine wp_see sees (fun s1 inv1 seen1 frame1 => ?_)
    refine wp_see seen1 (fun s2 inv2 sees2 frame2 => ?_)
    have kept2 := (frame1.trans frame2).pipes pi mine
    split
    · -- The early return says that what it has stored is not announced.
      refine wp_onlyIf (fun stored => ?_) (fun none => ?_)
      · refine wp_pipeStep (fun pipe => { pipe with cut := true }) sees2 .cut
          (fun s3 inv3 sees3 _ pipe3 => ?_)
        refine wp_leavePipe sees3 ?_ (fun _ _ ends => ends)
        rw [pipe3, kept2]
        exact ⟨writing.1, fun _ => rfl⟩
      · refine wp_leavePipe sees2 ?_ (fun _ _ ends => ends)
        rw [kept2]
        exact ⟨writing.1, fun owed => (writing.2 owed).resolve_left (by simp [none])⟩
    · next goes =>
        refine wp_see sees2 (fun s3 inv3 sees3 frame3 => ?_)
        have kept3 := (frame2.trans frame3).pipes pi mine
        have opened : (s3.pipe pi).readopen = true := by
          rw [kept3]
          simp only [Bool.or_eq_true, Bool.not_eq_true', not_or, Bool.not_eq_false] at goes
          exact goes.1
        have writing3 : (s3.pipe pi).Writing unsaid := by
          rw [kept3, frame1.pipes pi mine]
          exact writing
        split
        · next filled =>
            refine wp_wakePipe sees3 scans rfl (fun s4 inv4 sees4 _ pipe4 => ?_)
            refine wp_sleep sees4 (below_proc_of_pipe pi slot) (by simp) ?_ ?_
              (fun s5 inv5 sees5 _ taken => again _ _ s5 sees5 ((taken.settled pi rfl).writing _))
            · intro any same
              cases same
              rw [pipe4]
              exact writing3.woken
            · refine ⟨rfl, ?_, ?_⟩
              · rw [pipe4]
                exact filled
              · rw [pipe4]
                exact opened
        · next room =>
            refine wp_any (fun copied => ?_)
            split
            · refine wp_pipeStep (fun pipe => { pipe with
                nwrite := uint32 (pipe.nwrite + 1), readersOwed := true })
                sees3 (.store (by simpa using room))
                (fun s4 inv4 sees4 _ pipe4 => ?_)
              refine again _ _ s4 sees4 ?_
              rw [pipe4]
              exact ⟨writing3.1, fun _ => Or.inl rfl⟩
            · refine wp_wakePipe sees3 scans rfl (fun s4 inv4 sees4 _ pipe4 => ?_)
              exact wp_leavePipe sees4 (by rw [pipe4]; exact writing3.woken) (fun _ _ ends => ends)

/-- Between the statements of `piperead`: the writers may still be to be woken. -/
structure Reading (slot : Slot) (pi : Nat) (state : State H) : Prop where
  sees : Sees (.proc slot) (View.inCall slot (.pipe pi)) state
  heard : (state.pipe pi).readersOwed = true -> (state.pipe pi).cut = true

omit [DecidableEq H] in
theorem Reading.rely (reading : Reading slot pi state) (rely : Rely (.proc slot) state now) :
    Reading slot pi now := by
  rcases rely.sees _ reading.sees with ⟨sees, frame⟩
  refine ⟨sees, ?_⟩
  rw [frame.pipes pi mem_cons_self]
  exact reading.heard

/-- The loop that copies bytes out. -/
theorem wp_readBytes {rest : Option Unit -> KProg H α} (inv : Inv state)
    (reading : Reading slot pi state)
    (next : ∀ value now, Inv now -> Reading slot pi now ->
      Verified setting (.proc slot) (rest value) goal now) :
    Verified setting (.proc slot) ((readBytes pi n).bind rest) goal state := by
  unfold readBytes
  refine wp_bind coherent inv (wp_mono (wp_firstSome coherent
    (fun _ now => Reading slot pi now) (fun _ now => Reading slot pi now)
    (fun _ _ _ rely reads => reads.rely rely) (fun _ _ _ rely reads => reads.rely rely)
    ?_ inv reading) ?_)
  · intro _ items before _ reads
    simp only [bind_eq]
    refine wp_see reads.sees (fun s1 inv1 sees1 frame1 => ?_)
    have same1 := frame1.pipes pi mem_cons_self
    split
    · exact wp_ret (fun s2 rely _ => Reading.rely ⟨sees1, by rw [same1]; exact reads.heard⟩ rely)
    · next data =>
        refine wp_pipeStep (fun pipe => { pipe with
          nread := uint32 (pipe.nread + 1), writersOwed := true })
          sees1 (.take (by simpa using data)) (fun s2 _ sees2 _ pipe2 => ?_)
        have reads2 : Reading slot pi s2 := by
          refine ⟨sees2, ?_⟩
          rw [pipe2, same1]
          exact reads.heard
        refine wp_any (fun copied => ?_)
        split
        · exact wp_ret (fun s3 rely _ => reads2.rely rely)
        · exact wp_ret (fun s3 rely _ => reads2.rely rely)
  · intro result now valid reads
    cases result with
    | some value => exact next (some value) now valid reads
    | none => exact next none now valid reads

theorem readLoop_verified (sees : Sees (.proc slot) (View.inCall slot (.pipe pi)) state)
    (settled : (state.pipe pi).Settled) :
    Verified setting (.proc slot) (readLoop slot pi n)
      (fun _ after => Plain slot true .none after) state := by
  have scans := scans_plain (H := H) slot true .none
  have mine : .pipe pi ∈ (View.inCall slot (.pipe pi)).held := mem_cons_self
  unfold readLoop
  simp only [bind_eq]
  refine wp_see sees (fun s1 inv1 sees1 frame1 => ?_)
  have settled1 : (s1.pipe pi).Settled := by
    rw [frame1.pipes pi mine]
    exact settled
  split
  · next waits =>
      refine wp_see sees1 (fun s2 inv2 seen2 frame2 => ?_)
      have kept2 := frame2.pipes pi mine
      split
      · exact wp_leavePipe seen2 (by rw [kept2]; exact settled1)
          (fun _ _ ends => ends)
      · refine wp_sleep seen2 (below_proc_of_pipe pi slot) (by simp) ?_ ?_
          (fun s3 inv3 sees3 _ taken => ?_)
        · intro any same
          cases same
          rw [kept2]
          exact settled1
        · refine ⟨rfl, ?_⟩
          rw [kept2]
          simpa using waits
        · refine wp_tailCall (fun now rely _ => ?_)
          rcases rely.sees _ sees3 with ⟨still, frame⟩
          have paid : (now.pipe pi).Settled := by
            rw [frame.pipes pi mine]
            exact taken.settled pi rfl
          exact ⟨⟨rfl, still, paid⟩, fun _ _ _ post _ further _ => (further.sees _ post).1⟩
  · refine wp_readBytes inv1 ⟨sees1, settled1.2⟩ (fun _ s2 inv2 reads2 => ?_)
    refine wp_wakePipe reads2.sees scans rfl (fun s3 inv3 sees3 _ pipe3 => ?_)
    exact wp_leavePipe sees3 (by rw [pipe3]; exact ⟨rfl, reads2.heard⟩) (fun _ _ ends => ends)

/-- `pipewrite` and `piperead` take the lock and enter their loop. -/
theorem wp_pipeCall {label : Slot -> Label} {rest : Int -> KProg H α}
    (enter : ∀ now : State H, Sees (.proc slot) (View.inCall slot (.pipe pi)) now ->
      (now.pipe pi).Settled -> contract.pre (label slot) (.proc slot) now)
    (leave : ∀ (before : State H) value after,
      contract.post (label slot) (.proc slot) before value after -> Plain slot true .none after)
    (sees : Plain slot true .none state)
    (next : ∀ value now, Inv now -> Plain slot true .none now ->
      Verified setting (.proc slot) (rest value) goal now) :
    Verified setting (.proc slot) (curproc.bind (fun p => (acquire (.pipe pi)).bind
      (fun _ => (Prog.invoke (label p)).bind rest))) goal state := by
  refine wp_curproc sees (fit_plain _ _ _) (fun s1 inv1 sees1 _ => ?_)
  refine wp_acquire sees1 rfl rfl (fun _ member => by cases member)
    (fun s2 inv2 sees2 _ taken => ?_)
  refine wp_invoke (fun now rely _ => ?_)
  rcases rely.sees _ sees2 with ⟨still, frame⟩
  have paid : (now.pipe pi).Settled := by
    rw [frame.pipes pi mem_cons_self]
    exact taken.settled pi rfl
  exact ⟨enter now still paid, fun value after valid post =>
    next value after valid (leave now value after post)⟩

theorem wp_pipewrite {rest : Int -> KProg H α} (sees : Plain slot true .none state)
    (next : ∀ value now, Inv now -> Plain slot true .none now ->
      Verified setting (.proc slot) (rest value) goal now) :
    Verified setting (.proc slot) ((pipewrite pi n).bind rest) goal state := by
  unfold pipewrite
  simp only [bind_eq, bind_assoc]
  exact wp_pipeCall (fun _ seen paid => ⟨rfl, seen, paid.writing _⟩) (fun _ _ _ post => post)
    sees next

theorem wp_piperead {rest : Int -> KProg H α} (sees : Plain slot true .none state)
    (next : ∀ value now, Inv now -> Plain slot true .none now ->
      Verified setting (.proc slot) (rest value) goal now) :
    Verified setting (.proc slot) ((piperead pi n).bind rest) goal state := by
  unfold piperead
  simp only [bind_eq, bind_assoc]
  exact wp_pipeCall (fun _ seen paid => ⟨rfl, seen, paid⟩) (fun _ _ _ post => post) sees next

/-! ## Other activity -/

theorem below_proc_of_other (address : Nat) (slot : Slot) :
    Below (.other address) (.proc slot) := by
  intro low high same
  cases same

/-- A lock taken outside all critical sections is given back. -/
theorem wp_releasePlain {lock : Lock} {proc : Option Slot}
    (sees : Sees thread ((View.plain proc base trap).push lock) state)
    (notProc : ∀ any, lock ≠ .proc any) (notPipe : ∀ pi, lock ≠ .pipe pi)
    (next : Next setting contract thread (View.plain proc base trap) [] state (rest ()) goal) :
    Verified setting thread ((release lock).bind rest) goal state := by
  have ready : Releasable thread ((View.plain proc base trap).push lock) lock state :=
    { member := mem_cons_self
      resv := Or.inl rfl
      owed := Or.inl rfl
      current := fun any same => (notProc any same).elim
      settled := fun pi same => (notPipe pi same).elim }
  refine wp_release sees rfl rfl ready (fun s1 inv1 sees1 frame1 => ?_)
  rw [pop_push (fit_plain _ _ _)] at sees1
  exact next s1 inv1 sees1 frame1.forget

theorem busy_verified (sees : Plain slot base trap state) : Verified setting (.proc slot) busy
      (fun _ after => Returned slot base trap state after) state := by
  have fit := fit_plain (some slot) base trap
  have again : ∀ trap' now, (trap' = trap ∨ trap' = .none) -> Plain slot base trap' now ->
      Frame (.proc slot) [] state now ->
      Verified setting (.proc slot) (Prog.invoke .busy)
        (fun _ after => Returned slot base trap state after) now := by
    intro trap' now known seen frame
    refine wp_tailCall (fun later rely _ => ?_)
    have still := (rely.sees _ seen).1
    refine ⟨⟨slot, base, trap', rfl, still⟩, fun _ after _ post last further _ => ?_⟩
    have returned := (post slot base trap' rfl still).rely further
    exact returned.trans known (frame.trans rely.frame)
  unfold busy
  simp only [bind_eq]
  refine wp_any (fun activity => ?_)
  cases activity with
  | done =>
    exact wp_value sees (fun now _ seen frame => Returned.of_sees seen frame)
  | leaf lock =>
    refine wp_onlyIf (fun chosen => ?_) (fun _ => ?_)
    · have leaf : lock = .kmem ∨ lock = .ftable ∨ lock = .itable := by simpa using chosen
      refine wp_touch sees fit (fun _ member => by cases member) ?_ ?_ ?_
        (fun s1 inv1 sees1 frame1 => again trap s1 (Or.inl rfl) sees1 frame1)
      all_goals rcases leaf with rfl | rfl | rfl <;> simp
    · exact again trap state (Or.inl rfl) sees (Keeps.refl state)
  | nested address =>
    refine wp_acquire sees rfl rfl (fun _ member => by cases member)
      (fun s1 inv1 sees1 frame1 _ => ?_)
    refine wp_touch sees1 (fit.push .itable) (fun _ _ _ _ _ same => by cases same) (by simp)
      (by simp) (by simp) (fun s2 inv2 sees2 frame2 => ?_)
    refine wp_releasePlain sees2 (by simp) (by simp) (fun s3 inv3 sees3 frame3 => ?_)
    exact again trap s3 (Or.inl rfl) sees3 ((frame1.trans frame2.forget).trans frame3)
  | sleeps address chan =>
    refine wp_acquire sees rfl rfl (fun _ member => by cases member)
      (fun s1 inv1 sees1 frame1 _ => ?_)
    refine wp_sleep sees1 (below_proc_of_other address slot) (by simp) (by simp) trivial
      (fun s2 inv2 sees2 frame2 _ => ?_)
    refine wp_releasePlain sees2 (by simp) (by simp) (fun s3 inv3 sees3 frame3 => ?_)
    exact again .none s3 (Or.inr rfl) sees3 ((frame1.trans frame2).trans frame3)
  | wakes address chan =>
    refine wp_acquire sees rfl rfl (fun _ member => by cases member)
      (fun s1 inv1 sees1 frame1 _ => ?_)
    refine wp_wakeup_unpiped sees1 ((scans_plain slot base trap).push (below_proc_of_other address))
      (fun _ same => by cases same) (by simp) (by simp) (fun s2 inv2 sees2 frame2 _ => ?_)
    rw [View.settled_of_not_owed rfl] at sees2
    refine wp_releasePlain sees2 (by simp) (by simp) (fun s3 inv3 sees3 frame3 => ?_)
    exact again trap s3 (Or.inl rfl) sees3 ((frame1.trans frame2.forget).trans frame3)

theorem wp_fileclose (sees : Plain slot base trap state)
    (next : ∀ now, Inv now -> Returned slot base trap state now ->
      Verified setting (.proc slot) (rest ()) goal now) :
    Verified setting (.proc slot) (fileclose.bind rest) goal state := by
  unfold fileclose
  simp only [bind_eq, bind_assoc]
  refine wp_touch sees (fit_plain _ _ _) (fun _ member => by cases member) (by simp)
    (by simp) (by simp) (fun s1 inv1 sees1 frame1 => ?_)
  refine wp_any (fun closing => ?_)
  cases closing with
  | shared => exact next s1 inv1 (Returned.of_sees sees1 frame1)
  | pipe pi writable =>
    refine wp_pipeclose sees1 (fun s2 inv2 sees2 frame2 => ?_)
    exact next s2 inv2 (Returned.of_sees sees2 (frame1.trans frame2))
  | inode =>
    refine wp_callBusy sees1 (fun _ s2 inv2 returned => ?_)
    exact next s2 inv2 (returned.trans (Or.inl rfl) frame1)

end Kernel
end Xv6
