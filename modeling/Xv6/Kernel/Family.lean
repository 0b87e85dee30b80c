import Xv6.Kernel.Pipes

namespace Xv6
namespace Kernel

open Conc List Logic Prog State View

/-!
# Creating, ending and collecting processes

`fork` builds a process that nobody else touches until it is published,
`exit` gives its children to `initproc` and turns into a zombie under
`wait_lock`, and `wait_extension` scans for a zombie under the same lock, so a
scan that finds none still holds when the caller goes to sleep.
-/

variable {H : Type} [DecidableEq H] {setting : Setting H} {α : Type} {goal : α -> State H -> Prop}
  {thread : Thread H} {view : View} {state now : State H} {slot np : Slot} {base : Mode}
  {trap : Trap} {caller : Slot} {rest : Unit -> KProg H α} {status : Int} {held : List Lock}
  {items : List Slot} {addr perf : Bool}

theorem below_of_proc {lock : Lock} (rank : lock.rank = some (2 + NPROC)) (slot : Slot) :
    Below (.proc slot) lock := by
  intro low high first second
  cases first
  cases rank.symm.trans second
  exact Nat.add_lt_add_left slot.isLt 2

/-- A process that holds the lock of another one. -/
def View.over (self slot : Slot) (base : Mode) (trap : Trap) : View :=
  (View.plain (some self) base trap).push (.proc slot)

theorem View.over_below {self : Slot} {lock : Lock} (rank : lock.rank = some (2 + NPROC)) :
    ∀ other, other ∈ (View.over self slot base trap).held -> Below other lock := by
  intro other member
  rw [mem_singleton.mp member]
  exact below_of_proc rank slot

/-! ## Creating -/

theorem wp_allocpid {rest : Int -> KProg H α} (sees : Sees thread view state) (fit : view.Fit)
    (unreserved : view.resv = none) (holds : view.held ≠ [])
    (below : ∀ other, other ∈ view.held -> Below other .pid)
    (next : ∀ pid now, Inv now -> Sees thread { view with resv := some pid } now ->
      Frame thread view.held state now -> Verified setting thread (rest pid) goal now) :
    Verified setting thread (allocpid.bind rest) goal state := by
  have mine : .pid ∈ (view.push .pid).held := mem_cons_self
  unfold allocpid
  simp only [bind_eq, bind_assoc]
  refine wp_acquire sees fit.want fit.window below (fun s1 inv1 sees1 frame1 _ => ?_)
  refine wp_see sees1 (fun s2 inv2 sees2 frame2 => ?_)
  refine wp_do sees2 (fun s3 hart3 inv3 active3 shown3 frame3 => ?_)
  refine ⟨.takePid (shown3.held ▸ mine) (shown3.resv.trans unreserved), fun inv4 => ?_⟩
  have sees4 : Sees thread { view.push .pid with resv := some s2.nextpid } (s3.takePid hart3) := by
    have seen : Sees thread { view.push .pid with resv := some s3.nextpid } (s3.setCpu hart3
        { s3.cpu hart3 with resv := some s3.nextpid }) :=
      active3.sees_setCpu rfl rfl { shown3 with resv := rfl }
    rw [← frame3.pids mine]
    exact seen
  have taken : Frame thread view.held s3 (s3.takePid hart3) := by
    have same : Frame thread view.held s3 s3 := Keeps.refl s3
    exact { same with pids := fun held => (shown3.once inv3 held).elim }
  have ready : Releasable thread { view.push .pid with resv := some s2.nextpid } .pid
      (s3.takePid hart3) :=
    { member := mine
      resv := Or.inr (by simpa [push] using holds)
      owed := fit.owed.imp_right (fun waits => ⟨by simp, mem_cons_of_mem _ waits⟩)
      current := fun _ same => by cases same
      settled := fun _ same => by cases same }
  refine wp_release sees4 rfl fit.dispatch ready (fun s5 inv5 sees5 frame5 => ?_)
  have restored : pop { view.push .pid with resv := some s2.nextpid } .pid =
      { view with resv := some s2.nextpid } := by
    simp [pop, push, fit.want]
  rw [restored] at sees5 frame5
  exact next s2.nextpid s5 inv5 sees5
    ((((frame1.trans frame2.push).trans frame3.push).trans taken).trans frame5)

/-- A process under construction, whose lock the caller holds. -/
structure Building (caller np : Slot) (base : Mode) (trap : Trap) (state : State H) : Prop where
  sees : Sees (.proc caller) (View.over caller np base trap) state
  different : np ≠ caller
  owner : (state.task np).owner = some caller
  unlinked : (state.proc np).parent = none

omit [DecidableEq H] in
theorem Building.frame (building : Building caller np base trap state)
    (frame : Frame (.proc caller) [] state now)
    (sees : Sees (.proc caller) (View.over caller np base trap) now) :
    Building caller np base trap now := by
  rcases frame.owned caller np rfl building.owner with ⟨owner, _, parent⟩
  exact ⟨sees, building.different, owner, parent.trans building.unlinked⟩

theorem wp_findUnused (sees : Plain caller base trap state) :
    Verified setting (.proc caller) (findUnused slot) (fun result after => match result with
        | some found => Sees (.proc caller) (View.over caller found base trap) after ∧
            Frame (.proc caller) [] state after ∧ (after.proc found).state = .unused ∧
            found ≠ caller
        | none => Plain caller base trap after ∧
            Frame (.proc caller) [] state after) state := by
  have mine : .proc slot ∈ (View.over caller slot base trap).held := mem_cons_self
  unfold findUnused
  simp only [bind_eq]
  refine wp_acquire sees rfl rfl (fun _ member => by cases member)
    (fun s1 inv1 sees1 frame1 taken => ?_)
  refine wp_see sees1 (fun s2 inv2 sees2 frame2 => ?_)
  split
  · next unused =>
      have free : (s2.proc slot).state = .unused := by simpa using unused
      refine wp_value sees2 (fun s3 inv3 sees3 frame3 => ?_)
      refine ⟨sees3, (frame1.trans frame2.forget).trans frame3.forget,
        (frame3.state_eq mine).trans free, fun same => ?_⟩
      subst same
      rw [frame2.state_eq mine, (taken.own slot rfl rfl).1] at free
      cases free
  · refine wp_releaseVisited sees2 (scans_plain caller base trap) ?_
      (fun s3 inv3 sees3 frame3 => ?_)
    · intro own
      rw [frame2.state_eq mine, frame2.doze_eq mine]
      exact taken.own slot own rfl
    · exact wp_value sees3 (fun s4 _ sees4 frame4 =>
        ⟨sees4, ((frame1.trans frame2.forget).trans frame3).trans frame4⟩)

/-- `freeproc` of a process that was never linked. -/
theorem wp_discard (inv : Inv state) (building : Building caller np base trap state)
    (next : ∀ now, Inv now -> Sees (.proc caller) (View.over caller np base trap) now ->
      Verified setting (.proc caller) (rest ()) goal now) :
    Verified setting (.proc caller) ((freeproc np none).bind rest) goal state := by
  have fit : (View.over caller np base trap).Fit := (fit_plain _ _ _).push _
  unfold freeproc
  simp only [bind_eq, bind_assoc]
  refine wp_kmems inv building.sees fit (View.over_below rfl) (fun s1 inv1 sees1 frame1 => ?_)
  refine wp_do sees1 (fun s2 hart2 inv2 active2 shown2 frame2 => ?_)
  have kept : Frame (.proc caller) [] state s2 := frame1.forget.trans frame2.forget
  have built := building.frame kept ⟨hart2, active2, shown2⟩
  have held : .proc np ∈ (s2.cpu hart2).held := shown2.held ▸ mem_cons_self
  refine ⟨.discard np caller rfl held built.owner built.unlinked, fun inv3 => ?_⟩
  refine next _ inv3 ⟨hart2, Active.setTask active2 (fun same => ?_), shown2⟩
  cases same
  exact (building.different rfl).elim

theorem wp_allocproc {rest : Option Slot -> KProg H α} (inv : Inv state)
    (sees : Plain caller base trap state)
    (failed : ∀ now, Inv now -> Plain caller base trap now ->
      Verified setting (.proc caller) (rest none) goal now)
    (next : ∀ np now, Inv now -> Building caller np base trap now ->
      Verified setting (.proc caller) (rest (some np)) goal now) :
    Verified setting (.proc caller) (allocproc.bind rest) goal state := by
  unfold allocproc
  simp only [bind_eq, bind_assoc]
  refine wp_first inv sees (fun _ _ => True)
    (fun np now => Sees (.proc caller) (View.over caller np base trap) now ∧
      (now.proc np).state = .unused ∧ np ≠ caller)
    (fun _ _ _ _ => id) ?_ trivial ?_ ?_ ?_
  · rintro np before after rely ⟨seen, free, different⟩
    rcases rely.sees _ seen with ⟨still, kept⟩
    exact ⟨still, (kept.state_eq mem_cons_self).trans free, different⟩
  · intro slot items before _ seen frame _
    refine wp_mono (wp_findUnused seen) (fun result after _ holds => ?_)
    cases result with
    | some found => exact ⟨holds.1, holds.2.2⟩
    | none => exact ⟨holds.1, holds.2, trivial⟩
  · intro now valid seen _ _
    exact failed now valid seen
  · rintro np s1 inv1 ⟨sees1, free1, different⟩
    have mine : .proc np ∈ (View.over caller np base trap).held := mem_cons_self
    have fit : (View.over caller np base trap).Fit := (fit_plain _ _ _).push _
    simp only [bind_assoc]
    refine wp_allocpid sees1 fit rfl (cons_ne_nil _ _) (View.over_below rfl)
      (fun pid s2 inv2 sees2 frame2 => ?_)
    refine wp_do sees2 (fun s3 hart3 inv3 active3 shown3 frame3 => ?_)
    have free3 : (s3.proc np).state = .unused := by
      rw [Frame.state_eq frame3 mine, Frame.state_eq frame2 mine]
      exact free1
    refine ⟨.alloc np pid caller rfl different (shown3.held ▸ mine) free3 shown3.resv,
      fun inv4 => ?_⟩
    have current := ((inv3.cpu hart3).process caller active3.1).1
    have built : Building caller np base trap (s3.alloc hart3 np pid) := by
      have noted : Sees (.proc caller) (View.over caller np base trap)
          (s3.setCpu hart3 { s3.cpu hart3 with resv := none }) :=
        active3.sees_setCpu rfl rfl { shown3 with resv := rfl }
      rcases noted with ⟨there, active, shown⟩
      refine ⟨⟨there, Active.setTask active (fun same => ?_), shown⟩, different, ?_, ?_⟩
      · cases same
        exact (different rfl).elim
      · simp [State.alloc, setTask, current]
      · simpa [State.alloc, setTask, setProc, Proc.allocated] using inv3.orphan np free3
    have waits : ((s3.alloc hart3 np pid).task np).Fresh := by
      simp [State.alloc, setTask, Task.Fresh, Task.own]
    refine wp_kmems inv4 built.sees fit (View.over_below rfl) (fun s5 inv5 sees5 frame5 => ?_)
    have built5 := built.frame frame5.forget sees5
    refine wp_any (fun enough => ?_)
    split
    · simp only [bind_assoc]
      refine wp_spawn (fun s6 rely inv6 => ?_)
      rcases rely.sees _ sees5 with ⟨sees6, frame6⟩
      have fresh6 : (s6.task np).Fresh := ((frame5.trans frame6).locked np mine).2.fresh waits
      refine ⟨by simpa using different, fun later asleep _ => ?_, ?_⟩
      · exact ⟨np, rfl, asleep.fresh rfl fresh6⟩
      · exact next np s6 inv6 (built5.frame frame6.forget sees6)
    · simp only [bind_assoc]
      refine wp_discard inv5 built5 (fun s6 inv6 sees6 => ?_)
      refine wp_releaseVisited sees6 (scans_plain caller base trap) (fun same => ?_)
        (fun s7 inv7 sees7 _ => failed s7 inv7 sees7)
      cases same
      exact (different rfl).elim

theorem wp_fork {rest : Int -> KProg H α} (sees : Plain caller base trap state)
    (next : ∀ value now, Inv now -> Plain caller base trap now ->
      Verified setting (.proc caller) (rest value) goal now) :
    Verified setting (.proc caller) (fork.bind rest) goal state := by
  have scans := scans_plain (H := H) caller base trap
  unfold fork
  simp only [bind_eq, bind_assoc]
  refine wp_curproc sees scans.toFit (fun s1 inv1 sees1 _ => ?_)
  refine wp_allocproc inv1 sees1 (fun s2 inv2 sees2 => next (-1) s2 inv2 sees2)
    (fun np s2 inv2 building2 => ?_)
  have fit : (View.over caller np base trap).Fit := scans.toFit.push _
  have mine : .proc np ∈ (View.over caller np base trap).held := mem_cons_self
  have apart : (.proc caller : Thread H) ≠ .proc np := by
    intro same
    cases same
    exact building2.different rfl
  simp only [bind_assoc]
  refine wp_kmems inv2 building2.sees fit (View.over_below rfl) (fun s3 inv3 sees3 frame3 => ?_)
  have building3 := building2.frame frame3.forget sees3
  refine wp_any (fun copied => ?_)
  split
  · simp only [bind_assoc]
    refine wp_do sees3 (fun s4 hart4 inv4 active4 shown4 frame4 => ?_)
    have building4 := building3.frame frame4.forget ⟨hart4, active4, shown4⟩
    refine ⟨.copy np caller rfl (shown4.held ▸ mine) building4.owner, fun inv5 => ?_⟩
    have copies : Frame (.proc caller) [] s4
        (s4.setProc np ((s4.proc np).forked (s4.proc caller))) :=
      Keeps.edit (fun member => by cases member) rfl rfl rfl
    have building5 := building4.frame copies ⟨hart4, active4, shown4⟩
    refine wp_any (fun files => ?_)
    refine wp_touches inv5 building5.sees fit (View.over_below rfl) (by simp) (by simp)
      (by simp) (fun s6 inv6 sees6 frame6 => ?_)
    refine wp_touch sees6 fit (View.over_below rfl) (by simp) (by simp) (by simp)
      (fun s7 inv7 sees7 frame7 => ?_)
    refine wp_see sees7 (fun s8 inv8 sees8 frame8 => ?_)
    refine wp_releaseVisited sees8 scans (fun same => (apart same).elim)
      (fun s9 inv9 sees9 frame9 => ?_)
    refine wp_acquire sees9 rfl rfl (fun _ member => by cases member)
      (fun s10 inv10 sees10 frame10 _ => ?_)
    have frame : Frame (.proc caller) [] (s4.setProc np ((s4.proc np).forked (s4.proc caller)))
        s10 :=
      (((frame6.forget.trans frame7.forget).trans frame8.forget).trans frame9).trans frame10
    refine wp_do sees10 (fun s11 hart11 inv11 active11 shown11 frame11 => ?_)
    rcases (frame.trans frame11.forget).owned caller np rfl building5.owner with
      ⟨owner, _, parent⟩
    have running : (s11.proc caller).state = .running := by
      refine (inv11.running_of_unheld ((inv11.cpu hart11).process caller active11.1).1 ?_).1
      rw [shown11.held]
      simp [push, View.plain]
    refine ⟨.link np caller rfl (shown11.held ▸ mem_cons_self) owner
      (parent.trans building5.unlinked) running, fun inv12 => ?_⟩
    have linked : ((s11.link np caller).proc np).parent = some caller := by
      simp [State.link, note, setProc]
    have sees12 : Sees (.proc caller) ((View.plain (some caller) base trap).push .wait)
        (s11.link np caller) := ⟨hart11, active11, shown11⟩
    refine wp_releasePlain sees12 (by simp) (by simp) (fun s13 inv13 sees13 frame13 => ?_)
    refine wp_acquire sees13 rfl rfl (fun _ member => by cases member)
      (fun s14 inv14 sees14 frame14 _ => ?_)
    refine wp_do sees14 (fun s15 hart15 inv15 active15 shown15 frame15 => ?_)
    have kept : Frame (.proc caller) [] (s11.link np caller) s15 :=
      (frame13.trans frame14).trans frame15.forget
    rcases kept.owned caller np rfl owner with ⟨owner15, _, parent15⟩
    refine ⟨.publish np caller rfl (shown15.held ▸ mine) owner15 (parent15.trans linked),
      fun inv16 => ?_⟩
    have sees16 : Sees (.proc caller) (View.over caller np base trap) (s15.publish np) :=
      ⟨hart15, Active.setTask active15 (fun same => (apart same).elim), shown15⟩
    refine wp_edit sees16 (fun _ => rfl) (fun s17 inv17 sees17 _ _ _ _ => ?_)
    exact wp_releaseVisited sees17 scans (fun same => (apart same).elim)
      (fun s18 inv18 sees18 _ => next _ s18 inv18 sees18)
  · simp only [bind_assoc]
    refine wp_discard inv3 building3 (fun s4 inv4 sees4 => ?_)
    exact wp_releaseVisited sees4 scans (fun same => (apart same).elim)
      (fun s5 inv5 sees5 _ => next (-1) s5 inv5 sees5)

/-! ## Ending -/

/-- The process has called `exit` with this status. -/
def Exiting (slot : Slot) (status : Int) (state : State H) : Prop :=
  Alive (state.proc slot).state ∧ .exit (state.proc slot).pid status ∈ state.log

omit [DecidableEq H] in
theorem Exiting.frame (exiting : Exiting slot status state)
    (frame : Frame (.proc slot) held state now) : Exiting slot status now := by
  rcases frame.alive slot rfl exiting.1 with ⟨alive, pid, _⟩
  refine ⟨alive, ?_⟩
  rw [pid]
  exact frame.log _ exiting.2

theorem wp_exitCalled {irq : Bool} (sees : Plain slot irq trap state) (next : ∀ now, Inv now ->
      Plain slot ⟨irq, ⟨true, none, none⟩⟩ trap now ->
      Exiting slot status now -> Verified setting (.proc slot) (rest ()) goal now) :
    Verified setting (.proc slot)
      ((Prog.modify (fun hart now => exitCalled now hart slot status)).bind rest) goal
      state := by
  refine wp_do sees (fun s1 hart inv1 active shown frame1 => ?_)
  have unheld : .proc slot ∉ (s1.cpu hart).held := by
    rw [shown.held]
    exact not_mem_nil
  have running := (inv1.running_of_unheld ((inv1.cpu hart).process slot active.1).1 unheld).1
  have idle : (s1.task slot).call = .idle := (active.call_eq inv1 rfl).trans shown.call
  refine ⟨.exitCalled slot status rfl running shown.call, fun inv2 => next _ inv2 ?_ ⟨?_, ?_⟩⟩
  · have called : { (s1.task slot).call with exiting := true } = Call.mk true none none := by
      rw [idle]
      rfl
    have noted := active.sees_setCall shown ⟨true, none, none⟩
    rw [← called] at noted ⊢
    exact noted
  · simp [exitCalled, note, setProc, running, Alive]
  · simp [exitCalled, note, setProc]

/-- Closing the files and leaving the current directory. -/
theorem wp_closeFiles {count : Nat} (inv : Inv state) (sees : Plain slot base trap state)
    (next : ∀ now trap', Inv now -> Plain slot base trap' now ->
      Frame (.proc slot) [] state now -> Verified setting (.proc slot) (rest ()) goal now) :
    Verified setting (.proc slot)
      ((Prog.forEach (fun _ => fileclose) (List.replicate count ())).bind rest) goal state := by
  refine wp_bind coherent inv (wp_mono (wp_forEach coherent
    (fun _ now => Returned slot base trap state now) ?_ ?_ inv
    (Returned.of_sees sees (Keeps.refl state))) ?_)
  · exact fun _ _ _ rely returned => returned.rely rely
  · rintro _ items before _ ⟨trap', known, seen, frame⟩
    rw [← bind_ret fileclose]
    refine wp_fileclose seen (fun s1 inv1 returned => ?_)
    exact wp_ret (fun s2 rely _ => (returned.trans known frame).rely rely)
  · rintro _ now valid ⟨trap', _, seen, frame⟩
    exact next now trap' valid seen frame

/-- Inside `exit`, with `wait_lock`. -/
def View.inExit (slot : Slot) (base : Mode) (trap : Trap) : View :=
  (View.plain (some slot) base trap).push .wait

theorem below_proc_of_wait (slot : Slot) : Below .wait (.proc slot) := by
  intro low high first second
  cases first
  cases second
  exact Nat.add_pos_left (by decide) _

omit [DecidableEq H] in
theorem scans_inExit (slot : Slot) (base : Mode) (trap : Trap) :
    (View.inExit slot base trap).Scans (.proc slot : Thread H) :=
  (scans_plain slot base trap).push below_proc_of_wait

/-- No slot but those still to be visited has the process as its parent. -/
def Childless (slot : Slot) (items : List Slot) (state : State H) : Prop :=
  forall child, child ∉ items -> (state.proc child).parent ≠ some slot

omit [DecidableEq H] in
theorem Childless.frame (childless : Childless slot items state)
    (frame : Frame thread held state now) (waits : .wait ∈ held) : Childless slot items now := by
  intro child visited
  rw [(frame.family waits child).1]
  exact childless child visited

theorem wp_reparentVisit {child : Slot}
    (sees : Sees (.proc slot) (View.inExit slot base trap) state) (mortal : slot ≠ initproc)
    (exiting : Exiting slot status state) (childless : Childless slot (child :: items) state) :
    Verified setting (.proc slot) (reparentVisit slot child)
      (fun _ after => Sees (.proc slot) (View.inExit slot base trap) after ∧
        Exiting slot status after ∧ Childless slot items after) state := by
  have waits : .wait ∈ (View.inExit slot base trap).held := mem_cons_self
  rw [← bind_ret (reparentVisit slot child)]
  unfold reparentVisit
  simp only [bind_eq, bind_assoc]
  refine wp_see sees (fun s1 inv1 sees1 frame1 => ?_)
  have exiting1 := exiting.frame frame1
  have childless1 := childless.frame frame1 waits
  refine wp_onlyIf (fun found => ?_) (fun other => ?_)
  · have parent1 : (s1.proc child).parent = some slot := by simpa using found
    simp only [bind_assoc]
    refine wp_do sees1 (fun s2 hart2 inv2 active2 shown2 frame2 => ?_)
    have parent2 : (s2.proc child).parent = some slot :=
      (frame2.family waits child).1.trans parent1
    have exiting2 := exiting1.frame frame2
    have childless2 := childless1.frame frame2 waits
    refine ⟨.adopt child slot rfl (shown2.held ▸ waits) parent2 mortal status exiting2.2,
      fun inv3 => ?_⟩
    have sees3 : Sees (.proc slot) { View.inExit slot base trap with owed := true }
        (s2.adopt hart2 child) := by
      have noted : Sees (.proc slot) { View.inExit slot base trap with owed := true }
          (s2.setCpu hart2 { s2.cpu hart2 with owed := true }) :=
        active2.sees_setCpu rfl rfl { shown2 with owed := rfl }
      exact noted
    have exiting3 : Exiting slot status (s2.adopt hart2 child) := by
      have same : ∀ any, ((s2.adopt hart2 child).proc any).state = (s2.proc any).state ∧
          ((s2.adopt hart2 child).proc any).pid = (s2.proc any).pid :=
        fun any => ⟨Inv.setProc_same Proc.state (by rfl) any,
          Inv.setProc_same Proc.pid (by rfl) any⟩
      unfold Exiting
      rw [(same slot).1, (same slot).2]
      exact exiting2
    have childless3 : Childless slot items (s2.adopt hart2 child) := by
      intro any visited
      by_cases same : any = child
      · subst same
        simpa [adopt, setProc] using Ne.symm mortal
      · simpa [adopt, setProc, setCpu, Function.update_of_ne same] using
          childless2 any (by simp [same, visited])
    have scans3 : View.Scans { View.inExit slot base trap with owed := true }
        (.proc slot : Thread H) :=
      { scans_inExit slot base trap with owed := Or.inr waits }
    refine wp_wakeup_unpiped sees3 scans3 ?_ (by simp) (by simp)
      (fun s4 inv4 sees4 frame4 _ => ?_)
    · intro lock guards
      cases guards
      exact waits
    · have paid : settled { View.inExit slot base trap with owed := true }
          (.proc initproc) = View.inExit slot base trap := by
        simp [settled, View.inExit, push, View.plain]
      rw [paid] at sees4
      exact wp_value sees4 (fun s5 _ sees5 frame5 => ⟨sees5,
        (exiting3.frame frame4).frame frame5,
        (childless3.frame frame4 waits).frame frame5 waits⟩)
  · refine wp_value sees1 (fun s2 _ sees2 frame2 =>
      ⟨sees2, exiting1.frame frame2, ?_⟩)
    refine Childless.frame ?_ frame2 waits
    intro any visited
    by_cases same : any = child
    · subst same
      simpa using other
    · exact childless1 any (by simp [same, visited])

theorem wp_reparent (inv : Inv state) (sees : Sees (.proc slot) (View.inExit slot base trap) state)
    (mortal : slot ≠ initproc) (exiting : Exiting slot status state)
    (next : ∀ now, Inv now -> Sees (.proc slot) (View.inExit slot base trap) now ->
      Exiting slot status now -> Childless slot [] now ->
      Verified setting (.proc slot) (rest ()) goal now) :
    Verified setting (.proc slot) ((reparent slot).bind rest) goal state := by
  have waits : .wait ∈ (View.inExit slot base trap).held := mem_cons_self
  unfold reparent
  refine wp_bind coherent inv (wp_mono (wp_forEach coherent
    (fun items now => Sees (.proc slot) (View.inExit slot base trap) now ∧
      Exiting slot status now ∧ Childless slot items now) ?_ ?_ inv ⟨sees, exiting, ?_⟩) ?_)
  · rintro items before after rely ⟨seen, exits, childless⟩
    rcases rely.sees _ seen with ⟨still, frame⟩
    exact ⟨still, exits.frame frame, childless.frame frame waits⟩
  · rintro child items before _ ⟨seen, exits, childless⟩
    exact wp_reparentVisit seen mortal exits childless
  · exact fun child new => (new (mem_finRange child)).elim
  · rintro _ now valid ⟨seen, exits, childless⟩
    exact next now valid seen exits childless

/-- The parent is awake, or will look for its children again. -/
def Noticed (slot : Slot) (state : State H) : Prop :=
  forall parent, (state.proc slot).parent = some parent ->
    (state.task parent).doze ≠ some (.proc parent)

omit [DecidableEq H] in
theorem Noticed.frame (noticed : Noticed slot state) (frame : Frame thread held state now)
    (waits : .wait ∈ held) : Noticed slot now := by
  intro parent linked dozes
  rw [(frame.family waits slot).1] at linked
  exact noticed parent linked (frame.dozers (.proc parent) .wait parent rfl waits dozes)

theorem wp_wakeupParent (inv : Inv state)
    (sees : Sees (.proc slot) (View.inExit slot base trap) state)
    (next : ∀ now, Inv now -> Sees (.proc slot) (View.inExit slot base trap) now ->
      Frame (.proc slot) (View.inExit slot base trap).held state now -> Noticed slot now ->
      Verified setting (.proc slot) (rest ()) goal now) :
    Verified setting (.proc slot) ((wakeupParent (state.proc slot).parent).bind rest) goal
      state := by
  have waits : .wait ∈ (View.inExit slot base trap).held := mem_cons_self
  unfold wakeupParent
  split
  · next parent linked =>
      refine wp_wakeup_unpiped sees (scans_inExit slot base trap) ?_ (by simp) (by simp)
        (fun s1 inv1 sees1 frame1 nobody => ?_)
      · intro lock guards
        cases guards
        exact waits
      · rw [View.settled_of_not_owed rfl] at sees1
        refine next s1 inv1 sees1 frame1 (fun any linked1 => ?_)
        rw [(frame1.family waits slot).1, linked] at linked1
        cases linked1
        exact nobody .wait rfl parent
  · next orphan =>
      refine next state inv sees (Keeps.refl state) (fun any linked => ?_)
      cases orphan.symm.trans linked

/-- The end of `exit`: the process becomes a zombie under both locks and never
runs again. -/
theorem wp_becomeZombie (sees : Sees (.proc slot) (View.inExit slot base trap) state)
    (mortal : slot ≠ initproc) (exiting : Exiting slot status state)
    (childless : Childless slot [] state) (noticed : Noticed slot state)
    (empty : base.call.got = none) :
    Verified setting (.proc slot) ((acquire (.proc slot)).bind (fun _ =>
      (Prog.modify (fun _ now => setProc now slot
        { now.proc slot with xstate := status })).bind (fun _ =>
      (Prog.modify (fun _ now => setProc now slot
        { now.proc slot with state := .zombie })).bind (fun _ =>
      (release .wait).bind (fun _ => sched.bind (fun _ => Prog.halt.bind rest)))))) goal
      state := by
  let view := (View.inExit slot base trap).push (.proc slot)
  have mine : .proc slot ∈ view.held := mem_cons_self
  have waits : .wait ∈ view.held := mem_cons_of_mem _ mem_cons_self
  refine wp_acquire sees rfl rfl ?_ (fun s1 inv1 sees1 frame1 taken => ?_)
  · intro other member
    rw [mem_singleton.mp member]
    exact below_proc_of_wait slot
  rcases taken.own slot rfl rfl with ⟨running1, awake1⟩
  refine wp_do sees1 (fun s2 hart2 inv2 active2 shown2 frame2 => ?_)
  have running2 := (Frame.state_eq frame2 mine).trans running1
  refine ⟨.setXstate slot status rfl (shown2.held ▸ mine) running2, fun inv3 => ?_⟩
  have set : Frame (.proc slot) [.wait] s2
      (s2.setProc slot { s2.proc slot with xstate := status }) :=
    Keeps.edit (by simp) rfl rfl rfl
  refine wp_do ⟨hart2, active2, shown2⟩ (fun s4 hart4 inv4 active4 shown4 frame4 => ?_)
  have frame : Frame (.proc slot) [.wait] state s4 := by
    have first : Frame (.proc slot) [.wait] state s2 := frame1.trans frame2.push
    have last : Frame (.proc slot) [.wait] _ s4 := frame4.push
    exact (first.trans set).trans last
  have running4 : (s4.proc slot).state = .running := by
    rw [Frame.state_eq frame4 mine]
    simpa [setProc] using running2
  have xstate4 : (s4.proc slot).xstate = status := by
    rw [(frame4.locked slot mine).1]
    simp [setProc]
  have exiting4 := exiting.frame frame
  refine ⟨.die slot rfl (shown4.held ▸ mine) (shown4.held ▸ waits) running4 mortal ?_ ?_ ?_
    (by rw [shown4.call]; exact empty), fun inv5 => ?_⟩
  · exact fun child => childless.frame frame mem_cons_self child not_mem_nil
  · exact noticed.frame frame mem_cons_self
  · rw [xstate4]
    exact exiting4.2
  · have ready : Releasable (.proc slot) view .wait
        (s4.setProc slot { s4.proc slot with state := .zombie }) :=
      { member := waits
        resv := Or.inl rfl
        owed := Or.inl rfl
        current := fun _ same => by cases same
        settled := fun _ same => by cases same }
    have awake4 : (s4.task slot).doze = none := by
      rw [Frame.doze_eq frame4 mine]
      change (s2.task slot).doze = none
      rw [Frame.doze_eq frame2 mine]
      exact awake1
    have seen : Sees (.proc slot) view (s4.setProc slot { s4.proc slot with state := .zombie }) :=
      ⟨hart4, active4, shown4⟩
    refine wp_release seen rfl rfl ready (fun s6 inv6 sees6 frame6 => ?_)
    have left : view.pop .wait = View.own slot base trap := by
      simp [view, View.inExit, View.own, pop, push, View.plain]
    rw [left] at sees6 frame6
    have still : .proc slot ∈ (View.own slot base trap).held := mem_cons_self
    refine wp_sched sees6 ?_ ?_ (fun _ _ _ _ _ _ _ _ => wp_halt)
    · rw [Frame.state_eq frame6 still]
      simp [setProc]
    · intro chan dozes
      rw [Frame.doze_eq frame6 still] at dozes
      cases awake4.symm.trans dozes

/-- `exit` does not return. -/
theorem wp_exit {irq : Bool} (sees : Plain slot irq trap state) :
    Verified setting (.proc slot) ((exit status).bind rest) goal state := by
  unfold exit
  simp only [bind_eq, bind_assoc]
  refine wp_curproc sees (fit_plain _ _ _) (fun s1 inv1 sees1 _ => ?_)
  refine wp_exitCalled sees1 (fun s2 inv2 sees2 exiting2 => ?_)
  split
  · exact wp_halt
  · next mortal =>
      simp only [bind_assoc]
      refine wp_any (fun files => ?_)
      refine wp_closeFiles inv2 sees2 (fun s3 trap3 inv3 sees3 frame3 => ?_)
      refine wp_callBusy sees3 (fun _ s4 inv4 returned => ?_)
      rcases returned with ⟨trap4, _, sees4, frame4⟩
      have exiting4 := (exiting2.frame frame3).frame frame4
      refine wp_acquire sees4 rfl rfl (fun _ member => by cases member)
        (fun s5 inv5 sees5 frame5 _ => ?_)
      refine wp_reparent inv5 sees5 mortal (exiting4.frame frame5)
        (fun s6 inv6 sees6 exiting6 childless6 => ?_)
      refine wp_see sees6 (fun s7 inv7 sees7 frame7 => ?_)
      refine wp_wakeupParent inv7 sees7 (fun s8 inv8 sees8 frame8 noticed8 => ?_)
      have kept := frame7.trans frame8
      exact wp_becomeZombie sees8 mortal (exiting6.frame kept)
        (childless6.frame kept mem_cons_self) noticed8 rfl

/-! ## Collecting -/

/-- None of the children visited so far is a zombie. -/
def NoZombie (slot : Slot) (items : List Slot) (state : State H) : Prop :=
  forall child, child ∉ items -> (state.proc child).parent = some slot ->
    (state.proc child).state ≠ .zombie

omit [DecidableEq H] in
theorem NoZombie.frame (clean : NoZombie slot items state) (frame : Frame thread held state now)
    (waits : .wait ∈ held) : NoZombie slot items now := by
  intro child visited linked dead
  rw [(frame.family waits child).1] at linked
  exact clean child visited linked ((frame.family waits child).2.mp dead)

omit [DecidableEq H] in
theorem NoZombie.visit (clean : NoZombie slot (np :: items) state)
    (alive : (state.proc np).parent = some slot -> (state.proc np).state ≠ .zombie) :
    NoZombie slot items state := by
  intro child visited linked
  by_cases same : child = np
  · subst same
    exact alive linked
  · exact clean child (by simp [same, visited]) linked

/-- Inside `wait_extension`, with `wait_lock`. -/
def View.waiting (slot : Slot) (got : Option (Int × Int)) (out : Option Int) : View :=
  (View.plain (some slot) ⟨true, ⟨false, got, out⟩⟩ .none).push .wait

omit [DecidableEq H] in
theorem View.scans_waiting (slot : Slot) (got : Option (Int × Int)) (out : Option Int) :
    (View.waiting slot got out).Scans (.proc slot : Thread H) :=
  (scans_plain slot _ .none).push below_proc_of_wait

section Collecting

variable {got : Option (Int × Int)} {out : Option Int}

/-- `wait_extension` returns from inside its scan. -/
theorem wp_leaveWait {value : Int} {goal : Option Int -> State H -> Prop}
    (sees : Sees (.proc slot) ((View.waiting slot got out).push (.proc np)) state)
    (apart : np ≠ slot) (delivered : Delivered got out addr value)
    (holds : ∀ now, Waited slot addr (.proc slot) value now -> goal (some value) now) :
    Verified setting (.proc slot) ((release (.proc np)).bind (fun _ =>
      (release .wait).bind (fun _ => .ret (some value)))) goal state := by
  refine wp_releaseVisited sees (View.scans_waiting slot got out) (fun same => ?_)
    (fun s1 inv1 sees1 _ => ?_)
  · cases same
    exact (apart rfl).elim
  · refine wp_releasePlain sees1 (by simp) (by simp) (fun s2 inv2 sees2 _ => ?_)
    exact wp_value sees2 (fun s3 _ sees3 _ => holds s3 ⟨got, out, sees3, delivered⟩)

omit [DecidableEq H] in
/-- The system call of a process, as its hart has it. -/
theorem Shows.call_eq {hart : H} (inv : Inv state) (active : Active (.proc slot) hart state)
    (shown : Shows view (state.cpu hart)) : (state.task slot).call = view.base.call :=
  (active.call_eq inv rfl).trans shown.call

/-- The status of a zombie is copied out. -/
theorem wp_copyStatus
    (sees : Sees (.proc slot) ((View.waiting slot none none).push (.proc np)) state)
    (next : ∀ before hart, Frame (.proc slot) ((View.waiting slot none none).push (.proc np)).held
      state before -> Inv (before.copyStatus hart slot np) ->
      Sees (.proc slot) ((View.waiting slot none (some (state.proc np).xstate)).push (.proc np))
        (before.copyStatus hart slot np) ->
      Verified setting (.proc slot) (rest ()) goal (before.copyStatus hart slot np)) :
    Verified setting (.proc slot)
      ((Prog.modify (fun hart now => copyStatus now hart slot np)).bind rest) goal state := by
  refine wp_do sees (fun s1 hart inv1 active shown frame1 => ?_)
  refine ⟨.copyStatus np slot rfl, fun inv2 => next s1 hart frame1 inv2 ?_⟩
  have same : (s1.proc np).xstate = (state.proc np).xstate := by
    rw [(frame1.locked np mem_cons_self).1]
  have noted := active.sees_setCall shown ⟨false, none, some (s1.proc np).xstate⟩
  unfold copyStatus
  rw [shown.call_eq inv1 active, ← same]
  exact noted

/-- `freeproc` of a zombie whose pid and status are delivered. -/
theorem wp_reap (inv : Inv state)
    (sees : Sees (.proc slot) ((View.waiting slot none out).push (.proc np)) state)
    (apart : np ≠ slot) (dead : (state.proc np).state = .zombie)
    (linked : (state.proc np).parent = some slot)
    (next : ∀ now, Inv now -> Sees (.proc slot) ((View.waiting slot
        (some ((state.proc np).pid, (state.proc np).xstate)) out).push (.proc np)) now ->
      Verified setting (.proc slot) (rest ()) goal now) :
    Verified setting (.proc slot) ((freeproc np (some slot)).bind rest) goal state := by
  let view := (View.waiting slot none out).push (.proc np)
  have mine : .proc np ∈ view.held := mem_cons_self
  have waits : .wait ∈ view.held := mem_cons_of_mem _ mem_cons_self
  have fit : view.Fit := ((fit_plain _ _ _).push _).push _
  unfold freeproc
  simp only [bind_eq, bind_assoc]
  refine wp_kmems inv sees fit ?_ (fun s1 inv1 sees1 frame1 => ?_)
  · intro other member
    rcases mem_cons.mp member with same | member
    · rw [same]
      exact below_of_proc rfl np
    · rw [mem_singleton.mp member]
      intro low high first second
      cases first
      cases second
      exact Nat.add_pos_left (by decide) _
  · refine wp_do sees1 (fun s2 hart2 inv2 active2 shown2 frame2 => ?_)
    have frame := frame1.trans frame2
    have dead2 := (Frame.state_eq frame mine).trans dead
    have linked2 := (frame.family waits np).1.trans linked
    have step : Act setting.build (.proc slot) hart2 s2 (s2.reap hart2 slot np) :=
      .reap np slot rfl apart (shown2.held ▸ mine) (shown2.held ▸ waits) dead2 linked2
        (by rw [shown2.call]; rfl)
    refine ⟨step, fun inv3 => next _ inv3 ?_⟩
    have record : ((s2.proc np).pid, (s2.proc np).xstate) =
        ((state.proc np).pid, (state.proc np).xstate) := by rw [(frame.locked np mine).1]
    have noted := (active2.free np).sees_setCall shown2
      ⟨false, some ((s2.proc np).pid, (s2.proc np).xstate), out⟩
    unfold reap
    rw [shown2.call_eq inv2 active2, ← record]
    exact noted

/-- A zombie is freed and the caller returns its pid. -/
theorem wp_collect {pid : Int} {goal : Option Int -> State H -> Prop} (inv : Inv state)
    (sees : Sees (.proc slot) ((View.waiting slot none out).push (.proc np)) state)
    (apart : np ≠ slot) (dead : (state.proc np).state = .zombie)
    (linked : (state.proc np).parent = some slot) (named : (state.proc np).pid = pid)
    (copied : out = if addr then some (state.proc np).xstate else none)
    (holds : ∀ now, Waited slot addr (.proc slot) pid now -> goal (some pid) now) :
    Verified setting (.proc slot) ((freeproc np (some slot)).bind (fun _ =>
      (release (.proc np)).bind (fun _ => (release .wait).bind (fun _ => .ret (some pid))))) goal
      state := by
  refine wp_reap inv sees apart dead linked (fun s1 inv1 sees1 => ?_)
  rw [named] at sees1
  exact wp_leaveWait sees1 apart (Or.inr ⟨_, rfl, copied⟩) holds

theorem wp_waitVisit (sees : Sees (.proc slot) (View.inCall slot .wait) state)
    (clean : NoZombie slot (np :: items) state) :
    Verified setting (.proc slot) (waitVisit slot addr perf np)
      (fun result after => match result with
        | some value => Waited slot addr (.proc slot) value after
        | none => Sees (.proc slot) (View.inCall slot .wait) after ∧
            Frame (.proc slot) (View.inCall slot .wait).held state after ∧
            NoZombie slot items after) state := by
  let view := (View.inCall slot .wait).push (.proc np)
  have mine : .proc np ∈ view.held := mem_cons_self
  have waits : .wait ∈ (View.inCall slot .wait).held := mem_cons_self
  have scans : (View.inCall slot .wait).Scans (.proc slot : Thread H) :=
    View.scans_waiting slot none none
  unfold waitVisit
  simp only [bind_eq]
  refine wp_see sees (fun s1 inv1 sees1 frame1 => ?_)
  have clean1 := clean.frame frame1 waits
  split
  · next found =>
      have linked1 : (s1.proc np).parent = some slot := by simpa using found
      refine wp_acquire sees1 rfl rfl
        (fun other member => scans.below other member np) (fun s2 inv2 sees2 frame2 taken => ?_)
      refine wp_see sees2 (fun s3 inv3 sees3 frame3 => ?_)
      have frame : Frame (.proc slot) (View.inCall slot .wait).held state s3 :=
        (frame1.trans frame2).trans frame3.push
      have own3 : (.proc slot : Thread H) = .proc np ->
          (s3.proc np).state = .running ∧ (s3.task np).doze = none := by
        intro same
        rw [frame3.state_eq mine, frame3.doze_eq mine]
        exact taken.own np same rfl
      split
      · next zombie =>
          have dead3 : (s3.proc np).state = .zombie := by simpa using zombie
          have apart : np ≠ slot := by
            intro same
            cases dead3.symm.trans (own3 (by rw [same])).1
          have linked3 : (s3.proc np).parent = some slot :=
            ((frame2.trans frame3.push).family waits np).1.trans linked1
          refine wp_see sees3 (fun s4 inv4 sees4 frame4 => ?_)
          have dead4 : (s4.proc np).state = .zombie := (Frame.state_eq frame4 mine).trans dead3
          have linked4 : (s4.proc np).parent = some slot :=
            (frame4.family (mem_cons_of_mem _ waits) np).1.trans linked3
          refine wp_any (fun failed => ?_)
          split
          · exact wp_leaveWait sees4 apart (Or.inl ⟨rfl, rfl, rfl⟩) (fun _ ends => ends)
          · refine wp_onlyIf (fun asked => ?_) (fun unasked => ?_)
            · refine wp_copyStatus sees4 (fun s5 hart5 frame5 inv6 sees6 => ?_)
              have guarded := (frame5.locked np mine).1
              have dead5 := (Frame.state_eq frame5 mine).trans dead4
              have linked5 := (frame5.family (mem_cons_of_mem _ waits) np).1.trans linked4
              have named5 : (s5.proc np).pid = (s4.proc np).pid := by rw [guarded]
              have same5 : (s5.proc np).xstate = (s4.proc np).xstate := by rw [guarded]
              refine wp_any (fun lost => ?_)
              split
              · rw [← bind_ret Prog.halt]
                exact wp_halt
              · refine wp_collect inv6 sees6 apart dead5 linked5 named5 ?_ (fun _ ends => ends)
                rw [if_pos asked, ← same5]
                rfl
            · refine wp_any (fun lost => ?_)
              split
              · rw [← bind_ret Prog.halt]
                exact wp_halt
              · refine wp_collect inv4 sees4 apart dead4 linked4 rfl ?_ (fun _ ends => ends)
                rw [if_neg (by simp [unasked])]
      · next living =>
          have alive3 : (s3.proc np).state ≠ .zombie := by simpa using living
          refine wp_releaseVisited sees3 scans own3
            (fun s4 inv4 sees4 frame4 => ?_)
          have clean3 := (clean.frame frame waits).visit (fun _ => alive3)
          refine wp_value sees4 (fun s5 _ sees5 frame5 => ⟨sees5,
            (frame.trans frame4).trans frame5, ?_⟩)
          exact clean3.frame (frame4.trans frame5) waits
  · next stranger =>
      have unlinked : (s1.proc np).parent ≠ some slot := by simpa using stranger
      refine wp_value sees1 (fun s2 _ sees2 frame2 => ⟨sees2,
        frame1.trans frame2, ?_⟩)
      exact (clean1.visit (fun linked => (unlinked linked).elim)).frame frame2 waits

theorem waitLoop_verified (inv : Inv state)
    (sees : Sees (.proc slot) (View.inCall slot .wait) state) :
    Verified setting (.proc slot) (waitLoop slot addr perf)
      (fun value after => Waited slot addr (.proc slot) value after) state := by
  have waits : .wait ∈ (View.inCall slot .wait).held := mem_cons_self
  unfold waitLoop
  simp only [bind_eq]
  refine wp_first inv sees (NoZombie slot)
    (fun value now => Waited slot addr (.proc slot) value now)
    (fun _ _ _ frame clean => clean.frame frame waits) (fun _ _ _ rely waited => waited.rely rely)
    (fun child new => (new (mem_finRange child)).elim) ?_ ?_ ?_
  · intro np items before _ seen _ clean
    refine wp_mono (wp_waitVisit seen clean) (fun result after _ holds => ?_)
    cases result with
    | some value | none => exact holds
  · intro s1 inv1 sees1 _ clean1
    refine wp_see sees1 (fun s2 inv2 sees2 frame2 => ?_)
    refine wp_see sees2 (fun s3 inv3 sees3 frame3 => ?_)
    have clean3 := (clean1.frame frame2 waits).frame frame3 waits
    split
    · refine wp_releasePlain sees3 (by simp) (by simp)
        (fun s4 inv4 sees4 _ => ?_)
      exact wp_value sees4 (fun _ _ ends _ => ⟨none, none, ends, Or.inl ⟨rfl, rfl, rfl⟩⟩)
    · refine wp_sleep sees3 (below_proc_of_wait slot) (by simp) (by simp) ?_
        (fun s4 inv4 sees4 _ _ => ?_)
      · exact ⟨rfl, rfl, fun child => clean3 child not_mem_nil⟩
      · refine wp_tailCall (fun now rely _ => ?_)
        exact ⟨⟨rfl, (rely.sees _ sees4).1⟩, fun _ _ _ post _ further _ => post.rely further⟩
  · intro value now _ waited
    exact wp_ret (fun _ rely _ => waited.rely rely)

theorem wp_wait_extension {rest : Int -> KProg H α} (sees : Plain slot true .none state)
    (next : ∀ value now, Inv now -> Waited slot addr (.proc slot) value now ->
      Verified setting (.proc slot) (rest value) goal now) :
    Verified setting (.proc slot) ((wait_extension addr perf).bind rest) goal state := by
  unfold wait_extension
  simp only [bind_eq, bind_assoc]
  refine wp_curproc sees (fit_plain _ _ _) (fun s1 inv1 sees1 _ => ?_)
  refine wp_acquire sees1 rfl rfl (fun _ member => by cases member)
    (fun s2 inv2 sees2 _ _ => ?_)
  refine wp_invoke (fun now rely _ => ?_)
  exact ⟨⟨rfl, (rely.sees _ sees2).1⟩, fun value after valid post => next value after valid post⟩

end Collecting

end Kernel
end Xv6
