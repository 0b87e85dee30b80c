import Xv6.Kernel.Statements

namespace Xv6
namespace Kernel

open Conc List Logic Nat Prog State View

/-!
# Sleeping, waking and giving up the processor

The specifications of `sched`, `yield`, `sleep` and `wakeup`, and of the
system calls that look for a process by its pid.  A thread that switches away
resumes with the lock of its process, on any hart, with the interrupt state it
had saved.
-/

variable {H : Type} [DecidableEq H] {setting : Setting H} {spec : Spec H} {α : Type}
  {goal : α -> State H -> Prop} {thread : Thread H} {view : View} {state now : State H}
  {slot : Slot} {lock : Lock} {chan : Chan} {base : Mode} {trap : Trap} {held : List Lock}
  {rest : Unit -> KProg H α}

/-- A process that holds nothing but its own lock. -/
def View.own (slot : Slot) (base : Mode) (trap : Trap) : View :=
  (View.plain (some slot) base trap).push (.proc slot)

/-- A process outside all critical sections. -/
abbrev Plain (slot : Slot) (base : Mode) (trap : Trap) (state : State H) : Prop :=
  Sees (.proc slot) (View.plain (some slot) base trap) state

theorem View.own_pop (slot : Slot) (base : Mode) (trap : Trap) :
    (View.own slot base trap).pop (.proc slot) = View.plain (some slot) base trap :=
  pop_push (fit_plain _ _ _) _

section

variable (frame : Frame thread held state now)

include frame

omit [DecidableEq H]

/-- Data under a lock that is held. -/
theorem Frame.state_eq (member : .proc slot ∈ held) :
    (now.proc slot).state = (state.proc slot).state := by
  rw [(frame.locked slot member).1]

theorem Frame.chan_eq (member : .proc slot ∈ held) :
    (now.proc slot).chan = (state.proc slot).chan := by
  rw [(frame.locked slot member).1]

theorem Frame.doze_eq (member : .proc slot ∈ held) :
    (now.task slot).doze = (state.task slot).doze := by
  rw [(frame.locked slot member).2.1]

theorem Frame.forget : Frame thread [] state now :=
  frame.mono (fun _ => id) (fun _ member => by cases member)

end

omit [DecidableEq H] in
/-- What is kept under more locks is kept under fewer. -/
theorem Frame.push (frame : Frame thread (view.push lock).held state now) :
    Frame thread view.held state now :=
  frame.mono (fun _ => id) (fun _ => mem_cons_of_mem lock)

/-- A thread that is switched to goes on, in the second half of `sched` or at the
start of `forkret`. -/
theorem wp_resume {update : H -> State H -> State H} {intena : H -> State H -> Bool}
    (susp : (state.task slot).susp = true)
    (resumes : ∀ hart now, (now.cpu hart).proc = some slot ->
      update hart now = now.resumed hart slot (intena hart now))
    (saved : ∀ hart now, Rely (.proc slot) state now ->
      (now.task slot).saved = none ∨ (now.task slot).saved = some (intena hart now))
    (next : ∀ before hart now, Inv now ->
      Sees (.proc slot) (View.own slot ⟨intena hart before, (now.task slot).call⟩ .none) now ->
      Frame (.proc slot) [] state now -> (now.proc slot).state = .running ->
      (now.task slot).doze = none ->
      ((state.task slot).Fresh -> (now.task slot).call = .idle) ->
      Wp setting spec (.proc slot) (rest ()) goal now) :
    Wp setting spec (.proc slot) ((Prog.modify update).bind rest) goal state := by
  refine wp_modify (fun s1 rely inv place runs => ?_)
  have waits := rely.susp rfl susp
  have cur : (s1.cpu place).cur = .proc slot := runs
  rcases inv.entering place slot waits cur with ⟨alone, running⟩
  have current := ((inv.cpu place).process slot runs).1
  rw [resumes place s1 current]
  have step : KStep setting.build (.proc slot) place s1 (s1.resumed place slot (intena place s1)) :=
    .resume slot _ rfl runs waits (saved place s1 rely)
  refine ⟨step, next s1 place _ (step.inv inv) ?_ ?_ running ?_ ?_⟩
  · have held : .proc slot ∈ (s1.cpu place).held := by
      rw [alone.held]
      exact mem_singleton_self _
    refine ⟨place, ⟨?_, ?_⟩, ?_⟩
    · simpa [State.resumed, setTask] using cur
    · simp [State.resumed, setTask]
    · simp only [State.resumed, setTask, cpu_setCpu_self]
      exact ⟨alone.held, alone.want, by simp [View.own, push, View.plain,
        (inv.cpu place).sie_off held], fun _ => rfl, current, alone.trap, alone.window,
        alone.user, alone.resv, alone.owed, alone.dispatch,
        by simp [View.own, push, View.plain]⟩
  · have first : Frame (.proc slot) [] s1 (s1.setCpu place { s1.cpu place with
          intena := intena place s1, call := (s1.task slot).call }) :=
      Keeps.harts
    refine rely.frame.trans (first.trans (Keeps.setTask (Rested.refl _) (fun _ _ owner => owner)
      (fun member => by cases member) (fun _ _ => rfl) (fun _ _ _ _ dozes => dozes)))
  · simp only [State.resumed, setTask, Function.update_self]
    cases dozes : (s1.task slot).doze with
    | none => rfl
    | some chan =>
      rcases inv.dozing slot chan dozes with asleep | ⟨resumed, _⟩
      · cases running.symm.trans asleep.1
      · cases waits.symm.trans resumed
  · intro fresh
    have own : (s1.task slot).own = (true, none, .idle) := rely.fresh rfl fresh
    have idle : (s1.task slot).call = .idle := congrArg (fun own => own.2.2) own
    simpa [State.resumed, setTask] using idle

theorem wp_sched (sees : Sees (.proc slot) (View.own slot base trap) state)
    (leaves : (state.proc slot).state ≠ .running)
    (sleeps : ∀ chan, (state.task slot).doze = some chan ->
      (state.proc slot).state = .sleeping ∧ (state.proc slot).chan = some chan)
    (next : ∀ now mode, Inv now -> (Alive (state.proc slot).state -> mode = base) ->
      Sees (.proc slot) (View.own slot mode .none) now ->
      Frame (.proc slot) [] state now -> (now.proc slot).state = .running ->
      (now.task slot).doze = none -> Wp setting spec (.proc slot) (rest ()) goal now) :
    Wp setting spec (.proc slot) (sched.bind rest) goal state := by
  have mine : .proc slot ∈ (View.own slot base trap).held := mem_cons_self
  unfold sched
  simp only [bind_eq, bind_assoc]
  refine wp_curproc sees ((fit_plain _ _ _).push _) (fun s1 inv1 sees1 frame1 => ?_)
  refine wp_sure sees1 (fun s2 hart2 inv2 active2 shown2 frame2 => ?_)
  have held2 : .proc slot ∈ (s2.cpu hart2).held := shown2.held ▸ mine
  have count2 : (s2.cpu hart2).noff = 1 := shown2.noff (inv2.cpu hart2) rfl
  have leaves2 : (s2.proc slot).state ≠ .running := by
    rw [Frame.state_eq (frame1.trans frame2) mine]
    exact leaves
  refine ⟨?_, Or.inl rfl, fun _ => ?_⟩
  · simp [inv2.holding held2, count2, leaves2, (inv2.cpu hart2).sie_off held2]
  refine wp_look ⟨hart2, active2, shown2⟩ (fun s3 hart3 inv3 active3 shown3 frame3 => ?_)
  rw [shown3.intena (Or.inl (cons_ne_nil _ _))]
  refine wp_do ⟨hart3, active3, shown3⟩ (fun s4 hart inv4 active shown frame4 => ?_)
  have frame : Frame (.proc slot) (View.own slot base trap).held state s4 :=
    ((frame1.trans frame2).trans frame3).trans frame4
  refine ⟨.swtchOut slot rfl shown.held shown.want shown.resv shown.owed shown.dispatch
    shown.user ?_ ?_, fun inv5 => ?_⟩
  · rw [frame.state_eq mine]
    exact leaves
  · intro chan dozes
    rw [frame.doze_eq mine] at dozes
    rw [frame.state_eq mine, frame.chan_eq mine]
    exact sleeps chan dozes
  · have waits : ((s4.swtchOut hart slot).task slot).susp = true := by
      simp [swtchOut, setTask]
    have first : Frame (.proc slot) [] s4 (s4.setCpu hart
        { s4.cpu hart with
          cur := .sched hart, trap := .none, window := false, call := .idle }) :=
      Keeps.harts
    have out : Frame (.proc slot) [] s4 (s4.swtchOut hart slot) :=
      first.trans (Keeps.setTask (Rested.refl _) (fun _ _ owner => owner)
        (fun member => by cases member) (fun _ _ => rfl) (fun _ _ _ _ dozes => dozes))
    have noted : (s4.task slot).call = base.call :=
      (active.call_eq inv4 rfl).trans shown.call
    have saves : ((s4.swtchOut hart slot).task slot).saved = some base.irq := by
      simp [swtchOut, setTask, shown.intena (Or.inl (cons_ne_nil _ _)), View.own, push, View.plain]
    refine wp_resume waits (fun _ _ _ => rfl) (fun _ _ rely => ?_)
      (fun _ _ s6 inv6 sees6 frame6 running awake _ => ?_)
    · rcases rely.asleep slot rfl waits with same | fresh
      · exact Or.inr ((congrArg (fun own => own.2.1) same).trans saves)
      · exact Or.inl (congrArg (fun own => own.2.1) fresh)
    refine next s6 _ inv6 (fun alive => ?_) sees6 ((frame.forget.trans out).trans frame6) running
      awake
    have lives : Alive (s4.proc slot).state := by
      rw [frame.state_eq mine]
      exact alive
    have kept : (s6.task slot).call = base.call :=
      ((out.trans frame6).alive slot rfl lives).2.2.trans noted
    rw [kept]
    rfl

/-- A field update under the lock of the process. -/
theorem wp_edit {change : State H -> Proc} (sees : Sees thread (view.push (.proc slot)) state)
    (inert : ∀ now, Inert (now.proc slot) (change now))
    (next : ∀ now, Inv now -> Sees thread (view.push (.proc slot)) now ->
      Frame thread view.held state now ->
      (now.proc slot).state = (state.proc slot).state ->
      (now.proc slot).chan = (state.proc slot).chan ->
      (now.task slot).doze = (state.task slot).doze ->
      Wp setting spec thread (rest ()) goal now) :
    Wp setting spec thread
      ((Prog.modify (fun _ now => setProc now slot (change now))).bind rest) goal state := by
  refine wp_do sees (fun s1 hart inv1 active shown frame1 => ?_)
  have member : .proc slot ∈ (view.push (.proc slot)).held := mem_cons_self
  have held : .proc slot ∈ (s1.cpu hart).held := shown.held ▸ member
  have once := shown.once inv1
  refine ⟨.edit slot _ held (inert s1), fun inv2 => ?_⟩
  have record : (s1.setProc slot (change s1)).proc slot = change s1 := Function.update_self ..
  have dozes : (s1.task slot).doze = (state.task slot).doze := Frame.doze_eq frame1 member
  refine next _ inv2 ⟨hart, active, shown⟩ ?_ ?_ ?_ dozes
  · refine (frame1.push).trans (Keeps.edit once ?_ ?_ ?_)
    all_goals rw [inert s1]
  · rw [record, inert s1]
    exact Frame.state_eq frame1 member
  · rw [record, inert s1]
    exact Frame.chan_eq frame1 member

theorem wp_yield (sees : Plain slot base trap state)
    (next : Next setting spec (.proc slot) (View.plain (some slot) base .none)
      [] state (rest ()) goal) :
    Wp setting spec (.proc slot) (yield.bind rest) goal state := by
  have mine : .proc slot ∈ (View.own slot base trap).held := mem_cons_self
  unfold yield
  simp only [bind_eq, bind_assoc]
  refine wp_curproc sees (fit_plain _ _ _) (fun s1 inv1 sees1 frame1 => ?_)
  refine wp_acquire sees1 rfl rfl (fun _ member => by cases member)
    (fun s2 inv2 sees2 frame2 own => ?_)
  rcases own.own slot rfl rfl with ⟨running2, awake2⟩
  -- Both branches of the test go on with the process RUNNING and its lock held.
  have leave : ∀ s3, Sees (.proc slot) (View.own slot base trap) s3 ->
      Frame (.proc slot) [] state s3 -> (s3.proc slot).state = .running ->
      (s3.task slot).doze = none ->
      Wp setting spec (.proc slot) ((Prog.modify (fun _ now => setProc now slot
          { now.proc slot with state := .runnable })).bind
            (fun _ => sched.bind (fun _ => (release (.proc slot)).bind rest))) goal s3 := by
    intro s3 sees3 frame3 running3 awake3
    refine wp_do sees3 (fun s4 hart inv4 active shown frame4 => ?_)
    have running4 := (Frame.state_eq frame4 mine).trans running3
    have awake4 : (s4.task slot).doze = none := by
      rw [Frame.doze_eq frame4 mine]
      exact awake3
    have given : Frame (.proc slot) [] s4
        (s4.setProc slot { s4.proc slot with state := .runnable }) :=
      Keeps.restate (fun member => by cases member) trivial (by simp [running4]) (by simp)
    refine ⟨.giveUp slot rfl (shown.held ▸ mine) running4, fun inv5 => ?_⟩
    refine wp_sched ⟨hart, active, shown⟩ (by simp [setProc])
      (fun chan dozes => by cases awake4.symm.trans dozes)
      (fun s6 mode inv6 same6 sees6 frame6 running6 awake6 => ?_)
    cases same6 (by simp [setProc, Alive])
    have ready : Releasable (.proc slot) (View.own slot base .none) (.proc slot) s6 :=
      Releasable.push (fit_plain _ _ _) (by simp)
        (fun any same _ => by cases same; exact ⟨rfl, running6, awake6⟩)
        (fun pi same => by cases same)
    refine wp_release sees6 rfl rfl ready (fun s7 inv7 sees7 frame7 => ?_)
    rw [View.own_pop] at sees7
    exact next s7 inv7 sees7 ((frame3.trans frame4.forget).trans
      (given.trans (frame6.trans frame7.forget)))
  refine wp_see sees2 (fun s3 inv3 seen3 frame3 => ?_)
  have start : Frame (.proc slot) [] state s3 := (frame1.trans frame2).trans frame3.forget
  have running3 := (Frame.state_eq frame3 mine).trans running2
  have awake3 : (s3.task slot).doze = none := by
    rw [Frame.doze_eq frame3 mine]
    exact awake2
  refine wp_onlyIf (fun _ => ?_) (fun _ => ?_)
  · refine wp_edit seen3 (fun _ => rfl)
      (fun s4 inv4 sees4 frame4 same _ task => ?_)
    exact leave s4 sees4 (start.trans frame4) (same.trans running3) (by rw [task]; exact awake3)
  · exact leave s3 seen3 start running3 awake3

omit [DecidableEq H] in
/-- What a process has checked under the lock it sleeps with stays so. -/
theorem SleepReady.frame (ready : SleepReady state slot lock chan)
    (frame : Frame thread held state now) (member : lock ∈ held) :
    SleepReady now slot lock chan := by
  cases chan with
  | proc parent =>
    rcases ready with ⟨self, guard, none⟩
    subst guard
    refine ⟨self, rfl, fun child linked dead => ?_⟩
    rw [(frame.family member child).1] at linked
    exact none child linked ((frame.family member child).2.mp dead)
  | ticks => exact ready
  | nread pi | nwrite pi =>
    rcases ready with ⟨guard, still⟩
    subst guard
    refine ⟨rfl, ?_⟩
    rw [frame.pipes pi member]
    exact still
  | other address => trivial

theorem wp_setChan {chosen : Option Chan} (sees : Sees (.proc slot) (View.own slot base trap) state)
    (running : (state.proc slot).state = .running)
    (next : ∀ now, Inv now -> Sees (.proc slot) (View.own slot base trap) now ->
      Frame (.proc slot) [] state now -> (now.proc slot).state = .running ->
      (now.proc slot).chan = chosen -> (now.task slot).doze = (state.task slot).doze ->
      Wp setting spec (.proc slot) (rest ()) goal now) :
    Wp setting spec (.proc slot) ((Prog.modify (fun _ now => setProc now slot
        { now.proc slot with chan := chosen })).bind rest) goal state := by
  have mine : .proc slot ∈ (View.own slot base trap).held := mem_cons_self
  refine wp_do sees (fun s1 hart inv1 active shown frame1 => ?_)
  have running1 := (Frame.state_eq frame1 mine).trans running
  have set : Frame (.proc slot) [] s1 (s1.setProc slot { s1.proc slot with chan := chosen }) :=
    Keeps.edit (fun member => by cases member) rfl rfl rfl
  refine ⟨.setChan slot chosen rfl (shown.held ▸ mine) running1, fun inv2 => ?_⟩
  have dozes : (s1.task slot).doze = (state.task slot).doze := Frame.doze_eq frame1 mine
  exact next _ inv2 ⟨hart, active, shown⟩ (frame1.forget.trans set)
    (by simpa [setProc] using running1) (by simp [setProc]) dozes

theorem wp_sleep (sees : Sees (.proc slot) ((View.plain (some slot) base trap).push lock) state)
    (below : Below lock (.proc slot)) (notProc : ∀ any, lock ≠ .proc any)
    (settled : ∀ pi, lock = .pipe pi -> (state.pipe pi).Settled)
    (checked : SleepReady state slot lock chan) (next : ∀ now, Inv now ->
      Sees (.proc slot) ((View.plain (some slot) base .none).push lock) now ->
      Frame (.proc slot) [] state now -> Taken (.proc slot) lock now ->
      Wp setting spec (.proc slot) (rest ()) goal now) :
    Wp setting spec (.proc slot) ((sleep chan lock).bind rest) goal state := by
  have mine : .proc slot ∈ (View.own slot base trap).held := mem_cons_self
  have fit : ((View.plain (some slot) base trap).push lock).Fit :=
    (fit_plain _ _ _).push lock
  unfold sleep
  simp only [bind_eq, bind_assoc]
  refine wp_curproc sees fit (fun s1 inv1 sees1 frame1 => ?_)
  refine wp_acquire sees1 rfl rfl ?_ (fun s2 inv2 sees2 frame2 own => ?_)
  · intro other member
    rw [mem_singleton.mp member]
    exact below
  rcases own.own slot rfl rfl with ⟨running2, awake2⟩
  have entered := frame1.trans frame2
  have under : lock ∈ ((View.plain (some slot) base trap).push lock).held := mem_cons_self
  have ready : Releasable (.proc slot)
      (((View.plain (some slot) base trap).push lock).push (.proc slot)) lock s2 :=
    { member := mem_cons_of_mem _ under
      resv := Or.inl rfl
      owed := Or.inl rfl
      current := fun any same => (notProc any same).elim
      settled := fun pi same => by
        rw [entered.pipes pi (same ▸ under)]
        exact settled pi same }
  refine wp_sure sees2 (fun s3 hart inv3 active shown frame3 => ?_)
  have both : .proc slot ∈ (((View.plain (some slot) base trap).push lock).push
      (.proc slot)).held := mem_cons_self
  have running3 := (Frame.state_eq frame3 both).trans running2
  have droppable := (ready.frame frame3).droppable shown rfl rfl
  refine ⟨inv3.holding droppable.member,
    Or.inr (.doze slot chan lock rfl (shown.held ▸ both) (notProc slot) droppable running3
      ((checked.frame entered under).frame frame3 (mem_cons_of_mem _ under))), fun inv4 => ?_⟩
  have dozes4 : ((s3.doze hart slot chan lock).task slot).doze = some chan := by
    simp [State.doze, setTask]
  have sees4 : Sees (.proc slot) ((View.own slot base trap).spin none)
      (s3.doze hart slot chan lock) := by
    refine ⟨hart, ⟨?_, ?_⟩, ?_⟩
    · simpa [State.doze, setTask, State.unlock, setLock, Cpu.unlock] using active.1
    · simpa [State.doze, setTask] using active.2
    · have released := shown.unlock (mem_cons_of_mem _ under)
      have same : ((((View.plain (some slot) base trap).push lock).push (.proc slot)).pop
          lock) = View.own slot base trap := by
        simp [View.own, pop, push, View.plain, Ne.symm (notProc slot)]
      rw [same] at released
      simpa [State.doze, setTask, State.unlock, setLock] using released
  have frame4 : Frame (.proc slot) [] state (s3.doze hart slot chan lock) := by
    have freed : Frame (.proc slot) [] s3 (s3.unlock hart lock) := Keeps.harts
    refine ((Frame.forget entered).trans frame3.forget).trans (freed.trans (Keeps.setTask
      ⟨le_succ _, Or.inr (Or.inr (lt_succ_self _))⟩ (fun _ _ owner => owner)
      (fun member => by cases member) (fun _ _ => rfl) (fun _ _ _ member => by cases member)))
  refine wp_pop_off sees4 rfl (fun none => by cases none) (fun s5 inv5 sees5 frame5 => ?_)
  have running5 : (s5.proc slot).state = .running := (Frame.state_eq frame5 mine).trans running3
  have dozes5 := (Frame.doze_eq frame5 mine).trans dozes4
  refine wp_setChan sees5 running5 (fun s6 inv6 sees6 frame6 running6 chosen6 task6 => ?_)
  refine wp_edit sees6 (fun _ => rfl) (fun s7 inv7 sees7 frame7 same7 chan7 task7 => ?_)
  refine wp_do sees7 (fun s8 there inv8 active8 shown8 frame8 => ?_)
  have running8 : (s8.proc slot).state = .running :=
    (Frame.state_eq frame8 mine).trans (same7.trans running6)
  have chosen8 : (s8.proc slot).chan = some chan :=
    (Frame.chan_eq frame8 mine).trans (chan7.trans chosen6)
  have dozes8 : (s8.task slot).doze = some chan := by
    rw [Frame.doze_eq frame8 mine, task7, task6]
    exact dozes5
  refine ⟨.fallAsleep slot chan rfl (shown8.held ▸ mine) running8 dozes8 chosen8, fun inv9 => ?_⟩
  have slept : Frame (.proc slot) [] s8
      (s8.setProc slot { s8.proc slot with state := .sleeping }) :=
    Keeps.restate (fun member => by cases member) trivial (by simp [running8]) (by simp)
  refine wp_sched ⟨there, active8, shown8⟩ (by simp [setProc]) ?_
    (fun s10 mode inv10 same10 sees10 frame10 running10 awake10 => ?_)
  · intro any dozes
    cases dozes8.symm.trans dozes
    exact ⟨by simp [setProc], by simpa [setProc] using chosen8⟩
  cases same10 (by simp [setProc, Alive])
  refine wp_setChan sees10 running10 (fun s11 inv11 sees11 frame11 running11 _ task11 => ?_)
  have ready11 : Releasable (.proc slot) (View.own slot base .none) (.proc slot) s11 :=
    Releasable.push (fit_plain _ _ _) (by simp)
      (fun any same _ => by cases same; exact ⟨rfl, running11, by rw [task11]; exact awake10⟩)
      (fun pi same => by cases same)
  refine wp_release sees11 rfl rfl ready11 (fun s12 inv12 sees12 frame12 => ?_)
  rw [View.own_pop] at sees12
  refine wp_acquire sees12 rfl rfl (fun _ member => by cases member)
    (fun s13 inv13 sees13 frame13 taken => next s13 inv13 sees13 ?_ taken)
  have asleep : Frame (.proc slot) [] state s8 :=
    (((frame4.trans frame5.forget).trans frame6).trans frame7).trans frame8.forget
  exact (asleep.trans slept).trans ((frame10.trans frame11).trans (frame12.forget.trans frame13))

/-! ## Waking -/

/-- Where `wakeup` and the loops over the table run: no process lock is held,
and the current process, if any, is the thread itself. -/
structure View.Scans (view : View) (thread : Thread H) : Prop extends view.Fit where
  below : forall other, other ∈ view.held -> forall slot, Below other (.proc slot)
  own : forall slot, view.proc = some slot -> thread = .proc slot

omit [DecidableEq H] in
theorem View.Scans.notProc (scans : view.Scans thread) : .proc slot ∉ view.held := by
  intro member
  exact lt_irrefl _ (scans.below _ member slot _ _ rfl rfl)

/-- What `wakeup` has achieved when `items` are left to visit. -/
structure Swept (view : View) (chan : Chan) (marks : Slot -> Nat) (items : List Slot)
    (state : State H) : Prop where
  start : forall slot, marks slot ≤ (state.task slot).naps
  later : forall slot, slot ∉ items -> view.proc ≠ some slot ->
    (state.task slot).doze = some chan -> marks slot < (state.task slot).naps
  nobody : forall lock, guardOf chan = some lock -> forall slot, slot ∉ items ->
    (state.task slot).doze ≠ some chan

namespace Swept

variable {marks : Slot -> Nat} {items : List Slot}

omit [DecidableEq H]

theorem frame (swept : Swept view chan marks items state)
    (holds : ∀ lock, guardOf chan = some lock -> lock ∈ view.held)
    (frame : Frame thread view.held state now) : Swept view chan marks items now where
  start slot := le_trans (swept.start slot) (frame.naps slot).1
  later slot visited other dozes := by
    rcases (frame.naps slot).2 with awake | ⟨same, still⟩ | more
    · cases awake.symm.trans dozes
    · rw [still]
      exact swept.later slot visited other (same.symm.trans dozes)
    · exact lt_of_le_of_lt (swept.start slot) more
  nobody lock guards slot visited dozes :=
    swept.nobody lock guards slot visited
      (frame.dozers chan lock slot guards (holds lock guards) dozes)

/-- The visited process does not sleep on the channel. -/
theorem visit (swept : Swept view chan marks (slot :: items) state)
    (awake : (state.task slot).doze ≠ some chan) : Swept view chan marks items state where
  start := swept.start
  later any visited other dozes := by
    by_cases same : any = slot
    · rw [same] at dozes
      exact (awake dozes).elim
    · exact swept.later any (by simp [same, visited]) other dozes
  nobody lock guards any visited := by
    by_cases same : any = slot
    · rw [same]
      exact awake
    · exact swept.nobody lock guards any (by simp [same, visited])

end Swept

/-- The lock of a visited process is given back. -/
theorem wp_releaseVisited (sees : Sees thread (view.push (.proc slot)) state)
    (scans : view.Scans thread) (own : thread = .proc slot -> (state.proc slot).state = .running ∧
      (state.task slot).doze = none) (next : ∀ now, Inv now -> Sees thread view now ->
      Frame thread view.held state now -> Wp setting spec thread (rest ()) goal now) :
    Wp setting spec thread ((release (.proc slot)).bind rest) goal state := by
  have ready : Releasable thread (view.push (.proc slot)) (.proc slot) state := by
    refine Releasable.push scans.toFit (by simp) (fun any same current => ?_)
      (fun pi same => by cases same)
    cases same
    exact ⟨scans.own slot current, own (scans.own slot current)⟩
  refine wp_release sees rfl scans.dispatch ready (fun s1 inv1 sees1 frame1 => ?_)
  rw [pop_push scans.toFit] at sees1 frame1
  exact next s1 inv1 sees1 frame1

/-- `wakeup` and `kill` make a sleeping process runnable. -/
theorem wp_wake (sees : Sees thread (view.push (.proc slot)) state)
    (sleeping : (state.proc slot).state = .sleeping)
    (next : ∀ now, Inv now -> Sees thread (view.push (.proc slot)) now ->
      Frame thread view.held state now -> (now.task slot).doze = none ->
      Wp setting spec thread (rest ()) goal now) :
    Wp setting spec thread ((Prog.modify (fun _ now => State.wake now slot)).bind (fun _ =>
      (Prog.modify (fun _ now => setReady now slot)).bind rest)) goal state := by
  have member : .proc slot ∈ (view.push (.proc slot)).held := mem_cons_self
  refine wp_do sees (fun s1 hart inv1 active shown frame1 => ?_)
  have asleep := (Frame.state_eq frame1 member).trans sleeping
  have once := shown.once inv1
  refine ⟨.wake slot (shown.held ▸ member) asleep, fun inv2 => ?_⟩
  have woken : Frame thread view.held s1 (s1.wake slot) := Keeps.wake once asleep
  have seen : Sees thread (view.push (.proc slot)) (s1.wake slot) :=
    ⟨hart, Active.setTask active (fun self => active.not_susp (active.1.trans self)), shown⟩
  refine wp_edit seen (fun _ => rfl) (fun s3 inv3 sees3 frame3 _ _ task3 => ?_)
  refine next s3 inv3 sees3 ((frame1.push.trans woken).trans frame3) ?_
  rw [task3]
  simp [State.wake, setTask]

theorem wp_wakeupVisit {marks : Slot -> Nat} {items : List Slot}
    (sees : Sees thread view state) (scans : view.Scans thread)
    (holds : ∀ lock, guardOf chan = some lock -> lock ∈ view.held)
    (swept : Swept view chan marks (slot :: items) state) :
    Wp setting spec thread (wakeupVisit chan slot)
      (fun _ after => Sees thread view after ∧ Frame thread view.held state after ∧
        Swept view chan marks items after) state := by
  rw [← bind_ret (wakeupVisit chan slot)]
  unfold wakeupVisit
  simp only [bind_eq, bind_assoc]
  refine wp_myproc sees scans.toFit (fun s1 inv1 sees1 frame1 => ?_)
  have swept1 := swept.frame holds frame1
  by_cases self : view.proc = some slot
  · -- The caller skips itself; it does not sleep.
    rw [if_pos self]
    have awake : (s1.task slot).doze = none := by
      rcases sees1 with ⟨hart1, active1, shown1⟩
      have cur : (s1.cpu hart1).cur = .proc slot := active1.1.trans (scans.own slot self)
      exact inv1.awake_of_unheld cur (shown1.held ▸ scans.notProc)
    have done := swept1.visit (by rw [awake]; simp)
    exact wp_value sees1 (fun s2 _ sees2 frame2 =>
      ⟨sees2, frame1.trans frame2, done.frame holds frame2⟩)
  · rw [if_neg self]
    simp only [bind_assoc]
    refine wp_acquire sees1 scans.want scans.window
      (fun other member => scans.below other member slot) (fun s2 inv2 sees2 frame2 own2 => ?_)
    have mine : .proc slot ∈ (view.push (.proc slot)).held := mem_cons_self
    have finish : ∀ s5, Sees thread (view.push (.proc slot)) s5 ->
        Frame thread view.held state s5 -> (s5.task slot).doze ≠ some chan ->
        Swept view chan marks (slot :: items) s5 ->
        (thread = .proc slot -> (s5.proc slot).state = .running ∧ (s5.task slot).doze = none) ->
        Wp setting spec thread ((release (.proc slot)).bind Prog.ret)
          (fun _ after => Sees thread view after ∧ Frame thread view.held state after ∧
            Swept view chan marks items after) s5 := by
      intro s5 sees5 frame5 awake5 swept5 own5
      refine wp_releaseVisited sees5 scans own5 (fun s6 inv6 sees6 frame6 => ?_)
      have done := (swept5.visit awake5).frame holds frame6
      exact wp_value sees6 (fun s7 _ sees7 frame7 =>
        ⟨sees7, (frame5.trans frame6).trans frame7, done.frame holds frame7⟩)
    refine wp_look sees2 (fun s3 hart3 inv3 active3 shown3 frame3 => ?_)
    have frame : Frame thread view.held state s3 := (frame1.trans frame2).trans frame3.push
    have swept3 := swept.frame holds frame
    have held3 : .proc slot ∈ (s3.cpu hart3).held := shown3.held ▸ mine
    have apart : thread ≠ .proc slot := by
      intro same
      have current := ((inv3.cpu hart3).process slot (active3.1.trans same)).1
      rw [shown3.proc] at current
      exact self current
    refine wp_onlyIf (fun sleeps => ?_) (fun awake => ?_)
    · have asleep : (s3.proc slot).state = .sleeping := by
        simp only [Bool.and_eq_true, beq_iff_eq] at sleeps
        exact sleeps.1
      simp only [bind_assoc]
      refine wp_wake ⟨hart3, active3, shown3⟩ asleep (fun s4 inv4 sees4 frame4 woken4 => ?_)
      refine finish s4 sees4 (frame.trans frame4) (by rw [woken4]; simp)
        (swept3.frame holds frame4) (fun same => (apart same).elim)
    · refine finish s3 ⟨hart3, active3, shown3⟩ frame ?_ swept3 (fun same => (apart same).elim)
      intro dozes
      rcases inv3.dozing slot chan dozes with asleep | ⟨_, there, cur, held⟩
      · simp [asleep] at awake
      · rw [inv3.held_unique held held3] at cur
        exact apart (active3.1.symm.trans cur)

/-- A completed `wakeup` of `initproc` delivers what was owed to it. -/
def View.settled (view : View) (chan : Chan) : View :=
  if chan = .proc initproc then { view with owed := false } else view

theorem View.settled_of_not_owed (paid : view.owed = false) : view.settled chan = view := by
  unfold settled
  split
  · rw [← paid]
  · rfl

/-- The last step of `wakeup`, when all processes have been visited. -/
theorem Active.sees_woke {hart : H} {marks : Slot -> Nat} (active : Active thread hart state)
    (shown : Shows view (state.cpu hart)) :
    Sees thread (view.settled chan) (state.woke hart chan marks) := by
  unfold settled
  split
  · next same =>
      subst same
      simp only [woke, if_pos]
      exact active.sees_setCpu rfl rfl { shown with owed := rfl }
  · next different =>
      refine ⟨hart, ?_⟩
      cases chan with
      | proc target =>
        rw [woke, if_neg (fun same => different (congrArg Chan.proc same))]
        exact ⟨active, shown⟩
      | nread pi | nwrite pi | ticks | other address => exact ⟨active, shown⟩

section

variable (sees : Sees thread view state) (scans : view.Scans thread)

include sees scans

theorem wp_wakeup (holds : ∀ lock, guardOf chan = some lock -> lock ∈ view.held)
    (next : ∀ before hart marks, Frame thread view.held state before ->
      (∀ lock, guardOf chan = some lock -> ∀ slot, (before.task slot).doze ≠ some chan) ->
      Inv (before.woke hart chan marks) ->
      Sees thread (view.settled chan) (before.woke hart chan marks) ->
      Wp setting spec thread (rest ()) goal (before.woke hart chan marks)) :
    Wp setting spec thread ((wakeup chan).bind rest) goal state := by
  unfold wakeup
  simp only [bind_eq, bind_assoc]
  refine wp_see sees (fun s1 inv1 sees1 frame1 => ?_)
  let marks := fun slot => (s1.task slot).naps
  refine wp_each inv1 sees1 (Swept view chan marks)
    (fun _ _ _ frame swept => swept.frame holds frame) ?_ ?_
    (fun s2 inv2 sees2 frame2 swept2 => ?_)
  · exact ⟨fun _ => le_refl _, fun slot new => (new (mem_finRange slot)).elim,
      fun _ _ slot new => (new (mem_finRange slot)).elim⟩
  · intro slot items before _ seen _ swept
    exact wp_wakeupVisit seen scans holds swept
  · refine wp_do sees2 (fun s3 hart inv3 active shown frame3 => ?_)
    have swept := swept2.frame holds frame3
    refine ⟨.woke chan marks ⟨swept.start, ?_, ?_⟩, fun inv4 => ?_⟩
    · intro slot other
      rw [shown.proc] at other
      exact swept.later slot not_mem_nil other
    · intro lock guards
      exact ⟨shown.held ▸ holds lock guards, fun slot => swept.nobody lock guards slot not_mem_nil⟩
    · exact next s3 hart marks ((frame1.trans frame2).trans frame3)
        (fun lock guards slot => swept.nobody lock guards slot not_mem_nil) inv4
        (active.sees_woke shown)

/-- `wakeup` on a channel that is not a pipe's. -/
theorem wp_wakeup_unpiped (holds : ∀ lock, guardOf chan = some lock -> lock ∈ view.held)
    (notRead : ∀ pi, chan ≠ .nread pi) (notWrite : ∀ pi, chan ≠ .nwrite pi)
    (next : ∀ now, Inv now -> Sees thread (view.settled chan) now ->
      Frame thread view.held state now ->
      (∀ lock, guardOf chan = some lock -> ∀ slot, (now.task slot).doze ≠ some chan) ->
      Wp setting spec thread (rest ()) goal now) :
    Wp setting spec thread ((wakeup chan).bind rest) goal state := by
  refine wp_wakeup sees scans holds (fun before hart marks frame nobody inv seen => ?_)
  have unchanged : Frame thread view.held before (before.woke hart chan marks) ∧
      (before.woke hart chan marks).task = before.task := by
    cases chan with
    | proc target =>
      simp only [woke]
      split
      · exact ⟨Keeps.harts, rfl⟩
      · exact ⟨Keeps.harts, rfl⟩
    | nread pi => exact (notRead pi rfl).elim
    | nwrite pi => exact (notWrite pi rfl).elim
    | ticks | other address => exact ⟨Keeps.harts, rfl⟩
  refine next _ inv seen (frame.trans unchanged.1) ?_
  rw [unchanged.2]
  exact nobody

/-! ## Requests on other processes -/

theorem wp_killVisit {pid : Int} : Wp setting spec thread (killVisit pid slot)
      (fun _ after => Sees thread view after ∧ Frame thread view.held state after) state := by
  have finish : ∀ (result : Option Unit) s5, Sees thread (view.push (.proc slot)) s5 ->
      Frame thread view.held state s5 ->
      (thread = .proc slot -> (s5.proc slot).state = .running ∧ (s5.task slot).doze = none) ->
      Wp setting spec thread ((release (.proc slot)).bind (fun _ => .ret result))
        (fun _ after => Sees thread view after ∧ Frame thread view.held state after) s5 := by
    intro result s5 sees5 frame5 own5
    refine wp_releaseVisited sees5 scans own5 (fun s6 inv6 sees6 frame6 => ?_)
    exact wp_value sees6 (fun s7 _ sees7 frame7 =>
      ⟨sees7, (frame5.trans frame6).trans frame7⟩)
  have mine : .proc slot ∈ (view.push (.proc slot)).held := mem_cons_self
  unfold killVisit
  simp only [bind_eq, pure_eq]
  refine wp_acquire sees scans.want scans.window
    (fun other member => scans.below other member slot) (fun s1 inv1 sees1 frame1 taken => ?_)
  refine wp_see sees1 (fun s2 inv2 sees2 frame2 => ?_)
  have own2 : thread = .proc slot ->
      (s2.proc slot).state = .running ∧ (s2.task slot).doze = none := by
    intro self
    rw [frame2.state_eq mine, frame2.doze_eq mine]
    exact taken.own slot self rfl
  split
  · refine wp_edit sees2 (fun _ => rfl)
      (fun s3 inv3 sees3 frame3 same3 _ task3 => ?_)
    have own3 : thread = .proc slot ->
        (s3.proc slot).state = .running ∧ (s3.task slot).doze = none := by
      intro self
      rw [same3, task3]
      exact own2 self
    refine wp_see sees3 (fun s4 inv4 sees4 frame4 => ?_)
    have own4 : thread = .proc slot ->
        (s4.proc slot).state = .running ∧ (s4.task slot).doze = none := by
      intro self
      rw [frame4.state_eq mine, frame4.doze_eq mine]
      exact own3 self
    have frame := ((frame1.trans frame2.push).trans frame3).trans frame4.push
    refine wp_onlyIf (fun sleeps => ?_) (fun _ => ?_)
    · have asleep : (s4.proc slot).state = .sleeping := by simpa using sleeps
      simp only [bind_assoc]
      refine wp_wake sees4 asleep (fun s5 inv5 sees5 frame5 _ => ?_)
      refine finish _ s5 sees5 (frame.trans frame5) (fun self => ?_)
      cases asleep.symm.trans (own4 self).1
    · exact finish _ s4 sees4 frame own4
  · exact finish _ s2 sees2 (frame1.trans frame2.push) own2

end

theorem wp_kill {pid : Int} {rest : Int -> KProg H α} (inv : Inv state)
    (sees : Sees thread view state) (scans : view.Scans thread)
    (next : ∀ value, Next setting spec thread view view.held state (rest value) goal) :
    Wp setting spec thread ((kill pid).bind rest) goal state := by
  unfold kill
  simp only [bind_eq, bind_assoc]
  refine wp_first inv sees (fun _ _ => True)
    (fun _ now => Sees thread view now ∧ Frame thread view.held state now)
    (fun _ _ _ _ => id) ?_ trivial ?_ ?_ ?_
  · rintro _ before after rely ⟨seen, frame⟩
    rcases rely.sees view seen with ⟨still, kept⟩
    exact ⟨still, frame.trans kept⟩
  · intro slot items before _ seen frame _
    refine wp_mono (wp_killVisit seen scans) (fun result after _ holds => ?_)
    cases result with
    | some value => exact ⟨holds.1, frame.trans holds.2⟩
    | none => exact ⟨holds.1, holds.2, trivial⟩
  · intro now valid seen frame _
    exact next (-1) now valid seen frame
  · intro _ now valid holds
    exact next 0 now valid holds.1 holds.2

theorem wp_trace {mask pid : Int} {rest : Int -> KProg H α} (inv : Inv state)
    (sees : Sees thread view state) (scans : view.Scans thread)
    (next : ∀ value, Next setting spec thread view view.held state (rest value) goal) :
    Wp setting spec thread ((trace mask pid).bind rest) goal state := by
  unfold trace
  simp only [bind_eq, bind_assoc]
  refine wp_each inv sees (fun _ _ => True) (fun _ _ _ _ => id) trivial ?_
    (fun now valid seen frame _ => next 0 now valid seen frame)
  intro slot items before _ seen _ _
  rw [← bind_ret (traceVisit mask pid slot)]
  unfold traceVisit
  simp only [bind_eq, bind_assoc]
  have mine : .proc slot ∈ (view.push (.proc slot)).held := mem_cons_self
  refine wp_acquire seen scans.want scans.window
    (fun other member => scans.below other member slot) (fun s1 inv1 sees1 frame1 taken => ?_)
  refine wp_see sees1 (fun s2 inv2 sees2 frame2 => ?_)
  have own2 : thread = .proc slot ->
      (s2.proc slot).state = .running ∧ (s2.task slot).doze = none := by
    intro self
    rw [frame2.state_eq mine, frame2.doze_eq mine]
    exact taken.own slot self rfl
  refine wp_onlyIf (fun _ => ?_) (fun _ => ?_)
  · refine wp_edit sees2 (fun _ => rfl) (fun s3 inv3 sees3 frame3 same3 _ task3 => ?_)
    refine wp_releaseVisited sees3 scans ?_ (fun s4 inv4 sees4 frame4 => ?_)
    · intro self
      rw [same3, task3]
      exact own2 self
    · exact wp_value sees4 (fun s5 _ sees5 frame5 => ⟨sees5,
        ((((frame1.trans frame2.push).trans frame3).trans frame4).trans frame5), trivial⟩)
  · refine wp_releaseVisited sees2 scans own2 (fun s3 inv3 sees3 frame3 => ?_)
    exact wp_value sees3 (fun s4 _ sees4 frame4 => ⟨sees4,
      ((frame1.trans frame2.push).trans frame3).trans frame4, trivial⟩)

theorem wp_set_priority {prio : Int} {rest : Int -> KProg H α} (inv : Inv state)
    (sees : Sees (.proc slot) view state) (scans : view.Scans (.proc slot : Thread H))
    (next : ∀ value, Next setting spec (.proc slot) view view.held state (rest value) goal) :
    Wp setting spec (.proc slot) ((set_priority prio).bind rest) goal state := by
  unfold set_priority
  split
  · exact next (-1) state inv sees (Keeps.refl state)
  · simp only [bind_eq, bind_assoc]
    refine wp_curproc sees scans.toFit (fun s1 inv1 sees1 frame1 => ?_)
    refine wp_acquire sees1 scans.want scans.window
      (fun other member => scans.below other member slot) (fun s2 inv2 sees2 frame2 taken => ?_)
    refine wp_edit sees2 (fun _ => rfl) (fun s3 inv3 sees3 frame3 same3 _ task3 => ?_)
    refine wp_releaseVisited sees3 scans ?_ (fun s4 inv4 sees4 frame4 => ?_)
    · intro _
      rw [same3, task3]
      exact taken.own slot rfl rfl
    · exact next 0 s4 inv4 sees4 (((frame1.trans frame2).trans frame3).trans frame4)

end Kernel
end Xv6
