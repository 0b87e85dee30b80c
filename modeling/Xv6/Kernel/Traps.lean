import Xv6.Kernel.Family

namespace Xv6
namespace Kernel

open Conc List Logic Prog

/-!
# The clock, system calls and traps

A timer trap on the first hart advances the clock and every process's
counters, in the order of the table.  Unless the build is FCFS, each timer trap
then tests the quantum of its own current process before it ends.  Between the
two the hart holds no lock, so the bookkeeping records how far it has come.
-/

variable {H : Type} [DecidableEq H] {setting : Setting H} {α : Type} {goal : α -> State H -> Prop}
  {thread : Thread H} {view : View} {state now : State H} {slot : Slot} {proc : Option Slot}
  {base : Mode} {trap : Trap} {irq : Bool} {call : Call} {rest : Unit -> KProg H α} {hart : H}

/-- The current process of the hart is the thread itself, or there is none and
the thread is a scheduler. -/
def Fits (proc : Option Slot) (thread : Thread H) : Prop :=
  forall slot, proc = some slot <-> thread = .proc slot

omit [DecidableEq H] in
theorem Fits.scans (fits : Fits proc thread) (base : Mode) (trap : Trap) :
    (View.plain proc base trap).Scans thread where
  toFit := View.fit_plain _ _ _
  below _ member := by cases member
  own slot same := (fits slot).mp same

theorem below_proc_of_ticks (slot : Slot) : Below .ticks (.proc slot) := by
  intro low high first second
  cases first
  cases second
  exact Nat.lt_of_lt_of_le (by decide) (Nat.le_add_right 2 _)

/-- Inside `clockintr`. -/
def View.inClock (proc : Option Slot) (call : Call) (trap : Trap) : View :=
  (View.plain proc ⟨false, call⟩ trap).push .ticks

omit [DecidableEq H] in
theorem Fits.scans_inClock (fits : Fits proc thread) (trap : Trap) :
    (View.inClock proc call trap).Scans thread :=
  (fits.scans ⟨false, call⟩ trap).push below_proc_of_ticks

/-! ## The clock -/

theorem wp_tickVisit (fits : Fits proc thread)
    (sees : Sees thread (View.inClock proc call (.ticking slot.val)) state) :
    Verified setting thread (tickVisit slot)
      (fun _ after => Sees thread (View.inClock proc call (.ticking (slot.val + 1))) after ∧
        Frame thread [] state after) state := by
  have scans : (View.inClock proc call (.ticking slot.val)).Scans thread :=
    fits.scans_inClock _
  have mine : .proc slot ∈ ((View.inClock proc call (.ticking slot.val)).push (.proc slot)).held :=
    mem_cons_self
  rw [← bind_ret (tickVisit slot)]
  unfold tickVisit
  simp only [bind_eq, bind_assoc]
  refine wp_acquire sees rfl rfl (fun other member => scans.below other member slot)
    (fun s1 inv1 sees1 frame1 taken => ?_)
  refine wp_do sees1 (fun s2 hart inv2 active shown frame2 => ?_)
  refine ⟨.tick slot (shown.held ▸ mine) (shown.intena (Or.inl (cons_ne_nil _ _)))
    shown.trap shown.dispatch ?_, fun inv3 => ?_⟩
  · intro other self
    rw [shown.proc]
    cases current : proc with
    | none => rfl
    | some any => cases self.symm.trans ((fits any).mp current)
  · have ticks : Frame thread [] s2 (s2.tick hart slot) := by
      rcases (s2.proc slot).ticked_eq with ⟨_, _, _, _, same⟩
      have first : Frame thread [] s2
          (s2.setCpu hart { s2.cpu hart with trap := .ticking (slot.val + 1) }) :=
        Keeps.harts
      refine first.trans (Keeps.edit (fun member => by cases member) ?_ ?_ ?_)
      all_goals rw [same]; rfl
    have sees3 : Sees thread
        ((View.inClock proc call (.ticking (slot.val + 1))).push (.proc slot))
        (s2.tick hart slot) := by
      have noted : Sees thread
          ((View.inClock proc call (.ticking (slot.val + 1))).push (.proc slot))
          (s2.setCpu hart { s2.cpu hart with trap := .ticking (slot.val + 1) }) :=
        active.sees_setCpu rfl rfl { shown with trap := rfl }
      exact noted
    refine wp_releaseVisited sees3 (fits.scans_inClock _) ?_ (fun s4 inv4 sees4 frame4 => ?_)
    · intro self
      have own := taken.own slot self rfl
      rw [← frame2.state_eq mine, ← frame2.doze_eq mine] at own
      simpa [State.tick, State.setProc, State.setCpu, Proc.ticked_state] using own
    · exact wp_value sees4 (fun s5 _ sees5 frame5 => ⟨sees5,
        (((frame1.forget.trans frame2.forget).trans ticks).trans frame4.forget).trans
          frame5.forget⟩)

/-- The loop of `update_clock_ticks` visits the table in order. -/
theorem wp_update_clock_ticks (inv : Inv state) (fits : Fits proc thread)
    (sees : Sees thread (View.inClock proc call (.ticking 0)) state)
    (next : Next setting contract thread (View.inClock proc call (.ticking NPROC))
      [] state (rest ()) goal) :
    Verified setting thread (update_clock_ticks.bind rest) goal state := by
  unfold update_clock_ticks
  refine wp_bind coherent inv (wp_mono (wp_forEach coherent
    (fun items now => ∃ visited, items = slots.drop visited ∧ visited ≤ NPROC ∧
      Sees thread (View.inClock proc call (.ticking visited)) now ∧ Frame thread [] state now)
    ?_ ?_ inv ⟨0, rfl, Nat.zero_le _, sees, Keeps.refl state⟩) ?_)
  · rintro items before after rely ⟨visited, left, bound, seen, frame⟩
    exact ⟨visited, left, bound, (rely.sees _ seen).1, frame.trans rely.frame⟩
  · rintro slot items before _ ⟨visited, left, bound, seen, frame⟩
    have index : slot.val = visited ∧ items = slots.drop (visited + 1) ∧ visited < NPROC := by
      have inside : visited < slots.length := by
        by_contra outside
        rw [drop_of_length_le (Nat.le_of_not_lt outside)] at left
        cases left
      rw [drop_eq_getElem_cons inside] at left
      cases left
      simp only [slots, length_finRange] at inside
      exact ⟨by simp [slots], rfl, inside⟩
    rcases index with ⟨rfl, tail, inside⟩
    refine wp_mono (wp_tickVisit fits seen) (fun _ after _ holds => ?_)
    exact ⟨slot.val + 1, tail, inside, holds.1, frame.trans holds.2⟩
  · rintro _ now valid ⟨visited, left, bound, seen, frame⟩
    have all : visited = NPROC := by
      have length := congrArg List.length left
      simp only [slots, length_nil, length_drop, length_finRange] at length
      omega
    rw [all] at seen
    exact next now valid seen frame

theorem wp_clockintr (fits : Fits proc thread)
    (sees : Sees thread (View.plain proc ⟨false, call⟩ .entered) state)
    (next : Next setting contract thread (View.plain proc ⟨false, call⟩ (.ticking NPROC))
      [] state (rest ()) goal) :
    Verified setting thread (clockintr.bind rest) goal state := by
  have mine : ∀ trap, .ticks ∈ (View.inClock proc call trap).held :=
    fun _ => mem_cons_self
  unfold clockintr
  simp only [bind_eq, bind_assoc]
  refine wp_acquire sees rfl rfl (fun _ member => by cases member)
    (fun s1 inv1 sees1 frame1 _ => ?_)
  refine wp_do sees1 (fun s2 hart inv2 active shown frame2 => ?_)
  refine ⟨.tickStart (shown.held ▸ mine _) (shown.intena (Or.inl (cons_ne_nil _ _)))
    shown.trap, fun inv3 => ?_⟩
  have sees3 : Sees thread (View.inClock proc call (.ticking 0)) (s2.tickStart hart) := by
    have noted : Sees thread (View.inClock proc call (.ticking 0))
        (s2.setCpu hart { s2.cpu hart with trap := .ticking 0 }) :=
      active.sees_setCpu rfl rfl { shown with trap := rfl }
    exact noted
  have started : Frame thread [] s2 (s2.tickStart hart) := by
    have same : Frame thread [] s2 s2 := Keeps.refl s2
    exact { same with clock := fun member => by cases member }
  refine wp_update_clock_ticks inv3 fits sees3 (fun s4 inv4 sees4 frame4 => ?_)
  refine wp_wakeup_unpiped sees4 (fits.scans_inClock _) ?_ (by simp) (by simp)
    (fun s5 inv5 sees5 frame5 _ => ?_)
  · intro lock guards
    cases guards
    exact mine _
  · rw [View.settled_of_not_owed rfl] at sees5
    refine wp_releasePlain sees5 (by simp) (by simp) (fun s6 inv6 sees6 frame6 => ?_)
    exact next s6 inv6 sees6 ((((frame1.trans frame2.forget).trans started).trans frame4).trans
      (frame5.forget.trans frame6))

/-- What a handled interrupt leaves of the trap. -/
def Handled (irq : Irq) (trap : Trap) : Prop :=
  trap = .entered ∨ irq.isTimer = true ∧ trap = .ticking NPROC

theorem wp_devintr {irq : Irq} (fits : Fits proc thread)
    (sees : Sees thread (View.plain proc ⟨false, call⟩ .entered) state)
    (next : ∀ now trap, Inv now -> Handled irq trap ->
      Sees thread (View.plain proc ⟨false, call⟩ trap) now -> Frame thread [] state now ->
      Verified setting thread (rest ()) goal now) :
    Verified setting thread ((devintr setting irq).bind rest) goal state := by
  cases irq with
  | timer =>
    simp only [devintr, bind_eq, bind_assoc]
    refine wp_look sees (fun s1 hart1 inv1 active1 shown1 frame1 => ?_)
    refine wp_onlyIf (fun _ => ?_) (fun _ => ?_)
    · refine wp_clockintr fits ⟨hart1, active1, shown1⟩ (fun s2 inv2 sees2 frame2 => ?_)
      exact next s2 _ inv2 (Or.inr ⟨rfl, rfl⟩) sees2 (frame1.trans frame2)
    · exact next s1 _ inv1 (Or.inl rfl) ⟨hart1, active1, shown1⟩ frame1
  | device address chan =>
    simp only [devintr, bind_eq, bind_assoc]
    refine wp_acquire sees rfl rfl (fun _ member => by cases member)
      (fun s1 inv1 sees1 frame1 _ => ?_)
    refine wp_wakeup_unpiped sees1
      ((fits.scans ⟨false, call⟩ .entered).push (below_proc_of_other address))
      (fun _ same => by cases same) (by simp) (by simp) (fun s2 inv2 sees2 frame2 _ => ?_)
    rw [View.settled_of_not_owed rfl] at sees2
    refine wp_releasePlain sees2 (by simp) (by simp) (fun s3 inv3 sees3 frame3 => ?_)
    exact next s3 _ inv3 (Or.inl rfl) sees3 ((frame1.trans frame2.forget).trans frame3)

/-! ## Preemption -/

omit [DecidableEq H] in
/-- Outside all critical sections a hart is quiet. -/
theorem Shows.quiet {cpu : Cpu H} {window : Bool}
    (shown : Shows { View.plain proc base trap with window := window } cpu) : cpu.Quiet :=
  ⟨shown.held, shown.want, shown.resv, shown.owed, shown.dispatch, shown.user⟩

/-- The test of the quantum.  A negative outcome is recorded. -/
theorem wp_quantumTest {test : H -> State H -> Bool} {rest : Bool -> KProg H α}
    (tests : setting.build ≠ .FCFS) (sees : Sees thread (View.plain proc ⟨false, call⟩ trap) state)
    (unused : ∀ hart now, test hart now = false -> ∀ slot,
      (now.cpu hart).proc = some slot -> (now.proc slot).state = .running ->
        (now.proc slot).tickcounter ≠ QUANTUM)
    (full : ∀ now hart, Inv now -> Active thread hart now ->
      Shows (View.plain proc ⟨false, call⟩ trap) (now.cpu hart) -> Frame thread [] state now ->
      test hart now = true -> Verified setting thread (rest true) goal now)
    (spare : ∀ now, Inv now ->
      Sees thread { View.plain proc ⟨false, call⟩ trap with window := true } now ->
      Frame thread [] state now -> Verified setting thread (rest false) goal now) :
    Verified setting thread ((quantumTest test).bind rest) goal state := by
  intro now rely inv place runs value after result
  rcases rely.sees _ sees with ⟨seen, frame⟩
  rcases seen.at_place inv runs with ⟨active, shown⟩
  dsimp only at result
  split at result
  · next passed =>
      cases result
      exact ⟨Or.inl rfl, full now place inv active shown frame passed⟩
  · next failed =>
      cases result
      have quiet : (now.cpu place).Quiet :=
        ⟨shown.held, shown.want, shown.resv, shown.owed, shown.dispatch, shown.user⟩
      have masked : (now.cpu place).sie = false := shown.sie
      have act : Act setting.build thread place now (now.spared place) :=
        .spared tests quiet masked (unused place now (by simpa using failed))
      refine ⟨Or.inr (.act active act), spare _ (act.inv inv active) ?_ (frame.trans ?_)⟩
      · exact active.sees_setCpu rfl rfl { shown with window := rfl }
      · exact Keeps.harts

theorem wp_timerDone {yielded window : Bool}
    (sees : Sees thread { View.plain proc ⟨false, call⟩ trap with window := window } state)
    (settled : ∀ visited, trap = .ticking visited -> window = true)
    (tested : yielded = false -> window = true)
    (next : Next setting contract thread (View.plain proc ⟨false, call⟩ .none)
      [] state (rest ()) goal) :
    Verified setting thread
      ((Prog.modify (fun hart now => State.timerDone now hart yielded)).bind rest) goal
      state := by
  refine wp_do sees (fun s1 hart inv1 active shown frame1 => ?_)
  refine ⟨.timerDone yielded shown.quiet shown.sie ?_ ?_, fun inv2 => next _ inv2 ?_ ?_⟩
  · intro _ visited same
    exact shown.window.trans (settled visited (shown.trap.symm.trans same))
  · exact fun none => shown.window.trans (tested none)
  · have noted : Sees thread (View.plain proc ⟨false, call⟩ .none)
        (s1.setCpu hart { s1.cpu hart with trap := .none, window := false }) :=
      active.sees_setCpu rfl rfl { shown with trap := rfl, window := rfl }
    exact noted
  · exact frame1.trans (Keeps.same rfl rfl rfl rfl rfl (fun _ => mem_cons_of_mem _))

/-- The trap may end: in the builds with preemption the quantum has been
tested since the counters advanced. -/
def Settled (build : Build) (trap : Trap) : Prop :=
  build ≠ .FCFS -> forall visited, trap ≠ .ticking visited

theorem wp_preempt {test : H -> State H -> Bool} (inv : Inv state) (fits : Fits proc thread)
    (sees : Sees thread (View.plain proc ⟨false, call⟩ trap) state)
    (unused : ∀ hart now, test hart now = false -> ∀ slot,
      (now.cpu hart).proc = some slot -> (now.proc slot).state = .running ->
        (now.proc slot).tickcounter ≠ QUANTUM)
    (current : ∀ hart now, test hart now = true -> (now.cpu hart).proc ≠ none)
    (next : ∀ now trap, Inv now -> Settled setting.build trap ->
      Sees thread (View.plain proc ⟨false, call⟩ trap) now -> Frame thread [] state now ->
      Verified setting thread (rest ()) goal now) :
    Verified setting thread ((preempt setting test).bind rest) goal state := by
  unfold preempt
  split
  · next fcfs =>
      exact next state trap inv (fun other => (other fcfs).elim) sees (Keeps.refl state)
  · next tests =>
      simp only [bind_eq, bind_assoc]
      refine wp_quantumTest tests sees unused ?_ ?_
      · intro s1 hart inv1 active shown frame1 passed
        cases own : proc with
        | none => exact (current hart s1 passed (shown.proc.trans own)).elim
        | some slot =>
          have self := (fits slot).mp own
          subst self own
          refine wp_onlyIf (fun _ => ?_) (fun not => by cases not)
          refine wp_yield ⟨hart, active, shown⟩ (fun s2 inv2 sees2 frame2 => ?_)
          refine wp_timerDone sees2 (fun _ same => by cases same) (fun not => by cases not)
            (fun s3 inv3 sees3 frame3 => ?_)
          exact next s3 .none inv3 (fun _ _ same => by cases same) sees3
            ((frame1.trans frame2).trans frame3)
      · intro s1 inv1 sees1 frame1
        refine wp_onlyIf (fun not => by cases not) (fun _ => ?_)
        refine wp_timerDone sees1 (fun _ _ => rfl) (fun _ => rfl)
          (fun s2 inv2 sees2 frame2 => ?_)
        exact next s2 .none inv2 (fun _ _ same => by cases same) sees2 (frame1.trans frame2)

section

omit [DecidableEq H]

theorem userFull_unused (failed : userFull hart now = false) (slot : Slot)
    (current : (now.cpu hart).proc = some slot) :
    (now.proc slot).state = .running -> (now.proc slot).tickcounter ≠ QUANTUM := by
  intro _
  simpa [userFull, current] using failed

theorem kernelFull_unused (failed : kernelFull hart now = false) (slot : Slot)
    (current : (now.cpu hart).proc = some slot) (running : (now.proc slot).state = .running) :
    (now.proc slot).tickcounter ≠ QUANTUM := by
  simpa [kernelFull, current, running] using failed

theorem userFull_current (passed : userFull hart now = true) : (now.cpu hart).proc ≠ none := by
  intro idle
  simp [userFull, idle] at passed

theorem kernelFull_current (passed : kernelFull hart now = true) : (now.cpu hart).proc ≠ none := by
  intro idle
  simp [kernelFull, idle] at passed

end

/-! ## Entering and leaving the kernel -/

theorem wp_trapped {user : Bool}
    (sees : Sees thread { View.plain proc ⟨irq, call⟩ .none with user := user } state)
    (taken : irq = true ∨ user = true)
    (next : Next setting contract thread (View.plain proc ⟨false, call⟩ .entered)
      [] state (rest ()) goal) :
    Verified setting thread
      ((Prog.modify (fun hart now => State.trapped now hart)).bind rest) goal state := by
  refine wp_do sees (fun s1 hart inv1 active shown frame1 => ?_)
  refine ⟨.trapped ?_ shown.held shown.want, fun inv2 => next _ inv2 ?_ ?_⟩
  · rcases taken with on | mode
    · refine Or.inl (shown.sie.trans ?_)
      simp [View.plain, on]
    · exact Or.inr (shown.user.trans mode)
  · refine active.sees_setCpu rfl rfl
      { shown with sie := rfl, intena := ?_, trap := rfl, user := rfl }
    intro busy
    simp [View.plain] at busy
  · exact frame1.trans Keeps.harts

theorem wp_enable (sees : Sees thread (View.plain proc ⟨irq, call⟩ trap) state)
    (settled : Settled setting.build trap)
    (next : Next setting contract thread (View.plain proc ⟨true, call⟩ .none)
      [] state (rest ()) goal) :
    Verified setting thread
      ((Prog.modify (fun hart now => State.enable now hart)).bind rest) goal state := by
  refine wp_do sees (fun s1 hart inv1 active shown frame1 => ?_)
  refine ⟨.enable ⟨shown.held, shown.want, shown.resv, shown.owed, shown.dispatch, shown.user⟩
    ?_, fun inv2 => next _ inv2 ?_ ?_⟩
  · intro tests visited same
    exact (settled tests visited (shown.trap.symm.trans same)).elim
  · refine active.sees_setCpu rfl rfl
      { shown with sie := rfl, intena := ?_, trap := rfl, window := rfl }
    intro busy
    simp [View.plain] at busy
  · exact frame1.trans Keeps.harts

/-- User code does not come back. -/
theorem wp_usertrapret {goal : Int -> State H -> Prop} (sees : Plain slot irq trap state)
    (settled : Settled setting.build trap) :
    Verified setting (.proc slot) usertrapret goal state := by
  unfold usertrapret
  simp only [bind_eq]
  refine wp_do sees (fun s1 hart inv1 active shown frame1 => ?_)
  refine ⟨.enterUser slot rfl
    ⟨shown.held, shown.want, shown.resv, shown.owed, shown.dispatch, shown.user⟩ ?_,
    fun inv2 => ?_⟩
  · intro tests visited same
    exact (settled tests visited (shown.trap.symm.trans same)).elim
  · have sees2 : Sees (.proc slot) (View.atUser slot) (s1.enterUser hart) := by
      refine active.sees_setCpu rfl rfl { shown with
        sie := rfl, intena := ?_, trap := rfl, window := rfl, user := rfl }
      intro busy
      simp [View.atUser, View.plain] at busy
    refine wp_tailCall (fun now rely _ => ?_)
    exact ⟨⟨slot, rfl, (rely.sees _ sees2).1⟩, fun _ _ _ never => never.elim⟩

/-! ## System calls -/

theorem sleepLoop_verified {ticks0 n : Nat}
    (sees : Sees (.proc slot) (View.inCall slot .ticks) state) :
    Verified setting (.proc slot) (sleepLoop ticks0 n)
      (fun _ after => Plain slot true .none after) state := by
  have leave : ∀ (value : Int) s, Sees (.proc slot) (View.inCall slot .ticks) s ->
      Verified setting (.proc slot) ((release .ticks).bind (fun _ => .ret value))
        (fun _ after => Plain slot true .none after) s := by
    intro value s seen
    refine wp_releasePlain seen (by simp) (by simp) (fun s1 inv1 sees1 _ => ?_)
    exact wp_value sees1 (fun _ _ ends _ => ends)
  unfold sleepLoop
  simp only [bind_eq]
  refine wp_see sees (fun s1 inv1 seen1 _ => ?_)
  split
  · refine wp_curproc seen1 ((View.fit_plain _ _ _).push _) (fun s2 inv2 sees2 _ => ?_)
    refine wp_killed sees2 (fun dead s3 inv3 sees3 _ => ?_)
    split
    · exact leave _ s3 sees3
    · refine wp_sleep sees3 (below_proc_of_ticks slot) (by simp) (by simp) rfl
        (fun s4 inv4 sees4 _ _ => ?_)
      refine wp_tailCall (fun now rely _ => ?_)
      refine ⟨⟨slot, rfl, (rely.sees _ sees4).1⟩, ?_⟩
      rintro _ _ _ ⟨any, same, post⟩ _ further _
      cases same
      exact (further.sees _ post).1
  · exact leave _ s1 seen1

theorem wp_sys_sleep {n : Nat} {rest : Int -> KProg H α} (sees : Plain slot true .none state)
    (next : ∀ value now, Inv now -> Plain slot true .none now ->
      Verified setting (.proc slot) (rest value) goal now) :
    Verified setting (.proc slot) ((sys_sleep n).bind rest) goal state := by
  unfold sys_sleep
  simp only [bind_eq, bind_assoc]
  refine wp_acquire sees rfl rfl (fun _ member => by cases member)
    (fun s1 inv1 sees1 _ _ => ?_)
  refine wp_see sees1 (fun s2 inv2 seen2 _ => ?_)
  have sees2 : Sees (.proc slot) (View.inCall slot .ticks) s2 := seen2
  refine wp_invoke (fun now rely _ => ?_)
  refine ⟨⟨slot, rfl, (rely.sees _ sees2).1⟩, ?_⟩
  rintro value after valid ⟨any, same, post⟩
  cases same
  exact next value after valid post

/-- What a `wait` returns is handed to the process. -/
theorem wp_returned {addr : Bool} {value : Int} (waited : Waited slot addr (.proc slot) value state)
    (next : ∀ now, Inv now -> Plain slot true .none now ->
      Verified setting (.proc slot) (rest ()) goal now) :
    Verified setting (.proc slot)
      ((Prog.modify (fun hart now => State.returned now hart slot addr value)).bind rest) goal
      state := by
  rcases waited with ⟨got, out, sees, delivered⟩
  refine wp_do sees (fun s1 hart inv1 active shown frame1 => ?_)
  have unheld : .proc slot ∉ (s1.cpu hart).held := by
    rw [shown.held]
    exact not_mem_nil
  have running := (inv1.running_of_unheld ((inv1.cpu hart).process slot active.1).1 unheld).1
  refine ⟨.returned slot addr value rfl running (by rw [shown.call]; exact delivered),
    fun inv2 => next _ inv2 ?_⟩
  have noted := active.sees_setCall shown .idle
  unfold State.returned
  rw [shown.call_eq inv1 active]
  exact noted

/-- Every system call begins and ends with interrupts on and no lock held. -/
theorem wp_syscall {call : Syscall} (sees : Plain slot true .none state)
    (next : ∀ now, Inv now -> Plain slot true .none now ->
      Verified setting (.proc slot) (rest ()) goal now) :
    Verified setting (.proc slot) ((syscall call).bind rest) goal state := by
  have scans := View.scans_plain (H := H) slot true .none
  unfold syscall
  simp only [bind_eq, bind_assoc]
  refine wp_curproc sees scans.toFit (fun s0 inv sees _ => ?_)
  cases call with
  | fork =>
    simp only [bind_assoc]
    exact wp_fork sees (fun _ s1 inv1 sees1 => next s1 inv1 sees1)
  | exit status => exact wp_exit sees
  | wait addr perf =>
    simp only [bind_assoc]
    exact wp_wait_extension sees (fun _ s1 _ waited => wp_returned waited next)
  | kill pid =>
    simp only [bind_assoc]
    exact wp_kill inv sees scans (fun _ s1 inv1 sees1 _ => next s1 inv1 sees1)
  | trace mask pid =>
    simp only [bind_assoc]
    exact wp_trace inv sees scans (fun _ s1 inv1 sees1 _ => next s1 inv1 sees1)
  | set_priority prio =>
    simp only [bind_assoc]
    exact wp_set_priority inv sees scans (fun _ s1 inv1 sees1 _ => next s1 inv1 sees1)
  | sleep n =>
    simp only [bind_assoc]
    exact wp_sys_sleep sees (fun _ s1 inv1 sees1 => next s1 inv1 sees1)
  | uptime =>
    exact wp_touch sees scans.toFit (fun _ member => by cases member) (by simp) (by simp)
      (by simp) (fun s1 inv1 sees1 _ => next s1 inv1 sees1)
  | pipewrite pi n =>
    simp only [bind_assoc]
    exact wp_pipewrite sees (fun _ s1 inv1 sees1 => next s1 inv1 sees1)
  | piperead pi n =>
    simp only [bind_assoc]
    exact wp_piperead sees (fun _ s1 inv1 sees1 => next s1 inv1 sees1)
  | close => exact wp_fileclose sees (fun s1 inv1 returned => next s1 inv1 returned.sees)
  | other =>
    simp only [bind_assoc]
    exact wp_callBusy sees (fun _ s1 inv1 returned => next s1 inv1 returned.sees)

/-! ## The trap handlers -/

omit [DecidableEq H] in
theorem fits_proc (slot : Slot) : Fits (some slot) (.proc slot : Thread H) := by
  intro any
  constructor
  · intro same
    cases same
    rfl
  · intro same
    cases same
    rfl

/-- The end of `usertrap` after anything but a timer interrupt. -/
theorem wp_usertrapEnd_untimed {goal : Int -> State H -> Prop} (sees : Plain slot irq trap state)
    (settled : Settled setting.build trap) :
    Verified setting (.proc slot) (usertrapEnd setting slot false) goal state := by
  unfold usertrapEnd
  simp only [bind_eq]
  refine wp_killed sees (fun dead s1 inv1 sees1 _ => ?_)
  refine wp_onlyIf (fun _ => wp_exit sees1) (fun _ => ?_)
  exact wp_onlyIf (fun not => by cases not) (fun _ => wp_usertrapret sees1 settled)

theorem wp_usertrapEnd_timed {goal : Int -> State H -> Prop} (sees : Plain slot false trap state) :
    Verified setting (.proc slot) (usertrapEnd setting slot true) goal state := by
  unfold usertrapEnd
  simp only [bind_eq]
  refine wp_killed sees (fun dead s1 inv1 sees1 _ => ?_)
  refine wp_onlyIf (fun _ => wp_exit sees1) (fun _ => ?_)
  refine wp_onlyIf (fun _ => ?_) (fun not => by cases not)
  refine wp_preempt inv1 (fits_proc slot) sees1 (fun _ _ => userFull_unused)
    (fun _ _ => userFull_current) (fun s2 trap2 inv2 settled2 sees2 _ => ?_)
  exact wp_usertrapret sees2 settled2

omit [DecidableEq H] in
theorem Handled.settled {irq : Irq} (handled : Handled irq trap) (device : irq.isTimer = false)
    (build : Build) : Settled build trap := by
  intro _ visited same
  rcases handled with entered | ⟨timer, _⟩
  · cases entered.symm.trans same
  · cases device.symm.trans timer

theorem user_verified {goal : Int -> State H -> Prop}
    (sees : Sees (.proc slot) (View.atUser slot) state) :
    Verified setting (.proc slot) (user setting) goal state := by
  unfold user
  simp only [bind_eq]
  refine wp_any (fun cause => ?_)
  refine wp_trapped sees (Or.inr rfl) (fun s1 inv1 sees1 _ => ?_)
  refine wp_curproc sees1 (View.fit_plain _ _ _) (fun s2 inv2 sees2 _ => ?_)
  have entered : Settled setting.build .entered := fun _ _ same => by cases same
  cases cause with
  | syscall call =>
    refine wp_killed sees2 (fun dead s3 inv3 sees3 _ => ?_)
    refine wp_onlyIf (fun _ => wp_exit sees3) (fun _ => ?_)
    refine wp_enable sees3 entered (fun s4 inv4 sees4 _ => ?_)
    refine wp_syscall sees4 (fun s5 inv5 sees5 => ?_)
    exact wp_usertrapEnd_untimed sees5 (fun _ _ same => by cases same)
  | irq irq =>
    refine wp_devintr (fits_proc slot) sees2 (fun s3 trap3 inv3 handled sees3 _ => ?_)
    cases kind : irq.isTimer with
    | true => exact wp_usertrapEnd_timed sees3
    | false => exact wp_usertrapEnd_untimed sees3 (handled.settled kind _)
  | fault =>
    refine wp_do sees2 (fun s3 hart inv3 active shown _ => ?_)
    refine ⟨.fault slot rfl, fun _ => ?_⟩
    exact wp_usertrapEnd_untimed ⟨hart, active, shown⟩ entered

omit [DecidableEq H] in
/-- A thread that was interrupted and finds itself in the same situation has
seen nothing but interference. -/
theorem Rely.of_sees (inv : Inv state)
    (before : Sees thread (View.plain proc ⟨true, call⟩ .none) state)
    (after : Sees thread (View.plain proc ⟨true, call⟩ .none) now)
    (frame : Frame thread [] state now) : Rely thread state now where
  sees view sees := by
    rw [sees.unique inv before]
    exact ⟨after, frame⟩
  frame := frame
  asleep slot self susp := by
    rcases before with ⟨hart, active, _⟩
    have resumed := active.not_susp (active.1.trans self)
    cases resumed.symm.trans susp
  away hart self away := by
    rcases before with ⟨there, active, _⟩
    have executes := active.1.trans self
    have here := (inv.cpu there).scheduler hart executes
    subst here
    have present := active.not_away executes
    cases present.symm.trans away

theorem kerneltrap_verified (inv : Inv state) (fits : Fits proc thread)
    (sees : Sees thread (View.plain proc ⟨true, call⟩ .none) state) :
    Verified setting thread (kerneltrap setting)
      (fun _ after => Rely thread state after) state := by
  have finish : ∀ (trap : Trap) s, Settled setting.build trap ->
      Sees thread (View.plain proc ⟨false, call⟩ trap) s -> Frame thread [] state s ->
      Verified setting thread ((Prog.modify (fun hart now => State.enable now hart)).bind
        (fun _ => .ret 0)) (fun _ after => Rely thread state after) s := by
    intro trap s settled seen frame
    refine wp_enable seen settled (fun s1 inv1 sees1 frame1 => ?_)
    refine wp_value sees1 (fun s2 _ sees2 frame2 => ?_)
    exact Rely.of_sees inv sees sees2 ((frame.trans frame1).trans frame2)
  unfold kerneltrap
  simp only [bind_eq]
  refine wp_any (fun irq => ?_)
  refine wp_trapped sees (Or.inl rfl) (fun s1 inv1 sees1 frame1 => ?_)
  refine wp_devintr fits sees1 (fun s2 trap2 inv2 handled sees2 frame2 => ?_)
  refine wp_onlyIf (fun _ => ?_) (fun device => ?_)
  · refine wp_preempt inv2 fits sees2 (fun _ _ => kernelFull_unused)
      (fun _ _ => kernelFull_current) (fun s3 trap3 inv3 settled3 sees3 frame3 => ?_)
    exact finish trap3 s3 settled3 sees3 ((frame1.trans frame2).trans frame3)
  · exact finish trap2 s2 (handled.settled device _) sees2 (frame1.trans frame2)

/-- A new process starts where `sched` would resume. -/
theorem forkret_verified {goal : Int -> State H -> Prop}
    (fresh : (state.task slot).Fresh) : Verified setting (.proc slot) forkret goal state := by
  unfold forkret
  simp only [bind_eq]
  have begins : ∀ hart (now : State H), (now.cpu hart).proc = some slot ->
      now.begun hart = now.resumed hart slot (now.cpu hart).intena := by
    intro hart now current
    rw [State.begun, current]
  have unsaved : ∀ (hart : H) now, Rely (.proc slot) state now ->
      (now.task slot).saved = none ∨ (now.task slot).saved = some (now.cpu hart).intena :=
    fun _ _ rely => Or.inl (congrArg (fun own => own.2.1) (rely.fresh rfl fresh))
  refine wp_resume (congrArg Prod.fst fresh) begins unsaved
    (fun before hart s1 inv1 sees1 _ running awake idle => ?_)
  rw [idle fresh] at sees1
  refine wp_curproc sees1 ((View.fit_plain _ _ _).push _) (fun s2 inv2 sees2 frame2 => ?_)
  have mine : .proc slot ∈ (View.own slot (before.cpu hart).intena .none).held := mem_cons_self
  refine wp_releaseVisited sees2 (View.scans_plain slot _ .none) (fun _ => ?_)
    (fun s3 inv3 sees3 _ => ?_)
  · rw [Frame.state_eq frame2 mine, Frame.doze_eq frame2 mine]
    exact ⟨running, awake⟩
  refine wp_callBusy sees3 (fun _ s4 inv4 returned => ?_)
  exact wp_usertrapret returned.sees (fun _ _ same => by cases same)

end Kernel
end Xv6
