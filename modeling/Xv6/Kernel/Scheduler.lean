import Xv6.Kernel.Traps

namespace Xv6
namespace Kernel

open Conc List Logic Prog State View

/-!
# The scheduler

The scheduler of a hart switches to a process with exactly that process's lock
and gets it back the same way.  DEFAULT takes the locks one at a time; the
other variants keep the lock of the best candidate while they scan on, which
respects the order of acquisition because the table is scanned upwards.
-/

variable {H : Type} [DecidableEq H] {setting : Setting H} {α : Type} {goal : α -> State H -> Prop}
  {state now : State H} {owner : H} {slot : Slot} {base : Bool} {rest : Unit -> KProg H α}
  {items : List Slot}

/-- The scheduler with no lock. -/
def View.idle (base : Bool) : View := View.plain none base .none

/-- The scheduler with the lock of one process. -/
def View.chosen (slot : Slot) (base : Bool) : View := (View.idle base).push (.proc slot)

section

omit [DecidableEq H]

theorem fits_sched (owner : H) : Fits none (.sched owner) := by
  intro slot
  constructor
  · intro same
    cases same
  · intro same
    cases same

theorem scans_idle (owner : H) (base : Bool) : (View.idle base).Scans (.sched owner) :=
  (fits_sched owner).scans base .none

/-- A scheduler executes on its own hart. -/
theorem Active.own_hart {hart : H} (inv : Inv state)
    (active : Active (.sched owner) hart state) : owner = hart :=
  (inv.cpu hart).scheduler owner active.1

end

/-- `swtch` to the chosen process and back.  The hart's saved interrupt state
is then the one of the process that switched back. -/
theorem wp_runProcess (sees : Sees (.sched owner) (View.chosen slot base) state)
    (runnable : (state.proc slot).state = .runnable)
    (next : ∀ base now, Inv now -> Sees (.sched owner) (View.chosen slot base) now ->
      Verified setting (.sched owner) (rest ()) goal now) :
    Verified setting (.sched owner) ((runProcess slot).bind rest) goal state := by
  have mine : .proc slot ∈ (View.chosen slot base).held := mem_cons_self
  unfold runProcess
  simp only [bind_eq, bind_assoc]
  refine wp_do sees (fun s1 hart1 inv1 active1 shown1 frame1 => ?_)
  have runnable1 := (Frame.state_eq frame1 mine).trans runnable
  have here1 := active1.own_hart inv1
  refine ⟨.markRunning slot (by rw [here1]) (shown1.held ▸ mine) shown1.want shown1.proc
    shown1.dispatch runnable1, fun inv2 => ?_⟩
  have sees2 : Sees (.sched owner) { View.chosen slot base with dispatch := some slot }
      (s1.markRunning hart1 slot) := by
    have noted : Sees (.sched owner) { View.chosen slot base with dispatch := some slot }
        (s1.setCpu hart1 { s1.cpu hart1 with dispatch := some slot }) :=
      active1.sees_setCpu rfl rfl { shown1 with dispatch := rfl }
    exact noted
  have running2 : ((s1.markRunning hart1 slot).proc slot).state = .running := by
    simp [markRunning, setProc]
  refine wp_do sees2 (fun s3 hart3 inv3 active3 shown3 frame3 => ?_)
  have running3 := (Frame.state_eq frame3 mine).trans running2
  refine ⟨.clearTicks slot shown3.dispatch, fun inv4 => ?_⟩
  have running4 : ((s3.clearTicks slot).proc slot).state = .running := by
    simpa [clearTicks, setProc] using running3
  have cleared4 : ((s3.clearTicks slot).proc slot).tickcounter = 0 := by
    simp [clearTicks, setProc]
  have sees4 : Sees (.sched owner) { View.chosen slot base with dispatch := some slot }
      (s3.clearTicks slot) := ⟨hart3, active3, shown3⟩
  refine wp_do sees4 (fun s5 hart5 inv5 active5 shown5 frame5 => ?_)
  have running5 := (Frame.state_eq frame5 mine).trans running4
  have cleared5 : (s5.proc slot).tickcounter = 0 := by
    rw [(frame5.locked slot mine).1]
    exact cleared4
  refine ⟨.setCurrent slot shown5.dispatch, fun inv6 => ?_⟩
  have sees6 : Sees (.sched owner) { View.chosen slot base with proc := some slot }
      (s5.setCurrent hart5 slot) :=
    active5.sees_setCpu rfl rfl { shown5 with proc := rfl, dispatch := rfl }
  refine wp_do sees6 (fun s7 hart7 inv7 active7 shown7 frame7 => ?_)
  have running7 := (Frame.state_eq frame7 mine).trans running5
  have cleared7 : (s7.proc slot).tickcounter = 0 := by
    rw [(frame7.locked slot mine).1]
    exact cleared5
  have here7 := active7.own_hart inv7
  subst here7
  refine ⟨.swtchIn slot rfl shown7.proc ⟨shown7.held, shown7.want, shown7.dispatch, shown7.resv,
    shown7.owed, shown7.trap, shown7.window, shown7.user, shown7.call⟩ running7 cleared7,
    fun inv8 => ?_⟩
  have away8 : ((s7.swtchIn owner slot).cpu owner).away = true ∧
      ((s7.swtchIn owner slot).cpu owner).proc = some slot := by
    simp only [swtchIn, cpu_setCpu_self]
    exact ⟨trivial, shown7.proc⟩
  -- From here the hart belongs to other threads until the process has switched back.
  refine wp_modify (fun s9 rely inv9 place runs => ?_)
  have executes : (s9.cpu place).cur = .sched owner := runs
  have same := (inv9.cpu place).scheduler owner executes
  subst same
  rcases rely.away owner rfl away8.1 with ⟨away9, current9⟩
  have current9 := current9.trans away8.2
  rcases (inv9.cpu owner).back away9 executes with ⟨any, current, alone⟩
  cases current9.symm.trans current
  have left9 := inv9.left owner slot away9 executes current9
  have step : KStep setting.build (.sched owner) owner s9 (s9.cameBack owner slot) :=
    .back slot rfl runs away9 current9
  refine ⟨step, ?_⟩
  have held9 : .proc slot ∈ (s9.cpu owner).held := by
    rw [alone.held]
    exact mem_singleton_self _
  have sees10 : Sees (.sched owner)
      { View.chosen slot (s9.cpu owner).intena with proc := some slot }
      (s9.cameBack owner slot) := by
    refine ⟨owner, ⟨?_, ?_⟩, ?_⟩
    · simpa [State.cameBack, setProc] using executes
    · simp [State.cameBack, setProc]
    · simp only [State.cameBack, setProc, cpu_setCpu_self]
      exact ⟨alone.held, alone.want, by simp [View.chosen, View.idle, push, View.plain,
        (inv9.cpu owner).sie_off held9], fun _ => rfl, current9, alone.trap, alone.window,
        alone.user, alone.resv, alone.owed, alone.dispatch, alone.call⟩
  have left10 : ((s9.cameBack owner slot).proc slot).state ≠ .running := by
    simpa [State.cameBack, setProc, setCpu, Proc.averaged] using left9
  refine wp_do sees10 (fun s11 hart11 inv11 active11 shown11 frame11 => ?_)
  have left11 : (s11.proc slot).state ≠ .running := by
    rw [Frame.state_eq frame11 mem_cons_self]
    exact left10
  have here11 := active11.own_hart inv11
  refine ⟨.clearCurrent slot (by rw [here11]) shown11.proc left11, fun inv12 => ?_⟩
  exact next (s9.cpu owner).intena _ inv12
    (active11.sees_setCpu rfl rfl { shown11 with proc := rfl })

theorem wp_releaseChosen (sees : Sees (.sched owner) (View.chosen slot base) state)
    (next : ∀ now, Inv now -> Sees (.sched owner) (View.idle base) now ->
      Verified setting (.sched owner) (rest ()) goal now) :
    Verified setting (.sched owner) ((release (.proc slot)).bind rest) goal state :=
  wp_releaseVisited sees (scans_idle owner base) (fun same => by cases same)
    (fun s1 inv1 sees1 _ => next s1 inv1 sees1)

theorem wp_defaultVisit (sees : Sees (.sched owner) (View.idle base) state) :
    Verified setting (.sched owner) (defaultVisit slot)
      (fun _ after => ∃ base, Sees (.sched owner) (View.idle base) after) state := by
  have finish : ∀ base s, Sees (.sched owner) (View.chosen slot base) s ->
      Verified setting (.sched owner) ((release (.proc slot)).bind Prog.ret)
        (fun _ after => ∃ base, Sees (.sched owner) (View.idle base) after) s := by
    intro base s seen
    refine wp_releaseChosen seen (fun s1 inv1 sees1 => ?_)
    exact wp_value sees1 (fun _ _ sees2 _ => ⟨base, sees2⟩)
  rw [← bind_ret (defaultVisit slot)]
  unfold defaultVisit runnable
  simp only [bind_eq, bind_assoc]
  refine wp_acquire sees rfl rfl (fun _ member => by cases member)
    (fun s1 inv1 sees1 _ _ => ?_)
  refine wp_see sees1 (fun s2 inv2 seen2 _ => ?_)
  split
  · next ready =>
      simp only [bind_assoc]
      refine wp_runProcess seen2 (by simpa using ready)
        (fun base3 s3 inv3 sees3 => finish base3 s3 sees3)
  · exact finish base s2 seen2

/-! ## The scan for the least process -/

/-- The candidate of the scan is locked, runnable, and before all slots still
to be visited. -/
def Candidate (owner : H) (base : Bool) (items : List Slot) (state : State H) : Option Slot -> Prop
  | none => Sees (.sched owner) (View.idle base) state
  | some least => Sees (.sched owner) (View.chosen least base) state ∧
      (state.proc least).state = .runnable ∧ forall slot, slot ∈ items -> least < slot

omit [DecidableEq H] in
theorem Candidate.rely {minP : Option Slot} (candidate : Candidate owner base items state minP)
    (rely : Rely (.sched owner) state now) : Candidate owner base items now minP := by
  cases minP with
  | none => exact (rely.sees _ candidate).1
  | some least =>
    rcases candidate with ⟨seen, ready, before⟩
    rcases rely.sees _ seen with ⟨still, frame⟩
    exact ⟨still, (frame.state_eq mem_cons_self).trans ready, before⟩

theorem below_proc {first second : Slot} (before : first < second) :
    Below (.proc first) (.proc second) := by
  intro low high one two
  cases one
  cases two
  exact Nat.add_lt_add_left before 2

/-- With the locks of the candidate and of the slot under visit, one of them
is given back and the other is the new candidate. -/
theorem wp_keepOne {least kept dropped : Slot}
    (sees : Sees (.sched owner) ((View.chosen least base).push (.proc slot)) state)
    (pair : kept = slot ∧ dropped = least ∨ kept = least ∧ dropped = slot)
    (different : least ≠ slot) (ready : (state.proc kept).state = .runnable)
    (before : ∀ any, any ∈ items -> kept < any) :
    Verified setting (.sched owner) ((release (.proc dropped)).bind (fun _ => .ret (some kept)))
      (fun minP after => Candidate owner base items after minP) state := by
  let view := (View.chosen least base).push (.proc slot)
  have both : .proc slot ∈ view.held ∧ .proc least ∈ view.held :=
    ⟨mem_cons_self, mem_cons_of_mem _ mem_cons_self⟩
  have member : .proc dropped ∈ view.held := by
    rcases pair with ⟨_, rfl⟩ | ⟨_, rfl⟩
    · exact both.2
    · exact both.1
  have left : view.pop (.proc dropped) = View.chosen kept base := by
    rcases pair with ⟨rfl, rfl⟩ | ⟨rfl, rfl⟩
    · simp [view, View.chosen, View.idle, pop, push, View.plain, Ne.symm different]
    · simp [view, View.chosen, View.idle, pop, push, View.plain]
  have releasable : Releasable (.sched owner) view (.proc dropped) state :=
    { member := member
      resv := Or.inl rfl
      owed := Or.inl rfl
      current := fun _ _ current => by cases current
      settled := fun _ same => by cases same }
  refine wp_release sees rfl rfl releasable (fun s1 inv1 sees1 frame1 => ?_)
  rw [left] at sees1 frame1
  refine wp_value sees1 (fun s2 _ sees2 frame2 => ⟨sees2, ?_, before⟩)
  rw [Frame.state_eq (frame1.trans frame2) mem_cons_self]
  exact ready

theorem wp_scanVisit {before : Proc -> Proc -> Bool} {minP : Option Slot}
    (candidate : Candidate owner base (slot :: items) state minP)
    (ahead : ∀ any, any ∈ items -> slot < any) :
    Verified setting (.sched owner) (scanVisit before minP slot)
      (fun minP after => Candidate owner base items after minP) state := by
  unfold scanVisit runnable
  simp only [bind_eq]
  cases minP with
  | none =>
    refine wp_acquire candidate rfl rfl (fun _ member => by cases member)
      (fun s1 inv1 sees1 _ _ => ?_)
    refine wp_see sees1 (fun s2 inv2 sees2 _ => ?_)
    split
    · next ready =>
        refine wp_value sees2 (fun s3 _ sees3 frame3 => ⟨sees3, ?_, ahead⟩)
        rw [Frame.state_eq frame3 mem_cons_self]
        simpa using ready
    · refine wp_releaseChosen sees2 (fun s3 inv3 sees3 => ?_)
      exact wp_value sees3 (fun _ _ sees4 _ => sees4)
  | some least =>
    rcases candidate with ⟨sees, ready, first⟩
    have order := first slot mem_cons_self
    have rest : ∀ any, any ∈ items -> least < any :=
      fun any member => first any (mem_cons_of_mem _ member)
    refine wp_acquire sees rfl rfl ?_ (fun s1 inv1 sees1 frame1 _ => ?_)
    · intro other member
      rw [mem_singleton.mp member]
      exact below_proc order
    have both : .proc slot ∈ ((View.chosen least base).push (.proc slot)).held ∧
        .proc least ∈ ((View.chosen least base).push (.proc slot)).held :=
      ⟨mem_cons_self, mem_cons_of_mem _ mem_cons_self⟩
    refine wp_see sees1 (fun s2 inv2 sees2 frame2 => ?_)
    have ready2 : (s2.proc least).state = .runnable := by
      rw [Frame.state_eq frame2 both.2, Frame.state_eq frame1 mem_cons_self]
      exact ready
    split
    · next runs =>
        refine wp_see sees2 (fun s3 inv3 seen3 frame3 => ?_)
        split
        · refine wp_keepOne seen3 (Or.inl ⟨rfl, rfl⟩) (ne_of_lt order) ?_ ahead
          rw [Frame.state_eq frame3 both.1]
          simpa using runs
        · refine wp_keepOne seen3 (Or.inr ⟨rfl, rfl⟩) (ne_of_lt order) ?_ rest
          rw [Frame.state_eq frame3 both.2]
          exact ready2
    · exact wp_keepOne sees2 (Or.inr ⟨rfl, rfl⟩) (ne_of_lt order) ready2 rest

theorem wp_runLeast {before : Proc -> Proc -> Bool} (inv : Inv state)
    (sees : Sees (.sched owner) (View.idle base) state)
    (next : ∀ base now, Inv now -> Sees (.sched owner) (View.idle base) now ->
      Verified setting (.sched owner) (rest ()) goal now) :
    Verified setting (.sched owner) ((runLeast before).bind rest) goal state := by
  unfold runLeast
  simp only [bind_eq, bind_assoc]
  refine wp_bind coherent inv (wp_mono (wp_foldEach coherent
    (fun minP items now => Candidate owner base items now minP ∧ items.Pairwise (· < ·))
    ?_ ?_ inv ⟨sees, pairwise_lt_finRange NPROC⟩) ?_)
  · rintro minP items s1 s2 rely ⟨candidate, sorted⟩
    exact ⟨candidate.rely rely, sorted⟩
  · rintro minP slot items s1 _ ⟨candidate, sorted⟩
    rw [pairwise_cons] at sorted
    exact wp_mono (wp_scanVisit candidate sorted.1) (fun _ _ _ holds => ⟨holds, sorted.2⟩)
  · rintro minP s1 inv1 ⟨candidate, _⟩
    cases minP with
    | none => exact next base s1 inv1 candidate
    | some least =>
      simp only [bind_assoc]
      refine wp_runProcess candidate.1 candidate.2.1 (fun base2 s2 inv2 sees2 => ?_)
      exact wp_releaseChosen sees2 (fun s3 inv3 sees3 => next base2 s3 inv3 sees3)

theorem wp_schedulerRound {build : Build} (inv : Inv state)
    (sees : Sees (.sched owner) (View.idle base) state)
    (next : ∀ base now, Inv now -> Sees (.sched owner) (View.idle base) now ->
      Verified setting (.sched owner) (rest ()) goal now) :
    Verified setting (.sched owner) ((schedulerRound build).bind rest) goal state := by
  cases build with
  | DEFAULT =>
    refine wp_bind coherent inv (wp_mono (wp_forEach coherent
      (fun _ now => ∃ base, Sees (.sched owner) (View.idle base) now) ?_ ?_ inv
      ⟨base, sees⟩) ?_)
    · rintro _ s1 s2 rely ⟨base1, sees1⟩
      exact ⟨base1, (rely.sees _ sees1).1⟩
    · rintro slot _ s1 _ ⟨base1, sees1⟩
      exact wp_defaultVisit sees1
    · rintro _ s1 inv1 ⟨base1, sees1⟩
      exact next base1 s1 inv1 sees1
  | FCFS | SRT | CFSD => exact wp_runLeast inv sees next

theorem scheduler_verified {goal : Int -> State H -> Prop}
    (sees : Sees (.sched owner) (View.idle base) state) :
    Verified setting (.sched owner) (scheduler setting) goal state := by
  unfold scheduler
  simp only [bind_eq]
  refine wp_enable sees (fun _ _ same => by cases same) (fun s1 inv1 sees1 _ => ?_)
  refine wp_schedulerRound inv1 sees1 (fun base2 s2 inv2 sees2 => ?_)
  refine wp_tailCall (fun now rely _ => ?_)
  exact ⟨⟨owner, base2, rfl, (rely.sees _ sees2).1⟩, fun _ _ _ never => never.elim⟩

end Kernel
end Xv6
