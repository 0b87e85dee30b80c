import Xv6.Kernel.Interference
import Xv6.Conc.RelyGuarantee

namespace Xv6
namespace Kernel

open Conc List Logic Prog

/-!
# Rules for the statements of the kernel

The logic of the kernel threads and one rule for each kind of statement.  The
rules take the interference before a statement into account once and for all:
what a rule hands to the rest of the program is what is known right after the
statement.
-/

section Views

namespace View

/-- After a `push_off`, with the lock for which the hart then spins. -/
def spin (view : View) (lock : Option Lock) : View := { view with want := some lock }

def push (view : View) (lock : Lock) : View :=
  { view with held := lock :: view.held, want := none }

def pop (view : View) (lock : Lock) : View := { view with held := view.held.erase lock }

/-- Outside all critical sections. -/
def plain (proc : Option Slot) (base : Mode) (trap : Trap) : View where
  held := []
  want := none
  base := base
  proc := proc
  trap := trap
  window := false
  user := false
  resv := none
  owed := false
  dispatch := none

/-- A view from which locks can be taken and given back. -/
structure Fit (view : View) : Prop where
  want : view.want = none
  window : view.window = false
  dispatch : view.dispatch = none
  resv : view.resv = none ∨ view.held ≠ []
  owed : view.owed = false ∨ .wait ∈ view.held

theorem fit_plain (proc : Option Slot) (base : Mode) (trap : Trap) : (plain proc base trap).Fit :=
  ⟨rfl, rfl, rfl, Or.inl rfl, Or.inl rfl⟩

theorem pop_push {view : View} (fit : view.Fit) (lock : Lock) :
    (view.push lock).pop lock = view := by
  unfold push pop
  rw [erase_cons_head, ← fit.want]

theorem Fit.idle {view : View} (fit : view.Fit) (none : view.held = []) :
    view.resv = Option.none ∧ view.owed = false ∧ view.dispatch = Option.none := by
  refine ⟨fit.resv.resolve_right (fun more => more none), ?_, fit.dispatch⟩
  refine fit.owed.resolve_right (fun waits => ?_)
  rw [none] at waits
  cases waits

theorem Fit.push {view : View} (fit : view.Fit) (lock : Lock) : (view.push lock).Fit where
  want := rfl
  window := fit.window
  dispatch := fit.dispatch
  resv := Or.inr (cons_ne_nil _ _)
  owed := fit.owed.imp_right (mem_cons_of_mem lock)

end View

variable {H : Type} {hart : H} {view : View} {cpu : Cpu H} {lock : Lock}

/-- Outside a `push_off` the hart counts its locks. -/
theorem Shows.noff (ok : CpuOk hart cpu) (shown : Shows view cpu) (free : view.want = none) :
    cpu.noff = view.held.length := by
  have count := ok.noff
  rw [shown.held, shown.want, free] at count
  exact count

theorem Shows.pushOff {old : Bool} {own : Option Lock} (ok : CpuOk hart cpu)
    (shown : Shows view cpu) (free : view.want = none)
    (saw : view.held = [] -> old = view.base.irq) :
    Shows (view.spin own) (cpu.pushOff old own) where
  held := shown.held
  want := rfl
  sie := by simp [Cpu.pushOff, View.spin]
  intena := fun _ => by
    have count := shown.noff ok free
    simp only [Cpu.pushOff, View.spin]
    cases locks : view.held with
    | nil => rw [count, locks, length_nil, if_pos rfl, saw locks]
    | cons first rest =>
      rw [count, locks, if_neg (by simp)]
      exact shown.intena (Or.inl (by rw [locks]; simp))
  proc := shown.proc
  trap := shown.trap
  window := shown.window
  user := shown.user
  resv := shown.resv
  owed := shown.owed
  dispatch := shown.dispatch
  call := shown.call

theorem Shows.grab (shown : Shows (view.spin (some lock)) cpu) :
    Shows (view.push lock) (cpu.grab lock) where
  held := congrArg (lock :: ·) shown.held
  want := rfl
  sie := by
    rw [Cpu.grab, shown.sie]
    simp [View.push, View.spin]
  intena := fun _ => shown.intena (Or.inr (by simp [View.spin]))
  proc := shown.proc
  trap := shown.trap
  window := shown.window
  user := shown.user
  resv := shown.resv
  owed := shown.owed
  dispatch := shown.dispatch
  call := shown.call

theorem Shows.unlock (shown : Shows view cpu) (member : lock ∈ view.held) :
    Shows ((view.pop lock).spin none) (cpu.unlock lock) where
  held := congrArg (fun locks => locks.erase lock) shown.held
  want := rfl
  sie := by
    have busy : view.held ≠ [] := ne_nil_of_mem member
    rw [Cpu.unlock, shown.sie]
    simp [View.spin, busy]
  intena := fun _ => shown.intena (Or.inl (ne_nil_of_mem member))
  proc := shown.proc
  trap := shown.trap
  window := shown.window
  user := shown.user
  resv := shown.resv
  owed := shown.owed
  dispatch := shown.dispatch
  call := shown.call

/-- Inside a `push_off` interrupts are off and counted as such. -/
theorem Shows.pushed (ok : CpuOk hart cpu) (shown : Shows (view.spin none) cpu) :
    cpu.sie = false ∧ cpu.noff = view.held.length + 1 := by
  constructor
  · rw [shown.sie]
    simp [View.spin]
  · rw [ok.noff, shown.held, shown.want]
    rfl

theorem Shows.popOff (ok : CpuOk hart cpu) (shown : Shows (view.spin none) cpu)
    (free : view.want = none) : Shows view cpu.popOff where
  held := shown.held
  want := free.symm
  sie := by
    have intena : cpu.intena = view.base.irq := shown.intena (Or.inr (by simp [View.spin]))
    rcases shown.pushed ok with ⟨off, count⟩
    simp only [Cpu.popOff, intena, off, count, free]
    cases view.held <;> simp
  intena := fun _ => shown.intena (Or.inr (by simp [View.spin]))
  proc := shown.proc
  trap := shown.trap
  window := shown.window
  user := shown.user
  resv := shown.resv
  owed := shown.owed
  dispatch := shown.dispatch
  call := shown.call

/-- A hart shows one view. -/
theorem Shows.unique {other : View} (first : Shows view cpu) (second : Shows other cpu) :
    view = other := by
  have held : view.held = other.held := first.held.symm.trans second.held
  have want : view.want = other.want := first.want.symm.trans second.want
  have irq : view.base.irq = other.base.irq := by
    by_cases busy : view.held ≠ [] ∨ view.want ≠ none
    · have again : other.held ≠ [] ∨ other.want ≠ none := by
        rw [← held, ← want]
        exact busy
      exact (first.intena busy).symm.trans (second.intena again)
    · simp only [not_or, not_not] at busy
      have on := first.sie.symm.trans second.sie
      rw [← held, ← want, busy.1, busy.2] at on
      simpa using on
  have base : view.base = other.base := by
    have call := first.call.symm.trans second.call
    cases one : view.base
    cases two : other.base
    rw [one, two] at irq call
    cases irq
    cases call
    rfl
  cases view
  cases other
  simp only [View.mk.injEq]
  exact ⟨held, want, base, first.proc.symm.trans second.proc,
    first.trap.symm.trans second.trap, first.window.symm.trans second.window,
    first.user.symm.trans second.user, first.resv.symm.trans second.resv,
    first.owed.symm.trans second.owed, first.dispatch.symm.trans second.dispatch⟩

end Views

/-! ## The logic -/

variable {H : Type} [DecidableEq H]

/-- Specifications of the procedures. -/
structure Spec (H : Type) where
  pre : Label -> Thread H -> State H -> Prop
  post : Label -> Thread H -> State H -> Int -> State H -> Prop

def kernelLogic (build : Build) (spec : Spec H) : Logic (State H) (Thread H) H Label where
  inv := Inv
  rely := Rely
  guar := KStep build
  pre := spec.pre
  post := spec.post

variable {setting : Setting H} {spec : Spec H}

theorem coherent : (kernelLogic setting.build spec).Coherent (machine setting) where
  rely_refl := Rely.refl
  rely_trans _ _ _ _ := Rely.trans
  guar_inv _ _ _ _ inv _ step := step.inv inv
  guar_rely _ _ _ _ _ inv runs step different := step.rely inv runs different

/-- The program, run by the thread from the state, keeps to `KStep` and ends
only as `goal` says. -/
abbrev Wp (setting : Setting H) (spec : Spec H) (thread : Thread H) {α : Type}
    (program : KProg H α) (goal : α -> State H -> Prop) (state : State H) : Prop :=
  (kernelLogic setting.build spec).wp (machine setting).runs thread program goal state

/-- What is to be shown of the rest of a program after a statement. -/
abbrev Next (setting : Setting H) (spec : Spec H) (thread : Thread H) (view : View)
    (held : List Lock) (state : State H) {α : Type} (rest : KProg H α)
    (goal : α -> State H -> Prop) : Prop :=
  forall now, Inv now -> Sees thread view now -> Frame thread held state now ->
    Wp setting spec thread rest goal now

section Rules

variable {thread : Thread H} {view : View} {state now : State H} {hart : H} {α β : Type}
  {goal : α -> State H -> Prop} {slot : Slot} {lock : Lock} {rest : Unit -> KProg H α}

section

omit [DecidableEq H]

/-- The hart of a statement is the one the view speaks about. -/
theorem Sees.at_place (sees : Sees thread view state) (inv : Inv state)
    (runs : (state.cpu hart).cur = thread) :
    Active thread hart state ∧ Shows view (state.cpu hart) := by
  rcases sees with ⟨there, active, shown⟩
  rw [inv.cur_unique runs active.1]
  exact ⟨active, shown⟩

theorem Sees.unique {other : View} (inv : Inv state) (first : Sees thread view state)
    (second : Sees thread other state) : view = other := by
  rcases first with ⟨hart, active, shown⟩
  exact shown.unique (second.at_place inv active.1).2

/-- A lock is taken once. -/
theorem Shows.once (inv : Inv state) (shown : Shows (view.push lock) (state.cpu hart)) :
    lock ∉ view.held := by
  have nodup := (inv.cpu hart).nodup
  rw [shown.held] at nodup
  exact (nodup_cons.mp nodup).1

end

/-- A statement with an effect. -/
theorem wp_do {update : H -> State H -> State H} (sees : Sees thread view state)
    (step : ∀ now hart, Inv now -> Active thread hart now -> Shows view (now.cpu hart) ->
      Frame thread view.held state now ->
      Act setting.build thread hart now (update hart now) ∧
        (Inv (update hart now) -> Wp setting spec thread (rest ()) goal (update hart now))) :
    Wp setting spec thread ((Prog.modify update).bind rest) goal state := by
  refine wp_modify (fun now rely inv place runs => ?_)
  rcases rely.sees view sees with ⟨seen, frame⟩
  rcases seen.at_place inv runs with ⟨active, shown⟩
  rcases step now place inv active shown frame with ⟨act, next⟩
  exact ⟨.act active act, next (act.inv inv active)⟩

/-- A statement with an effect that waits for a condition. -/
theorem wp_guarded {guard : H -> State H -> Bool} {update : H -> State H -> State H}
    (sees : Sees thread view state)
    (step : ∀ now hart, Inv now -> Active thread hart now -> Shows view (now.cpu hart) ->
      Frame thread view.held state now -> guard hart now = true ->
      Act setting.build thread hart now (update hart now) ∧
        (Inv (update hart now) -> Wp setting spec thread (rest ()) goal (update hart now))) :
    Wp setting spec thread ((Prog.await guard update).bind rest) goal state := by
  refine wp_await (fun now rely inv place runs passed => ?_)
  rcases rely.sees view sees with ⟨seen, frame⟩
  rcases seen.at_place inv runs with ⟨active, shown⟩
  rcases step now place inv active shown frame passed with ⟨act, next⟩
  exact ⟨.act active act, next (act.inv inv active)⟩

/-- A statement behind a test that does not fail. -/
theorem wp_sure {test : H -> State H -> Bool} {update : H -> State H -> State H}
    (sees : Sees thread view state)
    (step : ∀ now hart, Inv now -> Active thread hart now -> Shows view (now.cpu hart) ->
      Frame thread view.held state now -> test hart now = true ∧
        (update hart now = now ∨ Act setting.build thread hart now (update hart now)) ∧
          (Inv (update hart now) -> Wp setting spec thread (rest ()) goal (update hart now))) :
    Wp setting spec thread ((orPanic test update).bind rest) goal state := by
  intro now rely inv place runs value after result
  rcases rely.sees view sees with ⟨seen, frame⟩
  rcases seen.at_place inv runs with ⟨active, shown⟩
  rcases step now place inv active shown frame with ⟨passes, effect, next⟩
  simp only [passes, if_true, Option.some.injEq, Prod.mk.injEq] at result
  rcases result with ⟨rfl, rfl⟩
  have still : Inv (update place now) := by
    rcases effect with same | act
    · rw [same]
      exact inv
    · exact act.inv inv active
  exact ⟨effect.imp_right (KStep.act active), next still⟩

/-- A statement that only reads. -/
theorem wp_look {look : H -> State H -> β} {rest : β -> KProg H α} (sees : Sees thread view state)
    (step : ∀ now hart, Inv now -> Active thread hart now -> Shows view (now.cpu hart) ->
      Frame thread view.held state now -> Wp setting spec thread (rest (look hart now)) goal now) :
    Wp setting spec thread ((Prog.read look).bind rest) goal state := by
  refine wp_read (fun now rely inv place runs => ?_)
  rcases rely.sees view sees with ⟨seen, frame⟩
  rcases seen.at_place inv runs with ⟨active, shown⟩
  exact step now place inv active shown frame

/-- A statement that reads what does not depend on the hart. -/
theorem wp_see {look : State H -> β} {rest : β -> KProg H α} (sees : Sees thread view state)
    (step : ∀ now, Inv now -> Sees thread view now -> Frame thread view.held state now ->
      Wp setting spec thread (rest (look now)) goal now) :
    Wp setting spec thread ((Prog.read (fun _ => look)).bind rest) goal state :=
  wp_look sees (fun now hart inv active shown => step now inv ⟨hart, active, shown⟩)

/-- The thread changes the record of its hart. -/
theorem Active.sees_setCpu {cpu : Cpu H} (active : Active thread hart state)
    (cur : cpu.cur = (state.cpu hart).cur) (away : cpu.away = (state.cpu hart).away)
    (shown : Shows view cpu) : Sees thread view (state.setCpu hart cpu) := by
  refine ⟨hart, ⟨?_, ?_⟩, by rw [cpu_setCpu_self]; exact shown⟩
  · rw [cpu_setCpu_self, cur]
    exact active.1
  · cases thread with
    | sched owner =>
      simp only [cpu_setCpu_self, away]
      exact active.2
    | proc slot => exact active.2

/-- The process goes on with its system call. -/
theorem Active.sees_setCall (active : Active (.proc slot) hart state)
    (shown : Shows view (state.cpu hart)) (call : Call) :
    Sees (.proc slot) { view with base := ⟨view.base.irq, call⟩ }
      (state.setCall hart slot call) := by
  have noted : Sees (.proc slot) { view with base := ⟨view.base.irq, call⟩ }
      (state.setCpu hart { state.cpu hart with call := call }) :=
    active.sees_setCpu rfl rfl { shown with call := rfl }
  rcases noted with ⟨there, resumes, shows_⟩
  exact ⟨there, resumes.setTask (fun _ => active.2), shows_⟩

/-! ## Spinlocks -/

/-- What is known of the data under a lock that has just been taken. -/
structure Taken (thread : Thread H) (lock : Lock) (state : State H) : Prop where
  own : forall slot, thread = .proc slot -> lock = .proc slot ->
    (state.proc slot).state = .running ∧ (state.task slot).doze = none
  settled : forall pi, lock = .pipe pi -> (state.pipe pi).Settled

theorem wp_push_off {own : Option Lock} (sees : Sees thread view state) (free : view.want = none)
    (spare : view.window = false)
    (below : ∀ lock, own = some lock -> ∀ other, other ∈ view.held -> Below other lock)
    (next : Next setting spec thread (view.spin own) view.held state (rest ()) goal) :
    Wp setting spec thread ((push_off own).bind rest) goal state := by
  unfold push_off
  simp only [bind_eq, bind_assoc]
  refine wp_look sees (fun s1 hart1 inv1 active1 shown1 frame1 => ?_)
  refine wp_do ⟨hart1, active1, shown1⟩ (fun s2 hart2 inv2 active2 shown2 frame2 => ?_)
  -- An interrupt between the two statements leaves the enable bit as it was.
  have saw : view.held = [] -> (s1.cpu hart1).sie = view.base.irq := by
    intro none
    rw [shown1.sie, none, free]
    simp
  refine ⟨.want _ own (shown2.want.trans free) (fun idle => ?_) (shown2.window.trans spare)
    (fun lock same other member => below lock same other (shown2.held ▸ member)), fun inv => ?_⟩
  · rw [shown2.noff (inv2.cpu hart2) free] at idle
    rw [shown1.sie, shown2.sie]
  · exact next _ inv (active2.sees_setCpu rfl rfl (shown2.pushOff (inv2.cpu hart2) free saw))
      ((frame1.trans frame2).trans Keeps.harts)

theorem wp_pop_off (sees : Sees thread (view.spin none) state) (free : view.want = none)
    (idle : view.held = [] -> view.resv = none ∧ view.owed = false ∧ view.dispatch = none)
    (next : Next setting spec thread view view.held state (rest ()) goal) :
    Wp setting spec thread (pop_off.bind rest) goal state := by
  unfold pop_off
  refine wp_sure sees (fun s1 hart inv1 active shown frame1 => ?_)
  rcases shown.pushed (inv1.cpu hart) with ⟨off, count⟩
  refine ⟨by simp [off, count], Or.inr (.popOff shown.want (fun none => ?_)),
    fun inv => next _ inv ?_ ?_⟩
  · rw [shown.resv, shown.owed, shown.dispatch]
    exact idle (shown.held.symm.trans none)
  · exact active.sees_setCpu rfl rfl (shown.popOff (inv1.cpu hart) free)
  · exact frame1.trans Keeps.harts

theorem wp_acquire (sees : Sees thread view state) (free : view.want = none)
    (spare : view.window = false) (below : ∀ other, other ∈ view.held -> Below other lock)
    (next : ∀ now, Inv now -> Sees thread (view.push lock) now ->
      Frame thread view.held state now -> Taken thread lock now ->
      Wp setting spec thread (rest ()) goal now) :
    Wp setting spec thread ((acquire lock).bind rest) goal state := by
  unfold acquire
  simp only [bind_eq, bind_assoc]
  refine wp_push_off sees free spare (fun own same => Option.some.inj same ▸ below)
    (fun s1 inv1 spins frame1 => ?_)
  refine wp_guarded spins (fun s2 there inv2 active2 shown2 frame2 passed => ?_)
  have unheld : s2.lock lock = none := by simpa using passed
  refine ⟨.grab lock shown2.want unheld, fun inv3 => next _ inv3 ?_ ?_ ?_⟩
  · exact active2.sees_setCpu rfl rfl shown2.grab
  · have grabbed : Frame thread view.held s2 (s2.grab there lock) := Keeps.harts
    exact (frame1.trans frame2).trans grabbed
  · refine ⟨fun slot self same => ?_, fun pi same => inv2.settled pi (same ▸ unheld)⟩
    subst self same
    have missing := inv2.free_of_none unheld there
    have current := ((inv2.cpu there).process slot active2.1).1
    exact ⟨(inv2.running_of_unheld current missing).1, inv2.awake_of_unheld active2.1 missing⟩

/-- What must hold when a lock is released. -/
structure Releasable (thread : Thread H) (view : View) (lock : Lock) (state : State H) : Prop where
  member : lock ∈ view.held
  resv : view.resv = none ∨ view.held.erase lock ≠ []
  owed : view.owed = false ∨ lock ≠ .wait ∧ .wait ∈ view.held
  current : forall slot, lock = .proc slot -> view.proc = some slot ->
    thread = .proc slot ∧ (state.proc slot).state = .running ∧ (state.task slot).doze = none
  settled : forall pi, lock = .pipe pi -> (state.pipe pi).Settled

omit [DecidableEq H] in
theorem Releasable.frame (ready : Releasable thread view lock state)
    (frame : Frame thread view.held state now) : Releasable thread view lock now where
  member := ready.member
  resv := ready.resv
  owed := ready.owed
  current slot same current := by
    rcases ready.current slot same current with ⟨self, running, awake⟩
    rcases frame.locked slot (same ▸ ready.member) with ⟨guarded, task⟩
    refine ⟨self, ?_, ?_⟩
    · rw [guarded]
      exact running
    · rw [task.1]
      exact awake
  settled pi same := by
    rw [frame.pipes pi (same ▸ ready.member)]
    exact ready.settled pi same

omit [DecidableEq H] in
theorem Releasable.droppable (ready : Releasable thread view lock state)
    (shown : Shows view (state.cpu hart)) (free : view.want = none)
    (dispatch : view.dispatch = none) : Droppable thread hart lock state where
  member := shown.held ▸ ready.member
  want := shown.want.trans free
  dispatch := shown.dispatch.trans dispatch
  resv := by
    rw [shown.resv, shown.held]
    exact ready.resv.imp_right (fun more => exists_mem_of_ne_nil _ more)
  owed := by
    rw [shown.owed, shown.held]
    exact ready.owed
  current slot same current := ready.current slot same (shown.proc ▸ current)
  settled := ready.settled

omit [DecidableEq H] in
/-- What the rest of `release` needs. -/
theorem Releasable.idle (ready : Releasable thread view lock state)
    (dispatch : view.dispatch = none) (none : (view.pop lock).held = []) :
    view.resv = Option.none ∧ view.owed = false ∧ view.dispatch = Option.none := by
  refine ⟨ready.resv.resolve_right (fun more => more none), ?_, dispatch⟩
  refine ready.owed.resolve_right (fun ⟨other, waits⟩ => ?_)
  have left : Lock.wait ∈ view.held.erase lock := (mem_erase_of_ne (Ne.symm other)).mpr waits
  rw [show view.held.erase lock = [] from none] at left
  cases left

theorem wp_release (sees : Sees thread view state) (free : view.want = none)
    (dispatch : view.dispatch = none) (ready : Releasable thread view lock state)
    (next : Next setting spec thread (view.pop lock) (view.pop lock).held state (rest ()) goal) :
    Wp setting spec thread ((release lock).bind rest) goal state := by
  unfold release
  simp only [bind_eq, bind_assoc]
  refine wp_sure sees (fun s1 hart inv1 active shown frame1 => ?_)
  have droppable := (ready.frame frame1).droppable shown free dispatch
  refine ⟨inv1.holding droppable.member, Or.inr (.drop lock droppable), fun inv2 => ?_⟩
  have unlocked : Sees thread ((view.pop lock).spin none) (s1.unlock hart lock) :=
    active.sees_setCpu rfl rfl (shown.unlock ready.member)
  refine wp_pop_off unlocked free (ready.idle dispatch) (fun s2 inv3 sees2 frame2 => ?_)
  refine next s2 inv3 sees2 (Keeps.trans (frame1.mono (fun _ => id) ?_)
    (Keeps.trans Keeps.harts frame2))
  exact fun other left => mem_of_mem_erase left

omit [DecidableEq H] in
/-- The lock just taken is given back. -/
theorem Releasable.push (fit : view.Fit) (notWait : lock ≠ .wait)
    (current : ∀ slot, lock = .proc slot -> view.proc = some slot ->
      thread = .proc slot ∧ (state.proc slot).state = .running ∧ (state.task slot).doze = none)
    (settled : ∀ pi, lock = .pipe pi -> (state.pipe pi).Settled) :
    Releasable thread (view.push lock) lock state where
  member := mem_cons_self
  resv := by
    simp only [View.push, erase_cons_head]
    exact fit.resv
  owed := fit.owed.imp_right (fun waits => ⟨notWait, mem_cons_of_mem lock waits⟩)
  current := current
  settled := settled

/-! ## Control flow -/

theorem wp_value {value : α} (sees : Sees thread view state)
    (holds : ∀ now, Inv now -> Sees thread view now -> Frame thread view.held state now ->
      goal value now) : Wp setting spec thread (.ret value) goal state := by
  intro now rely inv
  rcases rely.sees view sees with ⟨seen, frame⟩
  exact holds now inv seen frame

/-- A loop that ends each iteration with the view it began with.  What holds
of the items still to visit depends only on data under the locks held. -/
theorem wp_each {items : List β} {body : β -> KProg H Unit} (inv : Inv state)
    (sees : Sees thread view state) (left : List β -> State H -> Prop)
    (stable : ∀ items before after, Frame thread view.held before after ->
      left items before -> left items after) (start : left items state)
    (visit : ∀ item items before, Inv before -> Sees thread view before ->
      Frame thread view.held state before -> left (item :: items) before ->
      Wp setting spec thread (body item)
        (fun _ after => Sees thread view after ∧ Frame thread view.held before after ∧
          left items after) before)
    (next : ∀ now, Inv now -> Sees thread view now -> Frame thread view.held state now ->
      left [] now -> Wp setting spec thread (rest ()) goal now) :
    Wp setting spec thread ((Prog.forEach body items).bind rest) goal state := by
  refine wp_bind coherent inv (wp_mono (wp_forEach coherent
    (fun items now => Sees thread view now ∧ Frame thread view.held state now ∧ left items now)
    ?_ ?_ inv ⟨sees, Keeps.refl state, start⟩) ?_)
  · rintro items before after rely ⟨seen, frame, todo⟩
    rcases rely.sees view seen with ⟨still, kept⟩
    exact ⟨still, frame.trans kept, stable items before after kept todo⟩
  · rintro item items before valid ⟨seen, frame, todo⟩
    refine wp_mono (visit item items before valid seen frame todo) ?_
    rintro _ after _ ⟨still, kept, done⟩
    exact ⟨still, frame.trans kept, done⟩
  · rintro _ now valid ⟨seen, frame, done⟩
    exact next now valid seen frame done

/-- A loop that ends with the first value found.  What is known when a value
is found must survive interference. -/
theorem wp_first {γ : Type} {items : List β} {body : β -> KProg H (Option γ)}
    {rest : Option γ -> KProg H α} (inv : Inv state) (sees : Sees thread view state)
    (left : List β -> State H -> Prop) (found : γ -> State H -> Prop)
    (stable : ∀ items before after, Frame thread view.held before after ->
      left items before -> left items after)
    (foundStable : ∀ value before after, Rely thread before after ->
      found value before -> found value after)
    (start : left items state)
    (visit : ∀ item items before, Inv before -> Sees thread view before ->
      Frame thread view.held state before -> left (item :: items) before ->
      Wp setting spec thread (body item) (fun result after => match result with
          | some value => found value after
          | none => Sees thread view after ∧ Frame thread view.held before after ∧
              left items after) before)
    (missing : ∀ now, Inv now -> Sees thread view now -> Frame thread view.held state now ->
      left [] now -> Wp setting spec thread (rest none) goal now)
    (hit : ∀ value now, Inv now -> found value now ->
      Wp setting spec thread (rest (some value)) goal now) :
    Wp setting spec thread ((Prog.firstSome body items).bind rest) goal state := by
  refine wp_bind coherent inv (wp_mono (wp_firstSome coherent
    (fun items now => Sees thread view now ∧ Frame thread view.held state now ∧ left items now)
    found ?_ foundStable ?_ inv ⟨sees, Keeps.refl state, start⟩) ?_)
  · rintro items before after rely ⟨seen, frame, todo⟩
    rcases rely.sees view seen with ⟨still, kept⟩
    exact ⟨still, frame.trans kept, stable items before after kept todo⟩
  · rintro item items before valid ⟨seen, frame, todo⟩
    refine wp_mono (visit item items before valid seen frame todo) ?_
    intro result after _ holds
    cases result with
    | some value => exact holds
    | none => exact ⟨holds.1, frame.trans holds.2.1, holds.2.2⟩
  · intro result now valid holds
    cases result with
    | some value => exact hit value now valid holds
    | none => exact missing now valid holds.1 holds.2.1 holds.2.2

/-! ## Small functions -/

theorem wp_touch (sees : Sees thread view state) (fit : view.Fit)
    (below : ∀ other, other ∈ view.held -> Below other lock) (notWait : lock ≠ .wait)
    (notProc : ∀ slot, lock ≠ .proc slot) (notPipe : ∀ pi, lock ≠ .pipe pi)
    (next : Next setting spec thread view view.held state (rest ()) goal) :
    Wp setting spec thread ((touch lock).bind rest) goal state := by
  unfold touch
  simp only [bind_eq, bind_assoc]
  refine wp_acquire sees fit.want fit.window below (fun s1 inv1 sees1 frame1 _ => ?_)
  have ready : Releasable thread (view.push lock) lock s1 :=
    Releasable.push fit notWait (fun slot same => (notProc slot same).elim)
      (fun pi same => (notPipe pi same).elim)
  refine wp_release sees1 rfl fit.dispatch ready (fun s2 inv2 sees2 frame2 => ?_)
  rw [View.pop_push fit] at sees2 frame2
  exact next s2 inv2 sees2 (frame1.trans frame2)

theorem wp_touches {count : Nat} (inv : Inv state) (sees : Sees thread view state) (fit : view.Fit)
    (below : ∀ other, other ∈ view.held -> Below other lock) (notWait : lock ≠ .wait)
    (notProc : ∀ slot, lock ≠ .proc slot) (notPipe : ∀ pi, lock ≠ .pipe pi)
    (next : Next setting spec thread view view.held state (rest ()) goal) :
    Wp setting spec thread
      ((Prog.forEach (fun _ => touch lock) (List.replicate count ())).bind rest) goal state := by
  refine wp_each inv sees (fun _ _ => True) (fun _ _ _ _ => id) trivial ?_
    (fun now valid seen frame _ => next now valid seen frame)
  intro _ items before _ seen _ _
  rw [← bind_ret (touch lock)]
  refine wp_touch seen fit below notWait notProc notPipe (fun s1 _ sees1 frame1 => ?_)
  exact wp_value sees1 (fun s2 _ sees2 frame2 => ⟨sees2, frame1.trans frame2, trivial⟩)

theorem wp_kmems (inv : Inv state) (sees : Sees thread view state) (fit : view.Fit)
    (below : ∀ other, other ∈ view.held -> Below other .kmem)
    (next : Next setting spec thread view view.held state (rest ()) goal) :
    Wp setting spec thread (kmems.bind rest) goal state := by
  unfold kmems
  simp only [bind_eq, bind_assoc]
  refine wp_any (fun count => ?_)
  exact wp_touches inv sees fit below (by simp) (by simp) (by simp) next

theorem wp_myproc {rest : Option Slot -> KProg H α} (sees : Sees thread view state)
    (fit : view.Fit)
    (next : Next setting spec thread view view.held state (rest view.proc) goal) :
    Wp setting spec thread (myproc.bind rest) goal state := by
  unfold myproc
  simp only [bind_eq, bind_assoc]
  refine wp_push_off sees fit.want fit.window (fun _ same => by cases same)
    (fun s1 inv1 sees1 frame1 => ?_)
  refine wp_look sees1 (fun s2 hart inv2 active shown frame2 => ?_)
  refine wp_pop_off ⟨hart, active, shown⟩ fit.want fit.idle (fun s3 inv3 sees3 frame3 => ?_)
  rw [shown.proc]
  exact next s3 inv3 sees3 ((frame1.trans frame2).trans frame3)

/-- In a process, `myproc()` is that process. -/
theorem wp_curproc {rest : Slot -> KProg H α} (sees : Sees (.proc slot) view state)
    (fit : view.Fit)
    (next : Next setting spec (.proc slot) view view.held state (rest slot) goal) :
    Wp setting spec (.proc slot) (curproc.bind rest) goal state := by
  unfold curproc
  simp only [bind_eq, bind_assoc]
  refine wp_myproc sees fit (fun s1 inv1 sees1 frame1 => ?_)
  have current : view.proc = some slot := by
    rcases sees1 with ⟨hart, active, shown⟩
    exact shown.proc.symm.trans ((inv1.cpu hart).process slot active.1).1
  rw [current]
  exact next s1 inv1 sees1 frame1

theorem wp_killed {any : Slot} {rest : Bool -> KProg H α} (sees : Sees thread view state)
    (next : ∀ value, Next setting spec thread view view.held state (rest value) goal) :
    Wp setting spec thread ((killed any).bind rest) goal state :=
  wp_see sees (fun s1 inv1 seen frame1 =>
    next _ s1 inv1 seen frame1)

end Rules

end Kernel
end Xv6
