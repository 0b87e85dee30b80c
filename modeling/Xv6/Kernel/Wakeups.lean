import Xv6.Kernel.Verification
import Xv6.Conc.Solo

namespace Xv6
namespace Kernel

open Conc Leads
open Function (update update_of_ne update_self)

/-!
# Lost wakeups

Between the `release` inside `sleep` and the moment a process is SLEEPING it
holds its own lock, so a `wakeup` that begins later waits for it.  The calls
of `sleep` of a process are counted; a completed `wakeup` remembers the counts
at its start, and no process sleeps on its channel in a call that old.

For `wait` and for pipes this gives the familiar conditions: nobody sleeps for
something that has happened, while the lock of the condition is free.  Readers
of a pipe are the exception, because `pipewrite` can return early without waking
them; they are woken in time at a pipe where it has not done so.
-/

variable {H : Type} [DecidableEq H] {build : Build} {thread : Thread H} {hart : H}
  {state after : State H} {holds : Prop} {chan : Chan} {any : H} {pi : Nat}

/-! ## What a step does to sleepers -/

theorem task_update {tasks : Slot -> Task} {any slot : Slot} {task : Task}
    (dozes : (update tasks any task slot).doze = some chan)
    (here : slot = any -> task.doze = some chan -> (tasks any).doze = some chan ∨ holds) :
    (tasks slot).doze = some chan ∨ holds := by
  by_cases own : slot = any
  · subst own
    rw [update_self] at dozes
    exact here rfl dozes
  · rw [update_of_ne own] at dozes
    exact Or.inl dozes

/-- A process that sleeps has slept before, or has just released the lock of
the condition it has checked. -/
theorem KStep.dozes (step : KStep build thread hart state after) {slot : Slot}
    (dozes : (after.task slot).doze = some chan) :
    (state.task slot).doze = some chan ∨
      ∃ lock, SleepReady state slot lock chan ∧ after.proc = state.proc ∧
        after.pipe = state.pipe := by
  cases step with
  | act _ act =>
    cases act with
    | doze any other lock _ _ _ _ _ checked =>
      refine task_update dozes (fun same new => Or.inr ⟨lock, ?_, rfl, rfl⟩)
      cases new
      rw [same]
      exact checked
    | wake any => exact task_update dozes (fun _ none => by cases none)
    | swtchOut any | alloc any | discard any | publish any | copyStatus any | returned any
    | exitCalled any => exact task_update dozes (fun _ same => Or.inl same)
    | reap any =>
      have freed : ((state.free any).task slot).doze = some chan ∨ False :=
        task_update dozes (fun _ same => Or.inl same)
      exact task_update (freed.resolve_right id) (fun _ same => Or.inl same)
    | woke other marks =>
      obtain ⟨_, _, same⟩ := state.woke_eq hart other marks
      rw [same] at dozes
      exact Or.inl dozes
    | _ => exact Or.inl dozes
  | resume any => exact task_update dozes (fun _ same => Or.inl same)
  | back => exact Or.inl dozes

/-! ## Completed wakeups -/

/-- What is remembered of completed calls of `wakeup`. -/
structure Roused (state : State H) : Prop where
  past : forall record, record ∈ state.woken -> forall slot,
    record.marks slot ≤ (state.task slot).naps
  later : forall record, record ∈ state.woken -> forall slot, record.self ≠ some slot ->
    (state.task slot).doze = some record.chan -> record.marks slot < (state.task slot).naps

theorem KStep.roused (step : KStep build thread hart state after) (inv : Inv state)
    (roused : Roused state) : Roused after := by
  have rested := (step.keeps inv).naps
  have old : ∀ record, record ∈ state.woken -> ∀ slot,
      record.marks slot ≤ (after.task slot).naps ∧ (record.self ≠ some slot ->
        (after.task slot).doze = some record.chan ->
        record.marks slot < (after.task slot).naps) := by
    intro record member slot
    have past := roused.past record member slot
    refine ⟨Nat.le_trans past (rested slot).1, fun other dozes => ?_⟩
    rcases (rested slot).2 with awake | ⟨same, naps⟩ | fresh
    · cases awake.symm.trans dozes
    · rw [naps]
      exact roused.later record member slot other (same.symm.trans dozes)
    · exact Nat.lt_of_le_of_lt past fresh
  have cases : after.woken = state.woken ∨ ∃ chan marks, after.task = state.task ∧
      AllAwake hart chan marks state ∧
      after.woken = ⟨chan, marks, (state.cpu hart).proc⟩ :: state.woken := by
    cases step with
    | act _ act =>
      cases act with
      | woke chan marks all =>
        obtain ⟨_, _, same⟩ := state.woke_eq hart chan marks
        exact Or.inr ⟨chan, marks, by rw [same]; rfl, all, rfl⟩
      | _ => exact Or.inl rfl
    | resume | back => exact Or.inl rfl
  rcases cases with same | ⟨chan, marks, tasks, all, woken⟩
  · rw [← same] at old
    exact ⟨fun record member slot => (old record member slot).1,
      fun record member slot => (old record member slot).2⟩
  · refine ⟨fun record member slot => ?_, fun record member slot => ?_⟩
    all_goals rw [woken] at member
    all_goals rcases List.mem_cons.mp member with rfl | older
    · rw [tasks]
      exact all.past slot
    · exact (old record older slot).1
    · rw [tasks]
      exact all.later slot
    · exact (old record older slot).2

/-! ## Parents and their children -/

/-- A process that waits for its children has no ZOMBIE among them, except
that one may just have been handed to the first process. -/
structure Attended (state : State H) : Prop where
  owed : forall hart, (state.cpu hart).owed = true -> .wait ∈ (state.cpu hart).held
  family : forall slot child, (state.task slot).doze = some (.proc slot) ->
    (state.proc child).parent = some slot -> (state.proc child).state = .zombie ->
    slot = initproc ∧ ∃ hart, (state.cpu hart).owed = true

/-- The debt to the first process is incurred and paid under `wait_lock`. -/
def Cpu.Owes (cpu : Cpu H) : Prop := cpu.owed = true -> .wait ∈ cpu.held

theorem Cpu.Owes.update {cpus : H -> Cpu H} (owes : ∀ hart, (cpus hart).Owes) {cpu : Cpu H}
    (new : cpu.Owes) (any : H) : (update cpus hart cpu any).Owes :=
  (Function.forall_update_iff cpus (fun _ cpu => cpu.Owes)).mpr
    ⟨new, fun other _ => owes other⟩ any

omit [DecidableEq H] in
theorem Droppable.owes {lock : Lock} (ready : Droppable thread hart lock state)
    (owed : (state.cpu hart).owed = true) : .wait ∈ (state.cpu hart).held.erase lock := by
  rcases ready.owed with none | ⟨other, held⟩
  · cases none.symm.trans owed
  · exact (List.mem_erase_of_ne (Ne.symm other)).mpr held

theorem owed_update {cpus : H -> Cpu H} {cpu : Cpu H} (owed : (cpus any).owed = true)
    (here : (cpus hart).owed = true -> cpu.owed = true ∨ holds) :
    (update cpus hart cpu any).owed = true ∨ holds := by
  by_cases own : any = hart
  · subst own
    rw [update_self]
    exact here owed
  · rw [update_of_ne own]
    exact Or.inl owed

theorem child_update {procs : Slot -> Proc} {any child parent : Slot} {proc : Proc}
    (linked : (update procs any proc child).parent = some parent)
    (dead : (update procs any proc child).state = .zombie)
    (here : proc.parent = some parent -> proc.state = .zombie ->
      ((procs any).parent = some parent ∧ (procs any).state = .zombie) ∨ holds) :
    ((procs child).parent = some parent ∧ (procs child).state = .zombie) ∨ holds := by
  by_cases own : child = any
  · subst own
    rw [update_self] at linked dead
    exact here linked dead
  · rw [update_of_ne own] at linked dead
    exact Or.inl ⟨linked, dead⟩

section

variable (step : KStep build thread hart state after)

include step

theorem KStep.owes (owes : ∀ hart, (state.cpu hart).Owes) : ∀ hart, (after.cpu hart).Owes := by
  have here := owes hart
  cases step with
  | act _ act =>
    cases act with
    | grab => exact Cpu.Owes.update owes (fun owed => List.mem_cons_of_mem _ (here owed))
    | drop lock ready | doze slot chan lock _ _ _ ready =>
      exact Cpu.Owes.update owes (fun owed => ready.owes owed)
    | adopt child slot _ family => exact Cpu.Owes.update owes (fun _ => family)
    | want | popOff | enable | enterUser | trapped | spared | timerDone | tickStart | tick
    | markRunning | setCurrent | swtchIn | swtchOut | clearCurrent | takePid | alloc | copyStatus
    | reap | returned | exitCalled => exact Cpu.Owes.update owes here
    | woke chan =>
      cases chan with
      | proc slot =>
        simp only [State.woke]
        split
        · exact Cpu.Owes.update owes (fun none => by cases none)
        · exact owes
      | _ => exact owes
    | _ => exact owes
  | resume | back => exact Cpu.Owes.update owes (owes hart)

/-- A debt is paid only when the first process has been woken. -/
theorem KStep.owed (owed : (state.cpu any).owed = true) :
    (after.cpu any).owed = true ∨ ∀ slot, (state.task slot).doze ≠ some (.proc initproc) := by
  cases step with
  | act _ act =>
    cases act with
    | woke chan marks all =>
      cases chan with
      | proc slot =>
        simp only [State.woke]
        split
        · next first =>
            subst first
            exact owed_update owed (fun _ => Or.inr (all.nobody .wait rfl).2)
        · exact Or.inl owed
      | _ => exact Or.inl owed
    | adopt => exact owed_update owed (fun _ => Or.inl rfl)
    | want | popOff | grab | drop | doze | enable | enterUser | trapped | spared | timerDone
    | tickStart | tick | markRunning | setCurrent | swtchIn | swtchOut | clearCurrent | takePid
    | alloc | copyStatus | reap | returned | exitCalled => exact owed_update owed Or.inl
    | _ => exact Or.inl owed
  | resume | back => exact owed_update owed Or.inl

/-- A ZOMBIE child is new only if its parent is awake, or is the first process
and is still to be woken. -/
theorem KStep.children (inv : Inv state) {child parent : Slot}
    (linked : (after.proc child).parent = some parent) (dead : (after.proc child).state = .zombie) :
    ((state.proc child).parent = some parent ∧ (state.proc child).state = .zombie) ∨
      ((state.task parent).doze ≠ some (.proc parent) ∨
        parent = initproc ∧ (after.cpu hart).owed = true) := by
  cases step with
  | act _ act =>
    cases act with
    | tick slot =>
      refine child_update linked dead (fun mine zombie => Or.inl ?_)
      rcases (state.proc slot).ticked_eq with ⟨_, _, _, _, same⟩
      rw [same] at mine zombie
      exact ⟨mine, zombie⟩
    | edit slot proc _ inert =>
      refine child_update linked dead (fun mine zombie => Or.inl ?_)
      rw [inert] at mine zombie
      exact ⟨mine, zombie⟩
    | die slot _ _ _ _ _ _ noticed =>
      exact child_update linked dead (fun mine _ => Or.inr (Or.inl (noticed parent mine)))
    | adopt any slot =>
      refine child_update linked dead (fun mine _ => Or.inr (Or.inr ⟨?_, ?_⟩))
      · cases mine
        rfl
      · simp [State.adopt, State.setProc]
    | link slot self _ _ owner =>
      refine child_update linked dead (fun _ zombie => ?_)
      cases (inv.owned slot self owner).1.symm.trans zombie
    | markRunning | giveUp | fallAsleep | wake | alloc | discard | reap | publish =>
      exact child_update linked dead (fun _ other => by cases other)
    | clearTicks | fault | setChan | setXstate | copy | exitCalled =>
      exact child_update linked dead (fun mine zombie => Or.inl ⟨mine, zombie⟩)
    | woke chan marks =>
      obtain ⟨_, _, same⟩ := state.woke_eq hart chan marks
      rw [same] at linked dead
      exact Or.inl ⟨linked, dead⟩
    | _ => exact Or.inl ⟨linked, dead⟩
  | resume => exact Or.inl ⟨linked, dead⟩
  | back => exact child_update linked dead (fun mine zombie => Or.inl ⟨mine, zombie⟩)

theorem KStep.attended (inv : Inv state) (attended : Attended state) : Attended after := by
  refine ⟨step.owes attended.owed, fun slot child dozes linked dead => ?_⟩
  rcases step.dozes dozes with before | ⟨lock, ⟨_, _, checked⟩, procs, _⟩
  · rcases step.children inv linked dead with ⟨mine, zombie⟩ | awake | ⟨first, owed⟩
    · rcases attended.family slot child before mine zombie with ⟨first, any, owed⟩
      refine ⟨first, any, ?_⟩
      rcases step.owed owed with still | nobody
      · exact still
      · rw [first] at before
        exact (nobody initproc before).elim
    · exact (awake before).elim
    · exact ⟨first, hart, owed⟩
  · rw [procs] at linked dead
    exact (checked child linked dead).elim

end

/-! ## The ends of a pipe -/

/-- Who sleeps at a pipe waits for something that has not happened, or is
still to be woken. -/
structure Piped (state : State H) : Prop where
  readers : forall slot pi, (state.task slot).doze = some (.nread pi) ->
    (state.pipe pi).empty = true ∧ (state.pipe pi).writeopen = true ∨
      (state.pipe pi).readersOwed = true
  writers : forall slot pi, (state.task slot).doze = some (.nwrite pi) ->
    (state.pipe pi).full = true ∧ (state.pipe pi).readopen = true ∨
      (state.pipe pi).writersOwed = true

section

omit [DecidableEq H]

/-- A process that has just gone to sleep has checked the pipe. -/
theorem Piped.of_dozes (piped : Piped state) (pipes : after.pipe = state.pipe)
    (dozes : ∀ slot chan, (after.task slot).doze = some chan ->
      (state.task slot).doze = some chan ∨ ∃ lock, SleepReady state slot lock chan) :
    Piped after := by
  refine ⟨fun slot pi asleep => ?_, fun slot pi asleep => ?_⟩
  all_goals rw [pipes]
  all_goals rcases dozes slot _ asleep with before | ⟨lock, _, checked⟩
  · exact piped.readers slot pi before
  · exact Or.inl checked
  · exact piped.writers slot pi before
  · exact Or.inl checked

/-- A change of one pipe. -/
theorem Piped.setPipe (piped : Piped state) {pipe : Pipe}
    (readers : ∀ slot, (state.task slot).doze = some (.nread pi) ->
      pipe.empty = true ∧ pipe.writeopen = true ∨ pipe.readersOwed = true)
    (writers : ∀ slot, (state.task slot).doze = some (.nwrite pi) ->
      pipe.full = true ∧ pipe.readopen = true ∨ pipe.writersOwed = true) :
    Piped (state.setPipe pi pipe) := by
  refine ⟨fun slot other asleep => ?_, fun slot other asleep => ?_⟩
  all_goals simp only [State.setPipe]
  all_goals by_cases here : other = pi
  · subst here
    rw [update_self]
    exact readers slot asleep
  · rw [update_of_ne here]
    exact piped.readers slot other asleep
  · subst here
    rw [update_self]
    exact writers slot asleep
  · rw [update_of_ne here]
    exact piped.writers slot other asleep

/-- Stored and taken bytes and closed ends leave a debt to those they concern;
a full pipe is not written and an empty one not read. -/
theorem Piped.step (piped : Piped state) {pipe : Pipe} (step : PipeStep (state.pipe pi) pipe) :
    Piped (state.setPipe pi pipe) := by
  cases step with
  | store room =>
    refine piped.setPipe (fun _ _ => Or.inr rfl) (fun slot asleep => ?_)
    rcases piped.writers slot pi asleep with ⟨full, _⟩ | owed
    · cases room.symm.trans full
    · exact Or.inr owed
  | take data =>
    refine piped.setPipe (fun slot asleep => ?_) (fun _ _ => Or.inr rfl)
    rcases piped.readers slot pi asleep with ⟨empty, _⟩ | owed
    · cases data.symm.trans empty
    · exact Or.inr owed
  | closeWrite => exact piped.setPipe (fun _ _ => Or.inr rfl) (fun slot => piped.writers slot pi)
  | closeRead => exact piped.setPipe (fun slot => piped.readers slot pi) (fun _ _ => Or.inr rfl)
  | cut =>
    exact piped.setPipe (fun slot => piped.readers slot pi) (fun slot => piped.writers slot pi)

end

theorem KStep.piped (step : KStep build thread hart state after) (piped : Piped state) :
    Piped after := by
  have still : after.pipe = state.pipe -> Piped after := by
    intro pipes
    refine piped.of_dozes pipes (fun slot chan asleep => ?_)
    exact (step.dozes asleep).imp_right (fun ⟨lock, ready, _⟩ => ⟨lock, ready⟩)
  cases step with
  | resume | back => exact still rfl
  | act _ act =>
    cases act with
    | pipe pi pipe _ step => exact piped.step step
    | woke chan marks all =>
      cases chan with
      | nread pi =>
        have nobody := (all.nobody (.pipe pi) rfl).2
        have woken : Piped (state.setPipe pi { state.pipe pi with readersOwed := false }) :=
          piped.setPipe (fun slot asleep => (nobody slot asleep).elim)
            (fun slot => piped.writers slot pi)
        exact ⟨woken.readers, woken.writers⟩
      | nwrite pi =>
        have nobody := (all.nobody (.pipe pi) rfl).2
        have woken : Piped (state.setPipe pi { state.pipe pi with writersOwed := false }) :=
          piped.setPipe (fun slot => piped.readers slot pi)
            (fun slot asleep => (nobody slot asleep).elim)
        exact ⟨woken.readers, woken.writers⟩
      | proc slot =>
        refine still ?_
        simp only [State.woke]
        split
        · rfl
        · rfl
      | ticks | other => exact still rfl
    | _ => exact still rfl

/-! ## Whole runs -/

omit [DecidableEq H] in
theorem boot_awake (slot : Slot) (chan : Chan) : ((boot : State H).task slot).doze ≠ some chan :=
  Option.some_ne_none chan ∘ Eq.symm

theorem Reachable.sleepers {setting : Setting H} {config : Config (State H) (Thread H) H Label}
    (reached : Reachable setting config) :
    Inv config.1 ∧ Roused config.1 ∧ Attended config.1 ∧ Piped config.1 := by
  refine reached.induct (fun state => Roused state ∧ Attended state ∧ Piped state)
    ⟨⟨?_, ?_⟩, ⟨?_, ?_⟩, ⟨?_, ?_⟩⟩ ?_
  · intro record member
    cases member
  · intro record member
    cases member
  · intro hart owed
    cases owed
  · exact fun slot _ asleep => (boot_awake slot _ asleep).elim
  · exact fun slot _ asleep => (boot_awake slot _ asleep).elim
  · exact fun slot _ asleep => (boot_awake slot _ asleep).elim
  · rintro thread hart before after inv step ⟨roused, attended, piped⟩
    exact ⟨step.roused inv roused, step.attended inv attended, step.piped piped⟩

/-- For every interleaving: no process sleeps on a channel in a call of `sleep`
that had released its lock when a completed `wakeup` of that channel in
another process began; no process that waits for its children sleeps while one
is a ZOMBIE and `wait_lock` is free; and no writer sleeps at a pipe that is not
full or has no reader while its lock is free.  At a pipe where no `pipewrite` has
returned early after storing bytes, no reader sleeps while its lock is free and
it holds data or has no writer. -/
theorem no_lost_wakeup {setting : Setting H} {config : Config (State H) (Thread H) H Label}
    (reached : Reachable setting config) :
    (forall record, record ∈ config.1.woken -> forall slot, record.self ≠ some slot ->
      (config.1.proc slot).state = .sleeping -> (config.1.proc slot).chan = some record.chan ->
      record.marks slot < (config.1.task slot).naps) ∧
    (config.1.lock .wait = none -> forall slot child, (config.1.proc slot).state = .sleeping ->
      (config.1.proc slot).chan = some (.proc slot) ->
      (config.1.proc child).parent = some slot -> (config.1.proc child).state ≠ .zombie) ∧
    (forall pi, config.1.lock (.pipe pi) = none -> forall slot,
      (config.1.proc slot).state = .sleeping -> (config.1.proc slot).chan = some (.nwrite pi) ->
      (config.1.pipe pi).full = true ∧ (config.1.pipe pi).readopen = true) ∧
    (forall pi, (config.1.pipe pi).cut = false -> config.1.lock (.pipe pi) = none ->
      forall slot, (config.1.proc slot).state = .sleeping ->
      (config.1.proc slot).chan = some (.nread pi) ->
      (config.1.pipe pi).empty = true ∧ (config.1.pipe pi).writeopen = true) := by
  rcases reached.sleepers with ⟨inv, roused, attended, piped⟩
  have dozes : forall slot chan, (config.1.proc slot).state = .sleeping ->
      (config.1.proc slot).chan = some chan -> (config.1.task slot).doze = some chan := by
    intro slot chan sleeping on
    rcases inv.asleep slot sleeping with ⟨other, dozes, same⟩
    cases same.symm.trans on
    exact dozes
  refine ⟨fun record member slot other sleeping on => ?_,
    fun free slot child sleeping on linked dead => ?_, fun pi free slot sleeping on => ?_,
    fun pi uncut free slot sleeping on => ?_⟩
  · exact roused.later record member slot other (dozes slot _ sleeping on)
  · rcases attended.family slot child (dozes slot _ sleeping on) linked dead with ⟨_, hart, owed⟩
    exact inv.free_of_none free hart (attended.owed hart owed)
  · refine (piped.writers slot pi (dozes slot _ sleeping on)).resolve_right (fun owed => ?_)
    cases (inv.settled pi free).1.symm.trans owed
  · refine (piped.readers slot pi (dozes slot _ sleeping on)).resolve_right (fun owed => ?_)
    cases uncut.symm.trans ((inv.settled pi free).2 owed)

/-- A reader sleeps at an empty pipe.  A writer stores one of two bytes, is
killed and returns early. -/
theorem killed_writer_run :
    (machine (twoHarts .DEFAULT)).Reaches (fun _ => True) start (fun config =>
      (config.1.lock (.pipe 0) = none ∧ (config.1.proc 1).state = .sleeping ∧
        (config.1.proc 1).chan = some (.nread 0) ∧ (config.1.pipe 0).cut = false) ∧
      (machine (twoHarts .DEFAULT)).Reaches (fun _ => True) config (fun last =>
        last.1.lock (.pipe 0) = none ∧ (last.1.proc 1).state = .sleeping ∧
          (last.1.proc 1).chan = some (.nread 0) ∧ (last.1.pipe 0).empty = false)) := by
  -- Hart 0 runs the first process, which forks a reader and a writer.
  refine .solo (.sched 0) 0 trivial (drive 100 rfl (stop ?_))
  refine .solo (.proc 0) 0 trivial ?_
  refine drive 100 rfl (choose Activity.done rfl trivial ?_)
  refine drive 100 rfl (choose (Cause.syscall .fork) rfl trivial ?_)
  refine drive 100 rfl (choose (0 : Nat) rfl trivial ?_)
  refine drive 100 rfl (choose true rfl trivial ?_)
  refine spawn rfl trivial (by decide) ?_
  refine drive 100 rfl (choose (0 : Nat) rfl trivial ?_)
  refine drive 100 rfl (choose true rfl trivial ?_)
  refine drive 100 rfl (choose (0 : Nat) rfl trivial ?_)
  refine drive 100 rfl (choose (Cause.syscall .fork) rfl trivial ?_)
  refine drive 100 rfl (choose (0 : Nat) rfl trivial ?_)
  refine drive 100 rfl (choose true rfl trivial ?_)
  refine spawn rfl trivial (by decide) ?_
  refine drive 100 rfl (choose (0 : Nat) rfl trivial ?_)
  refine drive 100 rfl (choose true rfl trivial ?_)
  refine drive 100 rfl (choose (0 : Nat) rfl trivial ?_)
  refine drive 100 rfl (stop ?_)
  -- Hart 1 runs the reader, which finds the pipe empty and sleeps.
  refine .solo (.sched 1) 1 trivial (drive 100 rfl (stop ?_))
  refine .solo (.proc 1) 1 trivial ?_
  refine drive 100 rfl (choose Activity.done rfl trivial ?_)
  refine drive 100 rfl (choose (Cause.syscall (.piperead 0 1)) rfl trivial ?_)
  refine drive 100 rfl (stop ?_)
  refine .done ⟨⟨rfl, rfl, rfl, rfl⟩, ?_⟩
  -- Hart 1 goes on to the writer, which stores the first of two bytes.
  refine .solo (.sched 1) 1 trivial (drive 100 rfl (stop ?_))
  refine .solo (.proc 2) 1 trivial ?_
  refine drive 100 rfl (choose Activity.done rfl trivial ?_)
  refine drive 100 rfl (choose (Cause.syscall (.pipewrite 0 2)) rfl trivial ?_)
  refine drive 100 rfl (choose true rfl trivial ?_)
  refine drive 1 rfl (stop ?_)
  -- The first process kills the writer.
  refine .solo (.proc 0) 0 trivial ?_
  refine choose (Cause.syscall (.kill 3)) rfl trivial ?_
  refine drive 100 rfl (stop ?_)
  -- The writer finds that it has been killed and releases the pipe.
  refine .solo (.proc 2) 1 trivial ?_
  refine drive 6 rfl (stop ?_)
  exact .done ⟨rfl, rfl, rfl, rfl⟩

/-- The reader that sleeps before the writer begins waits for data that is not there. -/
theorem no_lost_wakeup_reader :
    ∃ config, Reachable (twoHarts .DEFAULT) config ∧ config.1.lock (.pipe 0) = none ∧
      (config.1.proc 1).state = .sleeping ∧ (config.1.proc 1).chan = some (.nread 0) ∧
      (config.1.pipe 0).cut = false ∧
      (config.1.pipe 0).empty = true ∧ (config.1.pipe 0).writeopen = true := by
  rcases killed_writer_run.reach with ⟨config, reached, ⟨free, sleeping, on, uncut⟩, _⟩
  have waits := (no_lost_wakeup reached).2.2.2 0 uncut free 1 sleeping on
  exact ⟨config, reached, free, sleeping, on, uncut, waits⟩

/-- A writer that is killed after it has stored a byte returns from
`pipewrite` without waking the reader, which sleeps on although the pipe holds
data and its lock is free. -/
theorem reader_sleeps_on_data :
    ∃ config, Reachable (twoHarts .DEFAULT) config ∧ config.1.lock (.pipe 0) = none ∧
      (config.1.proc 1).state = .sleeping ∧ (config.1.proc 1).chan = some (.nread 0) ∧
      (config.1.pipe 0).empty = false := by
  rcases killed_writer_run.reach with ⟨config, reached, _, more⟩
  rcases more.reach with ⟨last, run, holds⟩
  exact ⟨last, reached.trans run, holds⟩

end Kernel
end Xv6
