import Xv6.Kernel.Preservation

namespace Xv6
namespace Kernel

open Function Nat State

/-!
# What a thread can rely on

A thread that executes with interrupts off keeps its hart, so nothing about
the hart changes but by its own statements.  With interrupts on it may be
preempted, and later find itself on another hart in the same situation.
`Sees` covers both: it speaks about whichever hart executes the thread.

`Keeps` compares two states as far as somebody may rely on it: the processes
that are `mine`, and the data under the locks that are `safe`.  Interference
keeps everything of the other threads and under the locks not held by the
acting hart.
-/

variable {H : Type}

/-- Whether interrupts are on when no lock is held, and the system call of the
process. -/
structure Mode where
  irq : Bool
  call : Call

instance : Coe Bool Mode := ⟨fun irq => ⟨irq, .idle⟩⟩

/-- What a thread knows about the hart it executes on. -/
structure View where
  held : List Lock
  want : Option (Option Lock)
  base : Mode
  proc : Option Slot
  trap : Trap
  window : Bool
  user : Bool
  resv : Option Int
  owed : Bool
  dispatch : Option Slot

structure Shows (view : View) (cpu : Cpu H) : Prop where
  held : cpu.held = view.held
  want : cpu.want = view.want
  sie : cpu.sie = (view.base.irq && (view.held.isEmpty && view.want.isNone))
  intena : view.held ≠ [] ∨ view.want ≠ none -> cpu.intena = view.base.irq
  proc : cpu.proc = view.proc
  trap : cpu.trap = view.trap
  window : cpu.window = view.window
  user : cpu.user = view.user
  resv : cpu.resv = view.resv
  owed : cpu.owed = view.owed
  dispatch : cpu.dispatch = view.dispatch
  call : cpu.call = view.base.call

/-- The thread executes on a hart with this view. -/
def Sees (thread : Thread H) (view : View) (state : State H) : Prop :=
  ∃ hart, Active thread hart state ∧ Shows view (state.cpu hart)

/-- The fields that only the holder of `p->lock` changes agree. -/
def Guarded (before after : Proc) : Prop :=
  after = { before with
    killed := after.killed, ttime := after.ttime, parent := after.parent }

/-- Bookkeeping that changes under `p->lock` only. -/
def Kept (before after : Task) : Prop :=
  after = { before with call := after.call } ∧ (before.susp = true -> after.call = before.call)

/-- Bookkeeping that only the thread itself changes, once it has been allocated. -/
def Task.own (task : Task) : Bool × Option Bool × Call := (task.susp, task.saved, task.call)

/-- The thread has been allocated and has not run. -/
def Task.Fresh (task : Task) : Prop := task.own = (true, none, .idle)

/-- A process that dozes now dozed before, or has begun a new nap. -/
def Rested (before after : Task) : Prop :=
  before.naps ≤ after.naps ∧
    (after.doze = none ∨ after.doze = before.doze ∧ after.naps = before.naps ∨
      before.naps < after.naps)

structure Keeps (mine : Slot -> Prop) (safe : Lock -> Prop) (before after : State H) : Prop where
  log : forall event, event ∈ before.log -> event ∈ after.log
  naps : forall slot, Rested (before.task slot) (after.task slot)
  alive : forall slot, mine slot -> Alive (before.proc slot).state ->
    Alive (after.proc slot).state ∧ (after.proc slot).pid = (before.proc slot).pid ∧
      (after.task slot).call = (before.task slot).call
  owned : forall slot child, mine slot -> (before.task child).owner = some slot ->
    (after.task child).owner = some slot ∧ (after.proc child).pid = (before.proc child).pid ∧
        (after.proc child).parent = (before.proc child).parent
  locked : forall slot, safe (.proc slot) ->
    Guarded (before.proc slot) (after.proc slot) ∧ Kept (before.task slot) (after.task slot)
  family : safe .wait -> forall slot, (after.proc slot).parent = (before.proc slot).parent ∧
      ((after.proc slot).state = .zombie <-> (before.proc slot).state = .zombie)
  clock : safe .ticks -> after.ticks = before.ticks
  pids : safe .pid -> after.nextpid = before.nextpid
  pipes : forall pi, safe (.pipe pi) -> after.pipe pi = before.pipe pi
  dozers : forall chan lock slot, guardOf chan = some lock -> safe lock ->
    (after.task slot).doze = some chan -> (before.task slot).doze = some chan

/-- What a thread relies on while its hart holds the given locks. -/
abbrev Frame (thread : Thread H) (held : List Lock) (before after : State H) : Prop :=
  Keeps (fun slot => thread = .proc slot) (fun lock => lock ∈ held) before after

/-- What the rest of the system can do between two statements of a thread. -/
structure Rely (thread : Thread H) (before after : State H) : Prop where
  sees : forall view, Sees thread view before ->
    Sees thread view after ∧ Frame thread view.held before after
  frame : Frame thread [] before after
  asleep : forall slot, thread = .proc slot -> (before.task slot).susp = true ->
    (after.task slot).own = (before.task slot).own ∨ (after.task slot).Fresh
  away : forall hart, thread = .sched hart -> (before.cpu hart).away = true ->
    (after.cpu hart).away = true ∧ (after.cpu hart).proc = (before.cpu hart).proc

/-! ## Order structure -/

section Order

variable {mine : Slot -> Prop} {safe : Lock -> Prop} {first second third : State H}

theorem Rested.refl (task : Task) : Rested task task :=
  ⟨le_refl _, Or.inr (Or.inl ⟨rfl, rfl⟩)⟩

theorem Rested.trans {a b c : Task} (one : Rested a b) (two : Rested b c) : Rested a c := by
  refine ⟨le_trans one.1 two.1, ?_⟩
  rcases two.2 with awake | ⟨same, still⟩ | more
  · exact Or.inl awake
  · rw [same, still]
    exact one.2
  · exact Or.inr (Or.inr (lt_of_le_of_lt one.1 more))

theorem Guarded.refl (proc : Proc) : Guarded proc proc := rfl

theorem Guarded.trans {a b c : Proc} (one : Guarded a b) (two : Guarded b c) : Guarded a c := by
  unfold Guarded at one two ⊢
  rw [two, one]

theorem Kept.refl (task : Task) : Kept task task := ⟨rfl, fun _ => rfl⟩

theorem Kept.trans {a b c : Task} (one : Kept a b) (two : Kept b c) : Kept a c := by
  have still : b.susp = a.susp := by rw [one.1]
  refine ⟨?_, fun susp => ?_⟩
  · rw [two.1, one.1]
  · exact (two.2 (still.trans susp)).trans (one.2 susp)

theorem Kept.fresh {a b : Task} (kept : Kept a b) (fresh : a.Fresh) : b.Fresh := by
  have same := kept.2 (congrArg Prod.fst fresh)
  unfold Task.Fresh Task.own at fresh ⊢
  rw [kept.1, same]
  exact fresh

theorem Keeps.refl (state : State H) : Keeps mine safe state state where
  log _ member := member
  naps _ := Rested.refl _
  alive _ _ alive := ⟨alive, rfl, rfl⟩
  owned _ _ _ owner := ⟨owner, rfl, rfl⟩
  locked _ _ := ⟨Guarded.refl _, Kept.refl _⟩
  family _ _ := ⟨rfl, Iff.rfl⟩
  clock _ := rfl
  pids _ := rfl
  pipes _ _ := rfl
  dozers _ _ _ _ _ dozes := dozes

theorem Keeps.trans (one : Keeps mine safe first second) (two : Keeps mine safe second third) :
    Keeps mine safe first third where
  log event member := two.log event (one.log event member)
  naps slot := (one.naps slot).trans (two.naps slot)
  alive slot own alive := by
    rcases one.alive slot own alive with ⟨still, same, exits⟩
    rcases two.alive slot own still with ⟨lives, again, exits'⟩
    exact ⟨lives, again.trans same, exits'.trans exits⟩
  owned slot child own owner := by
    rcases one.owned slot child own owner with ⟨still, pid, parent⟩
    rcases two.owned slot child own still with ⟨owns, pid', parent'⟩
    exact ⟨owns, pid'.trans pid, parent'.trans parent⟩
  locked slot held :=
    ⟨(one.locked slot held).1.trans (two.locked slot held).1,
      (one.locked slot held).2.trans (two.locked slot held).2⟩
  family held slot :=
    ⟨(two.family held slot).1.trans (one.family held slot).1,
      (two.family held slot).2.trans (one.family held slot).2⟩
  clock held := (two.clock held).trans (one.clock held)
  pids held := (two.pids held).trans (one.pids held)
  pipes pi held := (two.pipes pi held).trans (one.pipes pi held)
  dozers chan lock slot guards held dozes :=
    one.dozers chan lock slot guards held (two.dozers chan lock slot guards held dozes)

theorem Keeps.mono {mine' : Slot -> Prop} {safe' : Lock -> Prop}
    (keeps : Keeps mine safe first second) (fewer : ∀ slot, mine' slot -> mine slot)
    (weaker : ∀ lock, safe' lock -> safe lock) : Keeps mine' safe' first second where
  log := keeps.log
  naps := keeps.naps
  alive slot own := keeps.alive slot (fewer slot own)
  owned slot child own := keeps.owned slot child (fewer slot own)
  locked slot held := keeps.locked slot (weaker _ held)
  family held := keeps.family (weaker _ held)
  clock held := keeps.clock (weaker _ held)
  pids held := keeps.pids (weaker _ held)
  pipes pi held := keeps.pipes pi (weaker _ held)
  dozers chan lock slot guards held := keeps.dozers chan lock slot guards (weaker _ held)

theorem Rely.refl (thread : Thread H) (state : State H) : Rely thread state state where
  sees _ sees := ⟨sees, Keeps.refl _⟩
  frame := Keeps.refl _
  asleep _ _ _ := Or.inl rfl
  away _ _ away := ⟨away, rfl⟩

section

variable {thread : Thread H} {slot : Slot} (rely : Rely thread first second)
  (self : thread = .proc slot)

include rely self

/-- A thread that is switched out stays so. -/
theorem Rely.susp (susp : (first.task slot).susp = true) : (second.task slot).susp = true := by
  rcases rely.asleep slot self susp with same | fresh
  · exact (congrArg Prod.fst same).trans susp
  · exact congrArg Prod.fst fresh

theorem Rely.fresh (fresh : (first.task slot).Fresh) : (second.task slot).Fresh := by
  rcases rely.asleep slot self (congrArg Prod.fst fresh) with same | again
  · exact same.trans fresh
  · exact again

end

theorem Rely.trans {thread : Thread H} (one : Rely thread first second)
    (two : Rely thread second third) : Rely thread first third where
  sees view sees := by
    rcases one.sees view sees with ⟨still, kept⟩
    rcases two.sees view still with ⟨shown, again⟩
    exact ⟨shown, kept.trans again⟩
  frame := one.frame.trans two.frame
  asleep slot self susp := by
    rcases two.asleep slot self (one.susp self susp) with same | fresh
    · unfold Task.Fresh
      rw [same]
      exact one.asleep slot self susp
    · exact Or.inr fresh
  away hart self away := by
    rcases one.away hart self away with ⟨still, same⟩
    rcases two.away hart self still with ⟨gone, again⟩
    exact ⟨gone, again.trans same⟩

end Order

/-! ## What the updates keep -/

namespace Keeps

variable [DecidableEq H] {mine : Slot -> Prop} {safe : Lock -> Prop} {state after : State H}
  {slot : Slot}

omit [DecidableEq H] in
/-- Harts and locks are nobody's data. -/
theorem same (proc : after.proc = state.proc) (task : after.task = state.task)
    (ticks : after.ticks = state.ticks) (nextpid : after.nextpid = state.nextpid)
    (pipe : after.pipe = state.pipe)
    (log : ∀ event, event ∈ state.log -> event ∈ after.log) :
    Keeps mine safe state after where
  log := log
  naps _ := by
    rw [task]
    exact Rested.refl _
  alive _ _ alive := by
    rw [proc, task]
    exact ⟨alive, rfl, rfl⟩
  owned _ _ _ owner := by
    rw [proc, task]
    exact ⟨owner, rfl, rfl⟩
  locked _ _ := by
    rw [proc, task]
    exact ⟨Guarded.refl _, Kept.refl _⟩
  family _ _ := by
    rw [proc]
    exact ⟨rfl, Iff.rfl⟩
  clock _ := ticks
  pids _ := nextpid
  pipes _ _ := by rw [pipe]
  dozers _ _ _ _ _ dozes := by
    rw [task] at dozes
    exact dozes

omit [DecidableEq H] in
theorem harts {cpus : H -> Cpu H} {locks : Lock -> Option H} {woken : List Woken} :
    Keeps mine safe state { state with cpu := cpus, lock := locks, woken := woken } :=
  same rfl rfl rfl rfl rfl (fun _ => id)

theorem setCpu (hart : H) (cpu : Cpu H) : Keeps mine safe state (state.setCpu hart cpu) :=
  same rfl rfl rfl rfl rfl fun _ => id

omit [DecidableEq H]

theorem setProc {proc : Proc} (guarded : safe (.proc slot) -> Guarded (state.proc slot) proc)
    (alive : mine slot -> Alive (state.proc slot).state ->
      Alive proc.state ∧ proc.pid = (state.proc slot).pid)
    (owned : ∀ self, mine self -> (state.task slot).owner = some self ->
      proc.pid = (state.proc slot).pid ∧ proc.parent = (state.proc slot).parent)
    (family : safe .wait -> proc.parent = (state.proc slot).parent ∧
      (proc.state = .zombie <-> (state.proc slot).state = .zombie)) :
    Keeps mine safe state (state.setProc slot proc) := by
  have new : (state.setProc slot proc).proc slot = proc := update_self ..
  have old : ∀ any, any ≠ slot -> (state.setProc slot proc).proc any = state.proc any :=
    fun any different => update_of_ne different ..
  have same : Keeps mine safe state state := Keeps.refl state
  refine
    { same with
      alive := fun any own lives => ?_
      owned := fun self any own owner => ?_
      locked := fun any held => ⟨?_, Kept.refl _⟩
      family := fun held any => ?_ }
  all_goals by_cases here : any = slot
  all_goals first | (subst here; rw [new]) | rw [old any here]
  · exact ⟨(alive own lives).1, (alive own lives).2, rfl⟩
  · exact ⟨lives, rfl, rfl⟩
  · exact ⟨owner, owned self own owner⟩
  · exact ⟨owner, rfl, rfl⟩
  · exact guarded held
  · exact Guarded.refl _
  · exact family held
  · exact ⟨rfl, Iff.rfl⟩

theorem setTask {task : Task} (rested : Rested (state.task slot) task)
    (owned : ∀ self, mine self -> (state.task slot).owner = some self -> task.owner = some self)
    (locked : safe (.proc slot) -> Kept (state.task slot) task)
    (call : mine slot -> Alive (state.proc slot).state -> task.call = (state.task slot).call)
    (dozers : ∀ chan lock, guardOf chan = some lock -> safe lock -> task.doze = some chan ->
      (state.task slot).doze = some chan) :
    Keeps mine safe state (state.setTask slot task) := by
  have new : (state.setTask slot task).task slot = task := update_self ..
  have old : ∀ any, any ≠ slot -> (state.setTask slot task).task any = state.task any :=
    fun any different => update_of_ne different ..
  have same : Keeps mine safe state state := Keeps.refl state
  refine
    { same with
      naps := fun any => ?_
      alive := fun any own lives => ⟨lives, rfl, ?_⟩
      owned := fun self any own owner => ⟨?_, rfl, rfl⟩
      locked := fun any held => ⟨Guarded.refl _, ?_⟩
      dozers := fun chan lock any guards held => ?_ }
  all_goals by_cases here : any = slot
  all_goals first | (subst here; rw [new]) | rw [old any here]
  · exact rested
  · exact Rested.refl _
  · exact call own lives
  · exact owned self own owner
  · exact owner
  · exact locked held
  · exact Kept.refl _
  · exact dozers chan lock guards held
  · exact id

theorem setPipe {pi : Nat} {pipe : Pipe} (exposed : ¬ safe (.pipe pi)) :
    Keeps mine safe state (state.setPipe pi pipe) := by
  have same : Keeps mine safe state state := Keeps.refl state
  refine { same with pipes := fun any held => ?_ }
  have different : any ≠ pi := fun equal => exposed (equal ▸ held)
  exact update_of_ne different ..

theorem setCall [DecidableEq H] {hart : H} (self : ¬ mine slot)
    (resumed : (state.task slot).susp = false) (call : Call) :
    Keeps mine safe state (state.setCall hart slot call) := by
  refine (Keeps.setCpu hart _).trans (Keeps.setTask (Rested.refl _) (fun _ _ owner => owner)
    (fun _ => ⟨rfl, fun susp => ?_⟩) (fun own => (self own).elim) (fun _ _ _ _ dozes => dozes))
  cases resumed.symm.trans susp

theorem note (keeps : Keeps mine safe state after) (event : Event H) :
    Keeps mine safe state (after.note event) :=
  { keeps with log := fun any member => List.mem_cons_of_mem event (keeps.log any member) }

/-- A record is updated under its lock; state, pid and parent stay. -/
theorem edit {proc : Proc} (exposed : ¬ safe (.proc slot))
    (same : proc.state = (state.proc slot).state) (pid : proc.pid = (state.proc slot).pid)
    (parent : proc.parent = (state.proc slot).parent) :
    Keeps mine safe state (state.setProc slot proc) := by
  refine Keeps.setProc (fun held => (exposed held).elim) ?_ (fun _ _ _ => ⟨pid, parent⟩) ?_
  · intro _ lives
    rw [same]
    exact ⟨lives, pid⟩
  · intro _
    rw [same]
    exact ⟨parent, Iff.rfl⟩

/-- A process changes between states in which it lives. -/
theorem restate {next : ProcState} (exposed : ¬ safe (.proc slot)) (alive : Alive next)
    (was : (state.proc slot).state ≠ .zombie) (now : next ≠ .zombie) :
    Keeps mine safe state (state.setProc slot { state.proc slot with state := next }) := by
  refine Keeps.setProc (fun held => (exposed held).elim) (fun _ _ => ⟨alive, rfl⟩)
    (fun _ _ _ => ⟨rfl, rfl⟩) (fun _ => ⟨rfl, ?_⟩)
  simp [was, now]

theorem wake (exposed : ¬ safe (.proc slot)) (sleeping : (state.proc slot).state = .sleeping) :
    Keeps mine safe state (state.wake slot) := by
  refine Keeps.trans (Keeps.restate exposed (by trivial) (by simp [sleeping]) (by simp))
    (Keeps.setTask ⟨le_refl _, Or.inl rfl⟩ (fun _ _ owner => owner)
      (fun held => (exposed held).elim) (fun _ _ => rfl) (fun _ _ _ _ same => ?_))
  cases same

/-- The two fields outside the lock. -/
theorem unguarded (killed : Bool) (ttime : Int) : Keeps mine safe state
      (state.setProc slot { state.proc slot with killed := killed, ttime := ttime }) :=
  Keeps.setProc (fun _ => rfl) (fun _ lives => ⟨lives, rfl⟩) (fun _ _ _ => ⟨rfl, rfl⟩)
    (fun _ => ⟨rfl, Iff.rfl⟩)

end Keeps

/-- A channel on which a process is ready to sleep has no lock but the one it
sleeps with. -/
theorem SleepReady.guards {state : State H} {slot : Slot} {lock other : Lock} {chan : Chan}
    (ready : SleepReady state slot lock chan) (guards : guardOf chan = some other) :
    other = lock := by
  cases chan with
  | proc parent =>
    cases guards
    exact ready.2.1.symm
  | ticks =>
    cases guards
    exact ready.symm
  | nread pi | nwrite pi =>
    cases guards
    exact ready.1.symm
  | other address => cases guards

/-! ## Interference -/

section Interference

variable [DecidableEq H] {build : Build} {state after : State H} {thread other : Thread H}
  {hart : H} {slot : Slot}

/-- The step leaves what other threads own and the data under the locks that its
hart does not hold. -/
abbrev Spares (thread : Thread H) (hart : H) (state after : State H) : Prop :=
  Keeps (fun slot => thread ≠ .proc slot) (fun lock => lock ∉ (state.cpu hart).held) state after

theorem Act.keeps (inv : Inv state) (active : Active thread hart state)
    (act : Act build thread hart state after) : Spares thread hart state after := by
  cases act with
  | want | popOff | grab | drop | enable | enterUser | trapped | spared | setCurrent | swtchIn
    | clearCurrent => exact Keeps.harts
  | timerDone => exact Keeps.same rfl rfl rfl rfl rfl (fun _ => List.mem_cons_of_mem _)
  | doze slot chan lock self mine different ready running checked =>
    have released : Spares thread hart state (state.unlock hart lock) := Keeps.harts
    refine released.trans (Keeps.setTask ⟨le_succ _, Or.inr (Or.inr (lt_succ_self _))⟩
      (fun _ _ owner => owner) (fun safe => (safe mine).elim) (fun _ _ => rfl) ?_)
    intro other guard guards safe same
    cases same
    rw [checked.guards guards] at safe
    exact (safe ready.member).elim
  | tickStart held off first =>
    have same : Spares thread hart state state := Keeps.refl state
    exact { same with clock := fun safe => (safe held).elim }
  | tick slot held off cursor dispatch idle =>
    refine (Keeps.setCpu hart _).trans (Keeps.edit (fun safe => safe held) ?_ ?_ ?_)
    · exact Proc.ticked_state _
    · rcases (state.proc slot).ticked_eq with ⟨_, _, _, _, same⟩
      rw [same]
      rfl
    · rcases (state.proc slot).ticked_eq with ⟨_, _, _, _, same⟩
      rw [same]
      rfl
  | markRunning slot self held want idle none runnable =>
    refine (Keeps.setCpu hart _).trans (Keeps.restate (fun safe => safe held) trivial ?_ (by simp))
    intro dead
    cases runnable.symm.trans dead
  | clearTicks slot dispatch =>
    have held := ((inv.cpu hart).dispatching slot dispatch).1
    exact Keeps.edit (fun safe => safe held) rfl rfl rfl
  | swtchOut slot self held want resv owed dispatch user leaves sleeps =>
    refine (Keeps.setCpu hart _).trans (Keeps.setTask (Rested.refl _) (fun _ _ owner => owner)
      (fun safe => ?_) (fun _ _ => rfl) (fun _ _ _ _ dozes => dozes))
    rw [held] at safe
    exact (safe (List.mem_singleton_self _)).elim
  | edit slot proc held inert =>
    refine Keeps.edit (fun safe => safe held) ?_ ?_ ?_
    all_goals rw [inert]
  | fault slot self => exact Keeps.unguarded true _
  | setChan slot chan self held running | setXstate slot status self held running
  | copy slot self mine held owner =>
    exact Keeps.edit (fun safe => safe held) rfl rfl rfl
  | giveUp slot self held running | fallAsleep slot chan self held running dozes chosen =>
    exact Keeps.restate (fun safe => safe held) trivial (by simp [running]) (by simp)
  | die slot self held family running mortal childless noticed called =>
    exact Keeps.setProc (fun safe => (safe held).elim) (fun other => (other self).elim)
      (fun _ _ _ => ⟨rfl, rfl⟩) (fun safe => (safe family).elim)
  | wake slot held sleeping => exact Keeps.wake (fun safe => safe held) sleeping
  | woke chan marks all =>
    cases chan with
    | proc slot =>
      simp only [State.woke]
      split
      · exact Keeps.harts
      · exact Keeps.harts
    | nread pi | nwrite pi =>
      have exposed := (all.nobody (.pipe pi) rfl).1
      exact (Keeps.setPipe (fun safe => safe exposed)).trans Keeps.harts
    | ticks | other address => exact Keeps.harts
  | takePid held none =>
    have same : Spares thread hart state state := Keeps.refl state
    exact { same with pids := fun safe => (safe held).elim }
  | alloc slot pid self mine different held free reserved =>
    have unowned : ∀ self, (state.task slot).owner ≠ some self := by
      intro self owner
      cases free.symm.trans (inv.owned slot self owner).1
    refine ((Keeps.setCpu hart _).trans
      (Keeps.setProc (fun safe => (safe held).elim) ?_ ?_ ?_)).trans
      (Keeps.setTask (Rested.refl _) (fun self _ owner => (unowned self owner).elim)
        (fun safe => (safe held).elim) ?_ (fun _ _ _ _ dozes => dozes))
    · intro _ lives
      change Alive (state.proc slot).state at lives
      rw [free] at lives
      exact lives.elim
    · exact fun self _ owner => (unowned self owner).elim
    · intro _
      refine ⟨rfl, ?_⟩
      change _ <-> (state.proc slot).state = .zombie
      rw [free]
      simp [Proc.allocated]
    · intro _ lives
      simp [setProc, Proc.allocated, Alive] at lives
  | discard slot self mine held owner unlinked =>
    have building := (inv.owned slot self owner).1
    have others : ∀ other, thread ≠ .proc other -> (state.task slot).owner ≠ some other := by
      intro other different owner'
      cases owner.symm.trans owner'
      exact different mine
    refine Keeps.trans (Keeps.setProc (fun safe => (safe held).elim) ?_ ?_ ?_)
      (Keeps.setTask (Rested.refl _)
        (fun other different owner' => (others other different owner').elim)
        (fun safe => (safe held).elim) (fun _ _ => rfl) (fun _ _ _ _ dozes => dozes))
    · intro _ lives
      rw [building] at lives
      exact lives.elim
    · exact fun other different owner' => (others other different owner').elim
    · intro _
      refine ⟨by rw [unlinked]; rfl, ?_⟩
      rw [building]
      simp [Proc.freed]
  | copyStatus slot self mine =>
    subst mine
    exact Keeps.setCall (fun other => other rfl) active.2 _
  | reap slot self mine different held family dead child =>
    subst mine
    have unowned : ∀ self, (state.task slot).owner ≠ some self := by
      intro self owner
      cases dead.symm.trans (inv.owned slot self owner).1
    refine Keeps.note (Keeps.trans ?_ (Keeps.setCall (fun other => other rfl)
      (active.free slot).2 _)) _
    refine Keeps.trans (Keeps.setProc (fun safe => (safe held).elim) ?_ ?_
      (fun safe => (safe family).elim)) (Keeps.setTask (Rested.refl _)
        (fun self _ owner => (unowned self owner).elim)
        (fun safe => (safe held).elim) (fun _ _ => rfl) (fun _ _ _ _ dozes => dozes))
    · intro _ lives
      rw [dead] at lives
      exact lives.elim
    · exact fun self _ owner => (unowned self owner).elim
  | returned self addr value mine =>
    subst mine
    exact Keeps.note (Keeps.setCall (fun other => other rfl) active.2 _) _
  | link slot self mine family owner unlinked running =>
    refine Keeps.note ?_ _
    refine Keeps.setProc (fun _ => rfl) (fun _ lives => ⟨lives, rfl⟩) ?_
      (fun safe => (safe family).elim)
    intro other different owner'
    cases owner.symm.trans owner'
    exact (different mine).elim
  | publish slot self mine held owner linked =>
    have building := (inv.owned slot self owner).1
    refine Keeps.trans (Keeps.restate (fun safe => safe held) (by trivial)
      (by simp [building]) (by simp)) (Keeps.setTask (Rested.refl _) ?_
        (fun safe => (safe held).elim) (fun _ _ => rfl) (fun _ _ _ _ dozes => dozes))
    intro other different owner'
    cases owner.symm.trans owner'
    exact (different mine).elim
  | adopt child slot self family parent mortal status called =>
    refine (Keeps.setCpu hart _).trans (Keeps.setProc (fun _ => rfl)
      (fun _ lives => ⟨lives, rfl⟩) ?_ (fun safe => (safe family).elim))
    intro other different owner
    -- A process still being built has its builder as parent, if any.
    rcases (inv.owned child other owner).2 with none | mine | adopted
    · cases parent.symm.trans none
    · cases parent.symm.trans mine
      exact (different self).elim
    · cases parent.symm.trans adopted
      exact (mortal rfl).elim
  | exitCalled slot status self running fresh =>
    subst self
    exact Keeps.note ((Keeps.setCall (fun other => other rfl) active.2 _).trans
      (Keeps.unguarded _ _)) _
  | pipe pi pipe held step => exact Keeps.setPipe (fun safe => safe held)

theorem KStep.keeps (inv : Inv state) (step : KStep build thread hart state after) :
    Spares thread hart state after := by
  cases step with
  | act active act => exact act.keeps inv active
  | resume slot intena self cur susp =>
    have alone := (inv.entering hart slot susp (cur.trans self)).1
    refine (Keeps.setCpu hart _).trans (Keeps.setTask (Rested.refl _) (fun _ _ owner => owner)
      (fun safe => ?_) (fun _ _ => rfl) (fun _ _ _ _ dozes => dozes))
    rw [alone.held] at safe
    exact (safe (List.mem_singleton_self _)).elim
  | back slot self cur away current =>
    have held := (inv.cpu hart).switching slot (cur.trans self) current
    exact (Keeps.setCpu hart _).trans (Keeps.edit (fun safe => safe held) rfl rfl rfl)

/-- A step changes no hart but its own. -/
theorem KStep.cpu_other {there : H} (step : KStep build thread hart state after)
    (different : there ≠ hart) : after.cpu there = state.cpu there := by
  cases step with
  | act active act =>
    cases act with
    | woke chan marks =>
      obtain ⟨_, _, same⟩ := state.woke_eq hart chan marks
      rw [same]
      exact update_of_ne different ..
    | _ => first | exact update_of_ne different .. | rfl
  | resume | back => exact update_of_ne different ..

/-- Only a thread itself changes its own bookkeeping.  For others it changes when
its slot is allocated. -/
theorem KStep.task_other (inv : Inv state) (step : KStep build thread hart state after)
    (different : thread ≠ .proc slot) :
    (after.task slot).own = (state.task slot).own ∨
      (after.task slot).Fresh ∧ ∀ there, (state.cpu there).cur ≠ .proc slot := by
  have updated : ∀ {base : State H} {any : Slot} {task : Task},
      (base.task slot).own = (state.task slot).own ->
      (any = slot -> task.own = (state.task slot).own) ->
      ((base.setTask any task).task slot).own = (state.task slot).own := by
    intro base any task same kept
    by_cases here : slot = any
    · subst here
      simpa [setTask] using kept rfl
    · simpa [setTask, update_of_ne here] using same
  cases step with
  | act active act =>
    cases act with
    | doze any | wake any | discard any | publish any =>
      exact Or.inl (updated rfl fun same => same ▸ rfl)
    | swtchOut any self | exitCalled any status self | copyStatus any self mine
    | returned any addr value self =>
      exact Or.inl (updated rfl fun same => (different (by simp [*])).elim)
    | reap any self mine =>
      refine Or.inl (updated (updated rfl fun same => same ▸ rfl) fun same => ?_)
      exact (different (same ▸ mine)).elim
    | alloc any pid self mine apart held free reserved =>
      by_cases same : slot = any
      · subst same
        refine Or.inr ⟨by simp [State.alloc, setTask, Task.Fresh, Task.own], ?_⟩
        have current := ((inv.cpu hart).process self (active.1.trans mine)).1
        refine inv.unexecuted held (by simp [free]) ?_
        rw [current]
        exact fun equal => apart (Option.some.inj equal).symm
      · exact Or.inl (by simp [State.alloc, setTask, setProc, setCpu,
          update_of_ne same])
    | woke chan marks =>
      obtain ⟨_, _, same⟩ := state.woke_eq hart chan marks
      exact Or.inl (by rw [same]; rfl)
    | _ => exact Or.inl rfl
  | resume any intena self =>
    exact Or.inl (updated rfl fun same => (different (same ▸ self)).elim)
  | back => exact Or.inl rfl

/-- A process does not change what its hart's scheduler finds on its return. -/
theorem KStep.back_other (inv : Inv state) (step : KStep build thread hart state after)
    (different : thread ≠ .sched hart) (away : (state.cpu hart).away = true) :
    (after.cpu hart).away = true ∧ (after.cpu hart).proc = (state.cpu hart).proc := by
  have unchanged : (after.cpu hart).away = (state.cpu hart).away ->
      (after.cpu hart).proc = (state.cpu hart).proc ->
        (after.cpu hart).away = true ∧ (after.cpu hart).proc = (state.cpu hart).proc :=
    fun same current => ⟨same.trans away, current⟩
  cases step with
  | act active act =>
    cases act with
    | markRunning any self | swtchIn any self | clearCurrent any self => exact (different self).elim
    | setCurrent any dispatch =>
      have cur := ((inv.cpu hart).dispatching any dispatch).2.1
      exact (different (active.1.symm.trans cur)).elim
    | woke chan marks =>
      obtain ⟨_, _, same⟩ := state.woke_eq hart chan marks
      simpa only [same, cpu_setCpu_self, and_true] using away
    | edit | fault | setChan | setXstate | giveUp | fallAsleep | die | wake | discard
      | copy | link | publish | pipe | clearTicks => exact ⟨away, rfl⟩
    | _ =>
      exact unchanged (setCpu_same Cpu.away (by rfl) hart) (setCpu_same Cpu.proc (by rfl) hart)
  | resume =>
    exact unchanged (setCpu_same Cpu.away (by rfl) hart) (setCpu_same Cpu.proc (by rfl) hart)
  | back any self => exact (different self).elim

/-- Every step of one thread is interference that the others rely on. -/
theorem KStep.rely (inv : Inv state) (step : KStep build thread hart state after)
    (runs : (state.cpu hart).cur = thread) (different : other ≠ thread) :
    Rely other state after where
  sees view sees := by
    rcases sees with ⟨there, active, shows_⟩
    have elsewhere : there ≠ hart := by
      intro here
      have cur := active.1
      rw [here, runs] at cur
      exact different cur.symm
    have same := step.cpu_other elsewhere
    refine ⟨⟨there, ⟨by rw [same]; exact active.1, ?_⟩, by rw [same]; exact shows_⟩, ?_⟩
    · cases other with
      | sched owner =>
        simp only [same]
        exact active.2
      | proc slot =>
        rcases step.task_other inv (Ne.symm different) with still | ⟨_, nowhere⟩
        · exact (congrArg Prod.fst still).trans active.2
        · exact (nowhere there active.1).elim
    · refine (step.keeps inv).mono (fun slot self => ?_) (fun lock member held => ?_)
      · exact self ▸ Ne.symm different
      · rw [← shows_.held] at member
        exact elsewhere (inv.held_unique member held)
  frame := (step.keeps inv).mono (fun _ self => self ▸ Ne.symm different)
    (fun _ member => by cases member)
  asleep slot self _ := by
    subst self
    exact (step.task_other inv (Ne.symm different)).imp_right And.left
  away there self away := by
    subst self
    by_cases here : there = hart
    · subst here
      exact step.back_other inv (Ne.symm different) away
    · rw [step.cpu_other here]
      exact ⟨away, rfl⟩

end Interference

end Kernel
end Xv6
