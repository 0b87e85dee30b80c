import Xv6.Kernel.Steps

namespace Xv6
namespace Kernel

open Function (update update_of_ne update_self)
open Bool
open List

/-!
# Every statement preserves the invariant

The statements are grouped by what they touch: the record of the acting hart
alone, a lock, the record of one process, or a switch between threads.  Each
group has one lemma with the obligations that its members discharge.
-/

/-! ## One hart by itself -/

namespace CpuOk

variable {H : Type} {hart : H} {cpu : Cpu H} {lock : Lock} {P : Prop} {proc : Proc} {task : Task}

/-- The scheduler of a hart whose own thread acts is not inside `swtch`. -/
theorem not_back (here : cpu.cur = .sched hart -> cpu.away = false)
    (away : cpu.away = true) (cur : cpu.cur = .sched hart) : P := by
  rw [here cur] at away
  cases away

section

variable (ok : CpuOk hart cpu)

include ok

/-- A hart that holds no lock counts none. -/
theorem noff_zero (held : cpu.held = []) (want : cpu.want = none) : cpu.noff = 0 := by
  have count := ok.noff
  simp only [held, want] at count
  exact count

theorem pushOff (here : cpu.cur = .sched hart -> cpu.away = false) (free : cpu.want = none)
    {old : Bool} (saw : cpu.noff = 0 -> old = cpu.sie) {lock : Option Lock}
    (below : ∀ own, lock = some own -> ∀ other, other ∈ cpu.held -> Below other own) :
    CpuOk hart (cpu.pushOff old lock) :=
  { ok with
    noff := by
      have count := ok.noff
      simp only [Cpu.pushOff, free, Option.toList] at count ⊢
      simp only [count, length_nil, length_singleton]
    masked := fun on => by cases on
    ranked := fun wanted same => by
      cases same
      exact below wanted rfl
    calm := fun on => by
      apply ok.calm
      rcases on with on | ⟨_, on⟩
      · cases on
      · simp only [Cpu.pushOff] at on
        split at on
        · next first => exact Or.inl ((saw first).symm.trans on)
        · next nested => exact Or.inr ⟨nested, on⟩
    idle := fun on => by cases on
    back := not_back here }

theorem grab (here : cpu.cur = .sched hart -> cpu.away = false)
    (wants : cpu.want = some (some lock)) (fresh : lock ∉ cpu.held) : CpuOk hart (cpu.grab lock) :=
  { ok with
    nodup := nodup_cons.mpr ⟨fresh, ok.nodup⟩
    noff := by
      have count := ok.noff
      simp only [wants, Option.toList, length_singleton] at count
      simp only [Cpu.grab, Option.toList, length_cons, length_nil, count, Nat.add_zero]
    ranked := fun _ same => by cases same
    dispatching := fun slot same =>
      (ok.dispatching slot same).imp_left (mem_cons_of_mem lock)
    switching := fun slot cur same => mem_cons_of_mem lock (ok.switching slot cur same)
    back := not_back here }

section

variable (here : cpu.cur = .sched hart -> cpu.away = false)

include here

theorem popOff (pushed : cpu.want = some none) (idle : cpu.held = [] -> cpu.resv = none ∧
      cpu.owed = false ∧ cpu.dispatch = none) : CpuOk hart cpu.popOff :=
  { ok with
    noff := by
      have count := ok.noff
      simp only [Cpu.popOff, pushed, Option.toList, length_singleton, length_nil] at count ⊢
      omega
    masked := fun on => by
      simp only [Cpu.popOff] at on ⊢
      split at on
      · next last => omega
      · have zero := ok.masked on
        omega
    ranked := fun wanted same => by cases same
    calm := fun on => by
      apply ok.calm
      simp only [Cpu.popOff] at on
      rcases on with on | ⟨nested, on⟩
      · split at on
        · next last => exact Or.inr ⟨by omega, last.2⟩
        · exact Or.inl on
      · exact Or.inr ⟨by omega, on⟩
    idle := fun on => by
      simp only [Cpu.popOff] at on
      split at on
      · next last =>
          have count := ok.noff
          rw [last.1, pushed, Option.toList_some, length_singleton] at count
          exact idle (length_eq_zero_iff.mp (by omega))
      · exact ok.idle on
    back := not_back here }

theorem unlock (member : lock ∈ cpu.held) (want : cpu.want = none) (dispatch : cpu.dispatch = none)
    (current : ∀ slot, lock = .proc slot -> cpu.proc = some slot -> cpu.cur ≠ .sched hart) :
    CpuOk hart (cpu.unlock lock) :=
  { ok with
    nodup := ok.nodup.erase lock
    noff := by
      have count := ok.noff
      have some := length_pos_of_mem member
      simp only [Cpu.unlock, want, Option.toList, length_nil, length_singleton,
        length_erase_of_mem member] at count ⊢
      omega
    ranked := fun wanted same => by cases same
    dispatching := fun slot same => by
      simp only [Cpu.unlock, dispatch] at same
      cases same
    switching := fun slot cur same => by
      have kept := ok.switching slot cur same
      refine (mem_erase_of_ne ?_).mpr kept
      intro equal
      exact current slot equal.symm same cur
    back := not_back here }

theorem enable (quiet : cpu.Quiet) : CpuOk hart cpu.enable :=
  { ok with
    masked := fun _ => ok.noff_zero quiet.held quiet.want
    calm := fun _ => ⟨rfl, rfl, quiet.user⟩
    idle := fun _ => ⟨quiet.resv, quiet.owed, quiet.dispatch⟩
    back := not_back here }

/-- Changes of a hart that holds no lock and has interrupts off afterwards. -/
theorem masked_off (held : cpu.held = []) (want : cpu.want = none) (trap : Trap)
    (window user : Bool) :
    CpuOk hart { cpu with sie := false, trap := trap, window := window, user := user } :=
  { ok with
    masked := fun on => by cases on
    calm := fun on => by
      rcases on with on | ⟨nested, _⟩
      · cases on
      · exact (nested (ok.noff_zero held want)).elim
    idle := fun on => by cases on
    back := not_back here }

/-- Progress of a trap outside all critical sections. -/
theorem unlocked (held : cpu.held = []) (want : cpu.want = none) (masked : cpu.sie = false)
    (trap : Trap) (window : Bool) : CpuOk hart { cpu with trap := trap, window := window } :=
  { ok with
    calm := fun on => by
      rcases on with on | ⟨nested, _⟩
      · exact (false_ne_true (masked.symm.trans on)).elim
      · exact (nested (ok.noff_zero held want)).elim
    back := not_back here }

end

/-- A hart that holds a lock has interrupts off. -/
theorem sie_off (member : lock ∈ cpu.held) : cpu.sie = false := by
  cases on : cpu.sie with
  | false => rfl
  | true =>
    have count := ok.noff
    have some := length_pos_of_mem member
    have zero := ok.masked on
    omega

/-- Progress in a trap that was taken with interrupts off. -/
theorem setTrap (here : cpu.cur = .sched hart -> cpu.away = false) (member : lock ∈ cpu.held)
    (off : cpu.intena = false) (trap : Trap) : CpuOk hart { cpu with trap := trap } :=
  { ok with
    calm := fun on => by
      rcases on with on | ⟨_, on⟩
      · exact (false_ne_true ((ok.sie_off member).symm.trans on)).elim
      · exact (false_ne_true (off.symm.trans on)).elim
    back := not_back here }

/-- Bookkeeping of a hart that holds a lock. -/
theorem setNotes (here : cpu.cur = .sched hart -> cpu.away = false) (member : lock ∈ cpu.held)
    (resv : Option Int) (owed : Bool) : CpuOk hart { cpu with resv := resv, owed := owed } :=
  { ok with
    idle := fun on => (false_ne_true ((ok.sie_off member).symm.trans on)).elim
    back := not_back here }

end

end CpuOk

variable {H : Type} [DecidableEq H] {build : Build} {state : State H} {thread : Thread H}
  {hart other : H} {slot : Slot} {lock : Lock}

/-! ## The acting hart -/

/-- A field that the new record of the hart shares with the old one. -/
theorem setCpu_same {α : Type} (field : Cpu H -> α) {cpu : Cpu H}
    (same : field cpu = field (state.cpu hart)) (other : H) :
    field ((state.setCpu hart cpu).cpu other) = field (state.cpu other) := by
  by_cases here : other = hart
  · subst here
    simpa [State.setCpu] using same
  · simp [State.setCpu, update_of_ne here]

@[simp] theorem cpu_setCpu_self (cpu : Cpu H) : (state.setCpu hart cpu).cpu hart = cpu :=
  update_self ..

theorem cpu_setCpu_of_ne {cpu : Cpu H} (different : other ≠ hart) :
    (state.setCpu hart cpu).cpu other = state.cpu other :=
  update_of_ne different ..

theorem CpuOk.setCpu {cpu : Cpu H} (inv : Inv state) (ok : CpuOk hart cpu) (other : H) :
    CpuOk other ((state.setCpu hart cpu).cpu other) := by
  by_cases here : other = hart
  · subst here
    simpa using ok
  · rw [cpu_setCpu_of_ne here]
    exact inv.cpu other

namespace Inv

section

variable (inv : Inv state) (active : Active thread hart state)

include inv active

/-- The thread changes its hart's record and locks, but not which threads and
processes the hart runs. -/
theorem relock {cpu : Cpu H} (ok : CpuOk hart cpu) (locks : Lock -> Option H)
    (holder : ∀ lock there, locks lock = some there <->
      lock ∈ ((state.setCpu hart cpu).cpu there).held) (cur : cpu.cur = (state.cpu hart).cur)
    (proc : cpu.proc = (state.cpu hart).proc) (dispatch : cpu.dispatch = (state.cpu hart).dispatch)
    (away : cpu.away = (state.cpu hart).away) (call : cpu.call = (state.cpu hart).call)
    (current : ∀ slot, (state.cpu hart).proc = some slot ->
      .proc slot ∈ (state.cpu hart).held -> .proc slot ∈ cpu.held ∨
        (state.proc slot).state = .running ∧ (state.cpu hart).cur = .proc slot)
    (dozing : ∀ slot, (state.cpu hart).cur = .proc slot ->
      .proc slot ∈ (state.cpu hart).held -> (state.task slot).doze ≠ none -> .proc slot ∈ cpu.held)
    (settled : ∀ pi, locks (.pipe pi) = none -> (state.pipe pi).Settled) :
    Inv { state.setCpu hart cpu with lock := locks } where
  cpu := ok.setCpu inv
  holder := holder
  exclusive slot first second := by
    simp only [setCpu_same Cpu.proc proc]
    exact inv.exclusive slot first second
  current there slot := by
    simp only [setCpu_same Cpu.proc proc, setCpu_same Cpu.cur cur]
    intro runs
    by_cases here : there = hart
    · subst here
      rw [cpu_setCpu_self]
      rcases inv.current there slot runs with held | fits
      · exact current slot runs held
      · exact Or.inr fits
    · rw [cpu_setCpu_of_ne here]
      exact inv.current there slot runs
  running slot running := by
    simp only [setCpu_same Cpu.proc proc, setCpu_same Cpu.dispatch dispatch]
    exact inv.running slot running
  dispatched there slot := by
    simp only [setCpu_same Cpu.proc proc, setCpu_same Cpu.dispatch dispatch]
    exact inv.dispatched there slot
  left there slot := by
    simp only [setCpu_same Cpu.away away, setCpu_same Cpu.cur cur, setCpu_same Cpu.proc proc]
    exact inv.left there slot
  parked there slot := by
    simp only [setCpu_same Cpu.cur cur, setCpu_same Cpu.proc proc]
    exact inv.parked there slot
  entering there slot susp enters := by
    simp only [setCpu_same Cpu.cur cur] at enters
    have different : there ≠ hart := by
      intro here
      rw [here] at enters
      exact false_ne_true ((active.not_susp enters).symm.trans susp)
    rw [cpu_setCpu_of_ne different]
    exact inv.entering there slot susp enters
  started slot := by
    simp only [setCpu_same Cpu.cur cur]
    exact inv.started slot
  owned := inv.owned
  orphan := inv.orphan
  dozing slot chan dozes := by
    simp only [setCpu_same Cpu.cur cur]
    refine (inv.dozing slot chan dozes).imp_right ?_
    rintro ⟨resumed, there, executes, held⟩
    refine ⟨resumed, there, executes, ?_⟩
    by_cases here : there = hart
    · subst here
      rw [cpu_setCpu_self]
      exact dozing slot executes held (fun awake => by cases dozes.symm.trans awake)
    · rw [cpu_setCpu_of_ne here]
      exact held
  asleep := inv.asleep
  settled := settled
  calls there slot := by
    simp only [setCpu_same Cpu.cur cur, setCpu_same Cpu.call call]
    exact inv.calls there slot
  unbroken := inv.unbroken

/-- The thread changes its hart's record, but neither its locks nor which
threads and processes the hart runs. -/
theorem setCpu {cpu : Cpu H} (ok : CpuOk hart cpu) (held : cpu.held = (state.cpu hart).held)
    (cur : cpu.cur = (state.cpu hart).cur) (proc : cpu.proc = (state.cpu hart).proc)
    (dispatch : cpu.dispatch = (state.cpu hart).dispatch) (away : cpu.away = (state.cpu hart).away)
    (call : cpu.call = (state.cpu hart).call) : Inv (state.setCpu hart cpu) := by
  refine inv.relock active ok state.lock ?_ cur proc dispatch away call ?_ ?_ inv.settled
  · intro lock there
    rw [setCpu_same Cpu.held held]
    exact inv.holder lock there
  · intro slot _ member
    exact Or.inl (held ▸ member)
  · intro slot _ member _
    exact held ▸ member

theorem grab (wants : (state.cpu hart).want = some (some lock)) (free : state.lock lock = none) :
    Inv (state.grab hart lock) := by
  have fresh := inv.free_of_none free
  have ok := (inv.cpu hart).grab active.not_away wants (fresh hart)
  refine inv.relock active ok (update state.lock lock (some hart)) ?_ rfl rfl rfl rfl rfl
    (fun _ _ member => Or.inl (mem_cons_of_mem lock member))
    (fun _ _ member _ => mem_cons_of_mem lock member) ?_
  · intro any there
    by_cases same : any = lock
    · subst same
      by_cases here : there = hart
      · subst here
        simp [Cpu.grab]
      · rw [cpu_setCpu_of_ne here, update_self]
        simp [fresh there, Ne.symm here]
    · rw [update_of_ne same, inv.holder any there]
      by_cases here : there = hart
      · subst here
        simp [Cpu.grab, same]
      · rw [cpu_setCpu_of_ne here]
  · intro pi unlocked
    by_cases same : Lock.pipe pi = lock
    · rw [same, update_self] at unlocked
      cases unlocked
    · rw [update_of_ne same] at unlocked
      exact inv.settled pi unlocked

theorem unlock (ready : Droppable thread hart lock state) : Inv (state.unlock hart lock) := by
  have self : ∀ slot, lock = .proc slot -> (state.cpu hart).proc = some slot ->
      (state.cpu hart).cur = .proc slot :=
    fun slot same runs => active.1.trans (ready.current slot same runs).1
  have ok := (inv.cpu hart).unlock active.not_away ready.member ready.want ready.dispatch
    (fun slot same runs cur => by
      rw [self slot same runs] at cur
      cases cur)
  refine inv.relock active ok (update state.lock lock none) ?_ rfl rfl rfl rfl rfl ?_ ?_ ?_
  · intro any there
    by_cases same : any = lock
    · subst same
      rw [update_self]
      by_cases here : there = hart
      · subst here
        simp [Cpu.unlock, (inv.cpu there).nodup.not_mem_erase]
      · rw [cpu_setCpu_of_ne here]
        have elsewhere : any ∉ (state.cpu there).held :=
          fun member => here (inv.held_unique member ready.member)
        simp [elsewhere]
    · rw [update_of_ne same, inv.holder any there]
      by_cases here : there = hart
      · subst here
        simp [Cpu.unlock, mem_erase_of_ne same]
      · rw [cpu_setCpu_of_ne here]
  · intro slot runs member
    by_cases same : lock = .proc slot
    · exact Or.inr ⟨(ready.current slot same runs).2.1, self slot same runs⟩
    · exact Or.inl ((mem_erase_of_ne (Ne.symm same)).mpr member)
  · intro slot cur member dozes
    refine (mem_erase_of_ne ?_).mpr member
    intro same
    have runs := ((inv.cpu hart).process slot cur).1
    exact dozes (ready.current slot same.symm runs).2.2
  · intro pi unlocked
    by_cases same : Lock.pipe pi = lock
    · exact ready.settled pi same.symm
    · rw [update_of_ne same] at unlocked
      exact inv.settled pi unlocked

end

/-! ## The record of one process -/

omit [DecidableEq H]

/-- A field that the new record of the slot shares with the old one. -/
theorem setProc_same {α : Type} (field : Proc -> α) (same : field proc = field (state.proc slot))
    (any : Slot) : field ((state.setProc slot proc).proc any) = field (state.proc any) := by
  by_cases here : any = slot
  · subst here
    simpa [State.setProc] using same
  · simp [State.setProc, update_of_ne here]

/-- The record of a process changes, but not its state. -/
theorem setProc (inv : Inv state) (same : proc.state = (state.proc slot).state)
    (chan : proc.state = .sleeping -> proc.chan = (state.proc slot).chan)
    (owned : ∀ self, (state.task slot).owner = some self ->
      proc.parent = none ∨ proc.parent = some self ∨ proc.parent = some initproc)
    (orphan : proc.state = .unused -> proc.parent = none) : Inv (state.setProc slot proc) where
  cpu := inv.cpu
  holder := inv.holder
  exclusive := inv.exclusive
  current there any := by
    rw [setProc_same Proc.state same]
    exact inv.current there any
  running any := by
    rw [setProc_same Proc.state same]
    exact inv.running any
  dispatched there any := by
    rw [setProc_same Proc.state same]
    exact inv.dispatched there any
  left there any := by
    rw [setProc_same Proc.state same]
    exact inv.left there any
  parked := inv.parked
  entering there any := by
    rw [setProc_same Proc.state same]
    exact inv.entering there any
  started any := by
    rw [setProc_same Proc.state same]
    exact inv.started any
  owned any self owner := by
    rw [setProc_same Proc.state same]
    refine ⟨(inv.owned any self owner).1, ?_⟩
    by_cases here : any = slot
    · subst here
      simpa [State.setProc] using owned self owner
    · simpa [State.setProc, update_of_ne here] using (inv.owned any self owner).2
  orphan any := by
    by_cases here : any = slot
    · subst here
      simpa [State.setProc] using orphan
    · simpa [State.setProc, update_of_ne here] using inv.orphan any
  dozing any chan' dozes := by
    refine (inv.dozing any chan' dozes).imp_left (fun asleep => ?_)
    rw [setProc_same Proc.state same]
    refine ⟨asleep.1, ?_⟩
    by_cases here : any = slot
    · subst here
      simpa [State.setProc, chan (same.trans asleep.1)] using asleep.2
    · simpa [State.setProc, update_of_ne here] using asleep.2
  asleep any sleeping := by
    rw [setProc_same Proc.state same] at sleeping
    rcases inv.asleep any sleeping with ⟨chan', dozes, there⟩
    refine ⟨chan', dozes, ?_⟩
    by_cases here : any = slot
    · subst here
      simpa [State.setProc, chan (same.trans sleeping)] using there
    · simpa [State.setProc, update_of_ne here] using there
  settled := inv.settled
  calls := inv.calls
  unbroken := inv.unbroken

/-- A process that is not running changes to another such state. -/
theorem restate (inv : Inv state) (was : (state.proc slot).state ≠ .running)
    (now : proc.state ≠ .running) (susp : (state.task slot).susp = true -> task.susp = true)
    (call : task.susp = false -> task.call = (state.task slot).call)
    (absent : task.susp = true -> (state.task slot).susp = false ->
      ∀ there, (state.cpu there).cur ≠ .proc slot)
    (started : proc.state ≠ .unused -> task.susp = true ∨ (state.proc slot).state ≠ .unused)
    (owned : ∀ self, task.owner = some self -> proc.state = .used ∧
      (proc.parent = none ∨ proc.parent = some self ∨ proc.parent = some initproc))
    (orphan : proc.state = .unused -> proc.parent = none)
    (awake : task.doze = none ∨ task.doze = (state.task slot).doze ∧
      task.susp = (state.task slot).susp ∧ (state.proc slot).state ≠ .sleeping)
    (up : proc.state ≠ .sleeping) : Inv ((state.setProc slot proc).setTask slot task) := by
  have record : ∀ any, any ≠ slot ->
      ((state.setProc slot proc).setTask slot task).proc any = state.proc any :=
    fun any different => update_of_ne different ..
  have thread : ∀ any, any ≠ slot ->
      ((state.setProc slot proc).setTask slot task).task any = state.task any :=
    fun any different => update_of_ne different ..
  have newRecord : ((state.setProc slot proc).setTask slot task).proc slot = proc :=
    update_self ..
  have newThread : ((state.setProc slot proc).setTask slot task).task slot = task :=
    update_self ..
  refine
    { cpu := inv.cpu
      holder := inv.holder
      exclusive := inv.exclusive
      current := fun there any runs => ?_
      running := fun any runs => ?_
      dispatched := fun there any marked => ?_
      left := fun there any away cur runs => ?_
      parked := fun there any cur runs => ?_
      entering := fun there any waits enters => ?_
      started := fun any => ?_
      owned := fun any self => ?_
      orphan := fun any => ?_
      dozing := fun any chan dozes => ?_
      asleep := fun any sleeping => ?_
      settled := inv.settled
      calls := fun there any enters awakes => ?_
      unbroken := inv.unbroken }
  all_goals by_cases here : any = slot
  all_goals first | subst here | (simp only [record any here, thread any here] at *)
  · exact (inv.current there any runs).imp_right (fun fits => (was fits.1).elim)
  · exact inv.current there any runs
  · rw [newRecord] at runs
    exact (now runs).elim
  · exact inv.running any runs
  · exact (was (inv.dispatched there any marked).1).elim
  · exact inv.dispatched there any marked
  · rw [newRecord]
    exact now
  · exact inv.left there any away cur runs
  · rw [newThread]
    exact susp (inv.parked there any cur runs)
  · exact inv.parked there any cur runs
  · rw [newThread] at waits
    cases before : (state.task any).susp with
    | true => exact (was (inv.entering there any before enters).2).elim
    | false => exact (absent waits before there enters).elim
  · exact inv.entering there any waits enters
  · rw [newRecord, newThread]
    intro used
    rcases started used with waits | before
    · exact Or.inl waits
    · exact (inv.started any before).imp_left susp
  · exact inv.started any
  · rw [newRecord, newThread]
    exact owned self
  · exact inv.owned any self
  · rw [newRecord]
    exact orphan
  · exact inv.orphan any
  · rw [newThread] at dozes ⊢
    rcases awake with awake | ⟨same, still, awake⟩
    · rw [awake] at dozes
      cases dozes
    · rw [same] at dozes
      rw [still]
      rcases inv.dozing any chan dozes with asleep | executes
      · exact (awake asleep.1).elim
      · exact Or.inr executes
  · exact inv.dozing any chan dozes
  · rw [newRecord] at sleeping
    exact (up sleeping).elim
  · exact inv.asleep any sleeping
  · rw [newThread] at awakes ⊢
    rw [call awakes]
    refine inv.calls there any enters ?_
    cases before : (state.task any).susp with
    | false => rfl
    | true => cases awakes.symm.trans (susp before)
  · exact inv.calls there any enters awakes

/-! ## One hart and one process -/

end Inv

/-- New records of one hart and one process. -/
def State.replace (state : State H) (hart : H) (slot : Slot) (cpu : Cpu H) (proc : Proc)
    (task : Task) : State H :=
  ((state.setCpu hart cpu).setProc slot proc).setTask slot task

/-- The hart runs the process, executes its thread or is about to run it. -/
def Cpu.Concerns (cpu : Cpu H) (slot : Slot) : Prop :=
  cpu.proc = some slot ∨ cpu.cur = .proc slot ∨ cpu.dispatch = some slot

/-- What the invariant says about a process that at most this hart is concerned with. -/
structure Suits (hart : H) (slot : Slot) (cpu : Cpu H) (proc : Proc) (task : Task) : Prop where
  current : cpu.proc = some slot -> .proc slot ∈ cpu.held ∨
    proc.state = .running ∧ cpu.cur = .proc slot
  running : proc.state = .running -> cpu.proc = some slot ∨ cpu.dispatch = some slot
  dispatched : cpu.dispatch = some slot -> proc.state = .running ∧ task.susp = true
  left : cpu.away = true -> cpu.cur = .sched hart -> cpu.proc = some slot -> proc.state ≠ .running
  parked : cpu.cur = .sched hart -> cpu.proc = some slot -> task.susp = true
  entering : task.susp = true -> cpu.cur = .proc slot -> cpu.Parked slot ∧ proc.state = .running
  started : proc.state ≠ .unused -> task.susp = true ∨ cpu.cur = .proc slot
  owned : forall self, task.owner = some self -> proc.state = .used ∧
    (proc.parent = none ∨ proc.parent = some self ∨ proc.parent = some initproc)
  orphan : proc.state = .unused -> proc.parent = none
  dozing : forall chan, task.doze = some chan -> proc.state = .sleeping ∧ proc.chan = some chan ∨
      task.susp = false ∧ cpu.cur = .proc slot ∧ .proc slot ∈ cpu.held
  asleep : proc.state = .sleeping -> ∃ chan, task.doze = some chan ∧ proc.chan = some chan
  calls : cpu.cur = .proc slot -> task.susp = false -> cpu.call = task.call

omit [DecidableEq H] in
/-- A hart is concerned with one process at a time. -/
theorem CpuOk.concerns_unique {cpu : Cpu H} (ok : CpuOk hart cpu) {any : Slot}
    (one : cpu.Concerns slot) (two : cpu.Concerns any) : any = slot := by
  have runs : ∀ {slot}, cpu.Concerns slot -> cpu.dispatch = some slot ∨ cpu.proc = some slot := by
    rintro slot (current | cur | marked)
    · exact Or.inr current
    · exact Or.inr (ok.process slot cur).1
    · exact Or.inl marked
  have apart : ∀ {first second}, cpu.dispatch = some first -> cpu.proc ≠ some second := by
    intro first second marked current
    cases (ok.dispatching first marked).2.2.symm.trans current
  rcases runs one with one | one <;> rcases runs two with two | two
  · exact Option.some.inj (two.symm.trans one)
  · exact (apart one two).elim
  · exact (apart two one).elim
  · exact Option.some.inj (two.symm.trans one)

namespace Inv

omit [DecidableEq H] in
/-- A process concerns one hart at a time. -/
theorem concerns_unique (inv : Inv state) (one : (state.cpu hart).Concerns slot)
    (two : (state.cpu other).Concerns slot) : other = hart := by
  have runs : ∀ {there}, (state.cpu there).Concerns slot ->
      (state.cpu there).dispatch = some slot ∨ (state.cpu there).proc = some slot := by
    rintro there (current | cur | marked)
    · exact Or.inr current
    · exact Or.inr ((inv.cpu there).process slot cur).1
    · exact Or.inl marked
  rcases runs one with one | one <;> rcases runs two with two | two
  · exact inv.held_unique ((inv.cpu other).dispatching slot two).1
      ((inv.cpu hart).dispatching slot one).1
  · exact ((inv.dispatched hart slot one).2.2 other two).elim
  · exact ((inv.dispatched other slot two).2.2 hart one).elim
  · exact inv.exclusive slot other hart two one

omit [DecidableEq H] in
theorem suits (inv : Inv state)
    (elsewhere : ∀ there, (state.cpu there).Concerns slot -> there = hart) :
    Suits hart slot (state.cpu hart) (state.proc slot) (state.task slot) where
  current := inv.current hart slot
  running runs := by
    rcases inv.running slot runs with ⟨there, current⟩ | ⟨there, marked⟩
    · exact Or.inl (elsewhere there (Or.inl current) ▸ current)
    · exact Or.inr (elsewhere there (Or.inr (Or.inr marked)) ▸ marked)
  dispatched marked := ⟨(inv.dispatched hart slot marked).1, (inv.dispatched hart slot marked).2.1⟩
  left := inv.left hart slot
  parked := inv.parked hart slot
  entering := inv.entering hart slot
  started used := by
    refine (inv.started slot used).imp_right ?_
    rintro ⟨there, cur⟩
    exact elsewhere there (Or.inr (Or.inl cur)) ▸ cur
  owned := inv.owned slot
  orphan := inv.orphan slot
  dozing chan dozes := by
    refine (inv.dozing slot chan dozes).imp_right ?_
    rintro ⟨resumed, there, cur, held⟩
    cases elsewhere there (Or.inr (Or.inl cur))
    exact ⟨resumed, cur, held⟩
  asleep := inv.asleep slot
  calls := inv.calls hart slot

/-- A hart and the only process it is concerned with change together. -/
theorem change (inv : Inv state) {cpu : Cpu H} (ok : CpuOk hart cpu)
    (held : cpu.held = (state.cpu hart).held) (only : ∀ any, cpu.Concerns any -> any = slot)
    (before : ∀ any, (state.cpu hart).Concerns any -> any = slot)
    (elsewhere : ∀ there, (state.cpu there).Concerns slot -> there = hart)
    (suits : Suits hart slot cpu proc task) : Inv (state.replace hart slot cpu proc task) := by
  have cpus : ∀ there, CpuOk there ((state.replace hart slot cpu proc task).cpu there) :=
    ok.setCpu inv
  have locks : (state.replace hart slot cpu proc task).lock = state.lock := rfl
  have pipes : (state.replace hart slot cpu proc task).pipe = state.pipe := rfl
  have calm : (state.replace hart slot cpu proc task).panicked = false := inv.unbroken
  have helds : ∀ there, ((state.replace hart slot cpu proc task).cpu there).held =
      (state.cpu there).held := setCpu_same Cpu.held held
  have new : (state.replace hart slot cpu proc task).cpu hart = cpu := update_self ..
  have newProc : (state.replace hart slot cpu proc task).proc slot = proc := update_self ..
  have newTask : (state.replace hart slot cpu proc task).task slot = task := update_self ..
  have old : ∀ there, there ≠ hart ->
      (state.replace hart slot cpu proc task).cpu there = state.cpu there :=
    fun there different => update_of_ne different ..
  have others : ∀ any, any ≠ slot ->
      (state.replace hart slot cpu proc task).proc any = state.proc any ∧
        (state.replace hart slot cpu proc task).task any = state.task any :=
    fun any different => ⟨update_of_ne different .., update_of_ne different ..⟩
  generalize state.replace hart slot cpu proc task = after at *
  subst new newProc newTask
  -- A hart and a process that concern each other have both changed or both not.
  have both : ∀ {there any}, (after.cpu there).Concerns any -> there = hart ∧ any = slot ∨
      after.cpu there = state.cpu there ∧ any ≠ slot := by
    intro there any concerned
    by_cases here : there = hart
    · subst here
      exact Or.inl ⟨rfl, only any concerned⟩
    · have same := old there here
      rw [same] at concerned
      exact Or.inr ⟨same, fun own => here (elsewhere there (own ▸ concerned))⟩
  have kept : ∀ {there any}, any ≠ slot -> (state.cpu there).Concerns any ->
      after.cpu there = state.cpu there :=
    fun different concerned => old _ fun here => different (before _ (here ▸ concerned))
  refine
    { cpu := cpus
      holder := fun lock there => ?_
      exclusive := fun any first second one two => ?_
      current := fun there any runs => ?_
      running := fun any runs => ?_
      dispatched := fun there any marked => ?_
      left := fun there any away cur runs => ?_
      parked := fun there any cur runs => ?_
      entering := fun there any suspended enters => ?_
      started := fun any used => ?_
      owned := fun any self owner => ?_
      orphan := fun any unused => ?_
      dozing := fun any chan dozes => ?_
      asleep := fun any sleeping => ?_
      settled := fun pi => ?_
      calls := fun there any enters awakes => ?_
      unbroken := calm }
  · rw [locks, helds]
    exact inv.holder lock there
  · rcases both (Or.inl one) with ⟨rfl, rfl⟩ | ⟨same, different⟩
    · exact ((both (Or.inl two)).resolve_right fun other => other.2 rfl).1.symm
    · rcases both (Or.inl two) with ⟨_, own⟩ | ⟨same', _⟩
      · exact (different own).elim
      · rw [same] at one
        rw [same'] at two
        exact inv.exclusive any first second one two
  · rcases both (Or.inl runs) with ⟨rfl, rfl⟩ | ⟨same, different⟩
    · exact suits.current runs
    · rw [same] at runs ⊢
      rw [(others any different).1]
      exact inv.current there any runs
  · by_cases same : any = slot
    · subst same
      exact (suits.running runs).imp (fun current => ⟨hart, current⟩) fun marked => ⟨hart, marked⟩
    · rw [(others any same).1] at runs
      refine (inv.running any runs).imp ?_ ?_
      · rintro ⟨there, current⟩
        exact ⟨there, by rwa [kept same (Or.inl current)]⟩
      · rintro ⟨there, marked⟩
        exact ⟨there, by rwa [kept same (Or.inr (Or.inr marked))]⟩
  · rcases both (Or.inr (Or.inr marked)) with ⟨rfl, rfl⟩ | ⟨same, different⟩
    · refine ⟨(suits.dispatched marked).1, (suits.dispatched marked).2, fun second runs => ?_⟩
      rcases both (Or.inl runs) with ⟨rfl, _⟩ | ⟨_, different⟩
      · cases (ok.dispatching any marked).2.2.symm.trans runs
      · exact different rfl
    · rw [same] at marked
      obtain ⟨running, waits, nowhere⟩ := inv.dispatched there any marked
      rw [(others any different).1, (others any different).2]
      refine ⟨running, waits, fun second runs => ?_⟩
      rcases both (Or.inl runs) with ⟨_, own⟩ | ⟨same', _⟩
      · exact different own
      · rw [same'] at runs
        exact nowhere second runs
  · rcases both (Or.inl runs) with ⟨rfl, rfl⟩ | ⟨same, different⟩
    · exact suits.left away cur runs
    · rw [same] at away cur runs
      rw [(others any different).1]
      exact inv.left there any away cur runs
  · rcases both (Or.inl runs) with ⟨rfl, rfl⟩ | ⟨same, different⟩
    · exact suits.parked cur runs
    · rw [same] at cur runs
      rw [(others any different).2]
      exact inv.parked there any cur runs
  · rcases both (Or.inr (Or.inl enters)) with ⟨rfl, rfl⟩ | ⟨same, different⟩
    · exact suits.entering suspended enters
    · rw [same] at enters ⊢
      rw [(others any different).2] at suspended
      rw [(others any different).1]
      exact inv.entering there any suspended enters
  · by_cases same : any = slot
    · subst same
      exact (suits.started used).imp_right fun cur => ⟨hart, cur⟩
    · rw [(others any same).1] at used
      rw [(others any same).2]
      refine (inv.started any used).imp_right ?_
      rintro ⟨there, cur⟩
      exact ⟨there, by rwa [kept same (Or.inr (Or.inl cur))]⟩
  · by_cases same : any = slot
    · subst same
      exact suits.owned self owner
    · rw [(others any same).2] at owner
      rw [(others any same).1]
      exact inv.owned any self owner
  · by_cases same : any = slot
    · subst same
      exact suits.orphan unused
    · rw [(others any same).1] at unused ⊢
      exact inv.orphan any unused
  · by_cases same : any = slot
    · subst same
      refine (suits.dozing chan dozes).imp_right ?_
      rintro ⟨resumed, executes⟩
      exact ⟨resumed, hart, executes⟩
    · rw [(others any same).2] at dozes ⊢
      rw [(others any same).1]
      refine (inv.dozing any chan dozes).imp_right ?_
      rintro ⟨resumed, there, cur, member⟩
      rw [← helds] at member
      exact ⟨resumed, there, by rwa [kept same (Or.inr (Or.inl cur))], member⟩
  · by_cases same : any = slot
    · subst same
      exact suits.asleep sleeping
    · rw [(others any same).1] at sleeping ⊢
      rw [(others any same).2]
      exact inv.asleep any sleeping
  · rw [locks, pipes]
    exact inv.settled pi
  · rcases both (Or.inr (Or.inl enters)) with ⟨rfl, rfl⟩ | ⟨same, different⟩
    · exact suits.calls enters awakes
    · rw [same] at enters ⊢
      rw [(others any different).2] at awakes ⊢
      exact inv.calls there any enters awakes

/-! ## Switching between threads -/

section Own

variable (inv : Inv state) (here : (state.cpu hart).Concerns slot)

include inv here

omit [DecidableEq H] in
theorem ownSuits : Suits hart slot (state.cpu hart) (state.proc slot) (state.task slot) :=
  inv.suits fun _ => inv.concerns_unique here

/-- A hart and the process that it is concerned with change together. -/
theorem changeOwn {cpu : Cpu H} (ok : CpuOk hart cpu) (held : cpu.held = (state.cpu hart).held)
    (only : ∀ any, cpu.Concerns any -> any = slot) (suits : Suits hart slot cpu proc task) :
    Inv (state.replace hart slot cpu proc task) :=
  inv.change ok held only (fun _ => (inv.cpu hart).concerns_unique here)
    (fun _ => inv.concerns_unique here) suits

end Own

section

variable (inv : Inv state)

include inv

/-- The running process gives up its state, holding its own lock. -/
theorem stop (active : Active (.proc slot) hart state) (held : .proc slot ∈ (state.cpu hart).held)
    (running : (state.proc slot).state = .running) {next : ProcState} (leaves : next ≠ .running)
    (remains : next ≠ .unused)
    (asleep : next = .sleeping -> ∃ chan, (state.task slot).doze = some chan ∧
      (state.proc slot).chan = some chan) :
    Inv (state.setProc slot { state.proc slot with state := next }) := by
  have here : (state.cpu hart).Concerns slot := Or.inr (Or.inl active.1)
  have changed : Inv (state.replace hart slot (state.cpu hart)
      { state.proc slot with state := next } (state.task slot)) :=
    inv.changeOwn here (inv.cpu hart) rfl (fun _ => (inv.cpu hart).concerns_unique here)
      { inv.ownSuits here with
        current := fun _ => Or.inl held
        running := fun runs => (leaves runs).elim
        dispatched := fun marked => by
          cases ((inv.cpu hart).dispatching slot marked).2.1.symm.trans active.1
        left := fun _ _ _ => leaves
        entering := fun waits => (false_ne_true (active.2.symm.trans waits)).elim
        started := fun _ => Or.inr active.1
        owned := fun self owner => by cases (inv.owned slot self owner).1.symm.trans running
        orphan := fun unused => (remains unused).elim
        dozing := fun _ _ => Or.inr ⟨active.2, active.1, held⟩
        asleep := asleep }
  simpa [State.replace, State.setCpu, State.setTask, State.setProc] using changed

omit [DecidableEq H] in
/-- Nobody executes the thread of a process that waits for its turn. -/
theorem unexecuted (held : .proc slot ∈ (state.cpu hart).held)
    (idle : (state.proc slot).state ≠ .running) (unowned : (state.cpu hart).proc ≠ some slot)
    (there : H) : (state.cpu there).cur ≠ .proc slot :=
  fun cur => inv.not_current held idle unowned there ((inv.cpu there).process slot cur).1

theorem markRunning (active : Active (.sched hart) hart state)
    (held : .proc slot ∈ (state.cpu hart).held) (idle : (state.cpu hart).proc = none)
    (unmarked : (state.cpu hart).dispatch = none) (runnable : (state.proc slot).state = .runnable) :
    Inv (state.markRunning hart slot) := by
  have resting : (state.proc slot).state ≠ .running := by simp [runnable]
  have unowned : (state.cpu hart).proc ≠ some slot := by simp [idle]
  have absent := inv.unexecuted held resting unowned
  have nowhere : ∀ there, ¬ (state.cpu there).Concerns slot := by
    rintro there (current | cur | marked)
    · exact inv.not_current held resting unowned there current
    · exact absent there cur
    · exact resting (inv.dispatched there slot marked).1
  have suits : Suits hart slot (state.cpu hart) (state.proc slot) (state.task slot) :=
    inv.suits fun there concerned => (nowhere there concerned).elim
  have waits : (state.task slot).susp = true :=
    (suits.started (by simp [runnable])).resolve_right (absent hart)
  have ok : CpuOk hart { state.cpu hart with dispatch := some slot } :=
    { inv.cpu hart with
      idle := fun on =>
        (false_ne_true (((inv.cpu hart).sie_off held).symm.trans on)).elim
      dispatching := fun any same => by
        cases same
        exact ⟨held, active.1, idle⟩
      back := CpuOk.not_back (fun _ => active.2) }
  have changed : Inv (state.replace hart slot { state.cpu hart with dispatch := some slot }
      { state.proc slot with state := .running } (state.task slot)) :=
    inv.change ok rfl (fun _ => ok.concerns_unique (Or.inr (Or.inr rfl)))
      (by
        rintro any (current | cur | marked)
        · cases idle.symm.trans current
        · cases active.1.symm.trans cur
        · cases unmarked.symm.trans marked)
      (fun there concerned => (nowhere there concerned).elim)
      { suits with
        running := fun _ => Or.inr rfl
        dispatched := fun _ => ⟨rfl, waits⟩
        left := fun _ _ current => (unowned current).elim
        current := fun current => (unowned current).elim
        entering := fun _ cur => (absent hart cur).elim
        started := fun _ => Or.inl waits
        owned := fun self owner => by cases (suits.owned self owner).1.symm.trans runnable
        orphan := fun unused => by cases unused
        dozing := fun chan dozes => (suits.dozing chan dozes).imp_left fun asleep => by
          cases asleep.1.symm.trans runnable
        asleep := fun sleeping => by cases sleeping }
  simpa [State.replace, State.markRunning, State.setCpu, State.setTask, State.setProc] using changed

theorem setCurrent (active : Active thread hart state)
    (marked : (state.cpu hart).dispatch = some slot) : Inv (state.setCurrent hart slot) := by
  obtain ⟨held, cur, idle⟩ := (inv.cpu hart).dispatching slot marked
  obtain ⟨running, waits, _⟩ := inv.dispatched hart slot marked
  have here : (state.cpu hart).Concerns slot := Or.inr (Or.inr marked)
  have ok : CpuOk hart { state.cpu hart with proc := some slot, dispatch := none } :=
    { inv.cpu hart with
      idle := fun on =>
        (false_ne_true (((inv.cpu hart).sie_off held).symm.trans on)).elim
      process := fun any executes => by cases cur.symm.trans executes
      dispatching := fun any same => by cases same
      switching := fun any _ same => by
        cases same
        exact held
      back := CpuOk.not_back (fun _ => active.not_away cur) }
  have changed : Inv (state.replace hart slot
      { state.cpu hart with proc := some slot, dispatch := none } (state.proc slot)
      (state.task slot)) :=
    inv.changeOwn here ok rfl (fun _ => ok.concerns_unique (Or.inl rfl))
      { inv.ownSuits here with
        current := fun _ => Or.inl held
        running := fun _ => Or.inl rfl
        dispatched := fun same => by cases same
        left := fun away _ _ => (false_ne_true ((active.not_away cur).symm.trans away)).elim
        parked := fun _ _ => waits
        entering := fun _ executes => by cases cur.symm.trans executes }
  simpa [State.replace, State.setCurrent, State.setCpu, State.setTask, State.setProc] using changed

theorem swtchIn (active : Active (.sched hart) hart state)
    (current : (state.cpu hart).proc = some slot) (alone : (state.cpu hart).Parked slot)
    (running : (state.proc slot).state = .running) : Inv (state.swtchIn hart slot) := by
  have here : (state.cpu hart).Concerns slot := Or.inl current
  have held : .proc slot ∈ (state.cpu hart).held := by simp [alone.held]
  have waits := inv.parked hart slot active.1 current
  have ok : CpuOk hart { state.cpu hart with cur := .proc slot, away := true } :=
    { inv.cpu hart with
      scheduler := fun _ executes => by cases executes
      process := fun _ executes => by
        cases executes
        exact ⟨current, rfl⟩
      dispatching := fun _ same => by cases alone.dispatch.symm.trans same
      switching := fun _ executes => by cases executes
      back := fun _ executes => by cases executes }
  have changed : Inv (state.replace hart slot
      { state.cpu hart with cur := .proc slot, away := true } (state.proc slot)
      (state.task slot)) :=
    inv.changeOwn here ok rfl (fun _ => ok.concerns_unique (Or.inl current))
      { inv.ownSuits here with
        current := fun _ => Or.inl held
        left := fun _ executes => by cases executes
        parked := fun executes => by cases executes
        entering := fun _ _ => ⟨{ alone with }, running⟩
        started := fun _ => Or.inr rfl
        dozing := fun chan dozes => ((inv.ownSuits here).dozing chan dozes).imp_right
          fun executes => by cases active.1.symm.trans executes.2.1
        calls := fun _ awake => (false_ne_true (awake.symm.trans waits)).elim }
  simpa [State.replace, State.swtchIn, State.setCpu, State.setTask, State.setProc] using changed

theorem swtchOut (active : Active (.proc slot) hart state)
    (held : (state.cpu hart).held = [.proc slot]) (want : (state.cpu hart).want = none)
    (resv : (state.cpu hart).resv = none) (owed : (state.cpu hart).owed = false)
    (unmarked : (state.cpu hart).dispatch = none) (user : (state.cpu hart).user = false)
    (leaves : (state.proc slot).state ≠ .running)
    (sleeps : ∀ chan, (state.task slot).doze = some chan ->
      (state.proc slot).state = .sleeping ∧ (state.proc slot).chan = some chan) :
    Inv (state.swtchOut hart slot) := by
  have here : (state.cpu hart).Concerns slot := Or.inr (Or.inl active.1)
  have current := ((inv.cpu hart).process slot active.1).1
  have member : .proc slot ∈ (state.cpu hart).held := by simp [held]
  have ok : CpuOk hart
      { state.cpu hart with
        cur := .sched hart, trap := .none, window := false, call := .idle } :=
    { inv.cpu hart with
      calm := fun _ => ⟨rfl, rfl, user⟩
      scheduler := fun _ same => by
        cases same
        rfl
      process := fun _ executes => by cases executes
      dispatching := fun _ same => by cases unmarked.symm.trans same
      switching := fun _ _ same => by
        cases current.symm.trans same
        exact member
      back := fun _ _ => ⟨slot, current, ⟨held, want, unmarked, resv, owed, rfl, rfl, user, rfl⟩⟩ }
  have changed : Inv (state.replace hart slot
      { state.cpu hart with
        cur := .sched hart, trap := .none, window := false, call := .idle }
      (state.proc slot)
      { state.task slot with susp := true, saved := some (state.cpu hart).intena }) :=
    inv.changeOwn here ok rfl (fun _ => ok.concerns_unique (Or.inl current))
      { inv.ownSuits here with
        current := fun _ => Or.inl member
        dispatched := fun same => by cases unmarked.symm.trans same
        left := fun _ _ _ => leaves
        parked := fun _ _ => rfl
        entering := fun _ executes => by cases executes
        started := fun _ => Or.inl rfl
        dozing := fun chan dozes => Or.inl (sleeps chan dozes)
        calls := fun executes => by cases executes }
  simpa [State.replace, State.swtchOut, State.setCpu, State.setTask, State.setProc] using changed

theorem clearCurrent (active : Active (.sched hart) hart state)
    (current : (state.cpu hart).proc = some slot) (leaves : (state.proc slot).state ≠ .running) :
    Inv (state.clearCurrent hart) := by
  have here : (state.cpu hart).Concerns slot := Or.inl current
  have ok : CpuOk hart { state.cpu hart with proc := none } :=
    { inv.cpu hart with
      process := fun _ executes => by cases active.1.symm.trans executes
      dispatching := fun any same =>
        ⟨((inv.cpu hart).dispatching any same).1, active.1, rfl⟩
      switching := fun _ _ same => by cases same
      back := CpuOk.not_back (fun _ => active.2) }
  have changed : Inv (state.replace hart slot { state.cpu hart with proc := none }
      (state.proc slot) (state.task slot)) :=
    inv.changeOwn here ok rfl (by
        rintro any (impossible | cur | marked)
        · cases impossible
        · cases active.1.symm.trans cur
        · cases ((inv.cpu hart).dispatching any marked).2.2.symm.trans current)
      { inv.ownSuits here with
        current := fun impossible => by cases impossible
        running := fun runs => (leaves runs).elim
        left := fun _ _ impossible => by cases impossible
        parked := fun _ impossible => by cases impossible
        entering := fun _ cur => by cases active.1.symm.trans cur }
  simpa [State.replace, State.clearCurrent, State.setCpu, State.setTask, State.setProc] using
    changed

theorem resumed (cur : (state.cpu hart).cur = .proc slot) (susp : (state.task slot).susp = true)
    (intena : Bool) : Inv (state.resumed hart slot intena) := by
  obtain ⟨alone, running⟩ := inv.entering hart slot susp cur
  have here : (state.cpu hart).Concerns slot := Or.inr (Or.inl cur)
  have ok : CpuOk hart { state.cpu hart with
      intena := intena, call := (state.task slot).call } :=
    { inv.cpu hart with
      calm := fun _ => ⟨alone.trap, alone.window, alone.user⟩
      back := fun _ executes => by cases cur.symm.trans executes }
  have changed : Inv (state.replace hart slot
      { state.cpu hart with intena := intena, call := (state.task slot).call }
      (state.proc slot) { state.task slot with susp := false }) :=
    inv.changeOwn here ok rfl (fun _ => ok.concerns_unique (Or.inr (Or.inl cur)))
      { inv.ownSuits here with
        dispatched := fun marked => by cases alone.dispatch.symm.trans marked
        parked := fun executes => by cases cur.symm.trans executes
        entering := fun impossible => by cases impossible
        started := fun _ => Or.inr cur
        dozing := fun chan dozes => ((inv.ownSuits here).dozing chan dozes).imp_right
          fun executes => (false_ne_true (executes.1.symm.trans susp)).elim
        calls := fun _ _ => rfl }
  simpa [State.replace, State.resumed, State.setCpu, State.setTask, State.setProc] using changed

/-- The scheduler is back from its call of `swtch`. -/
theorem present (cur : (state.cpu hart).cur = .sched hart)
    (current : (state.cpu hart).proc = some slot) :
    Inv (state.setCpu hart { state.cpu hart with away := false }) := by
  have here : (state.cpu hart).Concerns slot := Or.inl current
  have ok : CpuOk hart { state.cpu hart with away := false } :=
    { inv.cpu hart with
      process := fun _ executes => by cases cur.symm.trans executes
      back := fun away => by cases away }
  have changed : Inv (state.replace hart slot { state.cpu hart with away := false }
      (state.proc slot) (state.task slot)) :=
    inv.changeOwn here ok rfl (fun _ => ok.concerns_unique (Or.inl current))
      { inv.ownSuits here with
        left := fun away => by cases away
        entering := fun _ executes => by cases cur.symm.trans executes }
  simpa [State.replace, State.setCpu, State.setTask, State.setProc] using changed

/-- A process that holds its lock starts a nap. -/
theorem setDoze (resumed : (state.task slot).susp = false) (cur : (state.cpu hart).cur = .proc slot)
    (held : .proc slot ∈ (state.cpu hart).held) (up : (state.proc slot).state ≠ .sleeping)
    (chan : Chan) (naps : Nat) :
    Inv (state.setTask slot { state.task slot with doze := some chan, naps := naps }) := by
  have here : (state.cpu hart).Concerns slot := Or.inr (Or.inl cur)
  have changed : Inv (state.replace hart slot (state.cpu hart) (state.proc slot)
      { state.task slot with doze := some chan, naps := naps }) :=
    inv.changeOwn here (inv.cpu hart) rfl (fun _ => (inv.cpu hart).concerns_unique here)
      { inv.ownSuits here with
        dozing := fun _ _ => Or.inr ⟨resumed, cur, held⟩
        asleep := fun sleeping => (up sleeping).elim }
  simpa [State.replace, State.setCpu, State.setTask, State.setProc] using changed

/-- The executing process goes on with its system call. -/
theorem setCall (active : Active (.proc slot) hart state) (call : Call) :
    Inv (state.setCall hart slot call) := by
  have here : (state.cpu hart).Concerns slot := Or.inr (Or.inl active.1)
  have ok : CpuOk hart { state.cpu hart with call := call } :=
    { inv.cpu hart with back := CpuOk.not_back active.not_away }
  have changed : Inv (state.replace hart slot { state.cpu hart with call := call }
      (state.proc slot) { state.task slot with call := call }) :=
    inv.changeOwn here ok rfl (fun _ => ok.concerns_unique (Or.inr (Or.inl active.1)))
      { inv.ownSuits here with
        entering := fun waits => (false_ne_true (active.2.symm.trans waits)).elim
        calls := fun _ _ => rfl }
  simpa [State.replace, State.setCall, State.setCpu, State.setTask, State.setProc] using changed

/-! ## All statements -/

theorem alloc {self : Slot} (active : Active (.proc self) hart state) (different : slot ≠ self)
    (held : .proc slot ∈ (state.cpu hart).held) (free : (state.proc slot).state = .unused)
    (pid : Int) : Inv (state.alloc hart slot pid) := by
  have current := ((inv.cpu hart).process self active.1).1
  have unowned : (state.cpu hart).proc ≠ some slot := by
    rw [current]
    exact fun same => different (Option.some.inj same).symm
  have resting : (state.proc slot).state ≠ .running := by
    rw [free]
    simp
  have absent := inv.unexecuted held resting unowned
  have awake : (state.task slot).doze = none := by
    cases dozes : (state.task slot).doze with
    | none => rfl
    | some chan =>
      rcases inv.dozing slot chan dozes with asleep | ⟨_, there, cur, _⟩
      · rw [free] at asleep
        cases asleep.1
      · exact (absent there cur).elim
  have ok := (inv.cpu hart).setNotes active.not_away held none (state.cpu hart).owed
  have first := inv.setCpu active ok rfl rfl rfl rfl rfl rfl
  have same : ∀ there, ((state.setCpu hart { state.cpu hart with resv := none }).cpu
      there).cur = (state.cpu there).cur := setCpu_same Cpu.cur rfl
  refine first.restate resting ?_ (fun _ => rfl) (fun same => by cases same)
    (fun _ _ there => ?_) (fun _ => Or.inl rfl) ?_ ?_
    (Or.inl awake) ?_
  · simp [Proc.allocated]
  · rw [same there]
    exact absent there
  · intro owner _
    exact ⟨rfl, Or.inl (inv.orphan slot free)⟩
  · simp [Proc.allocated]
  · simp [Proc.allocated]

omit [DecidableEq H]

/-- A record is cleared; its process was being built or dead. -/
theorem free (gone : (state.proc slot).state = .used ∨ (state.proc slot).state = .zombie) :
    Inv (state.free slot) := by
  have resting : (state.proc slot).state ≠ .running ∧ (state.proc slot).state ≠ .sleeping := by
    rcases gone with used | dead
    · simp [used]
    · simp [dead]
  refine inv.restate resting.1 (by simp [Proc.freed]) id (fun _ => rfl) ?_ ?_ ?_ (fun _ => rfl)
    (Or.inr ⟨rfl, rfl, resting.2⟩) (by simp [Proc.freed])
  · intro after before
    exact (false_ne_true (before.symm.trans after)).elim
  · intro used
    exact (used rfl).elim
  · intro self owner
    cases owner

theorem inert (same : Inert (state.proc slot) proc) : Inv (state.setProc slot proc) := by
  rw [same]
  exact inv.setProc rfl (fun _ => rfl) (fun self owner => (inv.owned slot self owner).2)
    (inv.orphan slot)

end

end Inv

theorem Act.inv {after : State H} (inv : Inv state) (active : Active thread hart state)
    (act : Act build thread hart state after) : Inv after := by
  have here : (state.cpu hart).cur = .sched hart -> (state.cpu hart).away = false :=
    active.not_away
  have ok := inv.cpu hart
  cases act with
  | want old lock free saw spare below =>
    exact inv.setCpu active (ok.pushOff here free saw below) rfl rfl rfl rfl rfl rfl
  | popOff pushed idle =>
    exact inv.setCpu active (ok.popOff here pushed idle) rfl rfl rfl rfl rfl rfl
  | grab lock wants free => exact inv.grab active wants free
  | drop lock ready => exact inv.unlock active ready
  | doze slot chan lock self mine different ready running checked =>
    subst self
    have released := inv.unlock active ready
    have kept : .proc slot ∈ ((state.unlock hart lock).cpu hart).held := by
      simpa [State.unlock, State.setLock, Cpu.unlock] using
        (mem_erase_of_ne (Ne.symm different)).mpr mine
    have cur : ((state.unlock hart lock).cpu hart).cur = .proc slot := by
      simpa [State.unlock, State.setLock, Cpu.unlock] using active.1
    have up : ((state.unlock hart lock).proc slot).state ≠ .sleeping := by
      intro asleep
      cases running.symm.trans asleep
    exact released.setDoze active.2 cur kept up chan _
  | enable quiet settled =>
    exact inv.setCpu active (ok.enable here quiet) rfl rfl rfl rfl rfl rfl
  | enterUser slot self quiet settled =>
    exact inv.setCpu active (ok.masked_off here quiet.held quiet.want _ _ _)
      rfl rfl rfl rfl rfl rfl
  | trapped taken unheld free =>
    exact inv.setCpu active (ok.masked_off here unheld free .entered _ false)
      rfl rfl rfl rfl rfl rfl
  | spared tests quiet masked unused =>
    exact inv.setCpu active (ok.unlocked here quiet.held quiet.want masked _ true)
      rfl rfl rfl rfl rfl rfl
  | timerDone yielded quiet masked settled tested =>
    have first := inv.setCpu active (ok.unlocked here quiet.held quiet.want masked .none false)
      rfl rfl rfl rfl rfl rfl
    exact { first with }
  | tickStart held off first =>
    exact { inv.setCpu active (ok.setTrap here held off (.ticking 0)) rfl rfl rfl rfl rfl rfl with }
  | tick slot held off cursor dispatch idle =>
    have first := inv.setCpu active (ok.setTrap here held off (.ticking (slot.val + 1)))
      rfl rfl rfl rfl rfl rfl
    rcases (state.proc slot).ticked_eq with ⟨_, _, _, _, same⟩
    unfold State.tick
    rw [same]
    exact first.setProc rfl (fun _ => rfl) (fun self owner => (inv.owned slot self owner).2)
      (inv.orphan slot)
  | markRunning slot self held want idle none runnable =>
    subst self
    exact inv.markRunning active held idle none runnable
  | clearTicks slot dispatch | setXstate slot status self held running
  | copy slot self mine held owner =>
    exact inv.setProc rfl (fun _ => rfl) (fun self owner => (inv.owned slot self owner).2)
      (inv.orphan slot)
  | setCurrent slot dispatch => exact inv.setCurrent active dispatch
  | swtchIn slot self current alone running cleared =>
    subst self
    exact inv.swtchIn active current alone running
  | swtchOut slot self held want resv owed dispatch user leaves sleeps =>
    subst self
    exact inv.swtchOut active held want resv owed dispatch user leaves sleeps
  | clearCurrent slot self current leaves =>
    subst self
    exact inv.clearCurrent active current leaves
  | edit slot proc held inert => exact inv.inert inert
  | fault slot self =>
    exact inv.inert rfl
  | setChan slot chan self held running =>
    refine inv.setProc rfl (fun asleep => ?_) (fun self owner => (inv.owned slot self owner).2)
      (inv.orphan slot)
    rw [show _ = ProcState.running from running] at asleep
    cases asleep
  | giveUp slot self held running
  | die slot self held family running mortal childless noticed called =>
    subst self
    exact inv.stop active held running (by simp) (by simp) (fun same => by cases same)
  | fallAsleep slot chan self held running dozes chosen =>
    subst self
    exact inv.stop active held running (by simp) (by simp) (fun _ => ⟨chan, dozes, chosen⟩)
  | wake slot held sleeping =>
    refine inv.restate (by simp [sleeping]) (by simp) id (fun _ => rfl) ?_
      (fun _ => Or.inr (by simp [sleeping])) ?_ (fun same => by cases same) (Or.inl rfl)
      (by simp)
    · intro after before
      exact (false_ne_true (before.symm.trans after)).elim
    · intro self owner
      have building := (inv.owned slot self owner).1
      rw [sleeping] at building
      cases building
  | woke chan marks all =>
    cases chan with
    | proc slot =>
      simp only [State.woke]
      split
      · have noted := ok.setNotes here (all.nobody .wait rfl).1 (state.cpu hart).resv false
        exact { inv.setCpu active noted rfl rfl rfl rfl rfl rfl with }
      · exact { inv with }
    | ticks | other address => exact { inv with }
    | nread pi | nwrite pi =>
      refine { inv with settled := fun any unlocked => ?_ }
      have before := inv.settled any unlocked
      by_cases same : any = pi
      · subst same
        simp only [State.woke, State.setPipe, update_self]
        exact ⟨by simp [before.1], fun owed => by first | cases owed | exact before.2 owed⟩
      · simpa [State.woke, State.setPipe, update_of_ne same] using before
  | takePid held none =>
    have noted := ok.setNotes here held (some state.nextpid) (state.cpu hart).owed
    exact { inv.setCpu active noted rfl rfl rfl rfl rfl rfl with }
  | alloc slot pid self mine different held free reserved =>
    subst mine
    exact inv.alloc active different held free pid
  | discard slot self mine held owner unlinked =>
    exact inv.free (Or.inl (inv.owned slot self owner).1)
  | copyStatus slot self mine =>
    subst mine
    exact inv.setCall active _
  | reap slot self mine _ held family dead child empty =>
    subst mine
    exact { (inv.free (Or.inr dead)).setCall (active.free slot) _ with }
  | returned self addr value mine running delivers =>
    subst mine
    exact { inv.setCall active _ with }
  | link slot self mine family owner unlinked running =>
    have building := (inv.owned slot self owner).1
    have linked : Inv (state.setProc slot { state.proc slot with parent := some self }) := by
      refine inv.setProc rfl (fun _ => rfl) ?_ ?_
      · intro other owner'
        cases owner.symm.trans owner'
        exact Or.inr (Or.inl rfl)
      · intro unused
        cases building.symm.trans unused
    exact { linked with }
  | publish slot self mine held owner linked =>
    have building := (inv.owned slot self owner).1
    refine inv.restate (by simp [building]) (by simp) id (fun _ => rfl) ?_
      (fun _ => Or.inr (by simp [building])) (fun _ same => by cases same)
      (fun same => by cases same) (Or.inr ⟨rfl, rfl, by simp [building]⟩) (by simp)
    intro after before
    exact (false_ne_true (before.symm.trans after)).elim
  | adopt child slot self family parent mortal status called =>
    have noted := ok.setNotes here family (state.cpu hart).resv true
    have first := inv.setCpu active noted rfl rfl rfl rfl rfl rfl
    refine first.setProc rfl (fun _ => rfl) (fun _ _ => Or.inr (Or.inr rfl)) ?_
    intro unused
    cases parent.symm.trans (inv.orphan child unused)
  | exitCalled slot status self running first =>
    subst self
    have called := inv.setCall active { (state.task slot).call with exiting := true }
    have stamped : ∀ ttime, Inv ((state.setCall hart slot
        { (state.task slot).call with exiting := true }).setProc slot
          { state.proc slot with ttime := ttime }) := fun _ => called.inert rfl
    exact { stamped (int32 state.ticks) with }
  | pipe pi pipe held step =>
    refine { inv with settled := fun any unlocked => ?_ }
    have different : any ≠ pi := by
      intro same
      rw [same] at unlocked
      exact inv.free_of_none unlocked hart held
    simpa [State.setPipe, update_of_ne different] using inv.settled any unlocked

theorem KStep.inv {after : State H} (inv : Inv state)
    (step : KStep build thread hart state after) : Inv after := by
  cases step with
  | act active act => exact act.inv inv active
  | resume slot intena self cur susp =>
    subst self
    exact inv.resumed cur susp intena
  | back slot self cur away current =>
    subst self
    have first := inv.present cur current
    exact first.setProc rfl (fun _ => rfl) (fun self owner => (inv.owned slot self owner).2)
      (inv.orphan slot)

end Kernel
end Xv6
