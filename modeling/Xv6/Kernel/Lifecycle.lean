import Xv6.Kernel.Lineage
import Xv6.Kernel.Verification
import Xv6.Conc.Solo

namespace Xv6
namespace Kernel

open Conc Function List State

/-!
# The kernel implements the family of processes

Every step of the kernel threads leaves the family as it is or is one of the
steps of `TreeStep`.  What is known of the family therefore holds of the
process table in every reachable state: identifiers are distinct, a process
that has exited is collected once, and `wait` returns it to its parent with its
status.
-/

variable {H : Type} {proc : Proc}

/-- The part of the life of a process that the family sees. -/
def Proc.phase (proc : Proc) : Phase :=
  match proc.state with
  | .unused => .free
  | .used => .building
  | .sleeping | .runnable | .running => .alive
  | .zombie => .dead proc.xstate

def kinOf (proc : Proc) (task : Task) : Kin where
  phase := Proc.phase proc
  pid := proc.pid
  parent := proc.parent
  exiting := task.call.exiting
  got := task.call.got

def State.tree (state : State H) : Tree H where
  kin := fun slot => kinOf (state.proc slot) (state.task slot)
  resv := fun hart => (state.cpu hart).resv
  issued := state.issued
  nextpid := state.nextpid
  log := state.log

variable {state after : State H} {slot : Slot}

theorem Proc.phase_free (free : proc.state = .unused) : Proc.phase proc = .free := by
  simp only [Proc.phase, free]

theorem Proc.unused_of_phase (free : Proc.phase proc = .free) : proc.state = .unused := by
  unfold Proc.phase at free
  split at free
  · assumption
  all_goals cases free

theorem Proc.phase_building (used : proc.state = .used) : Proc.phase proc = .building := by
  simp only [Proc.phase, used]

theorem Proc.phase_dead (dead : proc.state = .zombie) : Proc.phase proc = .dead proc.xstate := by
  simp only [Proc.phase, dead]

theorem Proc.phase_alive (alive : Alive proc.state) : Proc.phase proc = .alive := by
  cases same : proc.state with
  | sleeping | runnable | running => simp only [Proc.phase, same]
  | unused | used | zombie =>
    rw [same] at alive
    exact alive.elim

variable [DecidableEq H] {build : Build} {thread : Thread H} {hart : H}

/-! ## The family after an update of the state -/

theorem tree_setCpu (state : State H) (hart : H) (cpu : Cpu H) :
    (state.setCpu hart cpu).tree = state.tree.setResv hart cpu.resv := by
  have resv : (fun any => ((state.setCpu hart cpu).cpu any).resv) =
      update (fun any => (state.cpu any).resv) hart cpu.resv :=
    funext (fun any => apply_update (fun _ => Cpu.resv) state.cpu hart cpu any)
  simp only [State.tree, Tree.setResv, resv]
  rfl

section

omit [DecidableEq H]

theorem tree_setTask (state : State H) (slot : Slot) (task : Task) :
    (state.setTask slot task).tree = state.tree.setKin slot (kinOf (state.proc slot) task) := by
  have kin : (fun any => kinOf (state.proc any) (update state.task slot task any)) =
      update (fun any => kinOf (state.proc any) (state.task any)) slot
        (kinOf (state.proc slot) task) :=
    funext (apply_update (fun any => kinOf (state.proc any)) state.task slot task)
  simp only [State.tree, setTask, Tree.setKin, kin]

theorem tree_setProc (state : State H) (slot : Slot) (proc : Proc) :
    (state.setProc slot proc).tree = state.tree.setKin slot (kinOf proc (state.task slot)) := by
  have kin : (fun any => kinOf (update state.proc slot proc any) (state.task any)) =
      update (fun any => kinOf (state.proc any) (state.task any)) slot
        (kinOf proc (state.task slot)) :=
    funext (apply_update (fun any proc => kinOf proc (state.task any)) state.proc slot
      proc)
  simp only [State.tree, setProc, Tree.setKin, kin]

theorem tree_note (state : State H) (event : Event H) :
    (state.note event).tree = state.tree.note event := rfl

end

theorem Tree.setResv_eq {tree : Tree H} {resv : Option Int} (same : resv = tree.resv hart) :
    tree.setResv hart resv = tree := by
  rw [same]
  exact congrArg (fun resv => { tree with resv := resv }) (update_eq_self hart tree.resv)

omit [DecidableEq H] in
theorem Tree.setKin_eq {tree : Tree H} {kin : Kin} (same : kin = tree.kin slot) :
    tree.setKin slot kin = tree := by
  rw [same]
  exact congrArg (fun kin => { tree with kin := kin }) (update_eq_self slot tree.kin)

omit [DecidableEq H] in
theorem Tree.setKin_setKin (tree : Tree H) (slot : Slot) (first second : Kin) :
    (tree.setKin slot first).setKin slot second = tree.setKin slot second :=
  congrArg (fun kin => { tree with kin := kin }) (update_idem ..)

/-- The hart changes, except for the identifier it has reserved. -/
theorem tree_hart {cpu : Cpu H} (same : cpu.resv = (state.cpu hart).resv) :
    (state.setCpu hart cpu).tree = state.tree := by
  rw [tree_setCpu]
  exact Tree.setResv_eq same

section

omit [DecidableEq H]

theorem tree_record (same : kinOf proc (state.task slot) = state.tree.kin slot) :
    (state.setProc slot proc).tree = state.tree := by
  rw [tree_setProc]
  exact Tree.setKin_eq same

theorem tree_task {task : Task} (same : task.call = (state.task slot).call) :
    (state.setTask slot task).tree = state.tree := by
  rw [tree_setTask]
  refine Tree.setKin_eq ?_
  simp only [kinOf, same, State.tree]

/-- `freeproc`. -/
theorem tree_free (state : State H) (slot : Slot) : (state.free slot).tree =
      state.tree.setKin slot (state.tree.kin slot).freed := by
  unfold State.free
  rw [tree_setTask, tree_setProc, Tree.setKin_setKin]
  simp only [setProc, update_self]
  rfl

end

theorem tree_setCall (state : State H) (hart : H) (slot : Slot) (call : Call) :
    (state.setCall hart slot call).tree = state.tree.setKin slot
      { state.tree.kin slot with exiting := call.exiting, got := call.got } := by
  unfold State.setCall
  rw [tree_setTask, tree_hart (by rfl)]
  rfl

section

omit [DecidableEq H]

/-! ## The simulation -/

/-- Changes among the states of a live process. -/
theorem kinOf_alive (before : Alive (state.proc slot).state) (now : Alive proc.state)
    (pid : proc.pid = (state.proc slot).pid) (parent : proc.parent = (state.proc slot).parent) :
    kinOf proc (state.task slot) = state.tree.kin slot := by
  simp only [kinOf, State.tree, Proc.phase_alive before, Proc.phase_alive now, pid, parent]

end

/-- A step of a hart that leaves processes and log alone. -/
theorem tree_of_hart {cpu : Cpu H} (change : after.tree = (state.setCpu hart cpu).tree)
    (same : cpu.resv = (state.cpu hart).resv) : after.tree = state.tree :=
  change.trans (tree_hart same)

theorem Act.tree (inv : Inv state) (active : Active thread hart state)
    (act : Act build thread hart state after) :
    after.tree = state.tree ∨ TreeStep state.tree after.tree := by
  cases act with
  | want | popOff | grab | drop | enable | enterUser | trapped | spared | tickStart | setCurrent
  | swtchIn | clearCurrent => exact Or.inl (tree_of_hart (by rfl) (by rfl))
  | doze slot chan lock | swtchOut slot =>
    refine Or.inl ((tree_task ?_).trans (tree_of_hart (by rfl) (by rfl)))
    rfl
  | timerDone yielded =>
    unfold State.timerDone
    rw [tree_note, tree_hart (by rfl)]
    exact Or.inr (.timer hart yielded)
  | tick slot =>
    refine Or.inl ((tree_record ?_).trans (tree_hart (by rfl)))
    rcases (state.proc slot).ticked_eq with ⟨_, _, _, _, same⟩
    rw [same]
    rfl
  | markRunning slot _ _ _ _ _ runnable =>
    refine Or.inl ((tree_record ?_).trans (tree_hart (by rfl)))
    exact kinOf_alive (runnable ▸ trivial) trivial rfl rfl
  | clearTicks | fault | setChan | copy => exact Or.inl (tree_record (by rfl))
  | edit slot proc _ inert =>
    refine Or.inl (tree_record ?_)
    rw [inert]
    rfl
  | setXstate slot status _ _ running =>
    refine Or.inl (tree_record (kinOf_alive (running ▸ trivial) ?_ rfl rfl))
    exact running ▸ trivial
  | giveUp slot _ _ running | fallAsleep slot _ _ _ running =>
    exact Or.inl (tree_record (kinOf_alive (running ▸ trivial) trivial rfl rfl))
  | wake slot _ sleeping =>
    refine Or.inl ((tree_task ?_).trans (tree_record ?_))
    · rfl
    · exact kinOf_alive (sleeping ▸ trivial) trivial rfl rfl
  | woke chan marks =>
    obtain ⟨_, _, same⟩ := state.woke_eq hart chan marks
    rw [same]
    exact Or.inl (tree_of_hart (by rfl) (by rfl))
  | pipe => exact Or.inl rfl
  | takePid _ none =>
    have same : (state.takePid hart).tree = state.tree.takePid hart :=
      congrArg (fun tree : Tree H =>
        { tree with nextpid := int32 (state.nextpid + 1), issued := state.issued + 1 })
        (tree_setCpu state hart _)
    rw [same]
    exact Or.inr (.takePid hart none)
  | alloc slot pid self _ _ _ free reserved =>
    have same : (state.alloc hart slot pid).tree = (state.tree.setResv hart none).setKin slot
        ⟨.building, pid, (state.tree.kin slot).parent, false, none⟩ := by
      unfold State.alloc
      rw [tree_setTask, tree_setProc, Tree.setKin_setKin, tree_setCpu]
      simp only [setProc, update_self]
      rfl
    rw [same]
    exact Or.inr (.alloc hart slot pid (Proc.phase_free free) reserved)
  | discard slot self _ _ owner unlinked =>
    rw [tree_free]
    exact Or.inr (.discard slot (Proc.phase_building (inv.owned slot self owner).1) unlinked)
  | copyStatus slot self =>
    unfold State.copyStatus
    rw [tree_setCall]
    exact Or.inl (Tree.setKin_eq rfl)
  | reap slot self mine different _ _ dead child empty =>
    have none := (congrArg Call.got (active.call_eq inv mine)).trans empty
    have same : (state.reap hart self slot).tree =
        ((state.tree.setKin slot (state.tree.kin slot).freed).setKin self
          { state.tree.kin self with
            got := some ((state.proc slot).pid, (state.proc slot).xstate) }).note
          (.reap (state.proc self).pid (state.proc slot).pid (state.proc slot).xstate) := by
      unfold State.reap
      rw [tree_note, tree_setCall, tree_free]
      simp only [Tree.setKin, update_of_ne different.symm]
      rfl
    rw [same]
    exact Or.inr (.reap slot self _ different (Proc.phase_dead dead) child none)
  | returned self addr value mine running delivers =>
    have same : (state.returned hart self addr value).tree =
        (state.tree.setKin self { state.tree.kin self with got := none }).note
          (.waited (state.proc self).pid addr value (state.task self).call.out) := by
      unfold State.returned
      rw [tree_note, tree_setCall]
      rfl
    rw [← active.call_eq inv mine] at delivers
    rw [same]
    exact Or.inr (.waited self addr value _ (Proc.phase_alive (running ▸ trivial)) delivers)
  | link slot self _ _ owner unlinked running =>
    have same : (state.link slot self).tree =
        (state.tree.setKin slot { state.tree.kin slot with parent := some self }).note
          (.fork (state.proc self).pid (state.proc slot).pid) := by
      unfold State.link
      rw [tree_note, tree_setProc]
      rfl
    rw [same]
    exact Or.inr (.link slot self (Proc.phase_building (inv.owned slot self owner).1) unlinked
      (Proc.phase_alive (running ▸ trivial)))
  | publish slot self _ _ owner linked =>
    have same : (state.publish slot).tree =
        state.tree.setKin slot { state.tree.kin slot with phase := .alive } := by
      unfold State.publish
      rw [tree_setTask, tree_setProc, Tree.setKin_setKin]
      simp only [setProc, update_self]
      rfl
    rw [same]
    exact Or.inr (.publish slot self (Proc.phase_building (inv.owned slot self owner).1) linked)
  | adopt child slot _ _ parent mortal status called =>
    have same : (state.adopt hart child).tree =
        state.tree.setKin child { state.tree.kin child with parent := some initproc } := by
      unfold State.adopt
      rw [tree_setProc, tree_hart (by rfl)]
      rfl
    rw [same]
    exact Or.inr (.adopt child slot parent mortal status called)
  | exitCalled slot status self running first =>
    have same : (state.exitCalled hart slot status).tree =
        (state.tree.setKin slot { state.tree.kin slot with exiting := true }).note
          (.exit (state.proc slot).pid status) := by
      unfold State.exitCalled
      rw [tree_note, tree_setProc, tree_setCall, Tree.setKin_setKin]
      simp only [setCall, setTask, setCpu, update_self, State.tree, kinOf, Proc.phase]
    have idle := (active.call_eq inv self).trans first
    rw [same]
    exact Or.inr (.exit slot status (Proc.phase_alive (running ▸ trivial))
      (congrArg Call.exiting idle) (congrArg Call.got idle))
  | die slot self _ _ running mortal childless _ called empty =>
    have same : (state.setProc slot { state.proc slot with state := .zombie }).tree =
        state.tree.setKin slot
          { state.tree.kin slot with phase := .dead (state.proc slot).xstate } :=
      tree_setProc state slot _
    have none := (congrArg Call.got (active.call_eq inv self)).trans empty
    rw [same]
    exact Or.inr (.die slot _ (Proc.phase_alive (running ▸ trivial)) mortal none childless called)

theorem KStep.tree (inv : Inv state) (step : KStep build thread hart state after) :
    after.tree = state.tree ∨ TreeStep state.tree after.tree := by
  cases step with
  | act active act => exact act.tree inv active
  | resume slot =>
    refine Or.inl ((tree_task ?_).trans (tree_hart (by rfl)))
    rfl
  | back slot =>
    refine Or.inl ((tree_record ?_).trans (tree_hart (by rfl)))
    rfl

/-! ## Whole runs -/

omit [DecidableEq H] in
theorem boot_tree_ok : (boot : State H).tree.Ok := by
  have phase : ∀ slot, ((boot : State H).tree.kin slot).phase ≠ .free -> slot = initproc := by
    intro slot used
    by_contra other
    refine used (Proc.phase_free ?_)
    simp only [boot, if_neg other]
    rfl
  have pid : ((boot : State H).tree.kin initproc).pid = 1 := rfl
  have orphan : ∀ slot, ((boot : State H).tree.kin slot).parent = none := by
    intro slot
    simp only [State.tree, kinOf, boot]
    split
    · rfl
    · rfl
  refine
    { next := by
        show (2 : Int) = int32 ((1 : Nat) + 1)
        decide
      named := fun slot used => ?_
      distinct := fun first second used1 used2 _ =>
        (phase first used1).trans (phase second used2).symm
      reserved := fun _ _ same => by cases same
      unnamed := fun _ _ same => by cases same
      unknown := fun _ _ same => by cases same
      apart := fun _ _ _ same => by cases same
      known := fun _ _ member => by cases member
      first := ⟨rfl, rfl⟩
      orphan := fun slot _ => orphan slot
      parents := fun child parent linked => ?_
      parented := fun slot mortal used => (mortal (phase slot used)).elim
      descends := fun child parent linked => ?_
      unforked := fun _ _ _ => not_mem_nil
      exited := fun _ _ member => by cases member
      dead := fun slot status gone => ?_
      reaped := fun _ _ => not_mem_nil
      once := nodup_nil
      delivered := fun newer older _ _ _ split => ?_ }
  · rw [phase slot used, pid]
    exact ⟨Int.le_refl 1, Int.le_refl 1⟩
  · cases (orphan child).symm.trans linked
  · cases (orphan child).symm.trans linked
  · have used : ((boot : State H).tree.kin slot).phase ≠ .free := by
      rw [gone]
      exact Phase.noConfusion
    rw [phase slot used] at gone
    cases gone
  · cases append_ne_nil_of_right_ne_nil newer (cons_ne_nil _ _) split.symm

omit [DecidableEq H] in
theorem boot_tree_paid : (boot : State H).tree.Paid where
  got _ _ := rfl
  owner _ owed := (owed rfl).elim
  served newer _ _ split := by
    cases append_ne_nil_of_right_ne_nil newer (cons_ne_nil _ _) split.symm

/-- While identifiers do not wrap around, the family is in order. -/
theorem Reachable.family {setting : Setting H} {config : Config (State H) (Thread H) H Label}
    (reached : Reachable setting config) (few : config.1.issued < 2 ^ 31) :
    config.1.tree.Ok ∧ config.1.tree.Paid := by
  refine (reached.induct
    (fun state => state.issued < 2 ^ 31 -> state.tree.Ok ∧ state.tree.Paid)
    (fun _ => ⟨boot_tree_ok, boot_tree_paid⟩) ?_).2 few
  intro thread hart before after inv step known few
  rcases step.tree inv with same | moved
  · rw [same]
    have issued : after.issued = before.issued := congrArg Tree.issued same
    exact known (issued ▸ few)
  · rcases known (Nat.lt_of_le_of_lt moved.issued_le few) with ⟨ok, paid⟩
    exact ⟨moved.ok ok few, paid.step ok moved⟩

/-- What a step that records a collected child has collected. -/
theorem KStep.reaps (step : KStep build thread hart state after)
    {parent child status : Int} (noted : after.log = .reap parent child status :: state.log) :
    ∃ slot self, (state.proc slot).parent = some self ∧ (state.proc self).pid = parent ∧
      (state.proc slot).pid = child ∧ (state.proc slot).state = .zombie ∧
      (state.proc slot).xstate = status ∧ (after.proc slot).state = .unused := by
  have silent : state.log ≠ .reap parent child status :: state.log :=
    fun same => cons_ne_self _ _ same.symm
  cases step with
  | resume | back => exact (silent noted).elim
  | act _ act =>
    cases act with
    | reap slot self _ _ _ _ dead linked =>
      cases noted
      refine ⟨slot, self, linked, rfl, rfl, dead, rfl, ?_⟩
      simp [State.reap, State.note, setCall, State.free, setTask, setCpu, setProc, Proc.freed]
    | timerDone | link | exitCalled | returned => cases noted
    | woke chan marks =>
      obtain ⟨_, _, same⟩ := state.woke_eq hart chan marks
      rw [same] at noted
      exact (silent noted).elim
    | _ => exact (silent noted).elim

/-- With fewer than `2 ^ 31` identifiers handed out, for every interleaving:
processes have distinct identifiers other than 0; the parent of a ZOMBIE is a
process that is neither free nor a ZOMBIE itself; a process is collected at
most once, by its creator or else by the first process after its creator
exited, with the status it passed to `exit`; this is its parent when it is
collected; and the next return of a `wait` of that parent has its pid as its
value and its status copied out.  The first process is never freed. -/
theorem exit_delivered_once {setting : Setting H} {config : Config (State H) (Thread H) H Label}
    (reached : Reachable setting config) (few : config.1.issued < 2 ^ 31) :
    (forall slot, (config.1.proc slot).state ≠ .unused -> (config.1.proc slot).pid ≠ 0) ∧
    (forall first second, (config.1.proc first).state ≠ .unused ->
      (config.1.proc second).state ≠ .unused ->
      (config.1.proc first).pid = (config.1.proc second).pid -> first = second) ∧
    (forall slot, (config.1.proc slot).state = .zombie ->
      ∃ parent, (config.1.proc slot).parent = some parent ∧
        (config.1.proc parent).state ≠ .unused ∧ (config.1.proc parent).state ≠ .zombie) ∧
    (forall newer older parent child status,
      config.1.log = newer ++ .reap parent child status :: older ->
      (forall other left, .reap other child left ∉ newer ++ older) ∧
      .exit child status ∈ older ∧
      (forall left, .exit child left ∈ config.1.log -> left = status) ∧
      (.fork parent child ∈ older ∨ parent = (config.1.proc initproc).pid ∧
        ∃ creator left, .fork creator child ∈ older ∧ .exit creator left ∈ older)) ∧
    (forall thread after, (machine setting).Step thread config after ->
      forall parent child status, after.1.log = .reap parent child status :: config.1.log ->
      ∃ slot self, (config.1.proc slot).parent = some self ∧
        (config.1.proc self).pid = parent ∧ (config.1.proc slot).pid = child ∧
        (config.1.proc slot).state = .zombie ∧ (config.1.proc slot).xstate = status ∧
        (after.1.proc slot).state = .unused) ∧
    (forall newer event older, config.1.log = newer ++ event :: older -> Served older event) ∧
    (config.1.proc initproc).state ≠ .unused := by
  rcases reached.family few with ⟨ok, paid⟩
  have used : forall slot, (config.1.proc slot).state ≠ .unused ->
      (config.1.tree.kin slot).phase ≠ .free :=
    fun slot => mt Proc.unused_of_phase
  refine ⟨fun slot live zero => ?_, fun first second live1 live2 => ?_, fun slot dead => ?_,
    fun newer older parent child status split => ⟨?_, ?_, ?_, ?_⟩,
    fun thread after step parent child status noted => ?_, paid.served, fun free => ?_⟩
  · have positive : 1 ≤ (config.1.proc slot).pid := (ok.named slot (used slot live)).1
    omega
  · exact ok.distinct first second (used first live1) (used second live2)
  · have phase := Proc.phase_dead dead
    rcases ok.dead_parent phase with ⟨parent, linked, alive⟩
    refine ⟨parent, linked, fun free => ?_, fun gone => ?_⟩
    · cases (Proc.phase_free free).symm.trans alive
    · cases (Proc.phase_dead gone).symm.trans alive
  · exact ok.reap_unique split
  · exact (ok.delivered newer older parent child status split).1
  · intro left exited
    have delivered := (ok.delivered newer older parent child status split).1
    have also : .exit child status ∈ config.1.log := by
      rw [split]
      exact List.mem_append_right _ (List.mem_cons_of_mem _ delivered)
    cases eq_of_key ok.once exited also rfl rfl
    rfl
  · have first : (config.1.proc initproc).pid = 1 := ok.first.1
    rw [first]
    exact (ok.delivered newer older parent child status split).2
  · rcases reached.step step with same | ⟨hart, taken⟩
    · rw [same] at noted
      exact (List.cons_ne_self _ _ noted.symm).elim
    · exact taken.reaps noted
  · cases (Proc.phase_free free).symm.trans ok.first.2

set_option maxRecDepth 40000 in
/-- The first process forks a child, which calls `exit(7)`, and waits for it. -/
theorem wait_run : (machine (twoHarts .DEFAULT)).Reaches (fun _ => True) start (fun config =>
    ((config.1.proc 1).state = .runnable ∧ (config.1.proc 1).parent = some initproc ∧
      config.1.issued = 2) ∧
    (machine (twoHarts .DEFAULT)).Reaches (fun _ => True) config (fun last =>
      last.1.log = [.waited 1 true 2 (some 7), .reap 1 2 7, .exit 2 7, .fork 1 2] ∧
        last.1.issued = 2)) := by
  refine .solo (.sched 0) 0 trivial (Leads.drive 100 rfl (Leads.stop ?_))
  refine .solo (.proc 0) 0 trivial ?_
  refine Leads.drive 100 rfl (Leads.choose Activity.done rfl trivial ?_)
  refine Leads.drive 100 rfl (Leads.choose (Cause.syscall .fork) rfl trivial ?_)
  refine Leads.drive 100 rfl (Leads.choose (0 : Nat) rfl trivial ?_)
  refine Leads.drive 100 rfl (Leads.choose true rfl trivial ?_)
  refine Leads.spawn rfl trivial (by decide) ?_
  refine Leads.drive 100 rfl (Leads.choose (0 : Nat) rfl trivial ?_)
  refine Leads.drive 100 rfl (Leads.choose true rfl trivial ?_)
  refine Leads.drive 100 rfl (Leads.choose (0 : Nat) rfl trivial ?_)
  refine Leads.drive 100 rfl (Leads.stop ?_)
  refine .done ⟨⟨rfl, rfl, rfl⟩, ?_⟩
  -- The child exits on hart 1.
  refine .solo (.sched 1) 1 trivial (Leads.drive 100 rfl (Leads.stop ?_))
  refine .solo (.proc 1) 1 trivial ?_
  refine Leads.drive 100 rfl (Leads.choose Activity.done rfl trivial ?_)
  refine Leads.drive 100 rfl (Leads.choose (Cause.syscall (.exit 7)) rfl trivial ?_)
  refine Leads.drive 100 rfl (Leads.choose (0 : Nat) rfl trivial ?_)
  refine Leads.drive 100 rfl (Leads.choose Activity.done rfl trivial ?_)
  refine Leads.drive 1000 rfl (Leads.stop ?_)
  refine .solo (.sched 1) 1 trivial (Leads.drive 4 rfl (Leads.stop ?_))
  -- The first process collects it and its status.
  refine .solo (.proc 0) 0 trivial ?_
  refine Leads.choose (Cause.syscall (.wait true false)) rfl trivial ?_
  refine Leads.drive 100 rfl (Leads.choose false rfl trivial ?_)
  refine Leads.drive 100 rfl (Leads.choose false rfl trivial ?_)
  refine Leads.drive 100 rfl (Leads.choose (0 : Nat) rfl trivial ?_)
  refine Leads.drive 100 rfl (Leads.stop ?_)
  exact .done ⟨rfl, rfl⟩

/-- The child is collected once, with its status, and `wait` has returned both. -/
theorem exit_delivered_once_wait :
    ∃ config : Config (State (Fin 2)) (Thread (Fin 2)) (Fin 2) Label,
      Reachable (twoHarts .DEFAULT) config ∧
      config.1.log = [.waited 1 true 2 (some 7), .reap 1 2 7, .exit 2 7, .fork 1 2] ∧
      (forall left, .exit 2 left ∈ config.1.log -> left = 7) ∧
      Served [.reap 1 2 7, .exit 2 7, .fork 1 2] (.waited 1 true 2 (some 7) : Event (Fin 2)) := by
  rcases wait_run.reach with ⟨before, forked, _, more⟩
  rcases more.reach with ⟨config, run, log, issued⟩
  have reached : Reachable (twoHarts .DEFAULT) config := forked.trans run
  have few : config.1.issued < 2 ^ 31 := by
    rw [issued]
    decide
  rcases exit_delivered_once reached few with ⟨_, _, _, reaped, _, served, _⟩
  refine ⟨config, reached, log, ?_, served [] _ _ log⟩
  exact (reaped [.waited 1 true 2 (some 7)] [.exit 2 7, .fork 1 2] 1 2 7 log).2.2.1

end Kernel
end Xv6
