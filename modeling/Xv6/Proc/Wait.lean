import Xv6.Proc.Record
import Xv6.Conc.RelyGuarantee
import Xv6.Conc.Solo

namespace Xv6
namespace Wait

open Conc List Logic Prog Function

/-!
# Waiting for a child

One call of `wait_extension`, the common body of `wait` and `wait_stat`, with
every exit of the source: the two failures of a copy to user space, the
successful return, and the return without children.

The rest of the kernel is the environment.  Whenever the call takes a lock, the
process table may have changed, as far as the locks that the call holds allow
it: a record whose lock is held does not change, and while `wait_lock` is held
no `parent` changes and no process becomes a `ZOMBIE`.  Nobody else reaps a
child of the caller, so it keeps its `pid` and its parent, and once it is a
`ZOMBIE` only `kill` and `trace` still write to its record.
-/

inductive Lock where
  | wait
  | proc (slot : Slot)
  deriving DecidableEq

/-- The caller, the two user addresses, and the user addresses at which a copy
of an `int` succeeds. -/
structure Args where
  self : Slot
  addr : Nat
  performance : Nat
  mapped : Nat -> Bool

/-- `held` are the locks of the calling process and `copied` is what it has
written to user memory.  `taken` and `failed` are ghost state: the slot whose
lock was taken last with its record at that moment, and the value that a failed
copy was to store. -/
structure State where
  proc : Slot -> Proc
  held : List Lock
  copied : List (Nat × Int)
  taken : Option (Slot × Proc)
  failed : Option Int
  result : Option Int

/-- The loop, and the interrupt handler, which is not part of the model. -/
inductive Label where
  | loop
  | handler

abbrev Code (α : Type) := Prog State Unit Unit Label α

/-- The record, apart from what `kill` and `trace` write. -/
def SameZombie (row now : Proc) : Prop :=
  now = { row with killed := now.killed, mask := now.mask }

instance (row now : Proc) : Decidable (SameZombie row now) :=
  inferInstanceAs (Decidable (now = _))

/-- What the rest of the kernel can turn the table into while `self` waits. -/
def State.Admits (self : Slot) (state : State) (table : Slot -> Proc) : Prop :=
  forall slot, (Lock.proc slot ∈ state.held -> table slot = state.proc slot) ∧
    (Lock.wait ∈ state.held -> (table slot).parent = (state.proc slot).parent ∧
      ((table slot).state = .zombie -> (state.proc slot).state = .zombie)) ∧
    ((state.proc slot).parent = some self -> (table slot).parent = some self ∧
      (table slot).pid = (state.proc slot).pid ∧
      ((state.proc slot).state = .zombie -> SameZombie (state.proc slot) (table slot)))

instance (self : Slot) (state : State) (table : Slot -> Proc) :
    Decidable (state.Admits self table) :=
  inferInstanceAs (Decidable (forall _, _))

/-- The state after taking a lock. -/
def State.took (state : State) (table : Slot -> Proc) (lock : Lock) : State :=
  { state with
    proc := table
    held := lock :: state.held
    taken := match lock with
      | .wait => state.taken
      | .proc slot => some (slot, table slot) }

def State.gave (state : State) (lock : Lock) : State :=
  { state with held := state.held.erase lock }

/-- A lock that the caller already holds is never obtained. -/
def acquire (self : Slot) (lock : Lock) : Code Unit := do
  let table ← Prog.any (Slot -> Proc)
  Prog.await (fun _ state => decide (lock ∉ state.held ∧ state.Admits self table))
    (fun _ state => state.took table lock)

def release (lock : Lock) : Code Unit := Prog.modify (fun _ state => state.gave lock)

/-- Copy one `int` to user space: whether it succeeded. -/
def copyout (args : Args) (addr : Nat) (value : Int) : Code Bool := do
  if args.mapped addr then do
    Prog.modify (fun _ state => { state with copied := (addr, value) :: state.copied })
    pure true
  else do
    Prog.modify (fun _ state => { state with failed := some value })
    pure false

/-- The fields of `struct perf` in the order in which they are copied. -/
def perfFields (row : Proc) : List (Nat × Int) :=
  [(0, row.ctime), (4, row.ttime), (8, row.stime), (12, row.retime), (16, row.rutime),
    (20, row.averageBursttime)]

/-- The offsets of these fields. -/
def perfOffsets : List Nat := [0, 4, 8, 12, 16, 20]

/-- The six copies joined by `||`: whether one of them failed. -/
def copyPerf (args : Args) (row : Proc) : Code (Option Unit) :=
  Prog.firstSome (fun field => do
    let done ← copyout args (args.performance + field.1) field.2
    pure (if done then none else some ())) (perfFields row)

/-- The exit after a failed copy of the status. -/
def reapFail (np : Slot) : Code Int := do
  release (.proc np)
  release .wait
  pure (-1)

/-- The exit after all copies have succeeded. -/
def reapDone (np : Slot) (pid : Int) : Code Int := do
  Prog.modify (fun _ state =>
    { state with proc := Function.update state.proc np (state.proc np).freed })
  release (.proc np)
  release .wait
  pure pid

/-- What follows the copy of the status.  A failed `perf` copy returns at
once. -/
def reapPerf (args : Args) (np : Slot) (row : Proc) : Code Int :=
  if args.performance ≠ 0 then do
    match ← copyPerf args row with
    | some () => pure (-1)
    | none => reapDone np row.pid
  else reapDone np row.pid

/-- The child `np` is a `ZOMBIE`, and its lock and `wait_lock` are held. -/
def reap (args : Args) (np : Slot) : Code Int := do
  let row ← Prog.read (fun _ state => state.proc np)
  if args.addr ≠ 0 then do
    if ← copyout args args.addr row.xstate then reapPerf args np row else reapFail np
  else reapPerf args np row

/-- One iteration of the scan. -/
def visit (args : Args) (np : Slot) : Code (Option Int) := do
  if ← Prog.read (fun _ state => (state.proc np).parent == some args.self) then do
    acquire args.self (.proc np)
    if ← Prog.read (fun _ state => (state.proc np).state == .zombie) then do
      let value ← reap args np
      pure (some value)
    else do
      release (.proc np)
      pure none
  else pure none

def slots : List Slot := List.finRange NPROC

/-- The loop.  `havekids` is the presence of a child during the scan, and no
`parent` changes while `wait_lock` is held.  `sleep` gives `wait_lock` up and
takes it again. -/
def loop (args : Args) : Code Int := do
  match ← Prog.firstSome (visit args) slots with
  | some value => pure value
  | none => do
    let havekids ← Prog.read (fun _ state =>
      slots.any (fun np => (state.proc np).parent == some args.self))
    let killed ← Prog.read (fun _ state => (state.proc args.self).killed)
    if !havekids || killed then do
      release .wait
      pure (-1)
    else do
      release .wait
      acquire args.self .wait
      Prog.invoke .loop

def wait_extension (args : Args) : Code Int := do
  acquire args.self .wait
  Prog.invoke .loop

/-- `sys_wait` passes its address on. -/
def sys_wait (self : Slot) (mapped : Nat -> Bool) (addr : Nat) : Args := ⟨self, addr, 0, mapped⟩

/-- `sys_wait_stat` reads its first argument as an `int`, so the address that
reaches `wait_extension` is the sign extension of its low half. -/
def sys_wait_stat (self : Slot) (mapped : Nat -> Bool) (status performance : Nat) : Args :=
  ⟨self, (int32 status % 2 ^ 64).toNat, performance, mapped⟩

def machine (args : Args) : Machine State Unit Unit Label where
  code
    | .loop => loop args
    | .handler => Prog.halt
  runs := fun _ _ _ => True
  interruptible := fun _ _ => False
  handler := .handler

/-- The whole call, which leaves its value in `result`. -/
def call (args : Args) : Code Unit := do
  let value ← wait_extension args
  Prog.modify (fun _ state => { state with result := some value })

/-- The next call of the same process finds what the last one left. -/
def State.again (state : State) : State :=
  { state with copied := [], taken := none, failed := none, result := none }

/-- The call with these arguments, made in `state`, can return in `final`. -/
def Returns (args : Args) (state final : State) : Prop :=
  ∃ pool, (machine args).Reach (state.again, fun _ => call args) (final, pool) ∧
    pool () = .ret ()

/-- A process that holds no lock, with any process table. -/
def fresh (table : Slot -> Proc) : State := ⟨table, [], [], none, none, none⟩

/-- A later `wait(0)` can find the child with this record and return it. -/
def Returnable (args : Args) (state : State) (np : Slot) (row : Proc) : Prop :=
  ∃ later, Returns { args with addr := 0, performance := 0 } state later ∧
    later.taken = some (np, row) ∧ later.result = some row.pid ∧ later.proc np = row.freed

/-- What a return from `wait_extension` leaves behind.  After a failed copy the
record of the child is what it was when its lock was taken. -/
structure Clean (args : Args) (final : State) : Prop where
  locks : final.held = []
  failure : final.failed ≠ none -> final.result = some (-1) ∧
    ∃ np row, final.taken = some (np, row) ∧ final.proc np = row ∧ row.state = .zombie ∧
      row.parent = some args.self ∧ Returnable args final np row

/-! ## Every exit -/

/-- The scan has passed these slots without finding a `ZOMBIE` child. -/
def Passed (args : Args) (state : State) (seen : List Slot) : Prop :=
  forall slot, slot ∈ seen -> (state.proc slot).parent = some args.self ->
    (state.proc slot).state ≠ .zombie

/-- The child `np` is the first `ZOMBIE` child in the order of the scan. -/
structure Found (args : Args) (state : State) (np : Slot) : Prop where
  zombie : (state.proc np).state = .zombie
  parent : (state.proc np).parent = some args.self
  first : ∃ seen rest, slots = seen ++ np :: rest ∧ Passed args state seen

/-- One of the six copies of the `perf` fields is tried and fails. -/
def PerfFails (args : Args) : Prop :=
  args.performance ≠ 0 ∧ (args.addr = 0 ∨ args.mapped args.addr = true) ∧
    ∃ offset, offset ∈ perfOffsets ∧ args.mapped (args.performance + offset) = false

/-- Nothing has been written to user memory if nothing can be written. -/
def Untouched (args : Args) (state : State) : Prop :=
  args.performance = 0 -> args.mapped args.addr = false -> state.copied = []

/-- The exits of the loop.  Only the failure of a `perf` copy keeps locks. -/
structure Outcome (args : Args) (value : Int) (state : State) : Prop where
  pending : state.result = none
  stored : value = -1 ∨ args.addr = 0 ∨ args.mapped args.addr = true
  untouched : Untouched args state
  exit : (state.held = [] ∧ state.failed = none) ∨
    ∃ np, state.taken = some (np, state.proc np) ∧ value = -1 ∧ Found args state np ∧
      (state.held = [] ∨ PerfFails args ∧ state.held = [.proc np, .wait])

/-- The loop is entered with `wait_lock` and nothing else. -/
structure Ready (state : State) : Prop where
  held : state.held = [.wait]
  failed : state.failed = none
  result : state.result = none
  copied : state.copied = []

def logic (args : Args) : Logic State Unit Unit Label where
  inv := fun _ => True
  rely := fun _ before after => before = after
  guar := fun _ _ _ _ => True
  pre := fun label _ state => label = .loop ∧ Ready state
  post := fun _ _ _ value after => Outcome args value after

abbrev Wp {α : Type} (args : Args) (program : Code α) (goal : α -> State -> Prop)
    (state : State) : Prop :=
  (logic args).wp (machine args).runs () program goal state

theorem coherent (args : Args) : (logic args).Coherent (machine args) where
  rely_refl := fun _ _ => rfl
  rely_trans := fun _ _ _ _ first second => first.trans second
  guar_inv := fun _ _ _ _ _ _ _ => trivial
  guar_rely := fun _ _ _ _ _ _ _ _ different => absurd rfl different

variable {args : Args} {state final : State} {np : Slot} {α : Type} {goal : α -> State -> Prop}
  {value : Int} {addr : Nat} {after : State}

/-- Taking a lock lets the environment act first. -/
theorem wp_acquire {lock : Lock} {rest : Unit -> Code α}
    (step : ∀ table, lock ∉ state.held -> state.Admits args.self table ->
      Wp args (rest ()) goal (state.took table lock)) :
    Wp args ((acquire args.self lock).bind rest) goal state := by
  refine wp_any (fun table => ?_)
  refine wp_await (fun now same _ place _ passed => ?_)
  cases same
  have guard := of_decide_eq_true passed
  exact ⟨trivial, step table guard.1 guard.2⟩

theorem wp_change {update : Unit -> State -> State} {rest : Unit -> Code α}
    (step : Wp args (rest ()) goal (update () state)) :
    Wp args ((Prog.modify update).bind rest) goal state := by
  refine wp_modify (fun now same _ place _ => ?_)
  cases same
  exact ⟨trivial, step⟩

theorem wp_look {β : Type} {view : Unit -> State -> β} {rest : β -> Code α}
    (step : Wp args (rest (view () state)) goal state) :
    Wp args ((Prog.read view).bind rest) goal state := by
  refine wp_read (fun now same _ place _ => ?_)
  cases same
  exact step

theorem wp_done {value : α} (holds : goal value state) : Wp args (Prog.ret value) goal state := by
  refine wp_ret (fun now same _ => ?_)
  cases same
  exact holds

/-- Copies only write user memory. -/
theorem wp_copyout {rest : Bool -> Code α} (good : args.mapped addr = true -> ∀ copied,
      Wp args (rest true) goal { state with copied := copied })
    (bad : args.mapped addr = false ->
      Wp args (rest false) goal { state with failed := some value }) :
    Wp args ((copyout args addr value).bind rest) goal state := by
  unfold copyout
  cases mapped : args.mapped addr with
  | true => exact wp_change (good mapped _)
  | false => exact wp_change (bad mapped)

theorem wp_copyPerf {fields : List (Nat × Int)} {rest : Option Unit -> Code α}
    (good : ∀ copied, Wp args (rest none) goal { state with copied := copied })
    (bad : ∀ field copied, field ∈ fields ->
      args.mapped (args.performance + field.1) = false -> Wp args (rest (some ())) goal
          { state with copied := copied, failed := some field.2 }) :
    Wp args ((Prog.firstSome (fun field => do
      let done ← copyout args (args.performance + field.1) field.2
      pure (if done then none else some ())) fields).bind rest) goal state := by
  induction fields generalizing state with
  | nil => exact good state.copied
  | cons field fields ih =>
    simp only [Prog.firstSome, bind_eq, pure_eq, bind_assoc, ret_bind]
    refine wp_copyout (fun _ copied => ?_) (fun mapped => ?_)
    · exact ih good (fun other copied member => bad other copied (mem_cons_of_mem _ member))
    · exact bad field state.copied mem_cons_self mapped

/-- What is known once a child has been found, up to the copies that were
made. -/
structure Holding (args : Args) (state : State) (np : Slot) : Prop where
  held : state.held = [.proc np, .wait]
  taken : state.taken = some (np, state.proc np)
  failed : state.failed = none
  result : state.result = none
  untouched : Untouched args state
  found : Found args state np

section

variable (holding : Holding args state np)

include holding

theorem Holding.copied (copied : List (Nat × Int))
    (allowed : args.performance ≠ 0 ∨ args.mapped args.addr = true) :
    Holding args { state with copied := copied } np := by
  refine ⟨holding.held, holding.taken, holding.failed, holding.result, ?_,
    ⟨holding.found.zombie, holding.found.parent, holding.found.first⟩⟩
  intro none unmapped
  rcases allowed with given | mapped
  · exact (given none).elim
  · rw [mapped] at unmapped
    cases unmapped

theorem wp_reapDone (pid : Int) (passed : args.addr = 0 ∨ args.mapped args.addr = true) :
    Wp args (reapDone np pid) (Outcome args) state := by
  refine wp_change (wp_change (wp_change (wp_done ?_)))
  exact ⟨holding.result, Or.inr passed, holding.untouched,
    Or.inl ⟨by simp [State.gave, holding.held], holding.failed⟩⟩

theorem wp_reapPerf (row : Proc) (passed : args.addr = 0 ∨ args.mapped args.addr = true) :
    Wp args (reapPerf args np row) (Outcome args) state := by
  unfold reapPerf
  split
  · next given =>
      refine wp_copyPerf
        (fun copied => wp_reapDone (holding.copied copied (Or.inl given)) row.pid passed) ?_
      intro field copied member mapped
      have offset : field.1 ∈ perfOffsets := by
        have listed := mem_map_of_mem (f := Prod.fst) member
        simpa only [perfFields, perfOffsets, map_cons, map_nil] using listed
      refine wp_done ⟨holding.result, Or.inl rfl, fun none => (given none).elim,
        Or.inr ⟨np, holding.taken, rfl, ?_, ?_⟩⟩
      · exact ⟨holding.found.zombie, holding.found.parent, holding.found.first⟩
      · exact Or.inr ⟨⟨given, passed, field.1, offset, mapped⟩, holding.held⟩
  · exact wp_reapDone holding row.pid passed

theorem wp_reap : Wp args (reap args np) (Outcome args) state := by
  refine wp_look ?_
  split
  · refine wp_copyout (fun mapped copied => ?_) (fun _ => ?_)
    · exact wp_reapPerf (holding.copied copied (Or.inr mapped)) _ (Or.inr mapped)
    · refine wp_change (wp_change (wp_done ?_))
      refine ⟨holding.result, Or.inl rfl, holding.untouched, Or.inr ⟨np, holding.taken, rfl,
        ⟨holding.found.zombie, holding.found.parent, holding.found.first⟩, Or.inl ?_⟩⟩
      simp [State.gave, holding.held]
  · next none => exact wp_reapPerf holding _ (Or.inl (not_not.mp none))

end

/-- The invariant of the scan: the slots behind it hold no `ZOMBIE` child. -/
structure Scanning (args : Args) (items : List Slot) (state : State) :
    Prop extends Ready state where
  seen : ∃ seen, slots = seen ++ items ∧ Passed args state seen

theorem Passed.admits {seen : List Slot} {table : Slot -> Proc} (passed : Passed args state seen)
    (admits : state.Admits args.self table) (locked : Lock.wait ∈ state.held)
    (now : after.proc = table) :
    Passed args after seen := by
  subst now
  intro slot member parent zombie
  have same := (admits slot).2.1 locked
  exact passed slot member (same.1 ▸ parent) (same.2 zombie)

theorem Scanning.skip {items : List Slot} (scanning : Scanning args (np :: items) state)
    (other : (state.proc np).parent = some args.self -> (state.proc np).state ≠ .zombie) :
    Scanning args items state := by
  rcases scanning.seen with ⟨seen, split, passed⟩
  refine ⟨scanning.toReady, seen ++ [np], by simp [split], ?_⟩
  intro slot member
  rcases mem_append.mp member with earlier | last
  · exact passed slot earlier
  · cases mem_singleton.mp last
    exact other

theorem wp_visit {items : List Slot} (scanning : Scanning args (np :: items) state) :
    Wp args (visit args np) (fun result now => match result with
        | some value => Outcome args value now
        | none => Scanning args items now) state := by
  refine wp_look ?_
  split
  · next child =>
      have parent : (state.proc np).parent = some args.self := by simpa using child
      have locked : Lock.wait ∈ state.held := by simp [scanning.held]
      refine wp_acquire (fun table free admits => wp_look ?_)
      rcases scanning.seen with ⟨seen, split, passed⟩
      have same := (admits np).2.1 locked
      split
      · next zombie =>
          have holding : Holding args (state.took table (.proc np)) np :=
            ⟨congrArg (Lock.proc np :: ·) scanning.held, rfl, scanning.failed, scanning.result,
              fun _ _ => scanning.copied, by simpa using zombie, same.1.trans parent, seen, items,
              split, passed.admits admits locked rfl⟩
          refine wp_bind (coherent args) trivial ?_
          exact wp_mono (wp_reap holding) (fun value now _ outcome => wp_done outcome)
      · next alive =>
          refine wp_change (wp_done ?_)
          have held : ((state.took table (.proc np)).gave (.proc np)).held = [.wait] := by
            simp [State.took, State.gave, scanning.held]
          have scanned : Scanning args (np :: items)
              ((state.took table (.proc np)).gave (.proc np)) :=
            ⟨⟨held, scanning.failed, scanning.result, scanning.copied⟩, seen, split,
              passed.admits admits locked rfl⟩
          exact scanned.skip (fun _ => by simpa [State.gave] using alive)
  · next other =>
      refine wp_done (scanning.skip (fun parent => ?_))
      simp [parent] at other

theorem wp_loop (ready : Ready state) : Wp args (loop args) (Outcome args) state := by
  have start : Scanning args slots state :=
    ⟨ready, [], rfl, fun _ member => absurd member not_mem_nil⟩
  refine wp_bind (coherent args) trivial ?_
  refine wp_mono (wp_firstSome (coherent args) (Scanning args)
    (fun value now => Outcome args value now) (fun _ _ _ same held => same ▸ held)
    (fun _ _ _ same held => same ▸ held)
    (fun _ _ _ _ scanning => wp_mono (wp_visit scanning) (fun result now _ held => by
      cases result <;> exact held))
    trivial start) ?_
  intro result now _ held
  cases result with
  | some value => exact wp_done held
  | none =>
    refine wp_look (wp_look ?_)
    split
    · refine wp_change (wp_done ⟨held.result, Or.inl rfl, fun _ _ => held.copied,
        Or.inl ⟨?_, held.failed⟩⟩)
      simp [State.gave, held.held]
    · refine wp_change (wp_acquire (fun table _ _ => ?_))
      refine wp_tailCall (fun after same _ => ?_)
      cases same
      refine ⟨⟨rfl, by simp [State.took, State.gave, held.held], held.failed, held.result,
        held.copied⟩, ?_⟩
      intro value after _ outcome later same _
      exact same ▸ outcome

theorem verifies (args : Args) : (logic args).Verifies (machine args) where
  toCoherent := coherent args
  code := by
    rintro label thread state - ⟨rfl, ready⟩
    exact wp_loop ready
  handler_pre := fun _ _ _ _ _ _ enabled => enabled.elim
  handler_rely := by
    rintro thread state value after - ⟨wrong, _⟩
    cases wrong

/-- Every return of a process that held no lock is one of the exits. -/
theorem Returns.outcome {table : Slot -> Proc} (returns : Returns args (fresh table) final) :
    ∃ value before, Outcome args value before ∧ final = { before with result := some value } := by
  rcases returns with ⟨pool, run, done⟩
  have alone : Relation.ReflTransGen ((machine args).Step ()) ((fresh table).again,
      fun _ => call args) (final, pool) := by
    refine Relation.ReflTransGen.mono ?_ _ _ run
    rintro before after ⟨thread, step⟩
    exact step
  have own : Wp args (call args) (fun _ final => ∃ value before, Outcome args value before ∧
        final = { before with result := some value }) (fresh table).again := by
    refine wp_acquire (fun table _ _ => ?_)
    refine wp_invoke (fun now same _ => ?_)
    cases same
    refine ⟨⟨rfl, rfl, rfl, rfl, rfl⟩, ?_⟩
    intro value after _ outcome
    exact wp_change (wp_done ⟨value, after, outcome, rfl⟩)
  exact (verifies args).alone trivial own alone done

/-! ## Runs that find a child -/

/-- A stretch of the call, during which nothing else changes the table. -/
abbrev Stretch (args : Args) {α : Type} (program : Code α) (state : State) (value : α)
    (after : State) : Prop :=
  forall pool, Solo (machine args) (fun _ => True) () () program state pool (.ret value) after pool

theorem stretch_seq {β : Type} {program : Code α} {rest : α -> Code β} {value : α} {last : β}
    {state now after : State} (first : Stretch args program state value now)
    (second : Stretch args (rest value) now last after) :
    Stretch args (program.bind rest) state last after :=
  fun pool => (first pool).seq (second pool)

theorem stretch_read {view : Unit -> State -> α} : Stretch args (Prog.read view) state
    (view () state) state :=
  fun _ => .act trivial rfl trivial .stop

theorem stretch_modify {update : Unit -> State -> State} :
    Stretch args (Prog.modify update) state () (update () state) :=
  fun _ => .act trivial rfl trivial .stop

theorem stretch_ret {value : α} : Stretch args (.ret value) state value state := fun _ => .stop

theorem stretch_acquire {lock : Lock} (free : lock ∉ state.held) :
    Stretch args (acquire args.self lock) state () (state.took state.proc lock) := by
  intro pool
  refine .choose state.proc trivial trivial (.act trivial ?_ trivial .stop)
  have same : state.Admits args.self state.proc :=
    fun _ => ⟨fun _ => rfl, fun _ => ⟨rfl, id⟩, fun child => ⟨child, rfl, fun _ => rfl⟩⟩
  exact if_pos (decide_eq_true ⟨free, same⟩)

/-- The scan passes a slot without a `ZOMBIE` child. -/
theorem stretch_skip (held : state.held = [.wait])
    (other : (state.proc np).parent = some args.self -> (state.proc np).state ≠ .zombie) :
    ∃ taken, Stretch args (visit args np) state none { state with taken := taken } := by
  by_cases child : (state.proc np).parent = some args.self
  · have passes : (state.took state.proc (.proc np)).gave (.proc np) =
        { state with taken := some (np, state.proc np) } := by
      simp [State.took, State.gave]
    refine ⟨some (np, state.proc np), ?_⟩
    refine stretch_seq stretch_read ?_
    rw [if_pos (by simpa using child)]
    refine stretch_seq (stretch_acquire (by simp [held])) (stretch_seq stretch_read ?_)
    have alive : ((state.took state.proc (.proc np)).proc np).state ≠ .zombie := other child
    rw [if_neg (by simpa using alive), ← passes]
    exact stretch_seq stretch_modify stretch_ret
  · refine ⟨state.taken, stretch_seq stretch_read ?_⟩
    rw [if_neg (by simpa using child)]
    exact stretch_ret

/-- The scan ends at the first `ZOMBIE` child with what `reap` does there. -/
theorem stretch_scan {seen rest : List Slot} (held : state.held = [.wait])
    (passed : Passed args state seen) (zombie : (state.proc np).state = .zombie)
    (parent : (state.proc np).parent = some args.self)
    (reaps : Stretch args (reap args np) (state.took state.proc (.proc np)) value after) :
    Stretch args (Prog.firstSome (visit args) (seen ++ np :: rest)) state (some value) after := by
  induction seen generalizing state with
  | nil =>
    have visits : Stretch args (visit args np) state (some value) after := by
      refine stretch_seq stretch_read ?_
      rw [if_pos (by simp [parent])]
      refine stretch_seq (stretch_acquire (by simp [held])) ?_
      refine stretch_seq stretch_read ?_
      rw [if_pos (by simpa [State.took] using zombie)]
      exact stretch_seq reaps stretch_ret
    exact stretch_seq visits stretch_ret
  | cons slot seen ih =>
    rcases stretch_skip held (passed slot mem_cons_self) with ⟨taken, skips⟩
    refine stretch_seq skips (ih ?_ ?_ zombie parent reaps)
    · exact held
    · exact fun other member => passed other (mem_cons_of_mem _ member)

/-- A call by a process that holds no lock returns with what `reap` does to
the first `ZOMBIE` child. -/
theorem returns_reap (free : state.held = []) (found : Found args state np)
    (reaps : Stretch args (reap args np)
      ((state.again.took state.proc .wait).took state.proc (.proc np)) value after) :
    Returns args state { after with result := some value } := by
  rcases found.first with ⟨seen, rest, split, passed⟩
  have scan : Stretch args (loop args) (state.again.took state.proc .wait) value after := by
    unfold loop
    rw [split]
    refine stretch_seq (stretch_scan ?_ passed found.zombie found.parent reaps) stretch_ret
    simp [State.took, State.again, free]
  have whole : Stretch args (call args) state.again () { after with result := some value } := by
    refine stretch_seq (stretch_seq (stretch_acquire (by simp [State.again, free])) ?_)
      stretch_modify
    intro pool
    refine .call trivial trivial ?_
    exact stretch_seq scan stretch_ret pool
  refine ⟨update (fun _ => call args) () (.ret ()), ?_, update_self ..⟩
  have steps := (whole (fun _ => call args)).reach
  rw [update_eq_self_iff.mpr rfl] at steps
  refine Relation.ReflTransGen.mono ?_ _ _ steps
  rintro before after ⟨step, _⟩
  exact ⟨(), step⟩

/-- A child that is a `ZOMBIE` is returned by a later `wait(0)`. -/
theorem wait_again (free : state.held = []) (found : Found args state np) :
    Returnable args state np (state.proc np) := by
  have done : ∀ now : State, ∃ after,
      Stretch { args with addr := 0, performance := 0 } (reapDone np (now.proc np).pid) now
        (now.proc np).pid after ∧ after.taken = now.taken ∧
        after.proc np = (now.proc np).freed :=
    fun now => ⟨_, stretch_seq stretch_modify (stretch_seq stretch_modify
      (stretch_seq stretch_modify stretch_ret)), rfl, update_self ..⟩
  rcases done ((state.again.took state.proc .wait).took state.proc (.proc np)) with
    ⟨after, rest, taken, freed⟩
  exact ⟨_, returns_reap free { found with }
    (stretch_seq stretch_read rest), taken, rfl, freed⟩

/-! ## The exits compared with the intention -/

/-- A table in which every slot is a `ZOMBIE` child of the caller. -/
def orphanage (self : Slot) : Slot -> Proc :=
  fun _ => { Proc.zero with state := .zombie, pid := 2, parent := some self }

theorem stretch_copied (mapped : args.mapped addr = true) :
    Stretch args (copyout args addr value) state true
      { state with copied := (addr, value) :: state.copied } := by
  unfold copyout
  rw [mapped]
  exact stretch_seq stretch_modify stretch_ret

theorem stretch_uncopied (unmapped : args.mapped addr = false) :
    Stretch args (copyout args addr value) state false { state with failed := some value } := by
  unfold copyout
  rw [unmapped]
  exact stretch_seq stretch_modify stretch_ret

/-- The failing copy of a `perf` field ends the chain of copies. -/
theorem stretch_copyPerf {fields : List (Nat × Int)}
    (fails : ∃ field, field ∈ fields ∧ args.mapped (args.performance + field.1) = false) :
    ∃ copied failed, Stretch args (Prog.firstSome (fun field => do
      let done ← copyout args (args.performance + field.1) field.2
      pure (if done then none else some ())) fields) state (some ())
        { state with copied := copied, failed := some failed } := by
  induction fields generalizing state with
  | nil =>
    rcases fails with ⟨field, member, _⟩
    exact absurd member not_mem_nil
  | cons field fields ih =>
    cases mapped : args.mapped (args.performance + field.1) with
    | false =>
      exact ⟨state.copied, field.2,
        stretch_seq (stretch_seq (stretch_uncopied mapped) stretch_ret) stretch_ret⟩
    | true =>
      have later : ∃ field, field ∈ fields ∧ args.mapped (args.performance + field.1) = false := by
        rcases fails with ⟨other, member, unmapped⟩
        rcases mem_cons.mp member with rfl | member
        · rw [mapped] at unmapped
          cases unmapped
        · exact ⟨other, member, unmapped⟩
      rcases ih later with ⟨copied, failed, rest⟩
      exact ⟨copied, failed, stretch_seq (stretch_seq (stretch_copied mapped) stretch_ret) rest⟩

theorem stretch_reap_plain (none : args.addr = 0)
    (rest : Stretch args (reapPerf args np (state.proc np)) state value after) :
    Stretch args (reap args np) state value after := by
  refine stretch_seq stretch_read ?_
  rw [if_neg (not_not.mpr none)]
  exact rest

theorem stretch_reap_status (given : args.addr ≠ 0) (mapped : args.mapped args.addr = true)
    (rest : Stretch args (reapPerf args np (state.proc np))
      { state with copied := (args.addr, (state.proc np).xstate) :: state.copied } value after) :
    Stretch args (reap args np) state value after := by
  refine stretch_seq stretch_read ?_
  rw [if_pos given]
  exact stretch_seq (stretch_copied mapped) rest

/-- If a `perf` copy fails, a call can return with both locks held. -/
theorem returns_locked (fails : PerfFails args) :
    ∃ final, Returns args (fresh (orphanage args.self)) final ∧ final.held ≠ [] := by
  rcases fails with ⟨given, passed, offset, member, unmapped⟩
  have found : Found args (fresh (orphanage args.self)) ⟨0, by decide⟩ :=
    ⟨rfl, rfl, [], (List.finRange NPROC).tail, rfl, fun _ member => absurd member not_mem_nil⟩
  have perf : ∀ row : Proc, ∃ field, field ∈ perfFields row ∧
      args.mapped (args.performance + field.1) = false := by
    intro row
    have listed : offset ∈ (perfFields row).map Prod.fst := member
    rcases mem_map.mp listed with ⟨field, inside, rfl⟩
    exact ⟨field, inside, unmapped⟩
  have perfFails : ∀ (state : State) (row : Proc), ∃ copied failed,
      Stretch args (reapPerf args ⟨0, by decide⟩ row) state (-1)
        { state with copied := copied, failed := some failed } := by
    intro state row
    rcases stretch_copyPerf (perf row) with ⟨copied, failed, copies⟩
    refine ⟨copied, failed, ?_⟩
    unfold reapPerf
    rw [if_pos given]
    exact stretch_seq copies stretch_ret
  have reaps : ∀ state : State, ∃ after,
      Stretch args (reap args ⟨0, by decide⟩) state (-1) after ∧ after.held = state.held := by
    intro state
    by_cases none : args.addr = 0
    · rcases perfFails state (state.proc ⟨0, by decide⟩) with ⟨copied, failed, rest⟩
      exact ⟨_, stretch_reap_plain none rest, rfl⟩
    · rcases perfFails { state with copied := (args.addr, (state.proc ⟨0, by decide⟩).xstate) ::
        state.copied } (state.proc ⟨0, by decide⟩) with ⟨copied, failed, rest⟩
      exact ⟨_, stretch_reap_status none (passed.resolve_left none) rest, rfl⟩
  rcases reaps (((fresh (orphanage args.self)).again.took (orphanage args.self) .wait).took
    (orphanage args.self) (.proc ⟨0, by decide⟩)) with ⟨after, stretch, held⟩
  refine ⟨_, returns_reap rfl found stretch, ?_⟩
  intro empty
  have locks : after.held = [.proc ⟨0, by decide⟩, .wait] := held
  rw [locks] at empty
  cases empty

/-- Every return of `wait_extension` is clean, for all process tables and all
behaviours of the other processes, exactly if no copy of a `perf` field is
tried and fails.  A failed copy of the status is harmless. -/
theorem wait_extension_clean_iff (args : Args) :
    (forall table final, Returns args (fresh table) final -> Clean args final) <->
      ¬PerfFails args := by
  constructor
  · intro clean fails
    rcases returns_locked fails with ⟨final, returns, held⟩
    exact held (clean _ _ returns).locks
  · intro copies table final returns
    rcases returns.outcome with ⟨value, before, outcome, rfl⟩
    rcases outcome.exit with ⟨free, succeeded⟩ | ⟨np, taken, minus, found, free | ⟨fails, _⟩⟩
    · exact ⟨free, fun failed => (failed succeeded).elim⟩
    · refine ⟨free, fun _ => ⟨congrArg some minus, np, before.proc np, taken, rfl, ?_, ?_, ?_⟩⟩
      · exact found.zombie
      · exact found.parent
      · exact wait_again free { found with }
    · exact absurd fails copies

/-- `wait_stat` with an unmapped second address, called by a process with a
`ZOMBIE` child, returns with locks held. -/
theorem wait_stat_keeps_locks : ∃ final,
    Returns (sys_wait_stat ⟨0, by decide⟩ (fun _ => false) 0 4096)
      (fresh (orphanage ⟨0, by decide⟩)) final ∧
      ¬Clean (sys_wait_stat ⟨0, by decide⟩ (fun _ => false) 0 4096) final := by
  have fails : PerfFails (sys_wait_stat ⟨0, by decide⟩ (fun _ => false) 0 4096) :=
    ⟨by decide, Or.inl (by decide), 0, List.mem_cons_self, rfl⟩
  rcases returns_locked fails with ⟨final, returns, held⟩
  exact ⟨final, returns, fun clean => held clean.locks⟩

end Wait
end Xv6
