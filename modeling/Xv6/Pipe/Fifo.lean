import Xv6.Conc.RelyGuarantee
import Xv6.Conc.Solo
import Xv6.Data.Ring
import Xv6.Param

namespace Xv6
namespace Pipe

open Conc Function Logic Xv6.Ring

/-!
# A pipe shared by any number of processes

The functions of `pipe.c` on one pipe, executed by processes of an arbitrary
type in any interleaving.  Every statement is a step of its own; `pi->lock`
is what keeps other processes away from the ring.  `wakeup` has no effect on
the pipe, and `sleep` gives the lock up and takes it again, so a sleeper may
come back at any time and the result does not rest on the wakeups.  The user
copies succeed: `copyin` yields a byte of the caller's buffer.

Counters are 32-bit unsigned numbers.  Ghost lists record every byte that was
stored and every byte that was taken, in the order in which that happened, and
what each call has moved.
-/

def PIPESIZE : Nat := 512

structure Pipe where
  data : Nat -> UInt8
  nread : Nat
  nwrite : Nat
  readopen : Bool
  writeopen : Bool

/-- What a process can do to the pipe or to another process. -/
inductive Call (Process : Type) where
  | write (addr : Nat -> UInt8) (n : Int)
  | read (n : Int)
  | close (writable : Bool)
  | kill (other : Process)

/-- A finished call, with the value it has returned and the bytes it has moved. -/
structure Finished (Process : Type) where
  call : Call Process
  value : Int
  moved : List UInt8

/-- `moved` has the bytes that the call in progress has moved. -/
structure State (Process : Type) where
  pipe : Pipe
  lock : Option Process
  killed : Process -> Bool
  stored : List UInt8
  taken : List UInt8
  moved : Process -> List UInt8
  returned : List (Finished Process)

/-- The loops of the source, with their local variables, and the loop in which a
process makes its calls.  No interrupt handler is modelled. -/
inductive Label where
  | write (addr : Nat -> UInt8) (n : Int) (i : Nat)
  | nonempty (n : Int)
  | copy (n : Int) (i : Nat)
  | user
  | handler

variable {Process : Type} [DecidableEq Process]

abbrev Code (Process α : Type) := Prog (State Process) Process Process Label α

/-! ## Steps on the state -/

namespace State

variable (state : State Process) (me : Process)

def setLock (lock : Option Process) : State Process := { state with lock := lock }

/-- `pi->data[pi->nwrite++ % PIPESIZE] = ch` -/
def store (ch : UInt8) : State Process :=
  { state with
    pipe := { state.pipe with
      data := Function.update state.pipe.data (state.pipe.nwrite % PIPESIZE) ch
      nwrite := Ring.next uints state.pipe.nwrite }
    stored := state.stored ++ [ch]
    moved := Function.update state.moved me (state.moved me ++ [ch]) }

/-- `ch = pi->data[pi->nread++ % PIPESIZE]`, and `ch` is copied out. -/
def take : State Process :=
  let ch := state.pipe.data (state.pipe.nread % PIPESIZE)
  { state with
    pipe := { state.pipe with nread := Ring.next uints state.pipe.nread }
    taken := state.taken ++ [ch]
    moved := Function.update state.moved me (state.moved me ++ [ch]) }

def close (writable : Bool) : State Process :=
  { state with
    pipe := if writable then { state.pipe with writeopen := false }
      else { state.pipe with readopen := false } }

def kill (other : Process) : State Process :=
  { state with killed := Function.update state.killed other true }

/-- A call begins. -/
def enter : State Process := { state with moved := Function.update state.moved me [] }

/-- A call returns `value`. -/
def leave (call : Call Process) (value : Int) : State Process :=
  { state with returned := ⟨call, value, state.moved me⟩ :: state.returned }

theorem store_moved (ch : UInt8) : (state.store me ch).moved me = state.moved me ++ [ch] :=
  update_self _ _ _

theorem take_moved : (state.take me).moved me =
    state.moved me ++ [state.pipe.data (state.pipe.nread % PIPESIZE)] :=
  update_self _ _ _

end State

/-! ## The source -/

def acquire : Code Process Unit :=
  Prog.await (fun _ state => state.lock.isNone) (fun me state => state.setLock (some me))

def release : Code Process Unit := Prog.modify (fun _ state => state.setLock none)

def sleep : Code Process Unit := do
  release
  acquire

/-- The exit of a call that gives up. -/
def giveUp : Code Process Int := do
  release
  pure (-1)

def writeByte (addr : Nat -> UInt8) (n : Int) (i : Nat) : Code Process Int := do
  if ← Prog.read (fun _ state =>
      decide (state.pipe.nwrite = (state.pipe.nread + PIPESIZE) % uints)) then do
    sleep
    Prog.invoke (.write addr n i)
  else do
    Prog.modify (fun me state => state.store me (addr i))
    Prog.invoke (.write addr n (i + 1))

/-- The loop of `pipewrite` with `i` bytes written. -/
def writeLoop (addr : Nat -> UInt8) (n : Int) (i : Nat) : Code Process Int := do
  if (i : Int) < n then do
    if ← Prog.read (fun _ state => !state.pipe.readopen) then giveUp
    else if ← Prog.read (fun me state => state.killed me) then giveUp
    else writeByte addr n i
  else do
    release
    pure i

def pipewrite (addr : Nat -> UInt8) (n : Int) : Code Process Int := do
  acquire
  Prog.invoke (.write addr n 0)

/-- The loop of `piperead` that waits for data. -/
def emptyLoop (n : Int) : Code Process Int := do
  if ← Prog.read (fun _ state =>
      decide (state.pipe.nread = state.pipe.nwrite) && state.pipe.writeopen) then do
    if ← Prog.read (fun me state => state.killed me) then giveUp
    else do
      sleep
      Prog.invoke (.nonempty n)
  else Prog.invoke (.copy n 0)

def copyEnd (i : Nat) : Code Process Int := do
  release
  pure i

/-- The loop of `piperead` that copies, with `i` bytes read. -/
def copyLoop (n : Int) (i : Nat) : Code Process Int := do
  if (i : Int) < n then do
    if ← Prog.read (fun _ state => decide (state.pipe.nread = state.pipe.nwrite)) then copyEnd i
    else do
      Prog.modify (fun me state => state.take me)
      Prog.invoke (.copy n (i + 1))
  else copyEnd i

def piperead (n : Int) : Code Process Int := do
  acquire
  Prog.invoke (.nonempty n)

/-- The end is closed.  What happens to the page is not this pipe's business any
more. -/
def pipeclose (writable : Bool) : Code Process Unit := do
  acquire
  Prog.modify (fun _ state => state.close writable)
  release

/-- One call of `read` or `write`, with its ghost bookkeeping. -/
def transfer (call : Call Process) (code : Code Process Int) : Code Process Unit := do
  Prog.modify (fun me state => state.enter me)
  let value ← code
  Prog.modify (fun me state => state.leave me call value)

def perform : Call Process -> Code Process Unit
  | .write addr n => transfer (.write addr n) (pipewrite addr n)
  | .read n => transfer (.read n) (piperead n)
  | .close writable => pipeclose writable
  | .kill other => Prog.modify (fun _ state => state.kill other)

/-- A process makes calls of its choice for ever. -/
def user : Code Process Int := do
  let call ← Prog.any (Call Process)
  perform call
  Prog.invoke .user

/-- A process executes wherever it is, so its place is the process itself. -/
def machine (Process : Type) [DecidableEq Process] :
    Machine (State Process) Process Process Label where
  code
    | .write addr n i => writeLoop addr n i
    | .nonempty n => emptyLoop n
    | .copy n i => copyLoop n i
    | .user => user
    | .handler => Prog.halt
  runs := fun _ thread place => thread = place
  interruptible := fun _ _ => False
  handler := .handler

instance (state : State Process) (thread place : Process) :
    Decidable ((machine Process).runs state thread place) :=
  inferInstanceAs (Decidable (thread = place))

/-- The state that `pipealloc` leaves.  The page has any contents. -/
def pipealloc (junk : Nat -> UInt8) (killed : Process -> Bool) : State Process where
  pipe := ⟨junk, 0, 0, true, true⟩
  lock := none
  killed := killed
  stored := []
  taken := []
  moved := fun _ => []
  returned := []

/-- The states in which the pipe can be found at any time. -/
def Reachable (state : State Process) : Prop :=
  ∃ junk killed pool, (machine Process).Reach
    (pipealloc junk killed, fun _ => .call .user (fun _ => .ret ())) (state, pool)

/-! ## The invariant -/

/-- The number of bytes in the ring, as unsigned arithmetic gives it. -/
def Pipe.used (pipe : Pipe) : Nat := Ring.gap uints pipe.nread pipe.nwrite

/-- The bytes in the ring, the next one to be taken first. -/
def Pipe.contents (pipe : Pipe) : List UInt8 :=
  Ring.window PIPESIZE pipe.data pipe.nread pipe.used

/-- What a call may have moved: a write only the beginning of its buffer, and no call more
than it was asked for. -/
def Call.Moves : Call Process -> List UInt8 -> Prop
  | .write addr n, moved =>
    moved.length ≤ n.toNat ∧ moved = (List.range moved.length).map addr
  | .read n, moved => moved.length ≤ n.toNat
  | _, _ => True

/-- A call returns the number of bytes it has moved, or -1. -/
structure Finished.Right (finished : Finished Process) : Prop where
  value : finished.value = finished.moved.length ∨ finished.value = -1
  moved : finished.call.Moves finished.moved

structure Inv (state : State Process) : Prop where
  read : state.pipe.nread < uints
  write : state.pipe.nwrite < uints
  bounded : state.pipe.used ≤ PIPESIZE
  fifo : state.stored = state.taken ++ state.pipe.contents
  results : forall finished, finished ∈ state.returned -> finished.Right

/-- What one statement of `me` can do. -/
inductive PStep (me : Process) (state : State Process) : State Process -> Prop where
  | acquire (free : state.lock = none) : PStep me state (state.setLock (some me))
  | release (mine : state.lock = some me) : PStep me state (state.setLock none)
  | store (mine : state.lock = some me) (ch : UInt8)
      (room : state.pipe.nwrite ≠ (state.pipe.nread + PIPESIZE) % uints) :
      PStep me state (state.store me ch)
  | take (mine : state.lock = some me) (data : state.pipe.nread ≠ state.pipe.nwrite) :
      PStep me state (state.take me)
  | close (mine : state.lock = some me) (writable : Bool) : PStep me state (state.close writable)
  | kill (other : Process) : PStep me state (state.kill other)
  | enter : PStep me state (state.enter me)
  | leave (call : Call Process) (value : Int)
      (right : Finished.Right ⟨call, value, state.moved me⟩) :
      PStep me state (state.leave me call value)

/-- What other processes leave alone. -/
structure Rely (me : Process) (before after : State Process) : Prop where
  lock : after.lock = some me <-> before.lock = some me
  pipe : before.lock = some me -> after.pipe = before.pipe
  moved : after.moved me = before.moved me

variable {state after : State Process} {me : Process}

theorem divides : PIPESIZE ∣ uints := by decide

theorem pipesize_lt : PIPESIZE < uints := by decide

theorem Inv.store (inv : Inv state) (ch : UInt8)
    (room : state.pipe.nwrite ≠ (state.pipe.nread + PIPESIZE) % uints) :
    Inv (state.store me ch) := by
  have notFull : state.pipe.used ≠ PIPESIZE := by
    intro full
    exact room ((eq_add_iff inv.read inv.write pipesize_lt).mpr full)
  have space : state.pipe.used < PIPESIZE := lt_of_le_of_ne inv.bounded notFull
  have used : (state.store me ch).pipe.used = state.pipe.used + 1 := by
    refine gap_next_high inv.read inv.write ?_
    exact lt_of_le_of_lt (Nat.succ_le_of_lt space) pipesize_lt
  have contents : (state.store me ch).pipe.contents = state.pipe.contents ++ [ch] := by
    rw [Pipe.contents, used]
    exact window_store divides inv.read inv.write space state.pipe.data ch
  constructor
  · exact inv.read
  · exact next_lt uints_pos
  · rw [used]
    exact space
  · rw [contents, ← List.append_assoc]
    exact congrArg (· ++ [ch]) inv.fifo
  · exact inv.results

theorem Inv.take (inv : Inv state) (data : state.pipe.nread ≠ state.pipe.nwrite) :
    Inv (state.take me) := by
  have some : 0 < state.pipe.used :=
    Nat.pos_of_ne_zero (fun zero => data ((gap_eq_zero_iff inv.read).mp zero))
  have used : (state.take me).pipe.used + 1 = state.pipe.used :=
    gap_next_low inv.read inv.write some
  have contents : state.pipe.contents =
      state.pipe.data (state.pipe.nread % PIPESIZE) :: (state.take me).pipe.contents :=
    window_take divides inv.read inv.write some state.pipe.data
  constructor
  · exact next_lt uints_pos
  · exact inv.write
  · have bounded := inv.bounded
    omega
  · have fifo := inv.fifo
    rw [contents] at fifo
    rw [State.take, List.append_assoc]
    exact fifo
  · exact inv.results

variable {call : Call Process} {value : Int} {i : Nat}

omit [DecidableEq Process] in
theorem Inv.leave (inv : Inv state) (right : Finished.Right ⟨call, value, state.moved me⟩) :
    Inv (state.leave me call value) := by
  refine ⟨inv.read, inv.write, inv.bounded, inv.fifo, ?_⟩
  intro finished member
  rcases List.mem_cons.mp member with rfl | earlier
  · exact right
  · exact inv.results finished earlier

/-- One statement keeps the invariant. -/
theorem PStep.inv (step : PStep me state after) (inv : Inv state) : Inv after := by
  cases step with
  | acquire free | release mine | kill other | enter =>
    exact { inv with }
  | store mine ch room => exact inv.store ch room
  | take mine data => exact inv.take data
  | close mine writable =>
    cases writable <;> exact { inv with }
  | leave call value right => exact inv.leave right

/-- The lock keeps everybody else away from the ring. -/
theorem PStep.rely {other : Process} (step : PStep me state after) (different : other ≠ me) :
    Rely other state after := by
  have notMe : some me ≠ some other := fun same => different (Option.some.inj same).symm
  cases step with
  | acquire free => exact ⟨by simp [State.setLock, free, notMe], by simp [free], rfl⟩
  | release mine => exact ⟨by simp [State.setLock, mine, notMe], by simp [mine, notMe], rfl⟩
  | store mine ch room | take mine data =>
    exact ⟨Iff.rfl, by simp [mine, notMe], update_of_ne different _ _⟩
  | close mine writable => exact ⟨Iff.rfl, by simp [mine, notMe], rfl⟩
  | kill target | leave call value right => exact ⟨Iff.rfl, fun _ => rfl, rfl⟩
  | enter => exact ⟨Iff.rfl, fun _ => rfl, update_of_ne different _ _⟩

/-! ## The specification of the loops -/

/-- The call has moved `i` bytes. -/
def Moved (me : Process) (call : Call Process) (i : Nat) (state : State Process) : Prop :=
  (state.moved me).length = i ∧ call.Moves (state.moved me)

/-- Also, the lock is held. -/
def Busy (me : Process) (call : Call Process) (i : Nat) (state : State Process) : Prop :=
  state.lock = some me ∧ Moved me call i state

/-- The lock is not held, and the value is what the call may return. -/
def Done (me : Process) (call : Call Process) (value : Int) (state : State Process) : Prop :=
  state.lock ≠ some me ∧ Finished.Right ⟨call, value, state.moved me⟩

omit [DecidableEq Process] in
theorem Moved.rely (moved : Moved me call i state) (rely : Rely me state after) :
    Moved me call i after := by
  unfold Moved
  rw [rely.moved]
  exact moved

omit [DecidableEq Process] in
theorem Busy.rely (busy : Busy me call i state) (rely : Rely me state after) :
    Busy me call i after :=
  ⟨rely.lock.mpr busy.1, busy.2.rely rely⟩

omit [DecidableEq Process] in
theorem Done.rely (done : Done me call value state) (rely : Rely me state after) :
    Done me call value after := by
  refine ⟨fun held => done.1 (rely.lock.mp held), ?_⟩
  rw [rely.moved]
  exact done.2

/-- The next byte of a write comes from the next place of its buffer. -/
theorem Moved.store {addr : Nat -> UInt8} {n : Int} (moved : Moved me (.write addr n) i state)
    (more : (i : Int) < n) : Moved me (.write addr n) (i + 1) (state.store me (addr i)) := by
  obtain ⟨length, _, bytes⟩ := moved
  have longer : (state.moved me ++ [addr i]).length = i + 1 := by
    rw [List.length_append, length, List.length_singleton]
  unfold Moved Call.Moves
  dsimp only
  rw [State.store_moved, longer]
  refine ⟨rfl, by omega, ?_⟩
  rw [List.range_succ, List.map_append, ← length, ← bytes]
  rfl

theorem Moved.take {n : Int} (moved : Moved me (.read n) i state) (more : (i : Int) < n) :
    Moved me (.read n) (i + 1) (state.take me) := by
  have longer : ((state.take me).moved me).length = i + 1 := by
    rw [State.take_moved, List.length_append, moved.1, List.length_singleton]
  refine ⟨longer, ?_⟩
  unfold Call.Moves
  omega

def logic (Process : Type) [DecidableEq Process] : Logic (State Process) Process Process Label where
  inv := Inv
  rely := Rely
  guar := fun me _ before after => PStep me before after
  pre := fun label me state => match label with
    | .write addr n i => Busy me (.write addr n) i state
    | .nonempty n => Busy me (.read n) 0 state
    | .copy n i => Busy me (.read n) i state
    | .user => state.lock ≠ some me
    | .handler => False
  post := fun label me _ value after => match label with
    | .write addr n _ => Done me (.write addr n) value after
    | .nonempty n | .copy n _ => Done me (.read n) value after
    | .user | .handler => False

abbrev Wp {α : Type} (me : Process) (program : Code Process α)
    (goal : α -> State Process -> Prop) (state : State Process) : Prop :=
  (logic Process).wp (machine Process).runs me program goal state

theorem coherent : (logic Process).Coherent (machine Process) where
  rely_refl := fun _ _ => ⟨Iff.rfl, fun _ => rfl, rfl⟩
  rely_trans := by
    intro me first second third one two
    refine ⟨two.lock.trans one.lock, fun held => ?_, two.moved.trans one.moved⟩
    exact (two.pipe (one.lock.mpr held)).trans (one.pipe held)
  guar_inv := fun _ _ _ _ valid _ step => step.inv valid
  guar_rely := fun _ _ _ _ _ _ _ step different => step.rely different

variable {α : Type} {goal : α -> State Process -> Prop}
variable {rest : Unit -> Code Process α}

theorem wp_acquire (moved : Moved me call i state) (step : ∀ now, Busy me call i now ->
      Wp me (rest ()) goal now) :
    Wp me (acquire.bind rest) goal state := by
  refine wp_await (fun now rely _ place runs free => ?_)
  cases runs
  have moved := moved.rely rely
  exact ⟨.acquire (Option.isNone_iff_eq_none.mp free), step _ ⟨rfl, moved⟩⟩

theorem wp_release (busy : Busy me call i state)
    (step : ∀ now, now.lock ≠ some me -> Moved me call i now -> Wp me (rest ()) goal now) :
    Wp me (release.bind rest) goal state := by
  refine wp_modify (fun now rely _ place runs => ?_)
  cases runs
  have held := busy.rely rely
  exact ⟨.release held.1, step _ (by simp [State.setLock]) held.2⟩

theorem wp_sleep (busy : Busy me call i state) (step : ∀ now, Busy me call i now ->
      Wp me (rest ()) goal now) :
    Wp me (sleep.bind rest) goal state := by
  refine wp_release busy (fun now _ moved => ?_)
  exact wp_acquire moved step

/-- Looking at the state while the lock is held. -/
theorem wp_look {β : Type} {view : Process -> State Process -> β} {rest : β -> Code Process α}
    (busy : Busy me call i state)
    (step : ∀ now, Busy me call i now -> Wp me (rest (view me now)) goal now) :
    Wp me ((Prog.read view).bind rest) goal state := by
  refine wp_read (fun now rely _ place runs => ?_)
  cases runs
  exact step now (busy.rely rely)

theorem wp_finish (busy : Busy me call i state) (right : value = i ∨ value = -1) :
    Wp me (release.bind (fun _ => Prog.ret value)) (Done me call) state := by
  refine wp_release busy (fun now free moved => ?_)
  refine wp_ret (fun later rely _ => ?_)
  refine Done.rely ⟨free, ?_, moved.2⟩ rely
  rw [moved.1]
  exact right

/-- A loop continues by calling itself. -/
theorem wp_again {label : Label} (busy : Busy me call i state)
    (entry : (logic Process).pre label me = Busy me call i)
    (result : (logic Process).post label me = fun _ => Done me call) :
    Wp me (Prog.invoke label) (Done me call) state := by
  refine wp_tailCall (fun now rely _ => ?_)
  rw [entry, result]
  exact ⟨busy.rely rely, fun _ _ _ returned _ further _ => returned.rely further⟩

theorem wp_writeByte {addr : Nat -> UInt8} {n : Int} (more : (i : Int) < n)
    (busy : Busy me (.write addr n) i state) :
    Wp me (writeByte addr n i) (Done me (.write addr n)) state := by
  refine wp_read (fun now rely _ place runs => ?_)
  cases runs
  have held := busy.rely rely
  split
  · refine wp_sleep held (fun later held => ?_)
    exact wp_again held rfl rfl
  · next room =>
      refine wp_modify (fun later rely _ place runs => ?_)
      cases runs
      have pipe := rely.pipe held.1
      have held := held.rely rely
      refine ⟨.store held.1 _ ?_, ?_⟩
      · rw [pipe]
        exact fun full => room (decide_eq_true full)
      · exact wp_again (i := i + 1) ⟨held.1, held.2.store more⟩ rfl rfl

theorem wp_writeLoop {addr : Nat -> UInt8} {n : Int} (busy : Busy me (.write addr n) i state) :
    Wp me (writeLoop addr n i) (Done me (.write addr n)) state := by
  unfold writeLoop
  split
  · next more =>
      refine wp_look busy (fun now busy => ?_)
      split
      · exact wp_finish busy (Or.inr rfl)
      · refine wp_look busy (fun now busy => ?_)
        split
        · exact wp_finish busy (Or.inr rfl)
        · exact wp_writeByte more busy
  · exact wp_finish busy (Or.inl rfl)

theorem wp_emptyLoop {n : Int} (busy : Busy me (.read n) 0 state) :
    Wp me (emptyLoop n) (Done me (.read n)) state := by
  refine wp_look busy (fun now busy => ?_)
  split
  · refine wp_look busy (fun now busy => ?_)
    split
    · exact wp_finish busy (Or.inr rfl)
    · refine wp_sleep busy (fun now busy => ?_)
      exact wp_again busy rfl rfl
  · exact wp_again busy rfl rfl

theorem wp_copyLoop {n : Int} (busy : Busy me (.read n) i state) :
    Wp me (copyLoop n i) (Done me (.read n)) state := by
  unfold copyLoop
  split
  · next more =>
      refine wp_read (fun now rely _ place runs => ?_)
      cases runs
      have held := busy.rely rely
      split
      · exact wp_finish held (Or.inl rfl)
      · next data =>
          refine wp_modify (fun later rely _ place runs => ?_)
          cases runs
          have pipe := rely.pipe held.1
          have held := held.rely rely
          refine ⟨.take held.1 ?_, ?_⟩
          · rw [pipe]
            exact fun empty => data (decide_eq_true empty)
          · exact wp_again (i := i + 1) ⟨held.1, held.2.take more⟩ rfl rfl
  · exact wp_finish busy (Or.inl rfl)

/-! ## The calls of a process -/

/-- Between its calls a process does not hold the lock. -/
def Outside (me : Process) (state : State Process) : Prop := state.lock ≠ some me

theorem wp_transfer {code : Code Process Int} (empty : call.Moves [])
    (verified : ∀ now, Moved me call 0 now -> Wp me code (Done me call) now) :
    Wp me (transfer call code) (fun _ => Outside me) state := by
  refine wp_modify (fun now rely valid place runs => ?_)
  cases runs
  refine ⟨.enter, ?_⟩
  have entered : Inv (now.enter me) := PStep.inv .enter valid
  have nothing : Moved me call 0 (now.enter me) := by
    have none : (now.enter me).moved me = [] := update_self _ _ _
    rw [Moved, none]
    exact ⟨rfl, empty⟩
  refine wp_bind coherent entered ?_
  refine wp_mono (verified _ nothing) (fun value after _ done => ?_)
  refine wp_modify (fun later rely _ place runs => ?_)
  cases runs
  have done := done.rely rely
  refine ⟨.leave call value done.2, ?_⟩
  exact wp_ret (fun last rely _ held => done.1 (rely.lock.mp held))

theorem wp_pipewrite {addr : Nat -> UInt8} {n : Int} (moved : Moved me (.write addr n) 0 state) :
    Wp me (pipewrite addr n) (Done me (.write addr n)) state := by
  refine wp_acquire moved (fun now busy => ?_)
  exact wp_again busy rfl rfl

theorem wp_piperead {n : Int} (moved : Moved me (.read n) 0 state) :
    Wp me (piperead n) (Done me (.read n)) state := by
  refine wp_acquire moved (fun now busy => ?_)
  exact wp_again busy rfl rfl

theorem wp_pipeclose (writable : Bool) : Wp me (pipeclose writable) (fun _ => Outside me)
      state := by
  have moved : Moved me (.close writable) (state.moved me).length state := ⟨rfl, trivial⟩
  refine wp_acquire moved (fun now busy => ?_)
  refine wp_modify (fun later rely _ place runs => ?_)
  cases runs
  have busy := busy.rely rely
  refine ⟨.close busy.1 writable, ?_⟩
  have closing : Busy me (.close writable) (state.moved me).length (later.close writable) := busy
  refine wp_release closing (fun last free _ => ?_)
  exact wp_ret (fun now rely _ held => free (rely.lock.mp held))

theorem wp_perform (call : Call Process) (outside : Outside me state) :
    Wp me (perform call) (fun _ => Outside me) state := by
  cases call with
  | write addr n =>
    exact wp_transfer ⟨Nat.zero_le _, rfl⟩ (fun now moved => wp_pipewrite moved)
  | read n => exact wp_transfer (Nat.zero_le _) (fun now moved => wp_piperead moved)
  | close writable => exact wp_pipeclose writable
  | kill other =>
    refine wp_modify (fun now rely _ place runs => ⟨.kill other, ?_⟩)
    refine wp_ret (fun last further _ held => ?_)
    exact outside (rely.lock.mp (further.lock.mp held))

theorem wp_user (outside : Outside me state) (inv : Inv state) :
    Wp me user (fun _ _ => False) state := by
  refine wp_any (fun call => ?_)
  refine wp_bind coherent inv ?_
  refine wp_mono (wp_perform call outside) (fun _ now _ outside => ?_)
  refine wp_tailCall (fun later rely _ => ?_)
  exact ⟨fun held => outside (rely.lock.mp held), fun _ _ _ returned => returned.elim⟩

theorem verifies : (logic Process).Verifies (machine Process) where
  toCoherent := coherent
  code := by
    intro label me state inv pre
    cases label with
    | write addr n i => exact wp_writeLoop pre
    | nonempty n => exact wp_emptyLoop pre
    | copy n i => exact wp_copyLoop pre
    | user => exact wp_user pre inv
    | handler => exact pre.elim
  handler_pre := fun _ _ _ _ _ _ impossible => impossible.elim
  handler_rely := fun _ _ _ _ _ impossible => impossible.elim

/-! ## Every run -/

omit [DecidableEq Process] in
theorem Inv.pipealloc (junk : Nat -> UInt8) (killed : Process -> Bool) :
    Inv (pipealloc junk killed) := by
  have empty : (Pipe.pipealloc junk killed).pipe.used = 0 :=
    (gap_eq_zero_iff uints_pos).mpr rfl
  refine ⟨uints_pos, uints_pos, ?_, ?_, fun _ member => absurd member List.not_mem_nil⟩
  · rw [empty]
    exact Nat.zero_le PIPESIZE
  · rw [Pipe.contents, empty]
    rfl

theorem Reachable.inv (reachable : Reachable state) : Inv state := by
  rcases reachable with ⟨junk, killed, pool, run⟩
  refine (Logic.Safe.reach verifies ?_ run).1
  refine ⟨Inv.pipealloc junk killed, fun me now rely _ => ?_⟩
  refine ⟨fun held => ?_, fun _ _ _ returned => returned.elim⟩
  cases rely.lock.mp held

/-- The bytes that were stored are the bytes that were taken followed by the
contents of the ring, however often the counters have wrapped.  Every call has
returned the number of bytes it has moved, or -1, and a write has moved the bytes
at the beginning of its buffer. -/
theorem pipe_fifo (reachable : Reachable state) :
    (state.pipe.nwrite + 2 ^ 32 - state.pipe.nread) % 2 ^ 32 ≤ PIPESIZE ∧
      state.stored = state.taken ++ state.pipe.contents ∧
      forall finished, finished ∈ state.returned ->
        (finished.value = finished.moved.length ∨ finished.value = -1) ∧
        finished.call.Moves finished.moved := by
  have inv := reachable.inv
  have bounded := inv.bounded
  rw [Pipe.used, Ring.gap_eq_mod inv.read inv.write, uints] at bounded
  refine ⟨bounded, inv.fifo, fun finished member => ?_⟩
  exact ⟨(inv.results finished member).value, (inv.results finished member).moved⟩

/-- One process writes two bytes, and another one reads the first of them. -/
theorem write_then_read : ∃ state : State Bool, Reachable state ∧
    state.returned.map Finished.value = [1, 2] ∧
    state.returned.map Finished.moved = [[104], [104, 105]] ∧ state.taken = [104] ∧
    state.stored = state.taken ++ state.pipe.contents := by
  have run : (machine Bool).Reaches (fun _ => True)
      (pipealloc (fun _ => 0) (fun _ => false), fun _ => .call .user (fun _ => .ret ()))
      (fun config => config.1.returned.map Finished.value = [1, 2] ∧
        config.1.returned.map Finished.moved = [[104], [104, 105]] ∧
        config.1.taken = [104]) := by
    refine .solo false false trivial (Leads.drive 1 rfl (Leads.choose
      (Call.write (fun i => if i = 0 then 104 else 105) 2) rfl trivial ?_))
    refine Leads.drive 20 rfl (Leads.stop ?_)
    refine .solo true true trivial (Leads.drive 1 rfl (Leads.choose
      (Call.read 1) rfl trivial ?_))
    refine Leads.drive 20 rfl (Leads.stop ?_)
    exact .done ⟨rfl, rfl, rfl⟩
  rcases run.reach with ⟨⟨state, pool⟩, reached, values, moved, taken⟩
  have reachable : Reachable state := ⟨_, _, pool, reached⟩
  exact ⟨state, reachable, values, moved, taken, (pipe_fifo reachable).2.1⟩

end Pipe
end Xv6
