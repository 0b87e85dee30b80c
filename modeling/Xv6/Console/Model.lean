import Xv6.Conc.Solo
import Xv6.Console.Editor
import Xv6.Data.Ring
import Xv6.Param

namespace Xv6
namespace Console

open Conc

/-!
# The console

`consoleintr` and `consoleread` of `console.c`, executed in any interleaving by
activities of an arbitrary type.  An activity stands for a process in the
kernel as well as for the interrupts that arrive while it runs.  Every
statement is a step of its own, and `cons.lock` keeps others away from the
buffer.  Echoing and `procdump` only print, and `wakeup` has no effect on the
buffer: `sleep` gives the lock up and takes it again, so the sleeper may come
back at any time.  The copies to user space succeed.

The indices are 32-bit unsigned numbers.  Ghost state records the keys and the
bytes taken in the order in which that happened, and which read took what.
-/

structure Cons where
  buf : Nat -> UInt8
  r : Nat
  w : Nat
  e : Nat

/-- The bytes that readers can take. -/
def Cons.committed (cons : Cons) : List UInt8 :=
  Ring.window INPUT_BUF cons.buf cons.r (Ring.gap uints cons.r cons.w)

/-- The line that can still be edited. -/
def Cons.line (cons : Cons) : List UInt8 :=
  Ring.window INPUT_BUF cons.buf cons.w (Ring.gap uints cons.w cons.e)

/-- The byte that `cons.buf[cons.r % INPUT_BUF]` holds. -/
def Cons.front (cons : Cons) : UInt8 := cons.buf (cons.r % INPUT_BUF)

/-- The byte before the edit point, `cons.buf[(cons.e-1) % INPUT_BUF]`. -/
def Cons.last (cons : Cons) : UInt8 := cons.buf (Ring.prev uints cons.e % INPUT_BUF)

/-- `cons.r++` -/
def Cons.forward (cons : Cons) : Cons := { cons with r := Ring.next uints cons.r }

/-- `cons.r--` -/
def Cons.backward (cons : Cons) : Cons := { cons with r := Ring.prev uints cons.r }

/-- `cons.e--` -/
def Cons.erase (cons : Cons) : Cons := { cons with e := Ring.prev uints cons.e }

/-- `cons.buf[cons.e++ % INPUT_BUF] = c` -/
def Cons.push (cons : Cons) (c : UInt8) : Cons :=
  { cons with
    buf := Function.update cons.buf (cons.e % INPUT_BUF) c
    e := Ring.next uints cons.e }

/-- `cons.w = cons.e` -/
def Cons.commit (cons : Cons) : Cons := { cons with w := cons.e }

theorem Cons.line_forward (cons : Cons) : cons.forward.line = cons.line := by
  simp only [Cons.line, Cons.forward]

theorem Cons.line_backward (cons : Cons) : cons.backward.line = cons.line := by
  simp only [Cons.line, Cons.backward]

/-- Erasing touches no committed byte. -/
theorem Cons.committed_erase (cons : Cons) : cons.erase.committed = cons.committed := by
  simp only [Cons.committed, Cons.erase]

/-- One call of `consoleread`: who made it, and its number among their calls. -/
abbrev ReadId (Process : Type) := Process × Nat

/-- `pending` is the byte that a reader has fetched and not yet disposed of.
`key` is the key that `consoleintr` works on, with the committed bytes that it
found.  `kept` lists the reads that put a `^D` back, with its place in the
stream, and `edits` every finished key with the committed bytes before and
after it. -/
structure State (Process : Type) where
  cons : Cons
  lock : Option Process
  killed : Process -> Bool
  pending : Option UInt8
  key : Option (UInt8 × List UInt8)
  events : List Event
  taken : List (ReadId Process × UInt8)
  seq : Process -> Nat
  finished : List (ReadId Process × Int)
  kept : List (ReadId Process × Nat)
  edits : List (UInt8 × List UInt8 × List UInt8)

inductive Call (Process : Type) where
  | intr (c : UInt8)
  | read (n : Int)
  | kill (other : Process)

/-- The loops of the source, with their local variables, and the loop in which an
activity makes its calls.  No other interrupt handler is modelled. -/
inductive Label where
  | killLine
  | next (target n : Int)
  | wait (target n : Int)
  | user
  | handler

variable {Process : Type} [DecidableEq Process]

abbrev Code (Process α : Type) := Prog (State Process) Process Process Label α

/-! ## Steps on the state -/

namespace State

variable (state : State Process) (me : Process)

/-- The read in progress, or the last one. -/
def current : ReadId Process := (me, state.seq me)

/-- The bytes of the stream that a read has taken. -/
def takenBy (id : ReadId Process) : List UInt8 :=
  (state.taken.filter (fun entry => entry.1 = id)).map Prod.snd

/-- The bytes of the stream that have been taken. -/
def stream : List UInt8 := state.taken.map Prod.snd

def setLock (lock : Option Process) : State Process := { state with lock := lock }

/-- `c = cons.buf[cons.r++ % INPUT_BUF]` -/
def fetch : State Process :=
  { state with cons := state.cons.forward, pending := some state.cons.front }

/-- The fetched byte is copied out, or it is a `^D` that ends the read. -/
def consume (c : UInt8) : State Process :=
  { state with
    pending := none
    events := state.events ++ [.taken]
    taken := state.taken ++ [(state.current me, c)] }

/-- The fetched `^D` is saved for the next read. -/
def pushBack : State Process :=
  { state with
    cons := state.cons.backward
    pending := none
    kept := (state.current me, state.taken.length) :: state.kept }

def enter : State Process :=
  { state with seq := Function.update state.seq me (state.seq me + 1) }

def leave (value : Int) : State Process :=
  { state with finished := (state.current me, value) :: state.finished }

/-- `consoleintr` begins to work on a key. -/
def press (c : UInt8) : State Process :=
  { state with events := state.events ++ [.key c], key := some (c, state.cons.committed) }

/-- `consoleintr` changes the buffer. -/
def setCons (cons : Cons) : State Process := { state with cons := cons }

/-- `consoleintr` is done with its key. -/
def settle : State Process :=
  { state with
    key := none
    edits := match state.key with
      | some (c, found) => (c, found, state.cons.committed) :: state.edits
      | none => state.edits }

def kill (other : Process) : State Process :=
  { state with killed := Function.update state.killed other true }

end State

/-! ## The source -/

def acquire : Code Process Unit :=
  Prog.await (fun _ state => state.lock.isNone) (fun me state => state.setLock (some me))

def release : Code Process Unit := Prog.modify (fun _ state => state.setLock none)

def sleep : Code Process Unit := do
  release
  acquire

/-- Release the lock and return. -/
def finish (value : Int) : Code Process Int := do
  release
  pure value

/-- A `^D` was fetched: save it for the next call if this one has data. -/
def endOfFile (target n : Int) : Code Process Int := do
  if n < target then do
    Prog.modify (fun me state => state.pushBack me)
    finish (target - n)
  else do
    Prog.modify (fun me state => state.consume me (ctrl 'D'))
    finish (target - n)

def fetch : Code Process UInt8 :=
  .act (fun _ state => some (state.cons.front, state.fetch)) .ret

def takeByte (target n : Int) : Code Process Int := do
  let c ← fetch
  if c = ctrl 'D' then endOfFile target n
  else do
    Prog.modify (fun me state => state.consume me c)
    if c = newline then finish (target - (n - 1))
    else Prog.invoke (.next target (n - 1))

/-- The inner loop of `consoleread`. -/
def waitLoop (target n : Int) : Code Process Int := do
  if ← Prog.read (fun _ state => decide (state.cons.r = state.cons.w)) then do
    if ← Prog.read (fun me state => state.killed me) then finish (-1)
    else do
      sleep
      Prog.invoke (.wait target n)
  else takeByte target n

/-- The outer loop of `consoleread`. -/
def nextLoop (target n : Int) : Code Process Int :=
  if 0 < n then Prog.invoke (.wait target n) else finish (target - n)

def consoleread (n : Int) : Code Process Int := do
  acquire
  Prog.invoke (.next n n)

/-- The loop of the kill key. -/
def killLine : Code Process Int := do
  if ← Prog.read (fun _ state => decide (state.cons.e ≠ state.cons.w) &&
      decide (state.cons.last ≠ newline)) then do
    Prog.modify (fun _ state => state.setCons state.cons.erase)
    Prog.invoke .killLine
  else pure 0

def backspace : Code Process Unit := do
  if ← Prog.read (fun _ state => decide (state.cons.e ≠ state.cons.w)) then
    Prog.modify (fun _ state => state.setCons state.cons.erase)
  else pure ()

def store (c : UInt8) : Code Process Unit := do
  Prog.modify (fun _ state => state.setCons (state.cons.push c))
  if ← Prog.read (fun _ state => decide (c = newline ∨ c = ctrl 'D' ∨
      state.cons.e = (state.cons.r + INPUT_BUF) % uints)) then
    Prog.modify (fun _ state => state.setCons state.cons.commit)
  else pure ()

def insert (c : UInt8) : Code Process Unit := do
  if ← Prog.read (fun _ state =>
      decide (c ≠ 0 ∧ Ring.gap uints state.cons.r state.cons.e < INPUT_BUF)) then
    store (translate c)
  else pure ()

/-- The `switch` of `consoleintr`. -/
def edit (c : UInt8) : Code Process Unit :=
  if c = ctrl 'P' then pure ()
  else if c = ctrl 'U' then do
    let _ ← Prog.invoke .killLine
  else if c = ctrl 'H' ∨ c = delete then backspace
  else insert c

def consoleintr (c : UInt8) : Code Process Unit := do
  acquire
  Prog.modify (fun _ state => state.press c)
  edit c
  Prog.modify (fun _ state => state.settle)
  release

/-- One call of `consoleread`, with its ghost bookkeeping. -/
def read (n : Int) : Code Process Unit := do
  Prog.modify (fun me state => state.enter me)
  let value ← consoleread n
  Prog.modify (fun me state => state.leave me value)

def perform : Call Process -> Code Process Unit
  | .intr c => consoleintr c
  | .read n => read n
  | .kill other => Prog.modify (fun _ state => state.kill other)

def user : Code Process Int := do
  let call ← Prog.any (Call Process)
  perform call
  Prog.invoke .user

/-- An activity executes wherever it is, so its place is the activity itself. -/
def machine (Process : Type) [DecidableEq Process] :
    Machine (State Process) Process Process Label where
  code
    | .killLine => killLine
    | .next target n => nextLoop target n
    | .wait target n => waitLoop target n
    | .user => user
    | .handler => Prog.halt
  runs := fun _ thread place => thread = place
  interruptible := fun _ _ => False
  handler := .handler

instance (state : State Process) (thread place : Process) :
    Decidable ((machine Process).runs state thread place) :=
  inferInstanceAs (Decidable (thread = place))

/-- The console before anything was typed. -/
def boot (killed : Process -> Bool) : State Process where
  cons := ⟨fun _ => 0, 0, 0, 0⟩
  lock := none
  killed := killed
  pending := none
  key := none
  events := []
  taken := []
  seq := fun _ => 0
  finished := []
  kept := []
  edits := []

def Reachable (state : State Process) : Prop :=
  ∃ killed pool, (machine Process).Reach
    (boot killed, fun _ => .call .user (fun _ => .ret ())) (state, pool)

end Console
end Xv6
