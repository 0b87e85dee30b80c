import Xv6.Kernel.Functions

namespace Xv6
namespace Kernel

open Conc

/-!
# Contracts of the procedures

What the labelled procedures may assume when they are called and what they
establish when they return.  The system calls and loops of a process begin and
end outside all critical sections; the interrupt handler has to be invisible,
so its contract is the rely relation of the interrupted thread itself.
-/

variable {H : Type} [DecidableEq H]

/-- A call made outside all critical sections has returned.  If it has slept,
the trap in which it was made is over for the hart. -/
def Returned (slot : Slot) (base : Mode) (trap : Trap) (before after : State H) : Prop :=
  ∃ now, (now = trap ∨ now = .none) ∧ Sees (.proc slot) (View.plain (some slot) base now) after ∧
    Frame (.proc slot) [] before after

/-- The view of user code. -/
def View.atUser (slot : Slot) : View := { View.plain (some slot) false .none with user := true }

/-- Inside a system call, with one lock. -/
def View.inCall (slot : Slot) (lock : Lock) : View :=
  (View.plain (some slot) true .none).push lock

/-- A `pipewrite` is in progress, with bytes stored since it last called `wakeup` if
`unsaid`. -/
def Pipe.Writing (pipe : Pipe) (unsaid : Bool) : Prop :=
  pipe.writersOwed = false ∧ (pipe.readersOwed = true -> unsaid = true ∨ pipe.cut = true)

theorem Pipe.Settled.writing {pipe : Pipe} (settled : pipe.Settled) (unsaid : Bool) :
    pipe.Writing unsaid :=
  ⟨settled.1, fun owed => Or.inr (settled.2 owed)⟩

theorem Pipe.Writing.woken {pipe : Pipe} {unsaid : Bool} (writing : pipe.Writing unsaid) :
    Pipe.Settled { pipe with readersOwed := false } :=
  ⟨writing.1, fun owed => by cases owed⟩

/-- A `wait` is about to return the value. -/
def Waited (slot : Slot) (addr : Bool) (thread : Thread H) (value : Int) (state : State H) :
    Prop :=
  ∃ got out, Sees thread (View.plain (some slot) ⟨true, ⟨false, got, out⟩⟩ .none) state ∧
    Delivered got out addr value

omit [DecidableEq H] in
theorem Waited.rely {thread : Thread H} {state now : State H} {slot : Slot} {addr : Bool}
    {value : Int} (waited : Waited slot addr thread value state) (rely : Rely thread state now) :
    Waited slot addr thread value now := by
  rcases waited with ⟨got, out, sees, delivered⟩
  exact ⟨got, out, (rely.sees _ sees).1, delivered⟩

def contract : Spec H where
  pre
    | .scheduler, thread, state =>
      ∃ hart, ∃ irq : Bool, thread = .sched hart ∧ Sees thread (View.plain none irq .none) state
    | .forkret, thread, state =>
      ∃ slot, thread = .proc slot ∧ (state.task slot).Fresh
    | .user, thread, state => ∃ slot, thread = .proc slot ∧ Sees thread (View.atUser slot) state
    | .kerneltrap, thread, state =>
      ∃ proc call, (forall slot, proc = some slot <-> thread = .proc slot) ∧
        Sees thread (View.plain proc ⟨true, call⟩ .none) state
    | .busy, thread, state =>
      ∃ slot base trap, thread = .proc slot ∧ Sees thread (View.plain (some slot) base trap) state
    | .waitLoop slot _ _, thread, state =>
      thread = .proc slot ∧ Sees thread (View.inCall slot .wait) state
    | .sleepLoop _ _, thread, state =>
      ∃ slot, thread = .proc slot ∧ Sees thread (View.inCall slot .ticks) state
    | .writeLoop slot pi _ unsaid, thread, state =>
      thread = .proc slot ∧ Sees thread (View.inCall slot (.pipe pi)) state ∧
        (state.pipe pi).Writing unsaid
    | .readLoop slot pi _, thread, state =>
      thread = .proc slot ∧ Sees thread (View.inCall slot (.pipe pi)) state ∧
        (state.pipe pi).Settled
  post
    | .scheduler, _, _, _, _ => False
    | .forkret, _, _, _, _ => False
    | .user, _, _, _, _ => False
    | .kerneltrap, thread, before, _, after => Rely thread before after
    | .busy, thread, before, _, after =>
      forall slot base trap, thread = .proc slot ->
        Sees thread (View.plain (some slot) base trap) before ->
        Returned slot base trap before after
    | .waitLoop slot addr _, thread, _, value, after => Waited slot addr thread value after
    | .sleepLoop _ _, thread, _, _, after =>
      ∃ slot, thread = .proc slot ∧ Sees thread (View.plain (some slot) true .none) after
    | .writeLoop slot _ _ _, thread, _, _, after =>
      Sees thread (View.plain (some slot) true .none) after
    | .readLoop slot _ _, thread, _, _, after =>
      Sees thread (View.plain (some slot) true .none) after

variable {setting : Setting H} {α : Type} {goal : α -> State H -> Prop} {thread : Thread H}
  {state now after : State H} {slot : Slot} {base : Mode} {trap : Trap}

/-- The program of a thread, verified against the contracts. -/
abbrev Verified (setting : Setting H) (thread : Thread H) (program : KProg H α)
    (goal : α -> State H -> Prop) (state : State H) : Prop :=
  Wp setting contract thread program goal state

namespace Returned

omit [DecidableEq H]

theorem of_sees (sees : Plain slot base trap after)
    (frame : Frame (.proc slot) [] state after) : Returned slot base trap state after :=
  ⟨trap, Or.inl rfl, sees, frame⟩

theorem rely (returned : Returned slot base trap state now) (rely : Rely (.proc slot) now after) :
    Returned slot base trap state after := by
  rcases returned with ⟨trap', known, sees, frame⟩
  exact ⟨trap', known, (rely.sees _ sees).1, frame.trans rely.frame⟩

theorem trans {middle : Trap} (known : middle = trap ∨ middle = .none)
    (frame : Frame (.proc slot) [] state now) (second : Returned slot base middle now after) :
    Returned slot base trap state after := by
  rcases second with ⟨last, again, seen, kept⟩
  refine ⟨last, ?_, seen, frame.trans kept⟩
  rcases again with same | ended
  · rw [same]
    exact known
  · exact Or.inr ended

/-- In a system call no trap is in progress. -/
theorem sees (returned : Returned slot base .none state now) :
    Plain slot base .none now := by
  rcases returned with ⟨trap, known, sees, _⟩
  rw [or_self] at known
  rw [known] at sees
  exact sees

end Returned

omit [DecidableEq H] in
/-- Outside all critical sections the loops over the table may run. -/
theorem View.scans_plain (slot : Slot) (base : Mode) (trap : Trap) :
    (View.plain (some slot) base trap).Scans (.proc slot : Thread H) where
  toFit := View.fit_plain _ _ _
  below _ member := by cases member
  own any same := by
    cases same
    rfl

omit [DecidableEq H] in
/-- So may they with a lock that is no process's. -/
theorem View.Scans.push {view : View} (scans : view.Scans thread) {lock : Lock}
    (below : ∀ slot, Below lock (.proc slot)) : (view.push lock).Scans thread where
  toFit := scans.toFit.push lock
  below other member := by
    rcases List.mem_cons.mp member with same | member
    · rw [same]
      exact below
    · exact scans.below other member
  own := scans.own

theorem wp_callBusy {rest : Int -> KProg H α} (sees : Plain slot base trap state)
    (next : ∀ value now, Inv now -> Returned slot base trap state now ->
      Verified setting (.proc slot) (rest value) goal now) :
    Verified setting (.proc slot) ((Prog.invoke .busy).bind rest) goal state := by
  refine Logic.wp_invoke (fun now rely inv => ?_)
  have seen := (rely.sees _ sees).1
  refine ⟨⟨slot, base, trap, rfl, seen⟩, fun value after valid post => ?_⟩
  refine next value after valid ?_
  rcases post slot base trap rfl seen with ⟨last, known, shown, frame⟩
  exact ⟨last, known, shown, rely.frame.trans frame⟩

end Kernel
end Xv6
