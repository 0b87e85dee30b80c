import Xv6.Conc.Prog
import Mathlib.Logic.Relation

namespace Xv6
namespace Conc

/-!
# Interleaving semantics

A machine fixes the procedure bodies and says which thread currently executes
at which place.  A configuration pairs the shared state with what every thread
still has to execute.  At an interruptible place the handler may be entered
before any statement of the thread that runs there; the interrupted program is
what the handler returns to.
-/

variable {S T C L : Type}

structure Machine (S T C L : Type) where
  code : L -> Prog S T C L Int
  runs : S -> T -> C -> Prop
  interruptible : S -> C -> Prop
  handler : L

/-- The shared state and the rest of every thread's program. -/
abbrev Config (S T C L : Type) := S × (T -> Prog S T C L Unit)

/-- One step of one thread. -/
inductive Machine.Step [DecidableEq T] (machine : Machine S T C L) (thread : T) :
    Config S T C L -> Config S T C L -> Prop where
  | act {β : Type} {state after : S} {pool : T -> Prog S T C L Unit} {place : C}
      {run : C -> S -> Option (β × S)} {next : β -> Prog S T C L Unit} {value : β}
      (runs : machine.runs state thread place)
      (program : pool thread = .act run next)
      (result : run place state = some (value, after)) :
      machine.Step thread (state, pool) (after, Function.update pool thread (next value))
  | choose {β : Type} {state : S} {pool : T -> Prog S T C L Unit} {place : C}
      {next : β -> Prog S T C L Unit} (value : β)
      (runs : machine.runs state thread place)
      (program : pool thread = .choose next) :
      machine.Step thread (state, pool) (state, Function.update pool thread (next value))
  | call {state : S} {pool : T -> Prog S T C L Unit} {place : C} {label : L}
      {next : Int -> Prog S T C L Unit}
      (runs : machine.runs state thread place)
      (program : pool thread = .call label next) :
      machine.Step thread (state, pool)
        (state, Function.update pool thread ((machine.code label).bind next))
  | spawn {state : S} {pool : T -> Prog S T C L Unit} {place : C} {label : L}
      {other : T} {next : Prog S T C L Unit}
      (runs : machine.runs state thread place)
      (program : pool thread = .spawn other label next) :
      machine.Step thread (state, pool)
        (state, Function.update (Function.update pool thread next) other
          (.call label (fun _ => .ret ())))
  | interrupt {state : S} {pool : T -> Prog S T C L Unit} {place : C}
      (runs : machine.runs state thread place)
      (enabled : machine.interruptible state place) :
      machine.Step thread (state, pool)
        (state, Function.update pool thread (.call machine.handler (fun _ => pool thread)))

/-- Finitely many steps of any threads in any order. -/
def Machine.Reach [DecidableEq T] (machine : Machine S T C L) :
    Config S T C L -> Config S T C L -> Prop :=
  Relation.ReflTransGen (fun before after => ∃ thread, machine.Step thread before after)

end Conc
end Xv6
