import Mathlib.Logic.Function.Basic

namespace Xv6
namespace Conc

/-!
# Concurrent programs as trees of atomic statements

A kernel thread is a tree whose nodes are the statements it executes.  One
node is one indivisible step: between two nodes any other thread may run.
Everything a C function does in local variables lives in the continuations,
so a translated function keeps the shape of its source text, while the shared
state is touched only at the nodes.

Unbounded loops cannot be finite trees.  They are written as calls of a label
whose body is supplied separately by the machine, so a loop iteration ends in
a call of the loop's own label.
-/

/-- Programs over a shared state `S`, with threads `T` that execute at places
`C`, procedures named by `L`, and a result in `α`.  A place is whatever
hardware context a statement can observe, such as the processor it runs on. -/
inductive Prog (S T C L : Type) (α : Type) : Type 1 where
  | ret (value : α) : Prog S T C L α
  /-- One atomic statement.  It cannot execute in a state where it gives
  `none`, which is how a spin on a taken lock and a panic are expressed. -/
  | act {β : Type} (run : C -> S -> Option (β × S)) (next : β -> Prog S T C L α) : Prog S T C L α
  /-- A value supplied by the environment. -/
  | choose {β : Type} (next : β -> Prog S T C L α) : Prog S T C L α
  | call (label : L) (next : Int -> Prog S T C L α) : Prog S T C L α
  /-- Let another thread start from the beginning of a procedure. -/
  | spawn (thread : T) (label : L) (next : Prog S T C L α) : Prog S T C L α

namespace Prog

variable {S T C L : Type} {α β γ : Type}

def bind : Prog S T C L α -> (α -> Prog S T C L β) -> Prog S T C L β
  | .ret value, rest => rest value
  | .act run next, rest => .act run (fun value => (next value).bind rest)
  | .choose next, rest => .choose (fun value => (next value).bind rest)
  | .call label next, rest => .call label (fun value => (next value).bind rest)
  | .spawn thread label next, rest => .spawn thread label (next.bind rest)

instance : Monad (Prog S T C L) where
  pure := .ret
  bind := .bind

@[simp] theorem pure_eq (value : α) : (pure value : Prog S T C L α) = .ret value := rfl

@[simp] theorem bind_eq (program : Prog S T C L α) (rest : α -> Prog S T C L β) :
    program >>= rest = program.bind rest := rfl

@[simp] theorem ret_bind (value : α) (rest : α -> Prog S T C L β) :
    (Prog.ret value).bind rest = rest value := rfl

@[simp] theorem act_bind {δ : Type} (run : C -> S -> Option (δ × S))
    (next : δ -> Prog S T C L α) (rest : α -> Prog S T C L β) :
    (Prog.act run next).bind rest = .act run (fun value => (next value).bind rest) := rfl

@[simp] theorem choose_bind {δ : Type} (next : δ -> Prog S T C L α) (rest : α -> Prog S T C L β) :
    (Prog.choose next).bind rest = .choose (fun value => (next value).bind rest) := rfl

@[simp] theorem call_bind (label : L) (next : Int -> Prog S T C L α) (rest : α -> Prog S T C L β) :
    (Prog.call label next).bind rest = .call label (fun value => (next value).bind rest) := rfl

@[simp] theorem spawn_bind (thread : T) (label : L) (next : Prog S T C L α)
    (rest : α -> Prog S T C L β) :
    (Prog.spawn thread label next).bind rest = .spawn thread label (next.bind rest) := rfl

@[simp] theorem bind_ret (program : Prog S T C L α) : program.bind .ret = program := by
  induction program with
  | ret value => rfl
  | act run next ih => exact congrArg (Prog.act run) (funext ih)
  | choose next ih => exact congrArg Prog.choose (funext ih)
  | call label next ih => exact congrArg (Prog.call label) (funext ih)
  | spawn thread label next ih => exact congrArg (Prog.spawn thread label) ih

@[simp] theorem bind_assoc (program : Prog S T C L α) (second : α -> Prog S T C L β)
    (third : β -> Prog S T C L γ) :
    (program.bind second).bind third = program.bind (fun value => (second value).bind third) := by
  induction program with
  | ret value => rfl
  | act run next ih => exact congrArg (Prog.act run) (funext ih)
  | choose next ih => exact congrArg Prog.choose (funext ih)
  | call label next ih => exact congrArg (Prog.call label) (funext ih)
  | spawn thread label next ih => exact congrArg (Prog.spawn thread label) ih

/-! ## Statements -/

/-- A statement that always executes. -/
def modify (update : C -> S -> S) : Prog S T C L Unit :=
  .act (fun place state => some ((), update place state)) .ret

/-- A statement that only reads the shared state. -/
def read (view : C -> S -> α) : Prog S T C L α :=
  .act (fun place state => some (view place state, state)) .ret

/-- Wait until the guard holds, then update in the same step. -/
def await (guard : C -> S -> Bool) (update : C -> S -> S) : Prog S T C L Unit :=
  .act (fun place state =>
    if guard place state then some ((), update place state) else none) .ret

/-- A statement that never executes: the thread stops here for good. -/
def halt : Prog S T C L α :=
  .act (β := Empty) (fun _ _ => none) (fun impossible => impossible.elim)

/-- A value of the environment's choosing. -/
def any (α : Type) : Prog S T C L α := .choose .ret

/-- Call a procedure and use its result. -/
def invoke (label : L) : Prog S T C L Int := .call label .ret

/-- A conditional statement without an alternative. -/
def onlyIf (condition : Bool) (program : Prog S T C L Unit) : Prog S T C L Unit :=
  if condition then program else .ret ()

/-! ## Bounded loops -/

/-- Run the body on every element in order. -/
def forEach (body : β -> Prog S T C L Unit) : List β -> Prog S T C L Unit
  | [] => .ret ()
  | item :: items => do
    body item
    forEach body items

/-- Run the body on the elements in order until one of them gives a result. -/
def firstSome (body : β -> Prog S T C L (Option α)) : List β -> Prog S T C L (Option α)
  | [] => .ret none
  | item :: items => do
    match ← body item with
    | some found => pure (some found)
    | none => firstSome body items

/-- Run the body on the elements in order, threading an accumulator. -/
def foldEach (body : α -> β -> Prog S T C L α) : α -> List β -> Prog S T C L α
  | value, [] => .ret value
  | value, item :: items => do
    foldEach body (← body value item) items

end Prog
end Conc
end Xv6
