import Xv6.Conc.Machine

namespace Xv6
namespace Conc

open Function

/-!
# Uninterrupted stretches of one thread

Concrete executions are put together from stretches in which a single thread
runs.  A stretch is followed on the thread's own program, so it can be computed
procedure by procedure; `Solo.reach` turns it into steps of the machine.  The
predicate `within` bounds the states that the stretch passes through.
-/

variable {S T C L : Type} {α β : Type} [DecidableEq T]

/-- A stretch of `thread` at `place` from one program, state and pool of the
other threads to another. -/
inductive Solo (machine : Machine S T C L) (within : S -> Prop) (thread : T) (place : C) :
    Prog S T C L α -> S -> (T -> Prog S T C L Unit) ->
    Prog S T C L α -> S -> (T -> Prog S T C L Unit) -> Prop where
  | stop {program : Prog S T C L α} {state : S} {pool : T -> Prog S T C L Unit} :
      Solo machine within thread place program state pool program state pool
  | act {δ : Type} {run : C -> S -> Option (δ × S)} {next : δ -> Prog S T C L α} {value : δ}
      {program : Prog S T C L α} {state now after : S} {pool others : T -> Prog S T C L Unit}
      (runs : machine.runs state thread place) (result : run place state = some (value, now))
      (inside : within now)
      (more : Solo machine within thread place (next value) now pool program after others) :
      Solo machine within thread place (.act run next) state pool program after others
  | choose {δ : Type} {next : δ -> Prog S T C L α} (value : δ)
      {program : Prog S T C L α} {state after : S} {pool others : T -> Prog S T C L Unit}
      (runs : machine.runs state thread place) (inside : within state)
      (more : Solo machine within thread place (next value) state pool program after others) :
      Solo machine within thread place (.choose next) state pool program after others
  | call {label : L} {next : Int -> Prog S T C L α}
      {program : Prog S T C L α} {state after : S} {pool others : T -> Prog S T C L Unit}
      (runs : machine.runs state thread place) (inside : within state)
      (more : Solo machine within thread place ((machine.code label).bind next) state pool
        program after others) :
      Solo machine within thread place (.call label next) state pool program after others
  | spawn {label : L} {other : T} {next : Prog S T C L α}
      {program : Prog S T C L α} {state after : S} {pool others : T -> Prog S T C L Unit}
      (runs : machine.runs state thread place) (inside : within state)
      (different : other ≠ thread)
      (more : Solo machine within thread place next state
        (Function.update pool other (.call label (fun _ => .ret ()))) program after others) :
      Solo machine within thread place (.spawn other label next) state pool program after others

namespace Solo

variable {machine : Machine S T C L} {within : S -> Prop} {thread : T} {place : C}

theorem trans {first second third : Prog S T C L α} {one two three : S}
    {poolOne poolTwo poolThree : T -> Prog S T C L Unit}
    (start : Solo machine within thread place first one poolOne second two poolTwo)
    (rest : Solo machine within thread place second two poolTwo third three poolThree) :
    Solo machine within thread place first one poolOne third three poolThree := by
  induction start with
  | stop => exact rest
  | act runs result inside _ ih => exact .act runs result inside (ih rest)
  | choose value runs inside _ ih => exact .choose value runs inside (ih rest)
  | call runs inside _ ih => exact .call runs inside (ih rest)
  | spawn runs inside different _ ih => exact .spawn runs inside different (ih rest)

theorem bind {program program' : Prog S T C L α} {state after : S}
    {pool others : T -> Prog S T C L Unit}
    (start : Solo machine within thread place program state pool program' after others)
    (rest : α -> Prog S T C L β) :
    Solo machine within thread place (program.bind rest) state pool
      (program'.bind rest) after others := by
  induction start with
  | stop => exact .stop
  | act runs result inside _ ih => exact .act runs result inside ih
  | choose value runs inside _ ih => exact .choose value runs inside ih
  | @call label next _ _ _ _ _ runs inside _ ih =>
    refine .call runs inside ?_
    rw [← Prog.bind_assoc]
    exact ih
  | spawn runs inside different _ ih => exact .spawn runs inside different ih

/-- Run the first program to its end and go on with the second. -/
theorem seq {program : Prog S T C L α} {rest : α -> Prog S T C L β} {value : α}
    {final : Prog S T C L β} {state now after : S} {pool others last : T -> Prog S T C L Unit}
    (first : Solo machine within thread place program state pool (.ret value) now others)
    (second : Solo machine within thread place (rest value) now others final after last) :
    Solo machine within thread place (program.bind rest) state pool final after last :=
  (first.bind rest).trans second

/-- A stretch of one thread consists of steps of the machine. -/
theorem reach {program program' : Prog S T C L Unit} {state after : S}
    {pool others : T -> Prog S T C L Unit}
    (stretch : Solo machine within thread place program state pool program' after others) :
    Relation.ReflTransGen (fun before after => machine.Step thread before after ∧ within after.1)
      (state, update pool thread program)
      (after, update others thread program') := by
  induction stretch with
  | stop => exact .refl
  | @act _ run next value _ state now _ pool _ runs result inside _ ih =>
    refine .head ⟨?_, inside⟩ ih
    have step : machine.Step thread (state, update pool thread (.act run next))
        (now, update (update pool thread (.act run next)) thread (next value)) :=
      .act runs (update_self ..) result
    simpa only [update_idem] using step
  | @choose _ next value _ state _ pool _ runs inside _ ih =>
    refine .head ⟨?_, inside⟩ ih
    have step : machine.Step thread (state, update pool thread (.choose next))
        (state, update (update pool thread (.choose next)) thread (next value)) :=
      .choose value runs (update_self ..)
    simpa only [update_idem] using step
  | @call label next _ state _ pool _ runs inside _ ih =>
    refine .head ⟨?_, inside⟩ ih
    have step : machine.Step thread (state, update pool thread (.call label next))
        (state, update (update pool thread (.call label next)) thread
          ((machine.code label).bind next)) :=
      .call runs (update_self ..)
    simpa only [update_idem] using step
  | @spawn label other next _ state _ pool _ runs inside different _ ih =>
    refine .head ⟨?_, inside⟩ ih
    have step : machine.Step thread (state, update pool thread (.spawn other label next))
        (state, update (update (update pool thread (.spawn other label next)) thread next)
          other (.call label (fun _ => .ret ()))) :=
      .spawn runs (update_self ..)
    simpa only [update_idem, update_comm different] using step

end Solo

/-- A stretch of the thread exists that ends as required.  Its end need not be
written down in advance, so the rules below follow a program forwards. -/
def Leads (machine : Machine S T C L) (within : S -> Prop) (thread : T) (place : C)
    (program : Prog S T C L α) (state : S) (pool : T -> Prog S T C L Unit)
    (goal : Prog S T C L α -> S -> (T -> Prog S T C L Unit) -> Prop) : Prop :=
  ∃ program' after others,
    Solo machine within thread place program state pool program' after others ∧
      goal program' after others

namespace Leads

variable {machine : Machine S T C L} {within : S -> Prop} {thread : T} {place : C}
  {state : S} {pool : T -> Prog S T C L Unit}
  {goal : Prog S T C L α -> S -> (T -> Prog S T C L Unit) -> Prop}

theorem stop {program : Prog S T C L α} (holds : goal program state pool) :
    Leads machine within thread place program state pool goal :=
  ⟨program, state, pool, .stop, holds⟩

theorem choose {δ : Type} {next : δ -> Prog S T C L α} (value : δ)
    (runs : machine.runs state thread place) (inside : within state)
    (more : Leads machine within thread place (next value) state pool goal) :
    Leads machine within thread place (.choose next) state pool goal := by
  rcases more with ⟨program, after, others, stretch, holds⟩
  exact ⟨program, after, others, .choose value runs inside stretch, holds⟩

/-- A choice that depends on the state. -/
theorem pick {δ : Type} {next : δ -> Prog S T C L α} (value : S -> δ)
    (runs : machine.runs state thread place) (inside : within state)
    (more : Leads machine within thread place (next (value state)) state pool goal) :
    Leads machine within thread place (.choose next) state pool goal :=
  choose (value state) runs inside more

theorem spawn {label : L} {other : T} {next : Prog S T C L α}
    (runs : machine.runs state thread place) (inside : within state)
    (different : other ≠ thread)
    (more : Leads machine within thread place next state
      (update pool other (.call label (fun _ => .ret ()))) goal) :
    Leads machine within thread place (.spawn other label next) state pool goal := by
  rcases more with ⟨program, after, others, stretch, holds⟩
  exact ⟨program, after, others, .spawn runs inside different stretch, holds⟩

end Leads

/-! ## Following a program by computation -/

section Drive

variable (machine : Machine S T C L) (within : S -> Prop) [DecidablePred within] (thread : T)
  (place : C) [forall state, Decidable (machine.runs state thread place)]

/-- Execute statements and calls until the thread needs a value from outside,
starts another thread, cannot go on, would leave the states allowed, or the
bound is reached. -/
def drive : Nat -> Prog S T C L α -> S -> Prog S T C L α × S
  | bound + 1, .act run next, state =>
    if machine.runs state thread place then
      match run place state with
      | some (value, now) =>
        if within now then drive bound (next value) now else (.act run next, state)
      | none => (.act run next, state)
    else (.act run next, state)
  | bound + 1, .call label next, state =>
    if machine.runs state thread place ∧ within state then
      drive bound ((machine.code label).bind next) state
    else (.call label next, state)
  | _, program, state => (program, state)

variable {machine within thread place}

theorem Solo.drive (bound : Nat) (program : Prog S T C L α) (state : S)
    (pool : T -> Prog S T C L Unit) :
    Solo machine within thread place program state pool
      (drive machine within thread place bound program state).1
      (drive machine within thread place bound program state).2 pool := by
  induction bound generalizing program state with
  | zero => cases program <;> exact .stop
  | succ bound ih =>
    cases program with
    | ret value | choose next | spawn other label next => exact .stop
    | act run next =>
      simp only [Conc.drive]
      split
      · next runs =>
          cases result : run place state with
          | none => exact .stop
          | some outcome =>
            dsimp only
            split
            · next inside => exact .act runs result inside (ih (next outcome.1) outcome.2)
            · exact .stop
      · exact .stop
    | call label next =>
      simp only [Conc.drive]
      split
      · next allowed => exact .call allowed.1 allowed.2 (ih _ state)
      · exact .stop

theorem Leads.drive (bound : Nat) {program program' : Prog S T C L α} {state now : S}
    {pool : T -> Prog S T C L Unit}
    {goal : Prog S T C L α -> S -> (T -> Prog S T C L Unit) -> Prop}
    (driven : drive machine within thread place bound program state = (program', now))
    (more : Leads machine within thread place program' now pool goal) :
    Leads machine within thread place program state pool goal := by
  have stretch : Solo machine within thread place program state pool
      (Conc.drive machine within thread place bound program state).1
      (Conc.drive machine within thread place bound program state).2 pool :=
    Solo.drive bound program state pool
  rw [driven] at stretch
  rcases more with ⟨last, after, others, rest, holds⟩
  exact ⟨last, after, others, stretch.trans rest, holds⟩

end Drive

/-! ## Runs of several threads -/

/-- The next statement of a thread, executed at a given place. -/
theorem Machine.Step.at_place {machine : Machine S T C L} {thread : T} (place : C) {state now : S}
    {pool : T -> Prog S T C L Unit} {run : C -> S -> Option (β × S)}
    {next : β -> Prog S T C L Unit} {value : β} (runs : machine.runs state thread place)
    (program : pool thread = .act run next) (result : run place state = some (value, now)) :
    machine.Step thread (state, pool) (now, update pool thread (next value)) :=
  .act runs program result

/-- Some run of the machine through states inside the bound ends as
required. -/
def Machine.Reaches (machine : Machine S T C L) (within : S -> Prop) (config : Config S T C L)
    (goal : Config S T C L -> Prop) : Prop :=
  ∃ after, Relation.ReflTransGen (fun before after =>
    (∃ thread, machine.Step thread before after) ∧ within before.1 ∧ within after.1)
      config after ∧ goal after

namespace Machine.Reaches

variable {machine : Machine S T C L} {within : S -> Prop} {config : Config S T C L}
  {goal : Config S T C L -> Prop} {state : S} {pool : T -> Prog S T C L Unit}

theorem done (holds : goal config) : machine.Reaches within config goal :=
  ⟨config, .refl, holds⟩

/-- Let one thread run for a while. -/
theorem solo (thread : T) (place : C) (inside : within state)
    (leads : Leads machine within thread place (pool thread) state pool (fun program after others =>
        machine.Reaches within (after, update others thread program) goal)) :
    machine.Reaches within (state, pool) goal := by
  rcases leads with ⟨program, after, others, stretch, last, reach, holds⟩
  have first := stretch.reach
  rw [update_eq_self] at first
  have steps : ∀ {final : Config S T C L}, Relation.ReflTransGen
      (fun before after => machine.Step thread before after ∧ within after.1)
      (state, pool) final -> within final.1 ∧ Relation.ReflTransGen (fun before after =>
        (∃ thread, machine.Step thread before after) ∧ within before.1 ∧ within after.1)
        (state, pool) final := by
    intro final run
    induction run with
    | refl => exact ⟨inside, .refl⟩
    | tail _ step ih => exact ⟨step.2, .tail ih.2 ⟨⟨thread, step.1⟩, ih.1, step.2⟩⟩
  exact ⟨last, (steps first).2.trans reach, holds⟩

/-- Let a thread be interrupted. -/
theorem interrupt (thread : T) (place : C) (inside : within state)
    (runs : machine.runs state thread place) (enabled : machine.interruptible state place)
    (more : machine.Reaches within (state, update pool thread
      (.call machine.handler (fun _ => pool thread))) goal) :
    machine.Reaches within (state, pool) goal := by
  rcases more with ⟨last, reach, holds⟩
  exact ⟨last, .head ⟨⟨thread, .interrupt runs enabled⟩, inside, inside⟩ reach, holds⟩

/-- A run without a bound. -/
theorem reach {within : S -> Prop} (reaches : machine.Reaches within config goal) :
    ∃ after, machine.Reach config after ∧ goal after := by
  rcases reaches with ⟨after, run, holds⟩
  have steps : machine.Reach config after := by
    clear holds
    induction run with
    | refl => exact .refl
    | tail _ step ih => exact .tail ih step.1
  exact ⟨after, steps, holds⟩

end Machine.Reaches

end Conc
end Xv6
