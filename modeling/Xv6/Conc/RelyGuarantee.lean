import Xv6.Conc.Machine

namespace Xv6
namespace Conc

open Function

/-!
# Rely-guarantee reasoning for interleaved programs

A logic for a machine consists of a state invariant, for every thread a rely
relation (what the rest of the system may do while the thread does not step)
and a guarantee (what its own steps do), and a specification of every
procedure.  The weakest precondition below lets the environment act before
each statement, so an assertion about the shared state is usable after a
statement exactly as far as the rely relation carries it.

An interrupt handler runs in the interrupted thread itself.  Soundness asks
that its whole effect lies within that thread's rely relation; the interrupted
program then cannot tell it from interference by others.
-/

variable {S T C L : Type} {α β γ : Type}

/-- The assertions from which a machine is verified.  `post` relates the state
at the call to the result and the state at the return. -/
structure Logic (S T C L : Type) where
  inv : S -> Prop
  rely : T -> S -> S -> Prop
  guar : T -> C -> S -> S -> Prop
  pre : L -> T -> S -> Prop
  post : L -> T -> S -> Int -> S -> Prop

namespace Logic

/-- The states from which `program`, run by `thread` at the places where
`runs` lets it execute, keeps the guarantee and ends only in `goal`. -/
def wp (logic : Logic S T C L) (runs : S -> T -> C -> Prop) (thread : T) :
    Prog S T C L α -> (α -> S -> Prop) -> S -> Prop
  | .ret value, goal, state =>
    forall now, logic.rely thread state now -> logic.inv now -> goal value now
  | .act run next, goal, state =>
    forall now, logic.rely thread state now -> logic.inv now ->
      forall place, runs now thread place ->
        forall value after, run place now = some (value, after) ->
          (after = now ∨ logic.guar thread place now after) ∧
            wp logic runs thread (next value) goal after
  | .choose next, goal, state =>
    forall value, wp logic runs thread (next value) goal state
  | .call label next, goal, state =>
    forall now, logic.rely thread state now -> logic.inv now -> logic.pre label thread now ∧
        forall value after, logic.inv after -> logic.post label thread now value after ->
          wp logic runs thread (next value) goal after
  | .spawn other label next, goal, state =>
    forall now, logic.rely thread state now -> logic.inv now -> other ≠ thread ∧
        (forall later, logic.rely other now later -> logic.inv later ->
          logic.pre label other later) ∧
        wp logic runs thread next goal now

/-- Rely, guarantee and invariant fit together.  Nothing here mentions a
procedure body, so these conditions are available while bodies are verified. -/
structure Coherent (logic : Logic S T C L) (machine : Machine S T C L) : Prop where
  rely_refl : forall thread state, logic.rely thread state state
  rely_trans : forall thread first second third,
    logic.rely thread first second -> logic.rely thread second third ->
      logic.rely thread first third
  guar_inv : forall thread place state after, logic.inv state ->
    machine.runs state thread place -> logic.guar thread place state after -> logic.inv after
  guar_rely : forall thread other place state after, logic.inv state ->
    machine.runs state thread place -> logic.guar thread place state after ->
      other ≠ thread -> logic.rely other state after

/-- Every procedure body meets its specification, and the interrupt handler
can be entered wherever interrupts are taken. -/
structure Verifies (logic : Logic S T C L) (machine : Machine S T C L) : Prop
    extends Coherent logic machine where
  code : forall label thread state, logic.inv state -> logic.pre label thread state ->
    logic.wp machine.runs thread (machine.code label) (logic.post label thread state) state
  handler_pre : forall thread place state now, logic.inv state ->
    machine.runs state thread place -> machine.interruptible state place ->
      logic.rely thread state now -> logic.inv now -> logic.pre machine.handler thread now
  handler_rely : forall thread state value after, logic.inv state ->
    logic.pre machine.handler thread state ->
      logic.post machine.handler thread state value after -> logic.rely thread state after

/-- A configuration all of whose threads are verified. -/
def Safe (logic : Logic S T C L) (machine : Machine S T C L) (config : Config S T C L) : Prop :=
  logic.inv config.1 ∧
    forall thread, logic.wp machine.runs thread (config.2 thread) (fun _ _ => True) config.1

section Rules

variable {logic : Logic S T C L} {machine : Machine S T C L} {thread : T} {goal : α -> S -> Prop}
  {state : S} {rest : Unit -> Prog S T C L α} {before after : Config S T C L}
  {program : Prog S T C L Unit} {items : List β} {label : L}

theorem wp_mono {program : Prog S T C L α} {weak strong : α -> S -> Prop}
    (holds : logic.wp machine.runs thread program strong state)
    (weaker : ∀ value now, logic.inv now -> strong value now -> weak value now) :
    logic.wp machine.runs thread program weak state := by
  induction program generalizing state with
  | ret value =>
    intro now interference valid
    exact weaker value now valid (holds now interference valid)
  | act run next ih =>
    intro now interference valid place runs value after result
    have step := holds now interference valid place runs value after result
    exact ⟨step.1, ih value step.2⟩
  | choose next ih =>
    intro value
    exact ih value (holds value)
  | call label next ih =>
    intro now interference valid
    have entry := holds now interference valid
    exact ⟨entry.1, fun value after valid returned =>
      ih value (entry.2 value after valid returned)⟩
  | spawn other label next ih =>
    intro now interference valid
    have entry := holds now interference valid
    exact ⟨entry.1, entry.2.1, ih entry.2.2⟩

/-! ## Statements -/

theorem wp_modify {update : C -> S -> S}
    (step : ∀ now, logic.rely thread state now -> logic.inv now ->
      ∀ place, machine.runs now thread place -> logic.guar thread place now (update place now) ∧
          logic.wp machine.runs thread (rest ()) goal (update place now)) :
    logic.wp machine.runs thread ((Prog.modify update).bind rest) goal state := by
  intro now interference valid place runs value after result
  have taken := step now interference valid place runs
  cases result
  exact ⟨Or.inr taken.1, taken.2⟩

theorem wp_read {view : C -> S -> β} {rest : β -> Prog S T C L α}
    (step : ∀ now, logic.rely thread state now -> logic.inv now ->
      ∀ place, machine.runs now thread place ->
        logic.wp machine.runs thread (rest (view place now)) goal now) :
    logic.wp machine.runs thread ((Prog.read view).bind rest) goal state := by
  intro now interference valid place runs value after result
  cases result
  exact ⟨Or.inl rfl, step now interference valid place runs⟩

theorem wp_await {guard : C -> S -> Bool} {update : C -> S -> S}
    (step : ∀ now, logic.rely thread state now -> logic.inv now ->
      ∀ place, machine.runs now thread place -> guard place now = true ->
        logic.guar thread place now (update place now) ∧
          logic.wp machine.runs thread (rest ()) goal (update place now)) :
    logic.wp machine.runs thread ((Prog.await guard update).bind rest) goal state := by
  intro now interference valid place runs value after result
  dsimp only at result
  split at result
  · next passed =>
      have taken := step now interference valid place runs passed
      cases result
      exact ⟨Or.inr taken.1, taken.2⟩
  · cases result

/-- Waiting without an effect on the state. -/
theorem wp_wait {guard : C -> S -> Bool}
    (step : ∀ now, logic.rely thread state now -> logic.inv now ->
      ∀ place, machine.runs now thread place -> guard place now = true ->
        logic.wp machine.runs thread (rest ()) goal now) :
    logic.wp machine.runs thread ((Prog.await guard (fun _ state => state)).bind rest)
      goal state := by
  intro now interference valid place runs value after result
  dsimp only at result
  split at result
  · next passed =>
      have taken := step now interference valid place runs passed
      cases result
      exact ⟨Or.inl rfl, taken⟩
  · cases result

/-- Nothing can go wrong after a stop. -/
theorem wp_halt {rest : β -> Prog S T C L α} :
    logic.wp machine.runs thread (Prog.halt.bind rest) goal state := by
  intro _ _ _ _ _ value
  exact value.elim

theorem wp_any {rest : β -> Prog S T C L α}
    (all : ∀ value, logic.wp machine.runs thread (rest value) goal state) :
    logic.wp machine.runs thread ((Prog.any β).bind rest) goal state :=
  all

theorem wp_onlyIf {condition : Bool}
    (yes : condition = true -> logic.wp machine.runs thread (program.bind rest) goal state)
    (no : condition = false -> logic.wp machine.runs thread (rest ()) goal state) :
    logic.wp machine.runs thread ((Prog.onlyIf condition program).bind rest) goal state := by
  cases condition with
  | true => exact yes rfl
  | false => exact no rfl

theorem wp_invoke {rest : Int -> Prog S T C L α}
    (entry : ∀ now, logic.rely thread state now -> logic.inv now -> logic.pre label thread now ∧
        ∀ value after, logic.inv after -> logic.post label thread now value after ->
          logic.wp machine.runs thread (rest value) goal after) :
    logic.wp machine.runs thread ((Prog.invoke label).bind rest) goal state :=
  entry

/-- A call as the last statement. -/
theorem wp_tailCall {goal : Int -> S -> Prop}
    (entry : ∀ now, logic.rely thread state now -> logic.inv now -> logic.pre label thread now ∧
        ∀ value after, logic.inv after -> logic.post label thread now value after ->
          ∀ later, logic.rely thread after later -> logic.inv later -> goal value later) :
    logic.wp machine.runs thread (Prog.invoke label) goal state :=
  entry

theorem wp_spawn {thread other : T}
    (entry : ∀ now, logic.rely thread state now -> logic.inv now -> other ≠ thread ∧
        (∀ later, logic.rely other now later -> logic.inv later -> logic.pre label other later) ∧
        logic.wp machine.runs thread (rest ()) goal now) :
    logic.wp machine.runs thread ((Prog.spawn other label (.ret ())).bind rest) goal state :=
  entry

theorem wp_ret {value : α}
    (holds : ∀ now, logic.rely thread state now -> logic.inv now -> goal value now) :
    logic.wp machine.runs thread (Prog.ret value) goal state :=
  holds

/-! ## Interference and sequencing -/

section

variable (coherent : logic.Coherent machine)

include coherent

/-- A statement of a verified program keeps the invariant. -/
theorem Coherent.step_inv {place : C} {now after : S} (valid : logic.inv now)
    (runs : machine.runs now thread place)
    (step : after = now ∨ logic.guar thread place now after) : logic.inv after := by
  rcases step with same | step
  · exact same ▸ valid
  · exact coherent.guar_inv _ _ _ _ valid runs step

/-- A statement of a verified program is interference to every other thread. -/
theorem Coherent.step_rely {thread other : T} {place : C} {now after : S} (valid : logic.inv now)
    (runs : machine.runs now thread place) (step : after = now ∨ logic.guar thread place now after)
    (different : other ≠ thread) : logic.rely other now after := by
  rcases step with same | step
  · exact same ▸ coherent.rely_refl other now
  · exact coherent.guar_rely _ _ _ _ _ valid runs step different

/-- A weakest precondition survives interference. -/
theorem wp_rely {program : Prog S T C L α} {state now : S}
    (holds : logic.wp machine.runs thread program goal state)
    (interference : logic.rely thread state now) :
    logic.wp machine.runs thread program goal now := by
  induction program generalizing state now with
  | ret value | act run next ih | call label next ih | spawn other label next ih =>
    intro later further
    exact holds later (coherent.rely_trans _ _ _ _ interference further)
  | choose next ih =>
    intro value
    exact ih value (holds value) interference

/-- Sequencing.  The continuation is verified from wherever the first program
ends. -/
theorem wp_bind {program : Prog S T C L α} {rest : α -> Prog S T C L β} {goal : β -> S -> Prop}
    (valid : logic.inv state) (holds : logic.wp machine.runs thread program
      (fun value now => logic.wp machine.runs thread (rest value) goal now) state) :
    logic.wp machine.runs thread (program.bind rest) goal state := by
  induction program generalizing state with
  | ret value => exact holds state (coherent.rely_refl _ _) valid
  | act run next ih =>
    intro now interference valid place runs value after result
    have step := holds now interference valid place runs value after result
    exact ⟨step.1, ih value (coherent.step_inv valid runs step.1) step.2⟩
  | choose next ih =>
    intro value
    exact ih value valid (holds value)
  | call label next ih =>
    intro now interference valid
    have entry := holds now interference valid
    exact ⟨entry.1, fun value after valid returned =>
      ih value valid (entry.2 value after valid returned)⟩
  | spawn other label next ih =>
    intro now interference valid
    have entry := holds now interference valid
    exact ⟨entry.1, entry.2.1, ih valid entry.2.2⟩

/-! ## Loops -/

/-- The loop invariant speaks about the elements still to be visited. -/
theorem wp_forEach {body : β -> Prog S T C L Unit} (left : List β -> S -> Prop)
    (stable : ∀ items state now, logic.rely thread state now -> left items state ->
      left items now)
    (visit : ∀ item items state, logic.inv state -> left (item :: items) state ->
      logic.wp machine.runs thread (body item) (fun _ now => left items now) state)
    (valid : logic.inv state) (start : left items state) :
    logic.wp machine.runs thread (Prog.forEach body items) (fun _ now => left [] now) state := by
  induction items generalizing state with
  | nil => exact fun now interference _ => stable [] state now interference start
  | cons item items ih =>
    refine wp_bind coherent valid ?_
    exact wp_mono (visit item items state valid start) (fun _ now valid held => ih valid held)

theorem wp_firstSome {body : β -> Prog S T C L (Option α)} (left : List β -> S -> Prop)
    (found : α -> S -> Prop)
    (stable : ∀ items state now, logic.rely thread state now -> left items state ->
      left items now)
    (foundStable : ∀ value state now, logic.rely thread state now -> found value state ->
      found value now)
    (visit : ∀ item items state, logic.inv state -> left (item :: items) state ->
      logic.wp machine.runs thread (body item) (fun result now => match result with
          | some value => found value now
          | none => left items now) state) (valid : logic.inv state) (start : left items state) :
    logic.wp machine.runs thread (Prog.firstSome body items) (fun result now => match result with
        | some value => found value now
        | none => left [] now) state := by
  induction items generalizing state with
  | nil => exact fun now interference _ => stable [] state now interference start
  | cons item items ih =>
    refine wp_bind coherent valid ?_
    refine wp_mono (visit item items state valid start) (fun result now valid held => ?_)
    cases result with
    | some value => exact fun later further _ => foundStable value now later further held
    | none => exact ih valid held

theorem wp_foldEach {body : α -> β -> Prog S T C L α} (left : α -> List β -> S -> Prop)
    (stable : ∀ value items state now, logic.rely thread state now ->
      left value items state -> left value items now)
    (visit : ∀ value item items state, logic.inv state ->
      left value (item :: items) state ->
      logic.wp machine.runs thread (body value item)
        (fun result now => left result items now) state) {value : α} (valid : logic.inv state)
    (start : left value items state) :
    logic.wp machine.runs thread (Prog.foldEach body value items)
      (fun result now => left result [] now) state := by
  induction items generalizing value state with
  | nil => exact fun now interference _ => stable value [] state now interference start
  | cons item items ih =>
    refine wp_bind coherent valid ?_
    exact wp_mono (visit value item items state valid start) (fun _ now valid held => ih valid held)

end

/-! ## Soundness -/

variable [DecidableEq T]

/-- Replacing one thread's program by a verified one keeps all threads
verified, once the others have absorbed the state change as interference. -/
theorem Safe.replace (coherent : logic.Coherent machine) {state after : S}
    {pool : T -> Prog S T C L Unit} (safe : logic.Safe machine (state, pool))
    (valid : logic.inv after)
    (others : ∀ other, other ≠ thread -> logic.rely other state after)
    (own : logic.wp machine.runs thread program (fun _ _ => True) after) :
    logic.Safe machine (after, update pool thread program) := by
  refine ⟨valid, fun other => ?_⟩
  by_cases same : other = thread
  · subst same
    simpa only [update_self] using own
  · simp only [update_of_ne same]
    exact wp_rely coherent (safe.2 other) (others other same)

theorem Safe.replace_same (coherent : logic.Coherent machine) {pool : T -> Prog S T C L Unit}
    (safe : logic.Safe machine (state, pool))
    (own : logic.wp machine.runs thread program (fun _ _ => True) state) :
    logic.Safe machine (state, update pool thread program) :=
  safe.replace coherent safe.1 (fun other _ => coherent.rely_refl other state) own

section

variable (verifies : logic.Verifies machine)

include verifies

/-- A step of a verified thread leads to a program that is verified for the
same goal. -/
theorem Verifies.step_own {goal : Unit -> S -> Prop} (valid : logic.inv before.1)
    (own : logic.wp machine.runs thread (before.2 thread) goal before.1)
    (step : machine.Step thread before after) :
    logic.inv after.1 ∧ logic.wp machine.runs thread (after.2 thread) goal after.1 := by
  cases step with
  | @act β state after pool place run next value runs program result =>
    simp only [program] at own
    have step := own state (verifies.rely_refl _ _) valid place runs value after result
    refine ⟨verifies.step_inv valid runs step.1, ?_⟩
    simpa only [update_self] using step.2
  | choose value runs program =>
    simp only [program] at own
    refine ⟨valid, ?_⟩
    simpa only [update_self] using own value
  | @call state pool place label next runs program =>
    simp only [program] at own
    have entry := own state (verifies.rely_refl _ _) valid
    refine ⟨valid, ?_⟩
    simp only [update_self]
    refine wp_bind verifies.toCoherent valid ?_
    exact wp_mono (verifies.code label thread state valid entry.1)
      (fun value now valid returned => entry.2 value now valid returned)
  | @spawn state pool place label other next runs program =>
    simp only [program] at own
    have entry := own state (verifies.rely_refl _ _) valid
    refine ⟨valid, ?_⟩
    simpa only [update_of_ne entry.1.symm, update_self] using entry.2.2
  | @interrupt state pool place runs enabled =>
    refine ⟨valid, ?_⟩
    simp only [update_self]
    intro now interference valid'
    have entry := verifies.handler_pre thread place state now valid runs enabled interference valid'
    refine ⟨entry, fun value after _ returned => ?_⟩
    exact wp_rely verifies.toCoherent (wp_rely verifies.toCoherent own interference)
      (verifies.handler_rely thread now value after valid' entry returned)

/-- A thread that runs alone and has come to its end meets its goal. -/
theorem Verifies.alone {goal : Unit -> S -> Prop} (valid : logic.inv before.1)
    (own : logic.wp machine.runs thread (before.2 thread) goal before.1)
    (run : Relation.ReflTransGen (machine.Step thread) before after)
    (done : after.2 thread = .ret ()) : goal () after.1 := by
  have reached : logic.inv after.1 ∧
      logic.wp machine.runs thread (after.2 thread) goal after.1 := by
    clear done
    induction run with
    | refl => exact ⟨valid, own⟩
    | tail _ step ih => exact verifies.step_own ih.1 ih.2 step
  have last := reached.2
  rw [done] at last
  exact last after.1 (verifies.rely_refl _ _) reached.1

/-- What one step of a verified configuration does: it keeps every thread
verified, and it changes the shared state only by a guaranteed step of the
thread that took it. -/
theorem Safe.step (safe : logic.Safe machine before) (step : machine.Step thread before after) :
    logic.Safe machine after ∧ (after.1 = before.1 ∨ ∃ place, machine.runs before.1 thread place ∧
          logic.guar thread place before.1 after.1) := by
  have own := safe.2 thread
  have next := verifies.step_own safe.1 own step
  cases step with
  | @act β state after pool place run further value runs program result =>
    simp only [program] at own
    have step := own state (verifies.rely_refl _ _) safe.1 place runs value after result
    simp only [update_self] at next
    refine ⟨safe.replace verifies.toCoherent next.1
      (fun other different => verifies.step_rely safe.1 runs step.1 different) next.2, ?_⟩
    exact step.1.imp_right (fun guaranteed => ⟨place, runs, guaranteed⟩)
  | choose value runs program | @call state pool place label further runs program
  | @interrupt state pool place runs enabled =>
    simp only [update_self] at next
    exact ⟨safe.replace_same verifies.toCoherent next.2, Or.inl rfl⟩
  | @spawn state pool place label other further runs program =>
    simp only [program] at own
    have entry := own state (verifies.rely_refl _ _) safe.1
    refine ⟨(safe.replace_same verifies.toCoherent entry.2.2).replace_same
      verifies.toCoherent ?_, Or.inl rfl⟩
    intro now interference valid
    refine ⟨entry.2.1 now interference valid, fun _ _ _ _ => ?_⟩
    exact fun _ _ _ => trivial

/-- Every configuration reachable from a verified one is verified. -/
theorem Safe.reach {start config : Config S T C L} (safe : logic.Safe machine start)
    (reached : machine.Reach start config) : logic.Safe machine config := by
  induction reached with
  | refl => exact safe
  | tail _ last ih =>
    rcases last with ⟨thread, step⟩
    exact (ih.step verifies step).1

/-- What holds at the start and is kept by every guaranteed step whose two
states are related as `allowed` says holds in every state of a run of such
steps. -/
theorem Safe.induct {start config : Config S T C L} {allowed : S -> S -> Prop} {holds : S -> Prop}
    (safe : logic.Safe machine start) (initial : holds start.1)
    (kept : ∀ thread place before after, logic.inv before ->
      machine.runs before thread place -> logic.guar thread place before after ->
      allowed before after -> holds before -> holds after)
    (reached : Relation.ReflTransGen (fun before after =>
      (∃ thread, machine.Step thread before after) ∧ allowed before.1 after.1) start config) :
    logic.Safe machine config ∧ holds config.1 := by
  induction reached with
  | refl => exact ⟨safe, initial⟩
  | tail _ last ih =>
    rcases last with ⟨⟨thread, step⟩, fine⟩
    rcases ih with ⟨before, known⟩
    rcases before.step verifies step with ⟨next, same | ⟨place, runs, guaranteed⟩⟩
    · exact ⟨next, same ▸ known⟩
    · exact ⟨next, kept thread place _ _ before.1 runs guaranteed fine known⟩

end

end Rules

end Logic
end Conc
end Xv6
