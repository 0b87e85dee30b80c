import Xv6.Conc.Prog

namespace Xv6
namespace Conc

/-!
# One thread alone

What a program does if no other thread takes a step: it returns a value, or it
stops at a statement that cannot execute.  `Meets` is the weakest precondition
of such a run, with one predicate for the states in which the program returns
and one for the states in which it stops.  With `stop` false it says that the
program returns; with `stop` true it says what holds if it does.
-/

variable {S T C L : Type} {α β : Type}

namespace Prog

/-- The value, if the program returns, and the state in which it ends.  Values
of the environment and calls of labels are not part of a run alone. -/
def alone (place : C) : Prog S T C L α -> S -> Option α × S
  | .ret value, state => (some value, state)
  | .act run next, state =>
    match run place state with
    | some (value, after) => (next value).alone place after
    | none => (none, state)
  | .choose _, state => (none, state)
  | .call _ _, state => (none, state)
  | .spawn _ _ _, state => (none, state)

theorem alone_bind (place : C) (program : Prog S T C L α) (rest : α -> Prog S T C L β) (state : S) :
    (program.bind rest).alone place state =
      match program.alone place state with
      | (some value, after) => (rest value).alone place after
      | (none, after) => (none, after) := by
  induction program generalizing state with
  | ret value => rfl
  | act run next ih =>
    simp only [act_bind, alone]
    cases run place state with
    | none => rfl
    | some result => exact ih result.1 result.2
  | choose next => rfl
  | call label next => rfl
  | spawn thread label next => rfl

end Prog

/-- The run of the program from `state` returns with `goal` or stops with
`stop`. -/
def Meets (place : C) (stop : S -> Prop) (program : Prog S T C L α) (goal : α -> S -> Prop)
    (state : S) : Prop :=
  match program.alone place state with
  | (some value, after) => goal value after
  | (none, after) => stop after

section Rules

variable {place : C} {stop : S -> Prop} {goal : α -> S -> Prop} {state : S}
  {program : Prog S T C L α}

@[simp] theorem meets_ret (value : α) :
    Meets place stop (Prog.ret value : Prog S T C L α) goal state <-> goal value state :=
  Iff.rfl

@[simp] theorem meets_bind (program : Prog S T C L β) (rest : β -> Prog S T C L α) :
    Meets place stop (program.bind rest) goal state <->
      Meets place stop program (fun value after => Meets place stop (rest value) goal after)
        state := by
  unfold Meets
  rw [Prog.alone_bind]
  rcases program.alone place state with ⟨_ | value, after⟩ <;> rfl

theorem meets_await (guard : C -> S -> Bool) (update : C -> S -> S) {goal : Unit -> S -> Prop} :
    Meets place stop (Prog.await guard update : Prog S T C L Unit) goal state <->
      if guard place state then goal () (update place state) else stop state := by
  cases open_ : guard place state <;> simp [Meets, Prog.await, Prog.alone, open_]

/-- Weakening the goal. -/
theorem Meets.mono {goal' : α -> S -> Prop} (meets : Meets place stop program goal state)
    (weaker : ∀ value after, goal value after -> goal' value after) :
    Meets place stop program goal' state := by
  unfold Meets at meets ⊢
  revert meets
  rcases program.alone place state with ⟨_ | value, after⟩
  · exact id
  · exact weaker value after

/-- A program in front of another one. -/
theorem Meets.seq {program : Prog S T C L β} {rest : β -> Prog S T C L α}
    {middle : β -> S -> Prop} (first : Meets place stop program middle state)
    (second : ∀ value after, middle value after -> Meets place stop (rest value) goal after) :
    Meets place stop (program.bind rest) goal state :=
  (meets_bind program rest).mpr (first.mono second)

/-- A run that cannot stop returns. -/
theorem Meets.returns (meets : Meets place (fun _ => False) program goal state) :
    ∃ value after, program.alone place state = (some value, after) ∧ goal value after := by
  unfold Meets at meets
  rcases run : program.alone place state with ⟨_ | value, after⟩
  · rw [run] at meets
    exact meets.elim
  · rw [run] at meets
    exact ⟨value, after, rfl, meets⟩

/-- What is proved of a run holds of the value and the state it returns. -/
theorem Meets.of_returns {value : α} {after : S} (meets : Meets place stop program goal state)
    (run : program.alone place state = (some value, after)) : goal value after := by
  unfold Meets at meets
  rwa [run] at meets

/-- What holds however a run ends. -/
theorem Meets.ends {always : S -> Prop}
    (meets : Meets place always program (fun _ => always) state) :
    always (program.alone place state).2 := by
  unfold Meets at meets
  revert meets
  rcases program.alone place state with ⟨_ | value, after⟩
  · exact id
  · exact id

/-! ## Bounded loops -/

/-- A loop over a list with an invariant that knows the rest of the list. -/
theorem meets_forEach {body : β -> Prog S T C L Unit} (inv : List β -> S -> Prop)
    (step : ∀ item items state, inv (item :: items) state ->
      Meets place stop (body item) (fun _ after => inv items after) state)
    {items : List β} (start : inv items state) :
    Meets place stop (Prog.forEach body items) (fun _ after => inv [] after) state := by
  induction items generalizing state with
  | nil => exact start
  | cons item items ih => exact (step item items state start).seq fun _ _ => ih

/-- A loop that counts. -/
theorem meets_forEach_range {body : Nat -> Prog S T C L Unit} {count : Nat} (inv : Nat -> S -> Prop)
    (step : ∀ index state, index < count -> inv index state ->
      Meets place stop (body index) (fun _ after => inv (index + 1) after) state)
    (start : inv 0 state) :
    Meets place stop (Prog.forEach body (List.range count)) (fun _ after => inv count after)
      state := by
  refine (meets_forEach (fun items after => ∃ index, index ≤ count ∧
    items = List.range' index (count - index) ∧ inv index after) ?_ ?_).mono ?_
  · rintro item items after ⟨index, inside, rest, held⟩
    have more : index < count := by
      by_contra beyond
      rw [Nat.sub_eq_zero_of_le (by omega)] at rest
      cases rest
    rw [show count - index = (count - (index + 1)) + 1 by omega, List.range'_succ] at rest
    obtain ⟨rfl, rfl⟩ := List.cons.inj rest
    exact (step item after more held).mono fun _ later next => ⟨item + 1, more, rfl, next⟩
  · exact ⟨0, Nat.zero_le _, by rw [List.range_eq_range', Nat.sub_zero], start⟩
  · rintro _ after ⟨index, inside, rest, held⟩
    have beyond : index = count := by
      have length := congrArg List.length rest
      rw [List.length_range', List.length_nil] at length
      omega
    exact beyond ▸ held

/-- A counting loop that ends early if its body gives a result. -/
theorem meets_firstSome_range {body : Nat -> Prog S T C L (Option α)} {count : Nat}
    {goal : Option α -> S -> Prop} (inv : Nat -> S -> Prop)
    (step : ∀ index state, index < count -> inv index state ->
      Meets place stop (body index) (fun result after =>
        (∃ value, result = some value ∧ goal (some value) after) ∨
          (result = none ∧ inv (index + 1) after)) state)
    (start : inv 0 state) (ends : ∀ after, inv count after -> goal none after) :
    Meets place stop (Prog.firstSome body (List.range count)) goal state := by
  have search : ∀ left first state, first + left = count -> inv first state ->
      Meets place stop (Prog.firstSome body (List.range' first left)) goal state := by
    intro left
    induction left with
    | zero =>
      intro first state all held
      rw [Nat.add_zero] at all
      exact ends state (all ▸ held)
    | succ left ih =>
      intro first state all held
      rw [List.range'_succ]
      refine (step first state (by omega) held).seq fun result after outcome => ?_
      rcases outcome with ⟨value, rfl, reached⟩ | ⟨rfl, further⟩
      · exact reached
      · exact ih (first + 1) after (by omega) further
  rw [List.range_eq_range']
  exact search count 0 state (Nat.zero_add count) start

/-- A search with an invariant for the items that gave nothing. -/
theorem meets_firstSome {body : β -> Prog S T C L (Option α)} (inv : List β -> S -> Prop)
    (found : α -> S -> Prop)
    (step : ∀ item items state, inv (item :: items) state ->
      Meets place stop (body item) (fun result after =>
        match result with
        | some value => found value after
        | none => inv items after) state)
    {items : List β} (start : inv items state) :
    Meets place stop (Prog.firstSome body items) (fun result after =>
      match result with
      | some value => found value after
      | none => inv [] after) state := by
  induction items generalizing state with
  | nil => exact start
  | cons item items ih =>
    refine (step item items state start).seq fun result after held => ?_
    cases result with
    | some value => exact held
    | none => exact ih held

end Rules

end Conc
end Xv6
