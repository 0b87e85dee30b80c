import Xv6.Conc.RelyGuarantee
import Xv6.Console.Invariant

namespace Xv6
namespace Console

open Conc List Logic Option State Xv6.Ring

/-!
# The line discipline

Every loop of `consoleread` and `consoleintr` is verified against what its
caller knows at that point: a reader knows how many bytes its read has taken,
and `consoleintr` knows which editor state its buffer still has to reach.  The
invariant then holds in every state of every run, and the line discipline is
read off it.
-/

variable {Process : Type} [DecidableEq Process]

/-! ## What is known inside the functions -/

/-- The read in progress has taken `count` bytes. -/
structure Progress (me : Process) (count : Int) (state : State Process) : Prop where
  active : Active me state
  count : ((state.takenBy (state.current me)).length : Int) = count

/-- A reader holds the lock and has no byte in hand. -/
structure Reading (me : Process) (count : Int) (state : State Process) : Prop where
  lock : state.lock = some me
  pending : state.pending = none
  key : state.key = none
  progress : Progress me count state

/-- A read is about to return this value. -/
structure Returning (me : Process) (value : Int) (state : State Process) : Prop where
  lock : state.lock ≠ some me
  final : Final (state.takenBy (state.current me)) value

/-- `consoleintr` works on `c`, and the buffer still agrees with `old`. -/
structure Editing (me : Process) (c : UInt8) (old : Editor) (state : State Process) : Prop where
  lock : state.lock = some me
  pending : state.pending = none
  key : state.key = some (c, state.cons.committed)
  synced : Synced old state

/-- `consoleintr` has reached the editor state that the key leads to. -/
structure Edited (me : Process) (c : UInt8) (state : State Process) : Prop where
  lock : state.lock = some me
  pending : state.pending = none
  key : ∃ found, state.key = some (c, found) ∧ (Erases c -> state.cons.committed = found)
  synced : Synced (reference state.events) state

/-- The kill key empties the line. -/
def Killing (me : Process) (state : State Process) : Prop :=
  ∃ old, Editing me (ctrl 'U') old state ∧ newline ∉ old.tail ∧
    reference state.events = { old with tail := [] }

section Stability

variable {state after : State Process} {me : Process} {count value : Int} {c : UInt8} {old : Editor}

theorem current_rely (rely : Rely me state after) : after.current me = state.current me := by
  rw [State.current, rely.seq, State.current]

theorem Progress.rely (progress : Progress me count state) (rely : Rely me state after) :
    Progress me count after := by
  have same := current_rely rely
  have bytes : after.takenBy (after.current me) = state.takenBy (state.current me) := by
    rw [same]
    exact rely.takenBy _
  refine ⟨⟨?_, ?_, ?_⟩, ?_⟩
  · intro value member
    rw [same] at member
    exact progress.active.finished value ((rely.finished _ _).mp member)
  · intro place member
    rw [same] at member
    exact progress.active.kept place ((rely.kept _ _).mp member)
  · rw [bytes]
    exact progress.active.plain
  · rw [bytes]
    exact progress.count

theorem Reading.rely (reading : Reading me count state) (rely : Rely me state after) :
    Reading me count after := by
  have same := rely.held reading.lock
  exact ⟨rely.lock.mpr reading.lock, same.pending.trans reading.pending,
    same.key.trans reading.key, reading.progress.rely rely⟩

theorem Returning.rely (returning : Returning me value state) (rely : Rely me state after) :
    Returning me value after := by
  refine ⟨fun held => returning.lock (rely.lock.mp held), ?_⟩
  rw [current_rely rely, State.current, rely.takenBy]
  exact returning.final

omit [DecidableEq Process] in
theorem Synced.same (synced : Synced old state) (same : Same state after) : Synced old after := by
  constructor
  · rw [State.stream, same.taken, same.pending, same.cons]
    exact synced.committed
  · rw [same.cons]
    exact synced.tail
  · rw [same.taken]
    exact synced.taken

theorem Editing.rely (editing : Editing me c old state) (rely : Rely me state after) :
    Editing me c old after := by
  have same := rely.held editing.lock
  refine ⟨rely.lock.mpr editing.lock, same.pending.trans editing.pending, ?_,
    editing.synced.same same⟩
  rw [same.key, same.cons]
  exact editing.key

theorem Edited.rely (edited : Edited me c state) (rely : Rely me state after) :
    Edited me c after := by
  have same := rely.held edited.lock
  refine ⟨rely.lock.mpr edited.lock, same.pending.trans edited.pending, ?_, ?_⟩
  · rw [same.key, same.cons]
    exact edited.key
  · rw [same.events]
    exact edited.synced.same same

theorem events_rely (lock : state.lock = some me) (rely : Rely me state after) :
    reference after.events = reference state.events := by
  rw [(rely.held lock).events]

end Stability

/-! ## What a key does to the buffer -/

section Keys

variable {state : State Process} {me : Process} {c : UInt8} {old : Editor}

theorem Inv.indices_none (inv : Inv state) (pending : state.pending = none) :
    Indices state.cons 0 := by
  have indices := inv.indices
  rw [pending] at indices
  exact indices

section

variable (synced : Synced old state)

include synced

omit [DecidableEq Process]

theorem Synced.outstanding (pending : state.pending = none) (indices : Indices state.cons 0) :
    old.outstanding = gap uints state.cons.r state.cons.e := by
  have length : state.stream.length = state.taken.length := length_map _
  rw [Editor.outstanding, synced.committed, synced.tail, synced.taken, pending,
    ← indices.length_windows]
  simp only [Option.toList, nil_append, length_append, length]
  omega

theorem Synced.erase (indices : Indices state.cons 0) (data : state.cons.e ≠ state.cons.w) :
    Synced { old with tail := old.tail.dropLast } (state.setCons state.cons.erase) := by
  refine ⟨?_, ?_, synced.taken⟩
  · rw [setCons, Cons.committed_erase]
    exact synced.committed
  · dsimp only [setCons]
    rw [synced.tail, indices.line_erase data, dropLast_concat]

theorem Synced.push (indices : Indices state.cons 0)
    (room : gap uints state.cons.r state.cons.e < INPUT_BUF) :
    Synced { old with tail := old.tail ++ [c] } (state.setCons (state.cons.push c)) := by
  refine ⟨?_, ?_, synced.taken⟩
  · dsimp only [setCons, State.stream]
    rw [indices.committed_push room]
    exact synced.committed
  · dsimp only [setCons]
    rw [indices.line_push room, synced.tail]

theorem Synced.commit (pending : state.pending = none) (indices : Indices state.cons 0) :
    Synced { old with committed := old.committed ++ old.tail, tail := [] }
      (state.setCons state.cons.commit) := by
  refine ⟨?_, (indices.commit.line_nil rfl).symm, synced.taken⟩
  dsimp only [setCons, State.stream]
  rw [indices.committed_commit, synced.committed, synced.tail, pending]
  simp only [Option.toList, nil_append, append_assoc, State.stream]

/-- The test for a full buffer. -/
theorem Synced.full_iff (pending : state.pending = none) (indices : Indices state.cons 0) :
    state.cons.e = (state.cons.r + INPUT_BUF) % uints <-> old.outstanding = INPUT_BUF := by
  have small := buffer_lt
  rw [eq_add_iff indices.r indices.e (by omega), synced.outstanding pending indices]

end

end Keys

/-! ## Verification -/

def logic (Process : Type) [DecidableEq Process] : Logic (State Process) Process Process Label where
  inv := Inv
  rely := Rely
  guar := fun me _ before after => CStep me before after
  pre := fun label me state => match label with
    | .killLine => Killing me state
    | .next target n => Reading me (target - n) state
    | .wait target n => Reading me (target - n) state
    | .user => state.lock ≠ some me
    | .handler => False
  post := fun label me _ value after => match label with
    | .killLine => Edited me (ctrl 'U') after
    | .next _ _ => Returning me value after
    | .wait _ _ => Returning me value after
    | .user => False
    | .handler => False

abbrev Wp {α : Type} (me : Process) (program : Code Process α)
    (goal : α -> State Process -> Prop) (state : State Process) : Prop :=
  (logic Process).wp (machine Process).runs me program goal state

theorem coherent : (logic Process).Coherent (machine Process) where
  rely_refl := fun _ _ => Rely.of_same_reads Iff.rfl (fun _ => Same.refl _) rfl rfl rfl rfl
  rely_trans := by
    intro me first second third one two
    refine ⟨two.lock.trans one.lock, fun held => ?_, two.seq.trans one.seq,
      fun number => (two.takenBy number).trans (one.takenBy number),
      fun number value => (two.finished number value).trans (one.finished number value),
      fun number place => (two.kept number place).trans (one.kept number place)⟩
    have near := one.held held
    have far := two.held (one.lock.mpr held)
    exact ⟨far.cons.trans near.cons, far.pending.trans near.pending, far.key.trans near.key,
      far.events.trans near.events, far.taken.trans near.taken⟩
  guar_inv := fun _ _ _ _ valid _ step => step.inv valid
  guar_rely := fun _ _ _ _ _ _ _ step different => step.rely different

variable {state : State Process} {me : Process} {α : Type} {goal : α -> State Process -> Prop}

/-- Taking the lock finds no byte in hand and no key. -/
theorem wp_acquire {rest : Unit -> Code Process α}
    (step : ∀ now, Inv now -> Rely me state now -> now.lock = none ->
      Wp me (rest ()) goal (now.setLock (some me))) :
    Wp me (acquire.bind rest) goal state := by
  refine wp_await (fun now rely valid place runs free => ?_)
  cases runs
  have isFree := isNone_iff_eq_none.mp free
  exact ⟨.acquire isFree, step now valid rely isFree⟩

theorem Reading.acquired {now : State Process} {count : Int} (valid : Inv now)
    (free : now.lock = none) (progress : Progress me count now) :
    Reading me count (now.setLock (some me)) := by
  have idle := valid.quiet free
  exact ⟨rfl, idle.1, idle.2, { progress with active := { progress.active with } }⟩

theorem wp_sleep {count : Int} {rest : Unit -> Code Process α} (reading : Reading me count state)
    (step : ∀ now, Reading me count now -> Wp me (rest ()) goal now) :
    Wp me (sleep.bind rest) goal state := by
  refine wp_modify (fun now rely _ place runs => ?_)
  cases runs
  have held := reading.rely rely
  refine ⟨.release held.lock held.pending held.key, ?_⟩
  have progress : Progress me count (now.setLock none) :=
    { held.progress with active := { held.progress.active with } }
  refine wp_acquire (fun later valid rely free => ?_)
  exact step _ (Reading.acquired valid free (progress.rely rely))

/-- Nothing in hand, the lock held: the read can return. -/
theorem wp_finish {value : Int} (lock : state.lock = some me) (pending : state.pending = none)
    (key : state.key = none) (final : Final (state.takenBy (state.current me)) value) :
    Wp me (finish value) (Returning me) state := by
  refine wp_modify (fun now rely _ place runs => ?_)
  cases runs
  have same := rely.held lock
  refine ⟨.release (rely.lock.mpr lock) (same.pending.trans pending) (same.key.trans key), ?_⟩
  refine wp_ret (fun later further _ => ?_)
  have here : Returning me value (now.setLock none) := by
    refine ⟨?_, ?_⟩
    · intro held
      cases held
    · have bytes : now.takenBy (now.current me) = state.takenBy (state.current me) := by
        rw [current_rely rely, State.current, rely.takenBy]
      change Final (now.takenBy (now.current me)) value
      rw [bytes]
      exact final
  exact here.rely further

theorem Progress.final {count : Int} (progress : Progress me count state) :
    Final (state.takenBy (state.current me)) count := by
  refine Or.inr ?_
  have all : (state.takenBy (state.current me)).filter (fun c => c ≠ ctrl 'D') =
      state.takenBy (state.current me) := by
    refine filter_eq_self.mpr (fun c member => ?_)
    refine decide_eq_true (fun isEof => ?_)
    exact progress.active.plain (isEof ▸ member)
  rw [all]
  exact progress.count.symm

theorem Reading.wp_finish {count : Int} (reading : Reading me count state) :
    Wp me (finish count) (Returning me) state :=
  Console.wp_finish reading.lock reading.pending reading.key reading.progress.final

/-- A loop of `consoleread` continues. -/
theorem wp_again {target n : Int} (reading : Reading me (target - n) state) :
    Wp me (Prog.invoke (.next target n)) (Returning me) state ∧
      Wp me (Prog.invoke (.wait target n)) (Returning me) state := by
  have ends : ∀ value after, Inv after -> Returning me value after -> ∀ later,
      Rely me after later -> Inv later -> Returning me value later :=
    fun _ _ _ returned _ further _ => returned.rely further
  exact ⟨wp_tailCall fun _ rely _ => ⟨reading.rely rely, ends⟩,
    wp_tailCall fun _ rely _ => ⟨reading.rely rely, ends⟩⟩

theorem wp_nextLoop (target n : Int) (reading : Reading me (target - n) state) :
    Wp me (nextLoop target n) (Returning me) state := by
  unfold nextLoop
  split
  · exact (wp_again reading).2
  · exact reading.wp_finish

/-- A byte is in hand. -/
structure Holding (me : Process) (count : Int) (c : UInt8) (state : State Process) : Prop where
  lock : state.lock = some me
  pending : state.pending = some c
  progress : Progress me count state

theorem Holding.rely {count : Int} {c : UInt8} {after : State Process}
    (holding : Holding me count c state) (rely : Rely me state after) :
    Holding me count c after :=
  ⟨rely.lock.mpr holding.lock, (rely.held holding.lock).pending.trans holding.pending,
    holding.progress.rely rely⟩

theorem wp_endOfFile (target n : Int) (holding : Holding me (target - n) (ctrl 'D') state) :
    Wp me (endOfFile target n) (Returning me) state := by
  unfold endOfFile
  split
  · next data =>
      refine wp_modify (fun now rely valid place runs => ?_)
      cases runs
      have here := holding.rely rely
      have some : now.takenBy (now.current me) ≠ [] := by
        intro none
        have count := here.progress.count
        rw [none, length_nil] at count
        omega
      refine ⟨.pushBack here.lock here.pending here.progress.active some, ?_⟩
      exact wp_finish here.lock rfl (valid.key_none here.pending) here.progress.final
  · next fresh =>
      refine wp_modify (fun now rely valid place runs => ?_)
      cases runs
      have here := holding.rely rely
      have count := here.progress.count
      have none : now.takenBy (now.current me) = [] := length_eq_zero_iff.mp (by omega)
      refine ⟨.consume here.lock _ here.pending here.progress.active (fun _ => none), ?_⟩
      refine wp_finish here.lock rfl (valid.key_none here.pending) ?_
      have bytes : (now.consume me (ctrl 'D')).takenBy ((now.consume me (ctrl 'D')).current me) =
          [ctrl 'D'] := by
        rw [takenBy_consume]
        exact (if_pos rfl).trans (congrArg (· ++ [ctrl 'D']) none)
      rw [bytes]
      refine Or.inr ?_
      rw [none, length_nil] at count
      exact count.symm

/-- A plain byte has been copied out. -/
theorem Reading.consumed {count : Int} {c : UInt8} (valid : Inv state)
    (holding : Holding me count c state) (plain : c ≠ ctrl 'D') :
    Reading me (count + 1) (state.consume me c) := by
  have bytes : (state.consume me c).takenBy ((state.consume me c).current me) =
      state.takenBy (state.current me) ++ [c] := by
    rw [takenBy_consume]
    exact if_pos rfl
  refine ⟨holding.lock, rfl, valid.key_none holding.pending, ⟨⟨?_, ?_, ?_⟩, ?_⟩⟩
  · exact holding.progress.active.finished
  · exact holding.progress.active.kept
  · rw [bytes]
    intro member
    rcases mem_append.mp member with earlier | last
    · exact holding.progress.active.plain earlier
    · exact plain (mem_singleton.mp last).symm
  · rw [bytes, length_append, length_singleton, Nat.cast_add, holding.progress.count]
    rfl

theorem wp_takeByte (target n : Int) (reading : Reading me (target - n) state)
    (data : state.cons.r ≠ state.cons.w) :
    Wp me (takeByte target n) (Returning me) state := by
  intro now rely valid place runs value after result
  cases runs
  have here := reading.rely rely
  have same := rely.held reading.lock
  have dataNow : now.cons.r ≠ now.cons.w := by
    rw [same.cons]
    exact data
  cases result
  refine ⟨Or.inr (.fetch here.lock here.pending here.key dataNow), ?_⟩
  have holding : Holding me (target - n) now.cons.front now.fetch :=
    ⟨here.lock, rfl, { here.progress with active := { here.progress.active with } }⟩
  dsimp only [Prog.bind]
  split
  · next isEof =>
      rw [isEof] at holding
      exact wp_endOfFile target n holding
  · next plain =>
      refine wp_modify (fun later rely valid place runs => ?_)
      cases runs
      have holding := holding.rely rely
      have first : now.cons.front = ctrl 'D' -> later.takenBy (later.current me) = [] :=
        fun isEof => absurd isEof plain
      refine ⟨.consume holding.lock _ holding.pending holding.progress.active first, ?_⟩
      have reading := Reading.consumed valid holding plain
      have moved : target - n + 1 = target - (n - 1) := by omega
      rw [moved] at reading
      split
      · exact reading.wp_finish
      · exact (wp_again reading).1

theorem wp_waitLoop (target n : Int) (reading : Reading me (target - n) state) :
    Wp me (waitLoop target n) (Returning me) state := by
  refine wp_read (fun now rely _ place runs => ?_)
  cases runs
  have reading := reading.rely rely
  split
  · refine wp_read (fun later rely _ place runs => ?_)
    cases runs
    have reading := reading.rely rely
    split
    · exact wp_finish reading.lock reading.pending reading.key
        (Or.inl ⟨rfl, reading.progress.active.plain⟩)
    · refine wp_sleep reading (fun now reading => ?_)
      exact (wp_again reading).2
  · next data =>
      exact wp_takeByte target n reading (fun same => data (decide_eq_true same))

/-! ## Keys -/

omit [DecidableEq Process] in
theorem Editing.busy {c : UInt8} {old : Editor} (editing : Editing me c old state) :
    state.key ≠ none := by
  rw [editing.key]
  exact some_ne_none _

section

variable (killing : Killing me state)

include killing

theorem Killing.rely {after : State Process} (rely : Rely me state after) : Killing me after := by
  rcases killing with ⟨old, editing, plain, target⟩
  refine ⟨old, editing.rely rely, plain, ?_⟩
  rw [events_rely editing.lock rely]
  exact target

/-- The loop of the kill key can stop where its test fails. -/
theorem Killing.edited (valid : Inv state)
    (stop : ¬ (state.cons.e ≠ state.cons.w ∧ state.cons.last ≠ newline)) :
    Edited me (ctrl 'U') state := by
  rcases killing with ⟨old, editing, plain, target⟩
  have indices := valid.indices_none editing.pending
  have empty : old.tail = [] := by
    by_cases same : state.cons.e = state.cons.w
    · rw [editing.synced.tail, indices.line_nil same]
    · -- the last byte of the line is not a newline
      refine absurd ⟨same, fun isNewline => plain ?_⟩ stop
      rw [editing.synced.tail, indices.line_erase same, isNewline]
      exact mem_append_right _ mem_cons_self
  refine ⟨editing.lock, editing.pending, ⟨_, editing.key, fun _ => rfl⟩, ?_⟩
  have same : reference state.events = old := by
    rw [target, ← empty]
  rw [same]
  exact editing.synced

theorem Killing.erase (valid : Inv state) (data : state.cons.e ≠ state.cons.w) :
    Killing me (state.setCons state.cons.erase) := by
  rcases killing with ⟨old, editing, plain, target⟩
  have indices := valid.indices_none editing.pending
  refine ⟨{ old with tail := old.tail.dropLast }, ⟨editing.lock, editing.pending, ?_,
    editing.synced.erase indices data⟩, ?_, target⟩
  · dsimp only [setCons]
    rw [Cons.committed_erase]
    exact editing.key
  · exact fun member => plain (dropLast_subset _ member)

theorem wp_killLine : Wp me killLine (fun _ => Edited me (ctrl 'U'))
      state := by
  refine wp_read (fun now rely valid place runs => ?_)
  cases runs
  have killing := killing.rely rely
  split
  · next more =>
      have test := (Bool.and_eq_true_iff.mp more)
      have data : now.cons.e ≠ now.cons.w := of_decide_eq_true test.1
      refine wp_modify (fun later rely valid place runs => ?_)
      cases runs
      have still := killing.rely rely
      rcases killing with ⟨old, editing, _, _⟩
      rw [← (rely.held editing.lock).cons] at data
      have editing := editing.rely rely
      refine ⟨.erase editing.lock editing.busy data, ?_⟩
      refine wp_tailCall (fun last rely _ => ?_)
      refine ⟨(still.erase valid data).rely rely, ?_⟩
      intro value after _ returned later further _
      exact Edited.rely returned further
  · next stop =>
      refine wp_ret (fun later rely valid => ?_)
      have edited : Edited me (ctrl 'U') now := by
        refine killing.edited (by assumption) (fun both => stop ?_)
        exact Bool.and_eq_true_iff.mpr ⟨decide_eq_true both.1, decide_eq_true both.2⟩
      exact edited.rely rely

end

omit [DecidableEq Process] in
/-- A key after which the buffer is as before. -/
theorem Editing.unchanged {c : UInt8} {old : Editor} (editing : Editing me c old state)
    (target : reference state.events = old) : Edited me c state := by
  refine ⟨editing.lock, editing.pending, ⟨_, editing.key, fun _ => rfl⟩, ?_⟩
  rw [target]
  exact editing.synced

theorem wp_done {c : UInt8} (edited : Edited me c state) :
    Wp me (Prog.ret ()) (fun _ => Edited me c) state :=
  wp_ret (fun _ rely _ => edited.rely rely)

theorem wp_backspace {c : UInt8} {old : Editor} (editing : Editing me c old state)
    (target : reference state.events = { old with tail := old.tail.dropLast }) :
    Wp me backspace (fun _ => Edited me c) state := by
  refine wp_read (fun now rely valid place runs => ?_)
  cases runs
  have events := events_rely editing.lock rely
  have editing := editing.rely rely
  split
  · next data =>
      refine wp_modify (fun later rely valid place runs => ?_)
      cases runs
      have events := (events_rely editing.lock rely).trans (events.trans target)
      have same := (rely.held editing.lock).cons
      have editing := editing.rely rely
      have data : later.cons.e ≠ later.cons.w := by
        rw [same]
        exact of_decide_eq_true data
      refine ⟨.erase editing.lock editing.busy data, wp_done ?_⟩
      refine ⟨editing.lock, editing.pending, ⟨_, editing.key, fun _ => ?_⟩, ?_⟩
      · exact later.cons.committed_erase
      · have synced := editing.synced.erase (valid.indices_none editing.pending) data
        rw [← events] at synced
        exact synced
  · next stop =>
      have same : now.cons.e = now.cons.w := by
        by_contra data
        exact stop (decide_eq_true data)
      have none : old.tail = [] := by
        rw [editing.synced.tail, (valid.indices_none editing.pending).line_nil same]
      refine wp_done (editing.unchanged ?_)
      rw [events, target, none, dropLast_nil, ← none]

/-- The key is in the line, and the line may have to be committed. -/
theorem wp_store {c typed : UInt8} {old : Editor} (editing : Editing me typed old state)
    (room : gap uints state.cons.r state.cons.e < INPUT_BUF) (keeps : ¬ Erases typed)
    (target : reference state.events = old.append c) :
    Wp me (store c) (fun _ => Edited me typed) state := by
  refine wp_modify (fun now rely valid place runs => ?_)
  cases runs
  have events := (events_rely editing.lock rely).trans target
  rw [← (rely.held editing.lock).cons] at room
  have editing := editing.rely rely
  have indices := valid.indices_none editing.pending
  refine ⟨.push editing.lock editing.busy room c, ?_⟩
  have longer : Editing me typed { old with tail := old.tail ++ [c] }
      (now.setCons (now.cons.push c)) := by
    refine ⟨editing.lock, editing.pending, ?_, editing.synced.push indices room⟩
    dsimp only [setCons]
    rw [indices.committed_push room]
    exact editing.key
  refine wp_read (fun later rely valid place runs => ?_)
  cases runs
  have events : reference later.events = old.append c := (events_rely longer.lock rely).trans events
  have longer := longer.rely rely
  have full := longer.synced.full_iff longer.pending (valid.indices_none longer.pending)
  have outstanding : ({ old with tail := old.tail ++ [c] } : Editor).outstanding =
      old.outstanding + 1 := by
    simp only [Editor.outstanding, length_append, length_singleton]
    omega
  rw [outstanding] at full
  unfold Editor.append at events
  split
  · next ends =>
      have ends := of_decide_eq_true ends
      rw [full] at ends
      rw [if_pos ends] at events
      refine wp_modify (fun last rely valid place runs => ?_)
      cases runs
      have events := (events_rely longer.lock rely).trans events
      have longer := longer.rely rely
      refine ⟨.commit longer.lock longer.busy, wp_done ?_⟩
      refine ⟨longer.lock, longer.pending, ⟨_, longer.key, fun erases => absurd erases keeps⟩, ?_⟩
      have synced := longer.synced.commit longer.pending (valid.indices_none longer.pending)
      rw [← events] at synced
      exact synced
  · next stays =>
      have stays := fun ends => stays (decide_eq_true ends)
      rw [full] at stays
      rw [if_neg stays] at events
      exact wp_done (longer.unchanged events)

theorem wp_insert {c : UInt8} {old : Editor} (editing : Editing me c old state) (keeps : ¬ Erases c)
    (target : reference state.events =
      if c ≠ 0 ∧ old.outstanding < INPUT_BUF then old.append (translate c) else old) :
    Wp me (insert c) (fun _ => Edited me c) state := by
  refine wp_read (fun now rely valid place runs => ?_)
  cases runs
  have events := (events_rely editing.lock rely).trans target
  have editing := editing.rely rely
  rw [editing.synced.outstanding editing.pending (valid.indices_none editing.pending)] at events
  split
  · next typed =>
      have typed := of_decide_eq_true typed
      rw [if_pos typed] at events
      exact wp_store editing typed.2 keeps events
  · next dropped =>
      rw [if_neg (fun typed => dropped (decide_eq_true typed))] at events
      exact wp_done (editing.unchanged events)

/-- Every key takes the buffer to where the reference editor goes. -/
theorem wp_edit {c : UInt8} {old : Editor} (editing : Editing me c old state)
    (plain : newline ∉ old.tail) (target : reference state.events = old.key c) :
    Wp me (edit c) (fun _ => Edited me c) state := by
  unfold Editor.key at target
  unfold edit
  split
  · next isP =>
      rw [if_pos isP] at target
      exact wp_done (editing.unchanged target)
  · next notP =>
      rw [if_neg notP] at target
      split
      · next isU =>
          rw [if_pos isU] at target
          cases isU
          refine wp_invoke (fun now rely _ => ?_)
          refine ⟨Killing.rely ⟨old, editing, plain, target⟩ rely, ?_⟩
          intro value after _ returned
          exact wp_done returned
      · next notU =>
          rw [if_neg notU] at target
          split
          · next isH =>
              rw [if_pos isH] at target
              exact wp_backspace editing target
          · next notH =>
              rw [if_neg notH] at target
              refine wp_insert editing ?_ target
              rintro (isU | isH)
              · exact notU isU
              · exact notH isH

theorem wp_consoleintr (c : UInt8) : Wp me (consoleintr c)
      (fun _ now => now.lock ≠ some me) state := by
  refine wp_acquire (fun now valid _ free => ?_)
  have idle := valid.quiet free
  have locked : Inv (now.setLock (some me)) := CStep.inv (.acquire free) valid
  refine wp_modify (fun later rely valid place runs => ?_)
  cases runs
  have same := rely.held (show (now.setLock (some me)).lock = some me from rfl)
  have lock : later.lock = some me := rely.lock.mpr rfl
  have pending : later.pending = none := same.pending.trans idle.1
  have key : later.key = none := same.key.trans idle.2
  refine ⟨.press lock pending key c, ?_⟩
  have pressed : Inv (later.press c) := CStep.inv (.press lock pending key c) valid
  have synced := valid.synced key
  have editing : Editing me c (reference later.events) (later.press c) :=
    ⟨lock, pending, rfl, { synced with }⟩
  refine wp_bind coherent pressed ?_
  refine wp_mono (wp_edit editing (newline_not_mem_tail _)
    (reference_append _ _)) (fun _ done _ edited => ?_)
  refine wp_modify (fun last rely _ place runs => ?_)
  cases runs
  have edited := edited.rely rely
  refine ⟨.settle edited.lock edited.synced ?_, ?_⟩
  · intro key found isKey erases
    rcases edited.key with ⟨before, known, same⟩
    cases known.symm.trans isKey
    exact same erases
  · refine wp_modify (fun final rely _ place runs => ?_)
    cases runs
    have near := rely.held (show last.settle.lock = some me from edited.lock)
    refine ⟨.release (rely.lock.mpr edited.lock) (near.pending.trans edited.pending)
      (near.key.trans rfl), ?_⟩
    refine wp_ret (fun later rely _ held => ?_)
    cases rely.lock.mp held

/-! ## The calls -/

theorem wp_consoleread (n : Int) (progress : Progress me 0 state) :
    Wp me (consoleread n) (Returning me) state := by
  refine wp_acquire (fun now valid rely free => ?_)
  have reading := Reading.acquired valid free (progress.rely rely)
  rw [← Int.sub_self n] at reading
  exact (wp_again reading).1

/-- A read that begins has no history. -/
theorem Progress.entered (valid : Inv state) : Progress me 0 (state.enter me) := by
  have later : state.seq me < (state.enter me).seq me := by
    have bumped : (state.enter me).seq me = state.seq me + 1 := Function.update_self _ _ _
    rw [bumped]
    exact Nat.lt_succ_self _
  rcases valid.reads.fresh ((state.enter me).current me) later with ⟨bytes, finished, kept⟩
  have none : (state.enter me).takenBy ((state.enter me).current me) = [] := bytes
  refine ⟨⟨finished, kept, ?_⟩, ?_⟩
  · rw [none]
    exact not_mem_nil
  · rw [none]
    rfl

theorem wp_call_read (n : Int) : Wp me (read n) (fun _ now => now.lock ≠ some me)
      state := by
  refine wp_modify (fun now rely valid place runs => ?_)
  cases runs
  refine ⟨.enter, ?_⟩
  refine wp_bind coherent (CStep.inv .enter valid) ?_
  refine wp_mono (wp_consoleread n (Progress.entered valid)) (fun value _ _ returning => ?_)
  refine wp_modify (fun last rely _ place runs => ?_)
  cases runs
  have returning := returning.rely rely
  refine ⟨.leave value returning.final, ?_⟩
  exact wp_ret (fun final rely _ held => returning.lock (rely.lock.mp held))

theorem wp_perform (call : Call Process) (outside : state.lock ≠ some me) : Wp me (perform call)
      (fun _ now => now.lock ≠ some me) state := by
  cases call with
  | intr c => exact wp_consoleintr c
  | read n => exact wp_call_read n
  | kill other =>
    refine wp_modify (fun now rely _ place runs => ⟨.kill other, ?_⟩)
    refine wp_ret (fun last further _ held => ?_)
    exact outside (rely.lock.mp (further.lock.mp held))

theorem wp_user (valid : Inv state) (outside : state.lock ≠ some me) :
    Wp me user (fun _ _ => False) state := by
  refine wp_any (fun call => ?_)
  refine wp_bind coherent valid ?_
  refine wp_mono (wp_perform call outside) (fun _ now _ outside => ?_)
  refine wp_tailCall (fun later rely _ => ?_)
  exact ⟨fun held => outside (rely.lock.mp held), fun _ _ _ returned => returned.elim⟩

theorem verifies : (logic Process).Verifies (machine Process) where
  toCoherent := coherent
  code := by
    intro label me state valid pre
    cases label with
    | killLine => exact wp_killLine pre
    | next target n => exact wp_nextLoop target n pre
    | wait target n => exact wp_waitLoop target n pre
    | user => exact wp_user valid pre
    | handler => exact pre.elim
  handler_pre := fun _ _ _ _ _ _ impossible => impossible.elim
  handler_rely := fun _ _ _ _ _ impossible => impossible.elim

/-! ## Every run -/

theorem Inv.boot (killed : Process -> Bool) : Inv (boot killed) := by
  have zero : gap uints 0 0 = 0 := (gap_eq_zero_iff uints_pos).mpr rfl
  constructor
  · refine ⟨uints_pos, uints_pos, uints_pos, ?_, ?_⟩
    · dsimp only [Console.boot]
      rw [zero]
    · dsimp only [Console.boot]
      rw [zero]
      exact Nat.zero_le _
  · exact fun _ => ⟨rfl, rfl⟩
  · intro _ impossible
    cases impossible
  · exact fun busy => absurd rfl busy
  · intro _
    refine ⟨?_, ?_, rfl⟩
    · dsimp only [Console.boot, Cons.committed]
      rw [zero]
      rfl
    · dsimp only [Console.boot, Cons.line]
      rw [zero]
      rfl
  · exact nil_prefix
  · refine ⟨fun _ member => absurd member not_mem_nil,
      fun _ _ member => absurd member not_mem_nil,
      fun _ _ member => absurd member not_mem_nil,
      fun _ _ => ⟨rfl, fun _ => not_mem_nil, fun _ => not_mem_nil⟩⟩
  · exact fun _ _ _ member => absurd member not_mem_nil

theorem Reachable.inv (reachable : Reachable state) : Inv state := by
  rcases reachable with ⟨killed, pool, run⟩
  refine (Logic.Safe.reach verifies ?_ run).1
  refine ⟨Inv.boot killed, fun me now rely _ => ?_⟩
  refine ⟨fun held => ?_, fun _ _ _ returned => returned.elim⟩
  cases rely.lock.mp held

/-- The bytes that have been copied to user space, in the order of the copies. -/
def State.delivered (state : State Process) : List UInt8 :=
  state.stream.filter (fun c => c ≠ ctrl 'D')

/-- The difference of two indices in 32-bit arithmetic. -/
def difference (high low : Nat) : Nat := (high + 2 ^ 32 - low) % 2 ^ 32

/-- The line discipline of the console in one state. -/
structure LineDiscipline (state : State Process) : Prop where
  order : difference state.cons.e state.cons.r =
    difference state.cons.w state.cons.r + difference state.cons.e state.cons.w
  bounded : difference state.cons.e state.cons.r ≤ INPUT_BUF
  /-- Erasing leaves the bytes from `r` to `w` as they were. -/
  erasing : forall c before after, (c, before, after) ∈ state.edits -> Erases c -> after = before
  /-- What was taken, `^D` included, is the beginning of what was committed. -/
  stream : state.stream <+: (reference state.events).committed
  delivered : state.delivered <+: (reference state.events).committed.filter (fun c => c ≠ ctrl 'D')
  /-- When nobody is at work, the rest is in the buffer. -/
  complete : state.lock = none ->
    (reference state.events).committed = state.stream ++ state.cons.committed
  /-- A `^D` is all that the read which consumes it takes, and that read returns 0. -/
  eof : forall id, ctrl 'D' ∈ state.takenBy id -> state.takenBy id = [ctrl 'D'] ∧
    forall value, (id, value) ∈ state.finished -> value = 0
  /-- A `^D` after data ends the read, which leaves it in the stream. -/
  kept : forall id place, (id, place) ∈ state.kept -> Kept state id place
  /-- A read returns the number of bytes it has delivered, or -1. -/
  values : forall id value, (id, value) ∈ state.finished ->
    value = -1 ∨ value = ((state.takenBy id).filter (fun c => c ≠ ctrl 'D')).length

theorem gap_eq_difference {high low : Nat} (lowBelow : low < uints) (highBelow : high < uints) :
    gap uints low high = difference high low := by
  rw [gap_eq_mod lowBelow highBelow, uints, difference]

theorem line_discipline (reachable : Reachable state) : LineDiscipline state := by
  have inv := reachable.inv
  have indices := inv.indices
  have outer := gap_eq_difference indices.r indices.e
  constructor
  · rw [← outer, ← gap_eq_difference indices.r indices.w, ← gap_eq_difference indices.w indices.e]
    exact indices.order
  · rw [← outer]
    exact Nat.le_of_add_right_le indices.bounded
  · exact inv.edits
  · exact inv.delivered
  · exact inv.delivered.filter _
  · intro free
    have idle := inv.quiet free
    have committed := (inv.synced idle.2).committed
    rw [idle.1] at committed
    exact committed
  · intro id member
    have only := inv.reads.eof id member
    refine ⟨only, fun value finished => ?_⟩
    have final := inv.reads.values id value finished
    rw [only] at final
    rcases final with ⟨_, plain⟩ | count
    · exact absurd List.mem_cons_self plain
    · rw [count]
      rfl
  · exact inv.reads.kept
  · intro id value finished
    rcases inv.reads.values id value finished with ⟨killed, _⟩ | count
    · exact Or.inl killed
    · exact Or.inr count

/-- Two keys of which the second is erased, a newline, and a read of ten bytes. -/
theorem type_and_read : ∃ state : State Bool, Reachable state ∧
    state.finished = [((true, 1), 2)] ∧ state.stream = [97, newline] ∧ LineDiscipline state := by
  have run : (machine Bool).Reaches (fun _ => True)
      (boot (fun _ => false), fun _ => .call .user (fun _ => .ret ()))
      (fun config => config.1.finished = [((true, 1), 2)] ∧ config.1.stream = [97, newline]) := by
    refine .solo false false trivial ?_
    refine Leads.drive 1 rfl (Leads.choose (Call.intr 97) rfl trivial ?_)
    refine Leads.drive 20 rfl (Leads.choose (Call.intr 98) rfl trivial ?_)
    refine Leads.drive 20 rfl (Leads.choose (Call.intr delete) rfl trivial ?_)
    refine Leads.drive 20 rfl (Leads.choose (Call.intr carriageReturn) rfl trivial ?_)
    refine Leads.drive 20 rfl (Leads.stop ?_)
    refine .solo true true trivial ?_
    refine Leads.drive 1 rfl (Leads.choose (Call.read 10) rfl trivial ?_)
    refine Leads.drive 20 rfl (Leads.stop ?_)
    exact .done ⟨rfl, rfl⟩
  rcases run.reach with ⟨⟨state, pool⟩, reached, finished, stream⟩
  have reachable : Reachable state := ⟨_, pool, reached⟩
  exact ⟨state, reachable, finished, stream, line_discipline reachable⟩

end Console
end Xv6
