import Xv6.Console.Model

namespace Xv6
namespace Console

open Function List Xv6.Ring

/-!
# The invariant of the console

The indices bound two windows of the ring: the bytes that readers can take and
the line that can still be edited.  Whenever no key is being worked on, these
windows are what the reference editor has committed beyond the bytes already
taken, and the editor's line.

A second group of facts is about the reads.  A read takes at most one `^D`, and
then nothing else; a read that found a `^D` after data has left it in place.
-/

/-! ## Indices -/

/-- The indices are in order, with room for `extra` more bytes in front. -/
structure Indices (cons : Cons) (extra : Nat) : Prop where
  r : cons.r < uints
  w : cons.w < uints
  e : cons.e < uints
  order : Ring.gap uints cons.r cons.e = Ring.gap uints cons.r cons.w + Ring.gap uints cons.w cons.e
  bounded : Ring.gap uints cons.r cons.e + extra ≤ INPUT_BUF

theorem divides : INPUT_BUF ∣ uints := by decide

theorem buffer_lt : INPUT_BUF + 1 < uints := by decide

namespace Indices

variable {cons : Cons} {extra : Nat}

theorem some_committed (indices : Indices cons extra) (data : cons.r ≠ cons.w) :
    0 < gap uints cons.r cons.w :=
  Nat.pos_of_ne_zero (fun zero => data ((gap_eq_zero_iff indices.r).mp zero))

theorem some_line (indices : Indices cons extra) (data : cons.e ≠ cons.w) :
    0 < gap uints cons.w cons.e :=
  Nat.pos_of_ne_zero (fun zero => data ((gap_eq_zero_iff indices.w).mp zero).symm)

/-- A reader moves on. -/
theorem forward (indices : Indices cons 0) (data : cons.r ≠ cons.w) :
    Indices cons.forward 1 := by
  have some := indices.some_committed data
  have order := indices.order
  have bounded := indices.bounded
  have toW := gap_next_low indices.r indices.w some
  have toE := gap_next_low indices.r indices.e (by omega)
  constructor
  · exact next_lt uints_pos
  · exact indices.w
  · exact indices.e
  · dsimp only [Cons.forward]
    omega
  · dsimp only [Cons.forward]
    omega

/-- A reader moves back. -/
theorem backward (indices : Indices cons 1) : Indices cons.backward 0 := by
  have order := indices.order
  have bounded := indices.bounded
  have small := buffer_lt
  have toW := gap_prev_low indices.r indices.w (by omega)
  have toE := gap_prev_low indices.r indices.e (by omega)
  constructor
  · exact prev_lt indices.r
  · exact indices.w
  · exact indices.e
  · dsimp only [Cons.backward]
    omega
  · dsimp only [Cons.backward]
    omega

theorem erase (indices : Indices cons 0) (data : cons.e ≠ cons.w) : Indices cons.erase 0 := by
  have some := indices.some_line data
  have order := indices.order
  have bounded := indices.bounded
  have fromW := gap_prev_high indices.w indices.e some
  have fromR := gap_prev_high indices.r indices.e (by omega)
  constructor
  · exact indices.r
  · exact indices.w
  · exact prev_lt indices.e
  · dsimp only [Cons.erase]
    omega
  · dsimp only [Cons.erase]
    omega

theorem push (indices : Indices cons 0) (room : gap uints cons.r cons.e < INPUT_BUF)
    (c : UInt8) : Indices (cons.push c) 0 := by
  have order := indices.order
  have small := buffer_lt
  have fromW := gap_next_high indices.w indices.e (by omega)
  have fromR := gap_next_high indices.r indices.e (by omega)
  constructor
  · exact indices.r
  · exact indices.w
  · exact next_lt uints_pos
  · dsimp only [Cons.push]
    omega
  · dsimp only [Cons.push]
    omega

theorem commit (indices : Indices cons 0) : Indices cons.commit 0 := by
  have self : gap uints cons.e cons.e = 0 :=
    (gap_eq_zero_iff indices.e).mpr rfl
  refine ⟨indices.r, indices.e, indices.e, ?_, indices.bounded⟩
  dsimp only [Cons.commit]
  omega

/-! ## The two windows -/

theorem committed_forward (indices : Indices cons extra) (data : cons.r ≠ cons.w) :
    cons.committed = cons.front :: cons.forward.committed :=
  window_take divides indices.r indices.w (indices.some_committed data) _

/-- Moving back uncovers the byte that was fetched. -/
theorem committed_backward (indices : Indices cons 1) :
    cons.backward.committed = cons.backward.front :: cons.committed := by
  have data : cons.backward.r ≠ cons.backward.w := by
    intro same
    have order := indices.order
    have bounded := indices.bounded
    have small := buffer_lt
    have toW := gap_prev_low indices.r indices.w (by omega)
    have zero := (gap_eq_zero_iff indices.backward.r).mpr same
    dsimp only [Cons.backward] at zero
    omega
  have round : cons.backward.forward = cons := by
    rw [Cons.forward, Cons.backward, next_prev indices.r]
  rw [indices.backward.committed_forward data, round]

theorem line_erase (indices : Indices cons extra) (data : cons.e ≠ cons.w) :
    cons.line = cons.erase.line ++ [cons.last] :=
  window_last divides indices.w indices.e (indices.some_line data) _

theorem line_push (indices : Indices cons 0)
    (room : gap uints cons.r cons.e < INPUT_BUF) (c : UInt8) :
    (cons.push c).line = cons.line ++ [c] := by
  have order := indices.order
  have small := buffer_lt
  have longer := gap_next_high indices.w indices.e (by omega)
  simp only [Cons.line, Cons.push, longer]
  exact window_store divides indices.w indices.e (by omega) _ c

theorem committed_push (indices : Indices cons 0)
    (room : gap uints cons.r cons.e < INPUT_BUF) (c : UInt8) :
    (cons.push c).committed = cons.committed := by
  have order := indices.order
  simp only [Cons.committed, Cons.push]
  exact window_below divides indices.r indices.e room (by omega) _ c

theorem committed_commit (indices : Indices cons extra) :
    cons.commit.committed = cons.committed ++ cons.line :=
  window_split divides indices.r indices.w indices.order _

theorem line_nil (indices : Indices cons extra) (same : cons.e = cons.w) : cons.line = [] := by
  have zero : gap uints cons.w cons.e = 0 :=
    (gap_eq_zero_iff indices.w).mpr same.symm
  rw [Cons.line, zero, window_zero]

/-- The number of bytes between the two outer indices. -/
theorem length_windows (indices : Indices cons extra) :
    cons.committed.length + cons.line.length = gap uints cons.r cons.e := by
  rw [Cons.committed, Cons.line, length_window, length_window, indices.order]

end Indices

/-! ## Agreement with the reference editor -/

section Agreement

variable {Process : Type} {state : State Process} {me : Process} {c : UInt8} {editor : Editor}

/-- The reference editor and the buffer agree. -/
structure Synced (editor : Editor) (state : State Process) : Prop where
  committed : editor.committed = state.stream ++ (state.pending.toList ++ state.cons.committed)
  tail : editor.tail = state.cons.line
  taken : editor.taken = state.taken.length

theorem stream_consume (c : UInt8) : (state.consume me c).stream = state.stream ++ [c] := by
  rw [State.stream, State.consume, map_append]
  rfl

section

variable (synced : Synced editor state)

include synced

theorem Synced.fetch (indices : Indices state.cons 0) (pending : state.pending = none)
    (data : state.cons.r ≠ state.cons.w) : Synced editor state.fetch := by
  refine ⟨?_, synced.tail.trans state.cons.line_forward.symm, synced.taken⟩
  rw [synced.committed, indices.committed_forward data, pending]
  simp only [State.fetch, State.stream, Option.toList, nil_append, cons_append]

theorem Synced.consume (pending : state.pending = some c) :
    Synced (editor.step .taken) (state.consume me c) := by
  refine ⟨?_, synced.tail, ?_⟩
  · rw [stream_consume, append_assoc]
    refine synced.committed.trans ?_
    rw [pending]
    simp only [State.consume, Option.toList, nil_append]
  · rw [State.consume, length_append, ← synced.taken]
    rfl

theorem Synced.pushBack (indices : Indices state.cons 1) (pending : state.pending = some c)
    (front : c = state.cons.backward.front) : Synced editor (state.pushBack me) := by
  refine ⟨?_, synced.tail.trans state.cons.line_backward.symm, synced.taken⟩
  rw [State.pushBack, indices.committed_backward, synced.committed, pending, ← front]
  simp only [State.stream, Option.toList, nil_append, cons_append]

/-- The place after the bytes taken holds the byte that was fetched. -/
theorem Synced.next (pending : state.pending = some c) :
    editor.committed[state.taken.length]? = some c := by
  have length : state.stream.length = state.taken.length := length_map _
  rw [synced.committed, List.getElem?_append_right (le_of_eq length), length, Nat.sub_self, pending]
  simp only [Option.toList, cons_append, List.getElem?_cons_zero]

end

end Agreement

variable {Process : Type} [DecidableEq Process]

/-! ## Reads -/

/-- The value of a read that took these bytes: `-1` for a killed process, or else
the number of bytes delivered. -/
def Final (bytes : List UInt8) (value : Int) : Prop :=
  (value = -1 ∧ ctrl 'D' ∉ bytes) ∨ value = (bytes.filter (fun c => c ≠ ctrl 'D')).length

/-- The read has ended at the `^D` in this place of the stream, after data, and has
left it to others. -/
structure Kept (state : State Process) (id : ReadId Process) (place : Nat) : Prop where
  next : (reference state.events).committed[place]? = some (ctrl 'D')
  data : state.takenBy id ≠ []
  plain : ctrl 'D' ∉ state.takenBy id
  inside : place ≤ state.taken.length
  ended : forall entry, entry ∈ state.taken.drop place -> entry.1 ≠ id

structure Reads (state : State Process) : Prop where
  eof : forall id, ctrl 'D' ∈ state.takenBy id -> state.takenBy id = [ctrl 'D']
  values : forall id value, (id, value) ∈ state.finished -> Final (state.takenBy id) value
  kept : forall id place, (id, place) ∈ state.kept -> Kept state id place
  fresh : forall id, state.seq id.1 < id.2 -> state.takenBy id = [] ∧
    (forall value, (id, value) ∉ state.finished) ∧ forall place, (id, place) ∉ state.kept

/-- The read in progress has neither returned nor put a `^D` back. -/
structure Active (me : Process) (state : State Process) : Prop where
  finished : forall value, (state.current me, value) ∉ state.finished
  kept : forall place, (state.current me, place) ∉ state.kept
  plain : ctrl 'D' ∉ state.takenBy (state.current me)

structure Inv (state : State Process) : Prop where
  indices : Indices state.cons state.pending.toList.length
  quiet : state.lock = none -> state.pending = none ∧ state.key = none
  front : forall c, state.pending = some c -> c = state.cons.backward.front
  single : state.key ≠ none -> state.pending = none
  synced : state.key = none -> Synced (reference state.events) state
  delivered : state.stream <+: (reference state.events).committed
  reads : Reads state
  edits : forall c before after, (c, before, after) ∈ state.edits -> Erases c -> after = before

/-! ## Steps -/

/-- What one statement of `me` can do. -/
inductive CStep (me : Process) (state : State Process) : State Process -> Prop where
  | acquire (free : state.lock = none) : CStep me state (state.setLock (some me))
  | release (mine : state.lock = some me) (pending : state.pending = none)
      (key : state.key = none) : CStep me state (state.setLock none)
  | fetch (mine : state.lock = some me) (pending : state.pending = none)
      (key : state.key = none) (data : state.cons.r ≠ state.cons.w) :
      CStep me state state.fetch
  | consume (mine : state.lock = some me) (c : UInt8) (pending : state.pending = some c)
      (active : Active me state)
      (first : c = ctrl 'D' -> state.takenBy (state.current me) = []) :
      CStep me state (state.consume me c)
  | pushBack (mine : state.lock = some me) (pending : state.pending = some (ctrl 'D'))
      (active : Active me state) (data : state.takenBy (state.current me) ≠ []) :
      CStep me state (state.pushBack me)
  | enter : CStep me state (state.enter me)
  | leave (value : Int) (final : Final (state.takenBy (state.current me)) value) :
      CStep me state (state.leave me value)
  | press (mine : state.lock = some me) (pending : state.pending = none)
      (key : state.key = none) (c : UInt8) : CStep me state (state.press c)
  | erase (mine : state.lock = some me) (key : state.key ≠ none)
      (data : state.cons.e ≠ state.cons.w) : CStep me state (state.setCons state.cons.erase)
  | push (mine : state.lock = some me) (key : state.key ≠ none)
      (room : Ring.gap uints state.cons.r state.cons.e < INPUT_BUF) (c : UInt8) :
      CStep me state (state.setCons (state.cons.push c))
  | commit (mine : state.lock = some me) (key : state.key ≠ none) :
      CStep me state (state.setCons state.cons.commit)
  | settle (mine : state.lock = some me) (synced : Synced (reference state.events) state)
      (kept : forall c found, state.key = some (c, found) -> Erases c ->
        state.cons.committed = found) : CStep me state state.settle
  | kill (other : Process) : CStep me state (state.kill other)

variable {state after : State Process} {me : Process}

/-! ## Preservation -/

theorem takenBy_consume (c : UInt8) (id : ReadId Process) : (state.consume me c).takenBy id =
      if state.current me = id then state.takenBy id ++ [c] else state.takenBy id := by
  rw [State.takenBy, State.consume, filter_append, map_append]
  split
  · next same => simp [same, State.takenBy]
  · next other => simp [other, State.takenBy]

/-- Taking a byte commits nothing. -/
theorem committed_taken (events : List Event) :
    (reference (events ++ [.taken])).committed = (reference events).committed := by
  rw [reference_append]
  rfl

theorem Kept.grow {id : ReadId Process} {place : Nat} (kept : Kept state id place)
    {events : List Event} (more : (reference state.events).committed <+:
      (reference events).committed) : Kept { state with events := events } id place := by
  refine ⟨?_, kept.data, kept.plain, kept.inside, kept.ended⟩
  rcases more with ⟨suffix, extended⟩
  rcases List.getElem?_eq_some_iff.mp kept.next with ⟨inside, _⟩
  dsimp only
  rw [← extended, List.getElem?_append_left inside]
  exact kept.next

theorem Kept.consume {id : ReadId Process} {place : Nat} (kept : Kept state id place) (c : UInt8)
    (other : state.current me ≠ id) : Kept (state.consume me c) id place := by
  have same : (state.consume me c).takenBy id = state.takenBy id := by
    rw [takenBy_consume, if_neg other]
  constructor
  · rw [State.consume, committed_taken]
    exact kept.next
  · rw [same]
    exact kept.data
  · rw [same]
    exact kept.plain
  · rw [State.consume, length_append]
    exact Nat.le_add_right_of_le kept.inside
  · intro entry member
    rw [State.consume, drop_append_of_le_length kept.inside] at member
    rcases mem_append.mp member with earlier | last
    · exact kept.ended entry earlier
    · rw [mem_singleton.mp last]
      exact other

section

variable (reads : Reads state)

include reads

theorem Reads.consume (active : Active me state)
    (first : c = ctrl 'D' -> state.takenBy (state.current me) = []) :
    Reads (state.consume me c) := by
  constructor
  · intro id member
    rw [takenBy_consume] at member ⊢
    split at member
    · next same =>
        rw [if_pos same]
        cases same
        rcases mem_append.mp member with earlier | last
        · exact absurd earlier active.plain
        · have isEof : c = ctrl 'D' := (mem_singleton.mp last).symm
          rw [first isEof, isEof]
          rfl
    · next other =>
        rw [if_neg other]
        exact reads.eof id member
  · intro id value member
    have other : state.current me ≠ id := by
      intro same
      cases same
      exact active.finished value member
    rw [takenBy_consume, if_neg other]
    exact reads.values id value member
  · intro id place member
    refine (reads.kept id place member).consume c (fun same => ?_)
    cases same
    exact active.kept place member
  · intro id later
    have other : state.current me ≠ id := by
      intro same
      cases same
      exact absurd later (lt_irrefl _)
    rw [takenBy_consume, if_neg other]
    exact reads.fresh id later

theorem Reads.pushBack (active : Active me state) (data : state.takenBy (state.current me) ≠ [])
    (next : (reference state.events).committed[state.taken.length]? = some (ctrl 'D')) :
    Reads (state.pushBack me) := by
  refine ⟨reads.eof, reads.values, ?_, ?_⟩
  · intro id place member
    rcases mem_cons.mp member with new | earlier
    · cases new
      refine ⟨next, data, active.plain, le_rfl, fun entry inside => ?_⟩
      rw [State.pushBack, drop_length] at inside
      exact absurd inside not_mem_nil
    · exact { reads.kept id place earlier with }
  · intro id later
    rcases reads.fresh id later with ⟨bytes, finished, kept⟩
    refine ⟨bytes, finished, fun place member => ?_⟩
    rcases mem_cons.mp member with new | earlier
    · cases new
      exact absurd later (lt_irrefl _)
    · exact kept place earlier

theorem Reads.leave {value : Int} (final : Final (state.takenBy (state.current me)) value) :
    Reads (state.leave me value) := by
  refine ⟨reads.eof, ?_, ?_, ?_⟩
  · intro id other member
    rcases mem_cons.mp member with new | earlier
    · cases new
      exact final
    · exact reads.values id other earlier
  · intro id place member
    exact { reads.kept id place member with }
  · intro id later
    rcases reads.fresh id later with ⟨bytes, finished, kept⟩
    refine ⟨bytes, fun other member => ?_, kept⟩
    rcases mem_cons.mp member with new | earlier
    · cases new
      exact absurd later (lt_irrefl _)
    · exact finished other earlier

theorem Reads.enter : Reads (state.enter me) := by
  refine ⟨reads.eof, reads.values, ?_, ?_⟩
  · intro id place member
    exact { reads.kept id place member with }
  · intro id later
    refine reads.fresh id (lt_of_le_of_lt ?_ later)
    change state.seq id.1 ≤ update state.seq me (state.seq me + 1) id.1
    rw [update_apply]
    split
    · next same =>
        rw [same]
        exact Nat.le_succ _
    · exact le_rfl

theorem Reads.grow {events : List Event}
    (more : (reference state.events).committed <+: (reference events).committed) :
    Reads { state with events := events } :=
  ⟨reads.eof, reads.values, fun id place member => (reads.kept id place member).grow more,
    reads.fresh⟩

/-- A step that changes neither the stream nor what is recorded of the reads. -/
theorem Reads.same {cons : Cons} {lock : Option Process} {killed : Process -> Bool}
    {pending : Option UInt8} {key : Option (UInt8 × List UInt8)}
    {edits : List (UInt8 × List UInt8 × List UInt8)} :
    Reads { state with
      cons := cons, lock := lock, killed := killed, pending := pending, key := key
      edits := edits } :=
  { reads with kept := fun id place member => { reads.kept id place member with } }

end

section

variable (inv : Inv state)

include inv

theorem Inv.fetch (mine : state.lock = some me) (pending : state.pending = none)
    (key : state.key = none) (data : state.cons.r ≠ state.cons.w) : Inv state.fetch := by
  have indices : Indices state.cons 0 := by
    have known := inv.indices
    rw [pending] at known
    exact known
  have lock : state.fetch.lock ≠ none := by
    intro free
    cases mine.symm.trans free
  refine ⟨indices.forward data, fun free => absurd free lock, ?_, fun busy => absurd key busy,
    fun _ => (inv.synced key).fetch indices pending data, inv.delivered,
    inv.reads.same, inv.edits⟩
  intro c fetched
  cases fetched
  have round : state.cons.forward.backward = state.cons := by
    rw [Cons.backward, Cons.forward, prev_next indices.r]
  rw [State.fetch, round]

theorem Inv.key_none (pending : state.pending = some c) : state.key = none := by
  by_contra busy
  cases pending.symm.trans (inv.single busy)

section

variable (mine : state.lock = some me)

include mine

theorem Inv.consume (pending : state.pending = some c) (active : Active me state)
    (first : c = ctrl 'D' -> state.takenBy (state.current me) = []) : Inv (state.consume me c) := by
  have key := inv.key_none pending
  have indices := inv.indices
  have synced := inv.synced key
  rw [pending] at indices
  constructor
  · exact ⟨indices.r, indices.w, indices.e, indices.order, Nat.le_of_succ_le indices.bounded⟩
  · intro free
    cases mine.symm.trans free
  · intro _ impossible
    cases impossible
  · exact fun busy => absurd key busy
  · intro _
    rw [State.consume, reference_append]
    exact synced.consume pending
  · rw [stream_consume, State.consume, committed_taken, synced.committed, pending]
    exact ⟨state.cons.committed, append_assoc _ _ _⟩
  · exact inv.reads.consume active first
  · exact inv.edits

theorem Inv.pushBack (pending : state.pending = some (ctrl 'D')) (active : Active me state)
    (data : state.takenBy (state.current me) ≠ []) : Inv (state.pushBack me) := by
  have key := inv.key_none pending
  have indices : Indices state.cons 1 := by
    have known := inv.indices
    rw [pending] at known
    exact known
  have synced := inv.synced key
  constructor
  · exact indices.backward
  · intro free
    cases mine.symm.trans free
  · intro _ impossible
    cases impossible
  · exact fun busy => absurd key busy
  · exact fun _ => synced.pushBack indices pending (inv.front _ pending)
  · exact inv.delivered
  · exact inv.reads.pushBack active data (synced.next pending)
  · exact inv.edits

theorem Inv.press (pending : state.pending = none) (c : UInt8) : Inv (state.press c) := by
  have more : (reference state.events).committed <+:
      (reference (state.events ++ [.key c])).committed := by
    rw [reference_append]
    exact Editor.committed_step _ _
  refine ⟨inv.indices, ?_, inv.front, fun _ => pending, ?_, inv.delivered.trans more, ?_, inv.edits⟩
  · intro free
    cases mine.symm.trans free
  · intro idle
    cases idle
  · exact (inv.reads.grow more).same

/-- While a key is worked on, only the indices have to stay in order. -/
theorem Inv.editing (key : state.key ≠ none) {cons : Cons}
    (indices : Indices state.cons 0 -> Indices cons 0) : Inv { state with cons := cons } := by
  have pending := inv.single key
  have known := inv.indices
  rw [pending] at known
  constructor
  · rw [pending]
    exact indices known
  · intro free
    cases mine.symm.trans free
  · intro c fetched
    cases pending.symm.trans fetched
  · exact fun _ => pending
  · exact fun idle => absurd idle key
  · exact inv.delivered
  · exact inv.reads.same
  · exact inv.edits

theorem Inv.settle (synced : Synced (reference state.events) state)
    (kept : ∀ c found, state.key = some (c, found) -> Erases c ->
      state.cons.committed = found) : Inv state.settle := by
  refine ⟨inv.indices, ?_, inv.front, fun busy => absurd rfl busy,
    fun _ => { synced with }, inv.delivered, inv.reads.same, ?_⟩
  · intro free
    cases mine.symm.trans free
  · intro c before after member erases
    cases key : state.key with
    | none =>
      rw [State.settle, key] at member
      exact inv.edits c before after member erases
    | some entry =>
      rw [State.settle, key] at member
      rcases mem_cons.mp member with new | earlier
      · cases new
        exact kept _ _ key erases
      · exact inv.edits c before after earlier erases

end

end

theorem CStep.inv (step : CStep me state after) (inv : Inv state) : Inv after := by
  cases step with
  | acquire free =>
    exact { inv with
      quiet := fun impossible => by cases impossible
      synced := fun key => { inv.synced key with }
      reads := inv.reads.same }
  | release mine pending key =>
    exact { inv with
      quiet := fun _ => ⟨pending, key⟩
      synced := fun key => { inv.synced key with }
      reads := inv.reads.same }
  | fetch mine pending key data => exact inv.fetch mine pending key data
  | consume mine c pending active first => exact inv.consume mine pending active first
  | pushBack mine pending active data => exact inv.pushBack mine pending active data
  | enter =>
    exact { inv with synced := fun key => { inv.synced key with }, reads := inv.reads.enter }
  | leave value final =>
    exact { inv with synced := fun key => { inv.synced key with }, reads := inv.reads.leave final }
  | press mine pending key c => exact inv.press mine pending c
  | erase mine key data => exact inv.editing mine key (fun indices => indices.erase data)
  | push mine key room c => exact inv.editing mine key (fun indices => indices.push room c)
  | commit mine key => exact inv.editing mine key (fun indices => indices.commit)
  | settle mine synced kept => exact inv.settle mine synced kept
  | kill other =>
    exact { inv with synced := fun key => { inv.synced key with }, reads := inv.reads.same }

/-! ## Interference -/

/-- What nobody else changes while the lock is held. -/
structure Same (before after : State Process) : Prop where
  cons : after.cons = before.cons
  pending : after.pending = before.pending
  key : after.key = before.key
  events : after.events = before.events
  taken : after.taken = before.taken

structure Rely (me : Process) (before after : State Process) : Prop where
  lock : after.lock = some me <-> before.lock = some me
  held : before.lock = some me -> Same before after
  seq : after.seq me = before.seq me
  takenBy : forall number, after.takenBy (me, number) = before.takenBy (me, number)
  finished : forall number value,
    ((me, number), value) ∈ after.finished <-> ((me, number), value) ∈ before.finished
  kept : forall number place,
    ((me, number), place) ∈ after.kept <-> ((me, number), place) ∈ before.kept

omit [DecidableEq Process] in
theorem Same.refl (state : State Process) : Same state state := ⟨rfl, rfl, rfl, rfl, rfl⟩

/-- A step that leaves the records of the reads alone. -/
theorem Rely.of_same_reads (lock : after.lock = some me <-> state.lock = some me)
    (held : state.lock = some me -> Same state after) (seq : after.seq me = state.seq me)
    (taken : after.taken = state.taken) (finished : after.finished = state.finished)
    (kept : after.kept = state.kept) : Rely me state after := by
  refine ⟨lock, held, seq, fun number => ?_, fun number value => ?_, fun number place => ?_⟩
  · rw [State.takenBy, taken, State.takenBy]
  · rw [finished]
  · rw [kept]

theorem CStep.rely {other : Process} (step : CStep me state after) (different : other ≠ me) :
    Rely other state after := by
  have notMe : some me ≠ some other := fun same => different (Option.some.inj same).symm
  have notId : ∀ number, state.current me ≠ (other, number) := by
    intro number same
    exact different (congrArg Prod.fst same).symm
  cases step with
  | acquire free =>
    exact Rely.of_same_reads (by simp [State.setLock, free, notMe]) (by simp [free]) rfl rfl rfl rfl
  | release mine pending key =>
    exact Rely.of_same_reads (by simp [State.setLock, mine, notMe]) (by simp [mine, notMe])
      rfl rfl rfl rfl
  | fetch mine pending key data | press mine pending key c | erase mine key data
  | push mine key room c | commit mine key | settle mine synced kept =>
    exact Rely.of_same_reads Iff.rfl (by simp [mine, notMe]) rfl rfl rfl rfl
  | consume mine c pending active first =>
    refine ⟨Iff.rfl, by simp [mine, notMe], rfl, fun number => ?_, fun _ _ => Iff.rfl,
      fun _ _ => Iff.rfl⟩
    rw [takenBy_consume, if_neg (notId number)]
  | pushBack mine pending active data =>
    refine ⟨Iff.rfl, by simp [mine, notMe], rfl, fun _ => rfl, fun _ _ => Iff.rfl,
      fun number place => ?_⟩
    simp [State.pushBack, (notId number).symm]
  | enter =>
    exact Rely.of_same_reads Iff.rfl (fun _ => ⟨rfl, rfl, rfl, rfl, rfl⟩)
      (update_of_ne different _ _) rfl rfl rfl
  | leave value final =>
    refine ⟨Iff.rfl, fun _ => ⟨rfl, rfl, rfl, rfl, rfl⟩, rfl, fun _ => rfl,
      fun number value => ?_, fun _ _ => Iff.rfl⟩
    simp [State.leave, (notId number).symm]
  | kill target =>
    exact Rely.of_same_reads Iff.rfl (fun _ => ⟨rfl, rfl, rfl, rfl, rfl⟩) rfl rfl rfl rfl

end Console
end Xv6
