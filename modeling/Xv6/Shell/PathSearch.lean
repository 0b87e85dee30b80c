import Xv6.Shell.Parser

namespace Xv6
namespace Shell

open List

/-!
# The search for a command

After the first `exec` has failed, `runcmd` reads the file `/path` byte by byte
and tries the command in every directory that the file lists.  The index `i`
runs over the bytes of a directory and then over the command.  Nothing is said
about a shell that has written outside `newPath`.
-/

/-- What `read(fd, reader, 1)` returns: 1 with a byte, 0 or -1. -/
inductive Reply where
  | byte (c : UInt8)
  | eof
  | error
  deriving DecidableEq

/-- The local variables of `runcmd` and the paths that `exec` has been called with. -/
structure Search where
  reader : UInt8
  newPath : List UInt8
  i : Nat
  execs : List Text
  deriving DecidableEq

/-- The shell reads on, has been replaced by `exec`, has printed that `exec` failed, or
has written outside `newPath`. -/
inductive Stage where
  | looping (search : Search)
  | found (search : Search)
  | failed (search : Search)
  | overrun
  deriving DecidableEq

/-- The calls of `exec` by a shell that has stayed inside `newPath`. -/
def Stage.execs : Stage -> Option (List Text)
  | .looping search => some search.execs
  | .found search => some search.execs
  | .failed search => some search.execs
  | .overrun => none

namespace Search

/-- `newPath[i] = c`. -/
def write (search : Search) (c : UInt8) : Option Search :=
  if search.i < search.newPath.length then
    some { search with newPath := search.newPath.set search.i c }
  else none

/-- `newPath[i] = c; i++`. -/
def put (search : Search) (c : UInt8) : Option Search :=
  (search.write c).map fun written => { written with i := written.i + 1 }

/-- The body of the loop. -/
def body (succeeds : Text -> Bool) (word : Text) (search : Search) : Stage :=
  if search.reader ≠ byte ':' then
    match search.put search.reader with
    | some stored => .looping stored
    | none => .overrun
  else
    match (word.foldlM put search).bind (write · 0) with
    | some filled =>
      let path := cstring filled.newPath 0
      let called := { filled with execs := filled.execs ++ [path], i := 0 }
      if succeeds path then .found called else .looping called
    | none => .overrun

end Search

/-- One turn of the loop. -/
def Stage.next (succeeds : Text -> Bool) (word : Text) : Stage -> Reply -> Stage
  | .looping search, reply =>
    match reply with
    | .byte c => { search with reader := c }.body succeeds word
    | .error => search.body succeeds word
    | .eof => .failed search
  | ended, _ => ended

/-- The loop, for the given results of `read`. -/
def search (succeeds : Text -> Bool) (word : Text) (replies : List Reply) (stage : Stage) :
    Stage :=
  replies.foldl (Stage.next succeeds word) stage

/-- The variables when the loop begins: `newPath` has 100 arbitrary bytes. -/
structure Search.Initial (start : Search) : Prop where
  size : start.newPath.length = 100
  index : start.i = 0
  none : start.execs = []

/-! ## What the search should do -/

/-- The paths up to the first one that succeeds. -/
def tried (succeeds : Text -> Bool) : List Text -> List Text
  | [] => []
  | path :: paths => path :: if succeeds path then [] else tried succeeds paths

/-- Every directory that is reached has no NUL and leaves room for the command
and its NUL, and what follows the last one fits as well. -/
def Fits (succeeds : Text -> Bool) (word : Text) : List Text -> Text -> Prop
  | [], rest => rest.length ≤ 100
  | dir :: dirs, rest => dir.length + word.length < 100 ∧ 0 ∉ dir ∧
    (succeeds (dir ++ word) = false -> Fits succeeds word dirs rest)

/-- Every directory leaves room for the command and its NUL, and what follows the last
one fits as well. -/
def Room (word : Text) (parts : List Text × Text) : Prop :=
  (forall dir, dir ∈ parts.1 -> dir.length + word.length < 100) ∧ parts.2.length ≤ 100

/-- What a segment has already is too long for every continuation. -/
theorem long_segments {current : Text} (file : List UInt8) (long : 100 < current.length) :
    (∃ dir dirs, (segments (byte ':') current file).1 = dir :: dirs ∧ 100 < dir.length) ∨
      (segments (byte ':') current file).1 = [] ∧
        100 < (segments (byte ':') current file).2.length := by
  induction file generalizing current with
  | nil => exact Or.inr ⟨rfl, long⟩
  | cons c file ih =>
    rw [segments]
    split
    · exact Or.inl ⟨_, _, rfl, long⟩
    · apply ih
      rw [length_append]
      omega

theorem not_fits_of_long {succeeds : Text -> Bool} {word current : Text} (file : List UInt8)
    (long : 100 < current.length) :
    ¬ Fits succeeds word (segments (byte ':') current file).1
      (segments (byte ':') current file).2 := by
  rcases long_segments file long with ⟨dir, dirs, first, long⟩ | ⟨none, long⟩
  · rw [first]
    rintro ⟨room, _⟩
    omega
  · rw [none]
    exact Nat.not_le_of_lt long

theorem not_room_of_long {word current : Text} (file : List UInt8)
    (long : 100 < current.length) : ¬ Room word (segments (byte ':') current file) := by
  rintro ⟨each, rest⟩
  rcases long_segments file long with ⟨dir, dirs, first, long⟩ | ⟨_, long⟩
  · have room := each dir (first ▸ mem_cons_self)
    omega
  · omega

/-! ## The buffer -/

/-- The variables, when the buffer holds `current`. -/
structure Search.Clean (current : Text) (reader : UInt8) (execs : List Text)
    (search : Search) : Prop where
  size : search.newPath.length = 100
  index : search.i = current.length
  fits : current.length ≤ 100
  text : search.newPath.take current.length = current
  reader : search.reader = reader
  execs : search.execs = execs

section Buffer

variable {current word : Text} {state : Search} {c reader : UInt8} {execs : List Text}

theorem Search.Initial.clean {start : Search} (initial : start.Initial) :
    start.Clean [] start.reader [] :=
  ⟨initial.size, initial.index, Nat.zero_le _, rfl, rfl, initial.none⟩

namespace Search.Clean

variable (clean : state.Clean current reader execs)

include clean

theorem read (c : UInt8) : ({ state with reader := c } : Search).Clean current c execs :=
  ⟨clean.size, clean.index, clean.fits, clean.text, rfl, clean.execs⟩

theorem write (room : current.length < 100) :
    state.write c = some { state with newPath := state.newPath.set current.length c } ∧
      (state.newPath.set current.length c).take (current.length + 1) = current ++ [c] := by
  have size := clean.size
  refine ⟨?_, ?_⟩
  · rw [Search.write, if_pos (by rw [clean.index, size]; exact room), clean.index]
  · rw [take_add_one, take_set_of_le (le_refl _), clean.text,
      List.getElem?_set_self (by omega)]
    rfl

theorem put (room : current.length < 100) :
    ∃ stored, state.put c = some stored ∧ stored.Clean (current ++ [c]) reader execs := by
  obtain ⟨written, text⟩ := @Clean.write _ _ c _ _ clean room
  rw [Search.put, written]
  refine ⟨_, rfl, ?_, ?_, ?_, ?_, clean.reader, clean.execs⟩
  · rw [length_set, clean.size]
  · rw [length_append, ← clean.index]
    rfl
  · rw [length_append]
    exact room
  · rw [length_append]
    exact text

theorem put_full (full : ¬ current.length < 100) : state.put c = none := by
  rw [Search.put, Search.write, if_neg]
  · rfl
  · rwa [clean.index, clean.size]

end Search.Clean

theorem Search.Clean.puts (bytes : Text) (clean : state.Clean current reader execs)
    (room : current.length + bytes.length ≤ 100) :
    ∃ stored, bytes.foldlM Search.put state = some stored ∧
      stored.Clean (current ++ bytes) reader execs := by
  induction bytes generalizing state current with
  | nil => exact ⟨state, rfl, (append_nil current).symm ▸ clean⟩
  | cons c bytes ih =>
    rw [length_cons] at room
    obtain ⟨stored, first, held⟩ := @Search.Clean.put _ _ c _ _ clean (by omega)
    obtain ⟨last, rest, whole⟩ := ih held (by rw [length_append, length_singleton]; omega)
    refine ⟨last, ?_, ?_⟩
    · rw [foldlM_cons, first]
      exact rest
    · rwa [append_assoc] at whole

theorem Search.Clean.puts_long (bytes : Text) (clean : state.Clean current reader execs)
    (long : 100 < current.length + bytes.length) : bytes.foldlM Search.put state = none := by
  induction bytes generalizing state current with
  | nil =>
    have fits := clean.fits
    rw [length_nil] at long
    omega
  | cons c bytes ih =>
    rw [foldlM_cons]
    by_cases room : current.length < 100
    · obtain ⟨stored, first, held⟩ := @Search.Clean.put _ _ c _ _ clean room
      rw [first]
      apply ih held
      rw [length_append, length_singleton]
      rw [length_cons] at long
      omega
    · rw [clean.put_full room]
      rfl

/-- The C string at the beginning of a buffer that holds a terminated text. -/
theorem cstring_of_take {memory text : List UInt8}
    (holds : memory.take (text.length + 1) = text ++ [0]) :
    cstring memory 0 = text.takeWhile fun c => c ≠ 0 := by
  rw [cstring, drop_zero, ← take_append_drop (text.length + 1) memory, holds,
    append_assoc, takeWhile_append]
  split
  · next whole =>
      have same := ( takeWhile_prefix fun c => decide (c ≠ 0)).eq_of_length whole
      rw [same]
      exact append_nil text
  · rfl

theorem takeWhile_of_plain {text : Text} (plain : 0 ∉ text) :
    text.takeWhile (fun c => c ≠ 0) = text := by
  rw [takeWhile_eq_self_iff]
  intro c member
  exact decide_eq_true fun zero => plain (zero ▸ member)

theorem takeWhile_ne_of_nul {text : Text} (nul : 0 ∈ text) :
    text.takeWhile (fun c => c ≠ 0) ≠ text := by
  intro same
  rw [← same] at nul
  exact absurd (mem_takeWhile_imp nul) (by decide)

end Buffer

/-! ## One turn -/

section Turn

variable {succeeds : Text -> Bool} {word current : Text} {state : Search} {reader : UInt8}
variable {execs : List Text}

namespace Search.Clean

variable (clean : state.Clean current reader execs)

include clean

theorem body_byte (other : reader ≠ byte ':') (room : current.length < 100) :
    ∃ stored, state.body succeeds word = .looping stored ∧
      stored.Clean (current ++ [reader]) reader execs := by
  obtain ⟨stored, put, held⟩ := @Clean.put _ _ reader _ _ clean room
  refine ⟨stored, ?_, held⟩
  rw [Search.body, clean.reader, if_pos other, put]

theorem body_full (other : reader ≠ byte ':') (full : ¬ current.length < 100) :
    state.body succeeds word = .overrun := by
  rw [Search.body, clean.reader, if_pos other, clean.put_full full]

/-- The turn in which `exec` is called. -/
theorem body_colon (colon : reader = byte ':') (room : current.length + word.length < 100) :
    ∃ called, state.body succeeds word =
        (if succeeds ((current ++ word).takeWhile fun c => c ≠ 0) then .found called
        else .looping called) ∧
      called.Clean [] reader (execs ++ [(current ++ word).takeWhile fun c => c ≠ 0]) := by
  obtain ⟨stored, put, held⟩ := clean.puts word (le_of_lt room)
  obtain ⟨written, text⟩ :=
    @Clean.write _ _ 0 _ _ held (by rw [length_append]; exact room)
  rw [Search.body, clean.reader, if_neg (not_not.mpr colon), put, Option.bind_some, written]
  dsimp only
  rw [cstring_of_take text]
  refine ⟨_, rfl, ?_, rfl, Nat.zero_le _, rfl, held.reader, ?_⟩
  · rw [length_set, held.size]
  · dsimp only
    rw [held.execs]

theorem body_long (colon : reader = byte ':') (long : ¬ current.length + word.length < 100) :
    state.body succeeds word = .overrun := by
  have none : (word.foldlM Search.put state).bind (Search.write · 0) = none := by
    have whole := clean.puts_long (word ++ [0]) (by rw [length_append, length_singleton]; omega)
    rw [foldlM_append] at whole
    rw [Option.bind_eq_none_iff]
    intro stored put
    rw [put] at whole
    change [(0 : UInt8)].foldlM Search.put stored = none at whole
    rw [foldlM_cons] at whole
    cases written : stored.write 0 with
    | none => rfl
    | some last =>
      rw [Search.put, written] at whole
      cases whole
  rw [Search.body, clean.reader, if_neg (not_not.mpr colon), none]

end Search.Clean

theorem search_found (replies : List Reply) (state : Search) :
    search succeeds word replies (.found state) = .found state := by
  induction replies with
  | nil => rfl
  | cons reply replies ih => exact ih

theorem search_failed (replies : List Reply) (state : Search) :
    search succeeds word replies (.failed state) = .failed state := by
  induction replies with
  | nil => rfl
  | cons reply replies ih => exact ih

theorem search_overrun (replies : List Reply) :
    search succeeds word replies .overrun = .overrun := by
  induction replies with
  | nil => rfl
  | cons reply replies ih => exact ih

end Turn

/-! ## The calls of `exec` -/

section Calls

variable {succeeds : Text -> Bool} {word current : Text} {state : Search} {reader : UInt8}
variable {execs : List Text}

theorem Search.Clean.turn (clean : state.Clean current reader execs) (c : UInt8)
    (file : List UInt8) :
    ∃ next : Search, next.Clean current c execs ∧
      search succeeds word ((c :: file).map .byte ++ [.eof]) (.looping state) =
        search succeeds word (file.map .byte ++ [.eof]) (next.body succeeds word) :=
  ⟨_, clean.read c, rfl⟩

/-- The turn that calls `exec` is the last one or is followed by others. -/
theorem called_prefix {called : Search} {path : Text} {replies : List Reply} {all : List Text}
    (later : (search succeeds word replies (.looping called)).execs = some all ->
      called.execs <+: all)
    (made : (search succeeds word replies
      (if succeeds path then .found called else .looping called)).execs = some all) :
    called.execs <+: all := by
  split at made
  · rw [search_found] at made
    have same : called.execs = all := Option.some.inj made
    rw [same]
  · exact later made

/-- What has been executed stays executed. -/
theorem Search.Clean.execs_prefix (clean : state.Clean current reader execs) (file : List UInt8)
    {all : List Text} (made : (search succeeds word (file.map .byte ++ [.eof])
      (.looping state)).execs = some all) : execs <+: all := by
  induction file generalizing current reader execs state with
  | nil =>
    cases made
    rw [clean.execs]
  | cons c file ih =>
    obtain ⟨next, read, turn⟩ := @Search.Clean.turn succeeds word _ _ _ _ clean c file
    rw [turn] at made
    by_cases colon : c = byte ':'
    · by_cases room : current.length + word.length < 100
      · obtain ⟨called, body, held⟩ := @Search.Clean.body_colon succeeds _ _ _ _ _ read colon room
        rw [body] at made
        have first := called_prefix (fun rest => held.execs.symm ▸ ih held rest) made
        rw [held.execs] at first
        exact ( prefix_append execs _).trans first
      · rw [read.body_long colon room, search_overrun] at made
        cases made
    · by_cases room : current.length < 100
      · obtain ⟨stored, body, held⟩ :=
          @Search.Clean.body_byte succeeds word _ _ _ _ read colon room
        rw [body] at made
        exact ih held made
      · rw [read.body_full colon room, search_overrun] at made
        cases made

/-- The search from a directory of which `current` has been read. -/
theorem search_iff (plain : 0 ∉ word) (clean : state.Clean current reader execs)
    (file : List UInt8) :
    (search succeeds word (file.map .byte ++ [.eof]) (.looping state)).execs =
        some (execs ++ tried succeeds ((segments (byte ':') current file).1.map (· ++ word))) <->
      Fits succeeds word (segments (byte ':') current file).1
        (segments (byte ':') current file).2 := by
  induction file generalizing current reader execs state with
  | nil =>
    refine iff_of_true ?_ clean.fits
    exact congrArg some (clean.execs.trans (append_nil _).symm)
  | cons c file ih =>
    obtain ⟨next, read, turn⟩ := @Search.Clean.turn succeeds word _ _ _ _ clean c file
    rw [turn, segments]
    by_cases colon : c = byte ':'
    · rw [if_pos colon]
      by_cases room : current.length + word.length < 100
      · obtain ⟨called, body, held⟩ := @Search.Clean.body_colon succeeds _ _ _ _ _ read colon room
        rw [body, map_cons, tried, Fits]
        by_cases nul : 0 ∈ current
        · -- The string ends at the NUL, and another path has been executed.
          refine iff_of_false ?_ fun fits => fits.2.1 nul
          intro made
          have first := called_prefix
            (fun rest => held.execs.symm ▸ held.execs_prefix file rest) made
          rw [held.execs, prefix_append_right_inj, cons_prefix_cons] at first
          exact takeWhile_ne_of_nul (mem_append_left word nul) first.1
        · have exact_ : (current ++ word).takeWhile (fun c => c ≠ 0) = current ++ word :=
            takeWhile_of_plain fun member => (mem_append.mp member).elim nul plain
          rw [exact_] at held
          rw [exact_]
          cases hit : succeeds (current ++ word) with
          | true =>
            rw [if_pos rfl, search_found]
            refine iff_of_true ?_ ⟨room, nul, fun absent => by cases absent⟩
            exact congrArg some held.execs
          | false =>
            have later := ih held
            rw [append_assoc, singleton_append] at later
            simp only [Bool.false_eq_true, if_false, forall_const]
            rw [later]
            exact ⟨fun fits => ⟨room, nul, fits⟩, fun fits => fits.2.2⟩
      · rw [read.body_long colon room, search_overrun]
        exact iff_of_false nofun fun fits => room fits.1
    · rw [if_neg colon]
      by_cases room : current.length < 100
      · obtain ⟨stored, body, held⟩ :=
          @Search.Clean.body_byte succeeds word _ _ _ _ read colon room
        rw [body]
        exact ih held
      · have fits := clean.fits
        rw [read.body_full colon room, search_overrun]
        refine iff_of_false nofun (not_fits_of_long file ?_)
        rw [length_append, length_singleton]
        omega

end Calls

/-- The search stays inside `newPath` and calls `exec` exactly on the directories
of the file, each followed by the command, until one of them succeeds, if and
only if all of them that it reaches fit. -/
theorem command_search_iff (succeeds : Text -> Bool) {word : Text} (plain : 0 ∉ word)
    (file : List UInt8) {start : Search} (initial : start.Initial) :
    (search succeeds word (file.map .byte ++ [.eof]) (.looping start)).execs =
        some (tried succeeds ((segments (byte ':') [] file).1.map (· ++ word))) <->
      Fits succeeds word (segments (byte ':') [] file).1 (segments (byte ':') [] file).2 :=
  search_iff plain initial.clean file

/-- The variables with a buffer of zeros. -/
def Search.zeros : Search := ⟨0, List.replicate 100 0, 0, []⟩

/-- The command `a` with the file `/:` is tried as `/a`. -/
theorem command_search_root :
    (search (fun _ => false) [97] [.byte 47, .byte 58, .eof] (.looping .zeros)).execs =
      some [[47, 97]] := by
  exact (@command_search_iff (fun _ => false) [97] (by decide) [47, 58] Search.zeros
    ⟨rfl, rfl, rfl⟩).mpr ⟨by decide, by decide, fun _ => Nat.zero_le 100⟩

/-- A directory of one hundred bytes puts the command outside the buffer. -/
theorem command_search_overflows :
    search (fun _ => false) [97]
      ((List.replicate 100 (byte '/') ++ [byte ':']).map .byte ++ [.eof])
      (.looping .zeros) = .overrun := by
  decide +kernel

/-! ## The end of the search -/

/-- The results of `sys_read` on the descriptor that `open` returned: -1 if there
is no descriptor or an error occurs, and otherwise the next byte of the file or
0 at its end. -/
def readReply (fd : Int) (file : List UInt8) (errors : Nat -> Bool) (turn : Nat) : Reply :=
  if fd < 0 ∨ errors turn = true then .error
  else
    match file[((List.range turn).filter fun earlier => !errors earlier).length]? with
    | some c => .byte c
    | none => .eof

theorem readReply_eof {fd : Int} {file : List UInt8} {errors : Nat -> Bool} {turn : Nat} :
    readReply fd file errors turn = .eof <-> 0 ≤ fd ∧ errors turn = false ∧
      file.length ≤ ((List.range turn).filter fun earlier => !errors earlier).length := by
  unfold readReply
  split
  · next bad =>
      refine iff_of_false (by simp) ?_
      rintro ⟨open_, quiet, _⟩
      rw [quiet] at bad
      rcases bad with closed | impossible
      · omega
      · cases impossible
  · next good =>
      rw [not_or, Bool.not_eq_true] at good
      split
      · next found =>
          refine iff_of_false (by simp) ?_
          rintro ⟨_, _, ended⟩
          rw [List.getElem?_eq_none ended] at found
          cases found
      · next ended =>
          exact iff_of_true rfl ⟨by omega, good.2, List.getElem?_eq_none_iff.mp ended⟩

/-- The bytes that the loop finds in `reader` until the end of the file.  After an error it
is the byte before. -/
def readers : UInt8 -> List Reply -> List UInt8
  | _, .byte c :: replies => c :: readers c replies
  | reader, .error :: replies => reader :: readers reader replies
  | _, .eof :: _ => []
  | _, [] => []

theorem readers_eof (reader : UInt8) (before after : List Reply) :
    readers reader (before ++ .eof :: after) = readers reader before := by
  induction before generalizing reader with
  | nil => rfl
  | cons reply before ih =>
    cases reply with
    | byte c => exact congrArg (c :: ·) (ih c)
    | error => exact congrArg (reader :: ·) (ih reader)
    | eof => rfl

section Ends

variable {word current : Text} {state : Search} {reader : UInt8} {execs : List Text}

/-- If no `exec` succeeds, a turn goes on as long as there is room. -/
theorem Search.Clean.body_failing (clean : state.Clean current reader execs)
    {replies : List Reply} {rest : List UInt8}
    (later : ∀ {current : Text} {execs : List Text} {state : Search},
      state.Clean current reader execs ->
      ((∃ last, search (fun _ => false) word replies (.looping state) = .failed last) <->
        .eof ∈ replies ∧ Room word (segments (byte ':') current rest))) :
    (∃ last, search (fun _ => false) word replies (state.body (fun _ => false) word) =
        .failed last) <->
      .eof ∈ replies ∧ Room word (segments (byte ':') current (reader :: rest)) := by
  have spills : ¬ ∃ last, search (fun _ => false) word replies .overrun = .failed last := by
    rw [search_overrun]
    rintro ⟨_, ⟨⟩⟩
  rw [segments]
  by_cases colon : reader = byte ':'
  · rw [if_pos colon]
    by_cases room : current.length + word.length < 100
    · obtain ⟨called, body, held⟩ :=
        @Search.Clean.body_colon (fun _ => false) _ _ _ _ _ clean colon room
      rw [body, if_neg Bool.false_ne_true, later held]
      refine and_congr_right fun _ => ⟨fun fits => ⟨?_, fits.2⟩, fun fits => ⟨?_, fits.2⟩⟩
      · exact forall_mem_cons.mpr ⟨room, fits.1⟩
      · exact (forall_mem_cons.mp fits.1).2
    · rw [clean.body_long colon room]
      exact iff_of_false spills fun fits => room (fits.2.1 current mem_cons_self)
  · rw [if_neg colon]
    by_cases room : current.length < 100
    · obtain ⟨stored, body, held⟩ :=
        @Search.Clean.body_byte (fun _ => false) word _ _ _ _ clean colon room
      rw [body]
      exact later held
    · have fits := clean.fits
      rw [clean.body_full colon room]
      refine iff_of_false spills fun fits => not_room_of_long rest ?_ fits.2
      rw [length_append, length_singleton]
      omega

/-- If no `exec` succeeds, the loop is left at the first end of file that it comes to. -/
theorem search_failed_iff (replies : List Reply) (clean : state.Clean current reader execs) :
    (∃ last, search (fun _ => false) word replies (.looping state) = .failed last) <->
      .eof ∈ replies ∧ Room word (segments (byte ':') current (readers reader replies)) := by
  induction replies generalizing current reader execs state with
  | nil =>
    refine iff_of_false ?_ fun impossible => not_mem_nil impossible.1
    rintro ⟨_, ⟨⟩⟩
  | cons reply replies ih =>
    cases reply with
    | eof =>
      refine iff_of_true ⟨state, search_failed replies state⟩ ⟨mem_cons_self, ?_, clean.fits⟩
      exact fun _ => nofun
    | byte c =>
      have turn := (clean.read c).body_failing ih
      refine turn.trans (and_congr_left fun _ => ?_)
      simp
    | error =>
      have turn := clean.body_failing ih
      refine turn.trans (and_congr_left fun _ => ?_)
      simp

end Ends

/-- With every `exec` failing, the search ends and prints its message if and only if
`open` has returned a descriptor, enough reads succeed to find the end of the file, and
what the loop stores until then fits into `newPath`. -/
theorem command_search_ends_iff (word : Text) (fd : Int) (file : List UInt8)
    (errors : Nat -> Bool) {start : Search} (initial : start.Initial) :
    (∃ turns last, search (fun _ => false) word
      ((List.range turns).map (readReply fd file errors)) (.looping start) = .failed last) <->
      0 ≤ fd ∧ ∃ turn, errors turn = false ∧
        file.length ≤ ((List.range turn).filter fun earlier => !errors earlier).length ∧
        Room word (segments (byte ':') []
          (readers start.reader ((List.range turn).map (readReply fd file errors)))) := by
  simp only [search_failed_iff _ initial.clean]
  have until_ : ∀ {turns turn : Nat}, turn < turns -> readReply fd file errors turn = .eof ->
      readers start.reader ((List.range turns).map (readReply fd file errors)) =
        readers start.reader ((List.range turn).map (readReply fd file errors)) := by
    intro turns turn earlier reply
    obtain ⟨more, rfl⟩ := Nat.exists_eq_add_of_lt earlier
    rw [Nat.add_assoc, List.range_add, map_append, Nat.add_comm more 1, List.range_add,
      map_append, map_append]
    change readers _ (_ ++ readReply fd file errors turn :: _) = _
    rw [reply, readers_eof]
  constructor
  · rintro ⟨turns, member, room⟩
    obtain ⟨turn, earlier, reply⟩ := List.mem_map.mp member
    rw [until_ (List.mem_range.mp earlier) reply] at room
    obtain ⟨open_, quiet, ended⟩ := readReply_eof.mp reply
    exact ⟨open_, turn, quiet, ended, room⟩
  · rintro ⟨open_, turn, quiet, ended, room⟩
    have reply := readReply_eof.mpr ⟨open_, quiet, ended⟩
    refine ⟨turn + 1, List.mem_map.mpr ⟨turn, List.self_mem_range_succ, reply⟩, ?_⟩
    rwa [until_ (Nat.lt_succ_self turn) reply]

/-- The search for `a` with the file `/:` ends, although the second read fails. -/
theorem command_search_ends_root : ∃ turns last, search (fun _ => false) [97]
    ((List.range turns).map (readReply 3 [47, 58] fun turn => turn = 1)) (.looping .zeros) =
      .failed last := by
  refine (@command_search_ends_iff [97] 3 [47, 58] (fun turn => turn = 1) .zeros
    ⟨rfl, rfl, rfl⟩).mpr ⟨by decide, 3, by decide, by decide, ?_, by decide⟩
  decide

/-- Without a descriptor the message is never printed: the byte in `reader` is stored
again and again, until it is written outside `newPath`. -/
theorem command_search_loops : (¬ ∃ turns last, search (fun _ => false) [97]
    ((List.range turns).map (readReply (-1) [] fun _ => false)) (.looping .zeros) =
      .failed last) ∧
    search (fun _ => false) [97]
      ((List.range 101).map (readReply (-1) [] fun _ => false)) (.looping .zeros) = .overrun := by
  constructor
  · rintro ⟨turns, ended⟩
    have initial : Search.zeros.Initial := ⟨rfl, rfl, rfl⟩
    obtain ⟨turn, _, reply⟩ := List.mem_map.mp ((search_failed_iff _ initial.clean).mp ended).1
    have open_ := (readReply_eof.mp reply).1
    omega
  · decide +kernel

end Shell
end Xv6
