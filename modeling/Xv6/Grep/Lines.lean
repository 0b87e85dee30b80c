import Xv6.Grep.Matcher
import Xv6.Shell.Parser

namespace Xv6
namespace Grep

open Shell (Text byte cstring segments)
open List

/-!
# The lines that `grep` writes

`grep` of `user/grep.c`.  The buffer holds the beginning of a line between two
reads; a newline is overwritten by a NUL while its line is compared and is put
back only where the line is written.
-/

/-- Overwrite the bytes from `place` on. -/
def store (buf : List UInt8) (place : Nat) (bytes : List UInt8) : List UInt8 :=
  buf.take place ++ bytes ++ buf.drop (place + bytes.length)

def strchr (buf : List UInt8) (s : Nat) (c : UInt8) : Option Nat :=
  ((cstring buf s).findIdx? (· = c)).map (s + ·)

/-- The buffer, the number `m` of bytes in it, and what has been written. -/
structure State where
  buf : List UInt8
  m : Nat
  written : List UInt8

theorem strchr_bounds {buf : List UInt8} {s q : Nat} {c : UInt8} (found : strchr buf s c = some q) :
    s ≤ q ∧ q < buf.length := by
  rcases Option.map_eq_some_iff.mp found with ⟨index, at_, rfl⟩
  have inside := (List.findIdx?_eq_some_iff_getElem.mp at_).1
  have short : (cstring buf s).length ≤ (buf.drop s).length :=
    (takeWhile_sublist _).length_le
  rw [length_drop] at short
  omega

/-- The body of the inner loop, for the line from `p` to the newline at `q`. -/
def State.compare (pattern : Text) (p q : Nat) (state : State) : State :=
  let cut := state.buf.set q 0
  if match_ pattern (cstring cut p) then
    let restored := cut.set q (byte '\n')
    { state with
      buf := restored, written := state.written ++ (restored.drop p).take (q + 1 - p) }
  else { state with buf := cut }

@[simp] theorem State.length_compare (pattern : Text) (p q : Nat) (state : State) :
    (state.compare pattern p q).buf.length = state.buf.length := by
  dsimp only [State.compare]
  split <;> simp

/-- The inner loop, from the position `p` on. -/
def scan (pattern : Text) (p : Nat) (state : State) : Nat × State :=
  match found : strchr state.buf p (byte '\n') with
  | none => (p, state)
  | some q => scan pattern (q + 1) (state.compare pattern p q)
termination_by state.buf.length - p
decreasing_by
  have bounds := strchr_bounds found
  rw [State.length_compare]
  omega

/-- The body of the outer loop, after a read of the given bytes. -/
def State.turn (pattern : Text) (bytes : List UInt8) (state : State) : State :=
  let m := state.m + bytes.length
  let scanned := scan pattern 0
    { state with buf := (store state.buf state.m bytes).set m 0, m := m }
  if 0 < m then
    let left := m - scanned.1
    { scanned.2 with
      buf := store scanned.2.buf 0 ((scanned.2.buf.drop scanned.1).take left), m := left }
  else scanned.2

/-- The outer loop.  The read with the number `count` returns at most
`pieces count + 1` bytes, and at least one unless none is left or wanted. -/
def loop (pattern : Text) (pieces : Nat -> Nat) (count : Nat) (file : List UInt8)
    (state : State) : State :=
  let n := min (pieces count + 1) (min (state.buf.length - state.m - 1) file.length)
  if 0 < n then
    loop pattern pieces (count + 1) (file.drop n) (state.turn pattern (file.take n))
  else state
termination_by file.length
decreasing_by
  rw [List.length_drop]
  omega

/-- What `grep` writes when it starts with the given bytes in `buf`. -/
def grep (pattern : Text) (buf : List UInt8) (pieces : Nat -> Nat) (file : List UInt8) :
    List UInt8 :=
  (loop pattern pieces 0 file ⟨buf, 0, []⟩).written

/-- The matching lines, with their newlines. -/
def matching (pattern : Text) (lines : List Text) : List UInt8 :=
  (lines.filter (match_ pattern)).flatMap (· ++ [byte '\n'])

/-- The lines that fit in the buffer together with their newline, up to the first
one that does not. -/
def served (lines : List Text) : List Text := lines.takeWhile (·.length < 1023)

/-! ## Segments -/

section Segments

variable {mark : UInt8} {current text line : Text}

theorem segments_plain (current : Text) (plain : mark ∉ text) :
    segments mark current text = ([], current ++ text) := by
  induction text generalizing current with
  | nil => rw [segments, append_nil]
  | cons c text ih =>
    rw [mem_cons, not_or] at plain
    rw [segments, if_neg (Ne.symm plain.1), ih _ plain.2, append_assoc]
    rfl

theorem segments_append (current text more : Text) : segments mark current (text ++ more) =
      ((segments mark current text).1 ++ (segments mark (segments mark current text).2 more).1,
        (segments mark (segments mark current text).2 more).2) := by
  induction text generalizing current with
  | nil => rfl
  | cons c text ih =>
    rw [cons_append, segments, segments]
    split
    · rw [ih]
      rfl
    · exact ih _

theorem segments_line (plain : mark ∉ line) : segments mark [] (line ++ mark :: text) =
      (line :: (segments mark [] text).1, (segments mark [] text).2) := by
  rw [segments_append, segments_plain [] plain, segments, if_pos rfl]
  rfl

/-- A text before the segments that has no mark belongs to the first of them. -/
theorem segments_current (plain : mark ∉ current) :
    segments mark [] (current ++ text) = segments mark current text := by
  rw [segments_append, segments_plain [] plain]
  rfl

theorem length_of_mem_segments (current text : Text) :
    ∀ line, line ∈ (segments mark current text).1 ->
      line.length < current.length + text.length := by
  induction text generalizing current with
  | nil =>
    intro line member
    cases member
  | cons c text ih =>
    intro line member
    rw [segments] at member
    rw [length_cons]
    split at member
    · rcases mem_cons.mp member with rfl | later
      · omega
      · have short := ih [] line later
        rw [length_nil] at short
        omega
    · have short := ih _ line member
      rw [length_append, length_singleton] at short
      omega

theorem plain_segments (plain : mark ∉ current) : mark ∉ (segments mark current text).2 := by
  induction text generalizing current with
  | nil => exact plain
  | cons c text ih =>
    rw [segments]
    split
    · exact ih not_mem_nil
    · next other =>
        apply ih
        rw [mem_append, mem_singleton, not_or]
        exact ⟨plain, Ne.symm other⟩

theorem segments_suffix (current text : Text) :
    (segments mark current text).2 <:+ current ++ text := by
  induction text generalizing current with
  | nil =>
    rw [append_nil]
    exact suffix_rfl
  | cons c text ih =>
    rw [segments]
    split
    · exact (ih []).trans ((suffix_cons c text).trans (suffix_append current _))
    · have found := ih (current ++ [c])
      rwa [append_assoc] at found

/-- Nothing is served once the line in the buffer is too long. -/
theorem served_long (long : 1023 ≤ current.length) (text : Text) :
    served (segments mark current text).1 = [] := by
  induction text generalizing current with
  | nil => rfl
  | cons c text ih =>
    rw [segments]
    split
    · rw [served, takeWhile_cons_of_neg]
      rw [decide_eq_true_eq]
      exact Nat.not_lt.mpr long
    · apply ih
      rw [length_append]
      omega

end Segments

theorem matching_append (pattern : Text) (lines more : List Text) :
    matching pattern (lines ++ more) = matching pattern lines ++ matching pattern more := by
  rw [matching, filter_append, flatMap_append]
  rfl

theorem matching_eq_nil {pattern : Text} {lines : List Text} :
    matching pattern lines = [] <-> ∀ line, line ∈ lines -> match_ pattern line = false := by
  rw [matching, flatMap_eq_nil_iff]
  constructor
  · intro empty line member
    by_contra hit
    rw [Bool.not_eq_false] at hit
    exact append_ne_nil_of_right_ne_nil _ (cons_ne_nil _ _)
      (empty line (mem_filter.mpr ⟨member, hit⟩))
  · intro none line member
    have hit := mem_filter.mp member
    rw [none line hit.1] at hit
    cases hit.2

/-! ## The inner loop -/

section Scan

variable {buf tail : List UInt8} {line text pattern : Text} {p : Nat} {c d : UInt8}

theorem cstring_of_drop (holds : buf.drop p = text ++ 0 :: tail) (plain : 0 ∉ text) :
    cstring buf p = text := by
  rw [cstring, holds, takeWhile_append_of_pos, takeWhile_cons_of_neg (by simp),
    append_nil]
  intro c member
  rw [decide_eq_true_eq]
  rintro rfl
  exact plain member

theorem drop_set_mark (holds : buf.drop p = line ++ c :: tail) :
    (buf.set (p + line.length) d).drop p = line ++ d :: tail := by
  rw [drop_set, if_neg (by omega), Nat.add_sub_cancel_left, holds,
    set_append_right _ _ le_rfl, Nat.sub_self, set_cons_zero]

theorem drop_after_mark (holds : buf.drop p = line ++ c :: tail) :
    buf.drop (p + line.length + 1) = tail := by
  rw [Nat.add_assoc, ← drop_drop, holds, ← drop_drop, drop_left]
  rfl

theorem strchr_none (holds : buf.drop p = text ++ 0 :: tail) (plain : 0 ∉ text)
    (none : c ∉ text) : strchr buf p c = .none := by
  rw [strchr, cstring_of_drop holds plain, Option.map_eq_none_iff, List.findIdx?_eq_none_iff]
  intro x member
  rw [decide_eq_false_iff_not]
  rintro rfl
  exact none member

theorem strchr_some (holds : buf.drop p = line ++ c :: text ++ 0 :: tail)
    (plain : 0 ∉ line ++ c :: text) (none : c ∉ line) :
    strchr buf p c = some (p + line.length) := by
  rw [strchr, cstring_of_drop holds plain, List.findIdx?_append]
  have skipped : line.findIdx? (· = c) = Option.none := by
    rw [List.findIdx?_eq_none_iff]
    intro x member
    rw [decide_eq_false_iff_not]
    rintro rfl
    exact none member
  rw [skipped]
  simp [List.findIdx?_cons]

theorem State.compare_line {state : State} (holds : state.buf.drop p = line ++ byte '\n' :: tail)
    (plain : 0 ∉ line) :
    (state.compare pattern p (p + line.length)).buf.drop (p + line.length + 1) = tail ∧
      (state.compare pattern p (p + line.length)).written =
        state.written ++ matching pattern [line] := by
  have cut := @drop_set_mark _ _ _ _ _ 0 holds
  rw [State.compare, cstring_of_drop cut plain]
  by_cases hit : match_ pattern line = true
  · have restored := @drop_set_mark _ _ _ _ _ (byte '\n') cut
    rw [if_pos hit]
    refine ⟨drop_after_mark restored, ?_⟩
    dsimp only
    rw [restored, matching, filter_cons_of_pos hit, Nat.add_assoc, Nat.add_sub_cancel_left,
      take_length_add_append]
    simp
  · rw [if_neg hit, matching, filter_cons_of_neg hit]
    exact ⟨drop_after_mark cut, (append_nil _).symm⟩

/-- What the inner loop leaves where the buffer holds a text from `p` on. -/
structure Scanned (pattern text : Text) (tail : List UInt8) (p : Nat) (state : State)
    (result : Nat × State) : Prop where
  size : result.2.buf.length = state.buf.length
  rest : result.2.buf.drop result.1 = (segments (byte '\n') [] text).2 ++ 0 :: tail
  place : result.1 + (segments (byte '\n') [] text).2.length = p + text.length
  written : result.2.written = state.written ++ matching pattern (segments (byte '\n') [] text).1

theorem scan_scanned (p : Nat) (state : State) (text : Text)
    (holds : state.buf.drop p = text ++ 0 :: tail) (plain : 0 ∉ text) :
    Scanned pattern text tail p state (scan pattern p state) := by
  -- The induction follows the loop: one turn takes the first line off the text.
  induction p, state using scan.induct pattern generalizing text with
  | case1 p state found =>
    have none : byte '\n' ∉ text := by
      intro member
      rcases eq_append_cons_of_mem member with ⟨line, rest, rfl, first⟩
      rw [strchr_some holds plain first] at found
      cases found
    rw [scan.eq_def]
    split
    · constructor
      · rfl
      · rw [segments_plain [] none]
        exact holds
      · rw [segments_plain [] none]
        rfl
      · rw [segments_plain [] none]
        exact (append_nil _).symm
    · next impossible =>
        rw [found] at impossible
        cases impossible
  | case2 p state q found ih =>
    have member : byte '\n' ∈ text := by
      by_contra none
      rw [strchr_none holds plain none] at found
      cases found
    rcases eq_append_cons_of_mem member with ⟨line, rest, rfl, first⟩
    have place := strchr_some holds plain first
    rw [found, Option.some.injEq] at place
    subst place
    rw [append_assoc, cons_append] at holds
    rw [mem_append, mem_cons, not_or, not_or] at plain
    have compared := @State.compare_line _ _ pattern _ _ holds plain.1
    have scanned := ih rest compared.1 plain.2.2
    rw [scan.eq_def]
    split
    · next impossible =>
        rw [found] at impossible
        cases impossible
    · next q' again =>
        rw [found, Option.some.injEq] at again
        subst again
        constructor
        · rw [scanned.size, State.length_compare]
        · rw [segments_line first]
          exact scanned.rest
        · rw [segments_line first, scanned.place, length_append, length_cons]
          omega
        · rw [segments_line first, scanned.written, compared.2, append_assoc, ← matching_append]
          rfl

end Scan

/-! ## The outer loop -/

/-- The buffer begins with `current`. -/
structure State.Holds (current : Text) (state : State) : Prop where
  size : state.buf.length = 1024
  length : state.m = current.length
  fits : current.length ≤ 1023
  text : state.buf.take current.length = current

theorem length_store {buf bytes : List UInt8} {place : Nat}
    (inside : place + bytes.length ≤ buf.length) :
    (store buf place bytes).length = buf.length := by
  simp only [store, length_append, length_take, length_drop]
  omega

theorem State.Holds.turn {pattern current : Text} {state : State} (holds : state.Holds current)
    (bytes : List UInt8) (room : current.length + bytes.length ≤ 1023)
    (some : 0 < bytes.length) (plain : 0 ∉ current ++ bytes) :
    (state.turn pattern bytes).Holds (segments (byte '\n') [] (current ++ bytes)).2 ∧
      (state.turn pattern bytes).written =
        state.written ++ matching pattern (segments (byte '\n') [] (current ++ bytes)).1 := by
  let m := state.m + bytes.length
  let buf := (store state.buf state.m bytes).set m 0
  have size := holds.size
  have length := holds.length
  have stored : (store state.buf state.m bytes).length = 1024 := by
    rw [length_store (by omega), size]
  have whole : m = (current ++ bytes).length := by
    rw [length_append, ← length]
  rcases exists_cons_of_ne_nil (l := state.buf.drop m) (by
    rw [Ne, drop_eq_nil_iff]
    omega) with ⟨last, tail, split⟩
  have text : buf.drop 0 = current ++ bytes ++ 0 :: tail := by
    have before : (store state.buf state.m bytes).drop 0 = current ++ bytes ++ last :: tail := by
      rw [drop_zero, store, split, length, holds.text]
    have marked := @drop_set_mark _ _ _ _ _ 0 before
    rwa [Nat.zero_add, ← whole] at marked
  have scanned := @scan_scanned tail pattern 0
    { state with buf := buf, m := m } (current ++ bytes) text plain
  generalize result : scan pattern 0 { state with buf := buf, m := m } = final at scanned
  have left : m - final.1 = (segments (byte '\n') [] (current ++ bytes)).2.length := by
    have place := scanned.place
    omega
  have kept : (final.2.buf.drop final.1).take (m - final.1) =
      (segments (byte '\n') [] (current ++ bytes)).2 := by
    rw [scanned.rest, left, take_left]
  have short : (segments (byte '\n') [] (current ++ bytes)).2.length ≤ 1023 := by
    have shorter := (@segments_suffix (byte '\n') [] (current ++ bytes)).length_le
    rw [nil_append, length_append] at shorter
    omega
  have after : state.turn pattern bytes =
      ⟨store final.2.buf 0 (segments (byte '\n') [] (current ++ bytes)).2,
        (segments (byte '\n') [] (current ++ bytes)).2.length, final.2.written⟩ := by
    rw [← left, ← kept, ← result]
    exact if_pos (Nat.add_pos_right _ some)
  have full : final.2.buf.length = 1024 := by
    rw [scanned.size, length_set, stored]
  rw [after]
  refine ⟨⟨?_, rfl, short, ?_⟩, scanned.written⟩
  · dsimp only
    rw [length_store (by omega), full]
  · dsimp only
    rw [store, take_zero, nil_append, take_left]

theorem loop_written (pattern : Text) (pieces : Nat -> Nat) (count : Nat) (file : List UInt8)
    (state : State) (current : Text) (holds : state.Holds current) (plain : 0 ∉ current ++ file)
    (partly : byte '\n' ∉ current) :
    (loop pattern pieces count file state).written =
      state.written ++ matching pattern (served (segments (byte '\n') current file).1) := by
  have size := holds.size
  have length := holds.length
  have fits := holds.fits
  induction count, file, state using loop.induct pattern pieces generalizing current with
  | case1 count file state n some ih =>
    have room : current.length + n ≤ 1023 := by omega
    have inside : n ≤ file.length := by omega
    have taken : (file.take n).length = n := length_take_of_le inside
    rw [← take_append_drop n file, ← append_assoc, mem_append, not_or] at plain
    have turned := @State.Holds.turn pattern _ _ holds (file.take n) (by omega) (by omega) plain.1
    rw [segments_current partly] at turned
    rw [loop.eq_def]
    rw [if_pos some]
    have split := @segments_append (byte '\n') current (file.take n) (file.drop n)
    rw [take_append_drop] at split
    have short : ∀ line, line ∈ (segments (byte '\n') current (file.take n)).1 ->
        decide (line.length < 1023) = true := by
      intro line member
      have bound := length_of_mem_segments _ _ line member
      rw [decide_eq_true_eq]
      omega
    rw [ih _ turned.1 _ (plain_segments partly) turned.1.size turned.1.length turned.1.fits,
      turned.2, split, served, served, takeWhile_append_of_pos short, matching_append,
      append_assoc]
    intro zero
    rcases mem_append.mp zero with earlier | later
    · exact plain.1 ((segments_suffix _ _).mem earlier)
    · exact plain.2 later
  | case2 count file state n none =>
    have nothing : served (segments (byte '\n') current file).1 = [] := by
      by_cases full : 1023 ≤ current.length
      · exact served_long full file
      · have empty : file = [] := eq_nil_of_length_eq_zero (by omega)
        rw [empty]
        rfl
    rw [loop.eq_def, if_neg none, nothing]
    exact (append_nil _).symm

section Whole

variable {pattern buf : List UInt8} {pieces : Nat -> Nat} {file : List UInt8}

theorem grep_written (size : buf.length = 1024) (plain : 0 ∉ file) : grep pattern buf pieces file =
      matching pattern (served (segments (byte '\n') [] file).1) := by
  have holds : State.Holds [] ⟨buf, 0, []⟩ := ⟨size, rfl, Nat.zero_le _, rfl⟩
  exact loop_written pattern pieces 0 file _ [] holds plain not_mem_nil

/-- `grep` writes exactly the matching lines if and only if no line matches from the
first one on that does not fit in the buffer, however the reads split the file. -/
theorem grep_lines_iff (size : buf.length = 1024) (plain : 0 ∉ file) :
    grep pattern buf pieces file = matching pattern (segments (byte '\n') [] file).1 <->
      forall line, line ∈ (segments (byte '\n') [] file).1.dropWhile (·.length < 1023) ->
        match_ pattern line = false := by
  have split := @List.takeWhile_append_dropWhile _ (fun line : Text => line.length < 1023)
    (segments (byte '\n') [] file).1
  have whole := matching_append pattern (served (segments (byte '\n') [] file).1)
    ((segments (byte '\n') [] file).1.dropWhile (·.length < 1023))
  rw [served, split] at whole
  rw [grep_written size plain, ← matching_eq_nil, whole, served, eq_comm,
    List.append_right_eq_self]

end Whole

theorem match_letter (text : Text) : match_ [byte 'a'] (byte 'a' :: text) = true := by
  have here : matchhere [byte 'a'] (byte 'a' :: text) = true := by
    rw [matchhere.eq_def]
    dsimp only
    rw [if_neg (by decide), if_neg (by decide), if_pos (Or.inr rfl), matchhere.eq_def]
  rw [match_, if_neg (by decide), matchAnywhere, if_pos here]

/-- The file `a` with a newline is written by `grep a`. -/
theorem grep_short_line :
    grep [byte 'a'] (List.replicate 1024 0) (fun _ => 0) [byte 'a', byte '\n'] =
      [byte 'a', byte '\n'] := by
  have line : (segments (byte '\n') [] [byte 'a', byte '\n']).1 = [[byte 'a']] := by
    decide
  rw [(grep_lines_iff List.length_replicate (by decide)).mpr, line, matching,
    List.filter_cons_of_pos (match_letter [])]
  · rfl
  · rw [line]
    intro line member
    cases member

/-- A line of 1023 characters is lost. -/
theorem grep_loses_line :
    grep [byte 'a'] (List.replicate 1024 0) (fun _ => 0)
        (List.replicate 1023 (byte 'a') ++ [byte '\n']) ≠
      matching [byte 'a']
        (segments (byte '\n') [] (List.replicate 1023 (byte 'a') ++ [byte '\n'])).1 := by
  have plain : byte '\n' ∉ List.replicate 1023 (byte 'a') := by
    intro member
    exact absurd (List.eq_of_mem_replicate member) (by decide)
  have line : (segments (byte '\n') [] (List.replicate 1023 (byte 'a') ++ [byte '\n'])).1 =
      [List.replicate 1023 (byte 'a')] := by
    rw [segments_line plain]
    rfl
  rw [grep_written List.length_replicate, line]
  · intro same
    replace same := same.symm
    have none : served [List.replicate 1023 (byte 'a')] = [] := by
      rw [served, List.takeWhile_cons_of_neg]
      rw [List.length_replicate]
      decide
    rw [none, show matching [byte 'a'] [] = [] from rfl, matching_eq_nil] at same
    have hit := match_letter (List.replicate 1022 (byte 'a'))
    rw [← List.replicate_succ, same _ (List.mem_singleton_self _)] at hit
    cases hit
  · intro zero
    rcases List.mem_append.mp zero with earlier | later
    · exact absurd (List.eq_of_mem_replicate earlier) (by decide)
    · exact absurd (List.mem_singleton.mp later) (by decide)

end Grep
end Xv6
