import Xv6.Shell.Completeness

namespace Xv6
namespace Shell

open List

/-!
# The shell parser accepts exactly its grammar

A larger bound gives the same result once the parser has finished, so the bound
can be forgotten.  The strings in the final tree are read from memory after
`nulterminate`; the NULs lie behind the words and inside none of them.
-/

/-! ## Independence of the bound -/

/-- The first result is unfinished, or the second one is the same. -/
def Result.Below {α : Type} (first second : Result α) : Prop :=
  first = .unfinished ∨ first = second

theorem Result.Below.refl {α : Type} (result : Result α) : result.Below result := Or.inr rfl

theorem Result.Below.bind {α β : Type} {first second : Result α} {rest next : α -> Result β}
    (below : first.Below second) (pointwise : ∀ value, (rest value).Below (next value)) :
    (first.bind rest).Below (second.bind next) := by
  rcases below with unfinished | same
  · rw [unfinished]
    exact Or.inl rfl
  · rw [← same]
    cases first with
    | done value => exact pointwise value
    | panic text | unfinished => exact Result.Below.refl _

theorem parseredirs_below (bound : Nat) (cmd : Cmd Span) (s : Text) :
    (parseredirs bound cmd s).Below (parseredirs (bound + 1) cmd s) := by
  induction bound generalizing cmd s with
  | zero => exact Or.inl rfl
  | succ bound ih =>
    rw [parseredirs, parseredirs]
    dsimp only
    split_ifs
    · exact Result.Below.refl _
    · exact ih _ _
    · exact Result.Below.refl _

theorem parsewords_below (bound : Nat) (cmd : Cmd Span) (argc : Nat) (s : Text) :
    (parsewords bound cmd argc s).Below (parsewords (bound + 1) cmd argc s) := by
  induction bound generalizing cmd argc s with
  | zero => exact Or.inl rfl
  | succ bound ih =>
    rw [parsewords, parsewords]
    dsimp only
    split_ifs
    · exact Result.Below.refl _
    · exact Result.Below.refl _
    · exact Result.Below.refl _
    · exact Result.Below.refl _
    · exact (parseredirs_below bound _ _).bind (fun next => ih _ _ _)

theorem parsebacks_below (bound : Nat) (cmd : Cmd Span) (s : Text) :
    (parsebacks bound cmd s).Below (parsebacks (bound + 1) cmd s) := by
  induction bound generalizing cmd s with
  | zero => exact Or.inl rfl
  | succ bound ih =>
    rw [parsebacks, parsebacks]
    split_ifs
    · exact ih _ _
    · exact Result.Below.refl _

structure AllBelow (bound : Nat) : Prop where
  line : forall s, (parseline bound s).Below (parseline (bound + 1) s)
  pipe : forall s, (parsepipe bound s).Below (parsepipe (bound + 1) s)
  exec : forall s, (parseexec bound s).Below (parseexec (bound + 1) s)
  block : forall s, (parseblock bound s).Below (parseblock (bound + 1) s)

theorem parse_below (bound : Nat) : AllBelow bound := by
  induction bound with
  | zero =>
    constructor
    · exact fun s => Or.inl (by rw [parseline])
    · exact fun s => Or.inl (by rw [parsepipe])
    · exact fun s => Or.inl (by rw [parseexec])
    · exact fun s => Or.inl (by rw [parseblock])
  | succ bound ih =>
    constructor
    · intro s
      rw [parseline, parseline]
      refine (ih.pipe s).bind (fun first => ?_)
      refine (parsebacks_below bound _ _).bind (fun left => ?_)
      dsimp only
      split_ifs
      · exact (ih.line _).bind (fun right => Result.Below.refl _)
      · exact Result.Below.refl _
    · intro s
      rw [parsepipe, parsepipe]
      refine (ih.exec s).bind (fun left => ?_)
      dsimp only
      split_ifs
      · exact (ih.pipe _).bind (fun right => Result.Below.refl _)
      · exact Result.Below.refl _
    · intro s
      rw [parseexec, parseexec]
      split_ifs
      · exact ih.block _
      · exact (parseredirs_below bound _ _).bind (fun first => parsewords_below bound _ _ _)
    · intro s
      rw [parseblock, parseblock]
      dsimp only
      split_ifs
      · exact Result.Below.refl _
      · refine (ih.line _).bind (fun inner => ?_)
        split_ifs
        · exact Result.Below.refl _
        · exact parseredirs_below bound _ _

theorem parseline_stable {bound larger : Nat} (s : Text) (more : bound ≤ larger)
    (finished : parseline bound s ≠ .unfinished) : parseline larger s = parseline bound s := by
  induction more with
  | refl => rfl
  | step _ ih =>
    rcases (parse_below _).line s with unfinished | same
    · exact absurd (ih.symm.trans unfinished) finished
    · exact same.symm.trans ih

/-! ## The strings of the tree -/

theorem Cmd.map_congr {W V : Type} {f g : W -> V} (cmd : Cmd W)
    (same : ∀ word, word ∈ cmd.words -> f word = g word) : cmd.map f = cmd.map g := by
  induction cmd with
  | exec argv => exact congrArg Cmd.exec (map_congr_left same)
  | redir cmd file mode fd ih =>
    have inner := ih (fun word member => same word (mem_append_left _ member))
    have outer := same file (mem_append_right _ mem_cons_self)
    rw [Cmd.map, Cmd.map, inner, outer]
  | pipe left right ihLeft ihRight | list left right ihLeft ihRight =>
    have first := ihLeft (fun word member => same word (mem_append_left _ member))
    have second := ihRight (fun word member => same word (mem_append_right _ member))
    rw [Cmd.map, Cmd.map, first, second]
  | back cmd ih => rw [Cmd.map, Cmd.map, ih same]

/-- Where `nulterminate` puts a NUL. -/
def ends (line : Text) (words : List Span) : List Nat := words.map (fun word => offset line word.eq)

/-- NULs at these offsets, and nothing else changed. -/
structure Zeroed (places : List Nat) (before after : List UInt8) : Prop where
  length : after.length = before.length
  zero : forall place, place ∈ places -> after[place]? = none ∨ after[place]? = some 0
  other : forall place, place ∉ places -> after[place]? = before[place]?

theorem Zeroed.refl (memory : List UInt8) : Zeroed [] memory memory :=
  ⟨rfl, fun _ member => absurd member not_mem_nil, fun _ _ => rfl⟩

theorem Zeroed.trans {first second : List Nat} {before between after : List UInt8}
    (one : Zeroed first before between) (two : Zeroed second between after) :
    Zeroed (first ++ second) before after := by
  refine ⟨two.length.trans one.length, ?_, ?_⟩
  · intro place member
    by_cases late : place ∈ second
    · exact two.zero place late
    · rw [two.other place late]
      exact one.zero place ((mem_append.mp member).resolve_right late)
  · intro place outside
    rw [two.other place (fun late => outside (mem_append_right _ late)),
      one.other place (fun early => outside (mem_append_left _ early))]

theorem Zeroed.set (memory : List UInt8) (place : Nat) :
    Zeroed [place] memory (memory.set place 0) := by
  refine ⟨length_set, ?_, ?_⟩
  · intro other member
    rw [mem_singleton.mp member, List.getElem?_set_self']
    cases memory[place]? with
    | none => exact Or.inl rfl
    | some _ => exact Or.inr rfl
  · intro other outside
    exact List.getElem?_set_ne (fun same => outside (mem_singleton.mpr same.symm))

theorem nulterminate_argv (line : Text) (argv : List Span) (memory : List UInt8) :
    Zeroed (ends line argv) memory
      (argv.foldl (fun memory word => memory.set (offset line word.eq) 0) memory) := by
  induction argv generalizing memory with
  | nil => exact Zeroed.refl memory
  | cons word argv ih => exact (Zeroed.set memory (offset line word.eq)).trans (ih _)

theorem ends_append (line : Text) (first second : List Span) :
    ends line (first ++ second) = ends line first ++ ends line second :=
  map_append

theorem nulterminate_zeroed (line : Text) (cmd : Cmd Span) (memory : List UInt8) :
    Zeroed (ends line cmd.words) memory (nulterminate line cmd memory) := by
  induction cmd generalizing memory with
  | exec argv => exact nulterminate_argv line argv memory
  | redir cmd file mode fd ih =>
    rw [Cmd.words, ends_append]
    exact (ih memory).trans (Zeroed.set _ _)
  | pipe left right ihLeft ihRight | list left right ihLeft ihRight =>
    rw [Cmd.words, ends_append]
    exact (ihLeft memory).trans (ihRight _)
  | back cmd ih => exact ih memory

/-! ### Words in the line -/

/-- The bytes of a word and what follows them. -/
structure Span.Word (line : Text) (word : Span) : Prop where
  start : word.q <:+ line
  split : word.q = word.text ++ word.eq
  bytes : forall c, c ∈ word.text -> wordByte c = true
  after : forall c, word.eq.head? = some c -> wordByte c = false

theorem scan_word {s : Text} (isWord : (scan s).1 = .word) : (scan s).2 = s.dropWhile wordByte := by
  cases s with
  | nil => cases isWord
  | cons c s =>
    rw [scan] at isWord ⊢
    cases found : single c with
    | some kind =>
      rw [found] at isWord
      have impossible := single_first found
      rw [show kind = .word from isWord] at impossible
      cases impossible
    | none =>
      rw [found] at isWord
      dsimp only at isWord ⊢
      split_ifs at isWord ⊢
      rfl

theorem Span.In.word {line : Text} {word : Span} (found : word.In line) : word.Word line := by
  rcases found with ⟨ps, suffix, isWord, same⟩
  have q : word.q = skip ps := by
    rw [same]
    rfl
  have eq : word.eq = word.q.dropWhile wordByte := by
    rw [q, same]
    exact scan_word isWord
  have whole := takeWhile_append_dropWhile (p := wordByte) (l := word.q)
  have text : word.text = word.q.takeWhile wordByte := by
    have lengths := congrArg List.length whole
    rw [length_append] at lengths
    have short : word.q.length - word.eq.length = (word.q.takeWhile wordByte).length := by
      rw [eq]
      omega
    rw [Span.text, short]
    exact (prefix_iff_eq_take.mp ( takeWhile_prefix _)).symm
  refine ⟨?_, ?_, ?_, ?_⟩
  · rw [q]
    exact (skip_suffix ps).trans suffix
  · rw [text, eq, whole]
  · intro c member
    rw [text] at member
    exact mem_takeWhile_imp member
  · intro c head
    rw [eq] at head
    have stop := List.head?_dropWhile_not wordByte word.q
    rw [head] at stop
    exact stop

/-- The text at the offset of a pointer. -/
theorem drop_offset {line pointer : Text} (suffix : pointer <:+ line) :
    line.drop (offset line pointer) = pointer :=
  (suffix_iff_eq_drop.mp suffix).symm

/-- The line occupies the beginning of the memory. -/
theorem getElem_line {memory : List UInt8} {place : Nat}
    (inside : place < (cstring memory 0).length) : memory[place]? = (cstring memory 0)[place]? := by
  have whole := takeWhile_append_dropWhile (p := fun c => decide (c ≠ 0)) (l := memory)
  refine (congrArg (fun list => list[place]?) whole.symm).trans ?_
  exact List.getElem?_append_left inside

section Terminated

variable {memory terminated : List UInt8} {words : List Span} {word : Span}

/-- No NUL is written inside a word: the byte before a NUL's place ends a word, the
byte in that place belongs to none. -/
theorem not_end_inside (valid : ∀ word, word ∈ words -> word.Word (cstring memory 0))
    (word : Span) (known : word.Word (cstring memory 0)) {index : Nat}
    (inside : index < word.text.length) :
    offset (cstring memory 0) word.q + index ∉ ends (cstring memory 0) words := by
  intro isEnd
  rcases mem_map.mp isEnd with ⟨other, member, same⟩
  have otherKnown := valid other member
  have suffix : other.eq <:+ cstring memory 0 := by
    refine List.IsSuffix.trans ?_ otherKnown.start
    rw [otherKnown.split]
    exact suffix_append _ _
  have here : other.eq = word.q.drop index := by
    rw [← drop_offset suffix, same, ← drop_drop, drop_offset known.start]
  have byte : (word.q.drop index).head? = some (word.text.get ⟨index, inside⟩) := by
    rw [List.head?_drop, known.split, List.getElem?_append_left inside]
    exact List.getElem?_eq_getElem inside
  have ends := otherKnown.after (word.text.get ⟨index, inside⟩) (by rw [here, byte])
  rw [known.bytes _ (get_mem _ _)] at ends
  cases ends

theorem ne_zero_of_mem (memory : List UInt8) {c : UInt8} (member : c ∈ cstring memory 0) : c ≠ 0 :=
  of_decide_eq_true (mem_takeWhile_imp (p := fun c => decide (c ≠ 0)) member)

/-- The string at a word is the word. -/
theorem cstring_word (valid : ∀ word, word ∈ words -> word.Word (cstring memory 0))
    (zeroed : Zeroed (ends (cstring memory 0) words) memory terminated) (member : word ∈ words) :
    cstring terminated (offset (cstring memory 0) word.q) = word.text := by
  have known := valid word member
  have length : word.q.length = word.text.length + word.eq.length := by
    rw [← length_append, ← known.split]
  have fits := known.start.length_le
  have stop : offset (cstring memory 0) word.eq =
      offset (cstring memory 0) word.q + word.text.length := by
    unfold offset
    omega
  have same : (terminated.drop (offset (cstring memory 0) word.q)).take word.text.length =
      word.text := by
    refine ext_getElem? (fun index => ?_)
    by_cases inside : index < word.text.length
    · have place : offset (cstring memory 0) word.q + index < (cstring memory 0).length := by
        unfold offset
        omega
      rw [List.getElem?_take_of_lt inside, List.getElem?_drop,
        zeroed.other _ (not_end_inside valid word known inside), getElem_line place,
        ← List.getElem?_drop, drop_offset known.start, known.split,
        List.getElem?_append_left inside]
    · rw [List.getElem?_eq_none (Nat.le_of_not_lt inside), List.getElem?_eq_none]
      rw [length_take]
      omega
  have rest : (terminated.drop (offset (cstring memory 0) word.q)).drop word.text.length =
      terminated.drop (offset (cstring memory 0) word.eq) := by
    rw [drop_drop, stop]
  have plain : ∀ c, c ∈ word.text -> decide (c ≠ 0) = true := by
    intro c inText
    refine decide_eq_true (ne_zero_of_mem memory (known.start.subset ?_))
    rw [known.split]
    exact mem_append_left _ inText
  rw [cstring, ← take_append_drop word.text.length
    (terminated.drop (offset (cstring memory 0) word.q)), same, rest,
    takeWhile_append_of_pos plain]
  have nul := zeroed.zero _ (mem_map_of_mem (f := fun word => offset (cstring memory 0) word.eq)
    member)
  have none : (terminated.drop (offset (cstring memory 0) word.eq)).takeWhile
      (fun c => decide (c ≠ 0)) = [] := by
    cases tail : terminated.drop (offset (cstring memory 0) word.eq) with
    | nil => rfl
    | cons c tail =>
      have head : terminated[offset (cstring memory 0) word.eq]? = some c := by
        rw [← List.head?_drop, tail]
        rfl
      rw [head] at nul
      rcases nul with impossible | zero
      · cases impossible
      · cases zero
        rfl
  rw [none, append_nil]

end Terminated

/-! ## Every command line -/

theorem Sound.strings {memory : List UInt8} {result : Parsed}
    (sound : Sound .line (cstring memory 0) result) :
    result.1.map (fun word => cstring (nulterminate (cstring memory 0) result.1 memory)
      (offset (cstring memory 0) word.q)) = result.1.map Span.text := by
  refine Cmd.map_congr result.1 (fun word member => ?_)
  exact cstring_word (fun word member => (sound.inside word member).word)
    (nulterminate_zeroed _ _ _) member

/-- `parsecmd` finishes on every NUL-terminated line, and it returns a tree exactly
if the tokens of the line derive from the grammar, and then the tree of the
derivation.  Otherwise it panics. -/
theorem parsecmd_accepts (memory : List UInt8) :
    ∃ outcome bound, (forall larger, bound ≤ larger -> parsecmd larger memory = outcome) ∧
      outcome ≠ .unfinished ∧
      forall tree, outcome = .done tree <-> Derives .line (tokens (cstring memory 0)) tree := by
  let bound := 4 * (cstring memory 0).length + 4
  have sound := (parse_sound bound).line (cstring memory 0)
  have finished : parseline bound (cstring memory 0) ≠ .unfinished := by
    intro unfinished
    rw [unfinished] at sound
    exact lt_irrefl bound sound
  have complete : forall tree, Derives .line (tokens (cstring memory 0)) tree ->
      (parseline bound (cstring memory 0)).Succeeds (Reads tree []) := by
    intro tree derives
    refine parse_complete derives bound _ [] (List.append_nil _).symm (fun token head => ?_)
    cases head
  refine ⟨parsecmd bound memory, bound, ?_, ?_⟩
  · intro larger more
    rw [parsecmd, parseline_stable _ more finished, parsecmd]
  · rw [parsecmd]
    cases parsed : parseline bound (cstring memory 0) with
    | unfinished => exact (finished parsed).elim
    | panic text =>
      refine ⟨?_, fun tree => ⟨?_, ?_⟩⟩
      · intro impossible
        cases impossible
      · intro impossible
        cases impossible
      · intro derives
        have accepted := complete tree derives
        rw [parsed] at accepted
        exact accepted.elim
    | done result =>
      rw [parsed] at sound
      have known : Sound .line (cstring memory 0) result := sound
      by_cases left : skip result.2 = []
      · have accepted : tokens result.2 = [] := by
          rw [← tokens_skip, left, tokens_nil]
        rcases known.derives with ⟨read, split, derives⟩
        rw [accepted, List.append_nil] at split
        simp only [Result.bind_eq, Result.bind, peek_snd, left, ne_eq, not_true, if_false]
        refine ⟨fun impossible => ?_, fun tree => ⟨fun same => ?_, fun derives => ?_⟩⟩
        · cases impossible
        · cases same
          rw [known.strings, split]
          exact derives
        · have reads := complete tree derives
          rw [parsed] at reads
          exact congrArg Result.done (known.strings.trans reads.tree)
      · simp only [Result.bind_eq, Result.bind, peek_snd, ne_eq, left, not_false_eq_true, if_true]
        refine ⟨fun impossible => ?_, fun tree => ⟨fun impossible => ?_, fun derives => ?_⟩⟩
        · cases impossible
        · cases impossible
        · have reads := complete tree derives
          rw [parsed] at reads
          exact absurd (skip_of_tokens_nil reads.left) left

/-- The line `a>b`. -/
example : parsecmd 20 [97, 62, 98, 0] = .done (.redir (.exec [[97]]) [98] 0x601 1) := rfl

/-- After `nulterminate` the words of the tree, read as C strings in the modified
buffer, are the texts of their tokens.  Nothing behind the NUL of the line is
written. -/
theorem nulterminate_token_texts {bound : Nat} {memory : List UInt8} {tree : Cmd Text}
    (accepted : parsecmd bound memory = .done tree) :
    ∃ parsed : Parsed, parseline bound (cstring memory 0) = .done parsed ∧
      (forall word, word ∈ parsed.1.words -> word.In (cstring memory 0) ∧
        cstring (nulterminate (cstring memory 0) parsed.1 memory)
          (offset (cstring memory 0) word.q) = word.text) ∧
      (nulterminate (cstring memory 0) parsed.1 memory).length = memory.length ∧
      forall place, (nulterminate (cstring memory 0) parsed.1 memory)[place]? ≠ memory[place]? ->
        place ≤ (cstring memory 0).length := by
  have sound := (parse_sound bound).line (cstring memory 0)
  rw [parsecmd] at accepted
  cases result : parseline bound (cstring memory 0) with
  | unfinished =>
    rw [result] at accepted
    cases accepted
  | panic text =>
    rw [result] at accepted
    cases accepted
  | done parsed =>
    rw [result] at sound
    have inside : forall word, word ∈ parsed.1.words -> word.In (cstring memory 0) := sound.inside
    have zeroed := nulterminate_zeroed (cstring memory 0) parsed.1 memory
    refine ⟨parsed, rfl, ?_, zeroed.length, ?_⟩
    · intro word member
      refine ⟨inside word member, ?_⟩
      exact cstring_word (fun word member => (inside word member).word) zeroed member
    · intro place changed
      have written : place ∈ ends (cstring memory 0) parsed.1.words := by
        by_contra untouched
        exact changed (zeroed.other place untouched)
      obtain ⟨word, _, rfl⟩ := List.mem_map.mp written
      exact Nat.sub_le _ _

/-- The line `a>b`, whose words end at an operator and at the end of the line. -/
theorem nulterminate_redirected :
    ∃ parsed : Parsed, parseline 20 (cstring [97, 62, 98, 0] 0) = .done parsed ∧
      forall word, word ∈ parsed.1.words ->
        cstring (nulterminate (cstring [97, 62, 98, 0] 0) parsed.1 [97, 62, 98, 0])
          (offset (cstring [97, 62, 98, 0] 0) word.q) = word.text := by
  have accepted : parsecmd 20 [97, 62, 98, 0] = .done (.redir (.exec [[97]]) [98] 0x601 1) := rfl
  obtain ⟨parsed, result, words, _⟩ := nulterminate_token_texts accepted
  exact ⟨parsed, result, fun word member => (words word member).2⟩

end Shell
end Xv6
