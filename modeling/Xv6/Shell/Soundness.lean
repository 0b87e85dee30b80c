import Xv6.Shell.Parser

namespace Xv6
namespace Shell

open List

/-!
# What the parser returns is derivable

A parser that returns has read a beginning of the tokens which derives from
its nonterminal, and the tree it returns is the one of the derivation.  It needs
no larger bound than one that is linear in the text.
-/

/-! ## Trees -/

namespace Cmd

variable {W V : Type} {s : Text} {cmd : Cmd Span}

/-- All words of a tree. -/
def words : Cmd W -> List W
  | exec argv => argv
  | redir cmd file _ _ => cmd.words ++ [file]
  | pipe left right => left.words ++ right.words
  | list left right => left.words ++ right.words
  | back cmd => cmd.words

theorem map_redirected (f : W -> V) (cmd : Cmd W) (redirs : List (Redir W)) :
    (cmd.redirected redirs).map f = (cmd.map f).redirected (redirs.map (Prod.map id f)) := by
  induction redirs generalizing cmd with
  | nil => rfl
  | cons redir redirs ih => exact ih _

theorem redirected_append (cmd : Cmd W) (first second : List (Redir W)) :
    cmd.redirected (first ++ second) = (cmd.redirected first).redirected second :=
  foldl_append

/-- A word goes to the command inside its redirections. -/
theorem addArg_redirected (word : W) (cmd : Cmd W) (redirs : List (Redir W)) :
    (cmd.redirected redirs).addArg word = (cmd.addArg word).redirected redirs := by
  induction redirs generalizing cmd with
  | nil => rfl
  | cons redir redirs ih => exact ih _

theorem mem_words_redirected {cmd : Cmd W} {redirs : List (Redir W)} {word : W}
    (member : word ∈ (cmd.redirected redirs).words) :
    word ∈ cmd.words ∨ ∃ redir, redir ∈ redirs ∧ redir.2 = word := by
  induction redirs generalizing cmd with
  | nil => exact Or.inl member
  | cons redir redirs ih =>
    rcases ih member with inside | ⟨other, known, same⟩
    · rcases mem_append.mp inside with inner | file
      · exact Or.inl inner
      · exact Or.inr ⟨redir, mem_cons_self, (mem_singleton.mp file).symm⟩
    · exact Or.inr ⟨other, mem_cons_of_mem _ known, same⟩

/-- Words with redirections after each of them, added one after the other. -/
def withWords (cmd : Cmd W) (words : List (W × List (Redir W))) : Cmd W :=
  words.foldl (fun cmd word => (cmd.addArg word.1).redirected word.2) cmd

/-- The words end up in the command, and the redirections around it in order. -/
theorem withWords_exec (argv : List W) (redirs : List (Redir W))
    (words : List (W × List (Redir W))) :
    ((exec argv).redirected redirs).withWords words =
      (exec (argv ++ words.map Prod.fst)).redirected (redirs ++ words.flatMap Prod.snd) := by
  induction words generalizing argv redirs with
  | nil =>
    rw [map_nil, flatMap_nil, append_nil, append_nil]
    rfl
  | cons word words ih =>
    rw [withWords, foldl_cons, addArg_redirected, ← redirected_append]
    refine (ih (argv ++ [word.1]) (redirs ++ word.2)).trans ?_
    rw [map_cons, flatMap_cons, append_assoc, append_assoc]
    rfl

end Cmd

/-! ## What the loops return

A function that has used up its bound was given one that is small for the text.
-/

/-- A token has been read. -/
theorem shorter_of_kind {s : Text} {kind : Kind} (found : (gettoken s).kind = kind)
    (real : kind ≠ .eof) : (gettoken s).rest.length < s.length := by
  refine gettoken_shrinks ?_
  rw [found]
  exact real

/-- The word was found by `gettoken` somewhere in the text. -/
def Span.In (s : Text) (word : Span) : Prop :=
  ∃ ps, ps <:+ s ∧ (gettoken ps).kind = .word ∧ word = (gettoken ps).span

theorem Span.In.mono {s t : Text} {word : Span} (found : word.In s) (suffix : s <:+ t) :
    word.In t := by
  rcases found with ⟨ps, inside, isWord, same⟩
  exact ⟨ps, inside.trans suffix, isWord, same⟩

theorem token_word {lexeme : Lexeme} (isWord : lexeme.kind = .word) :
    lexeme.token = some (.word lexeme.span.text) := by
  rw [Lexeme.token, isWord]

abbrev texts (redirs : List (Redir Span)) : List (Redir Text) := redirs.map (Prod.map id Span.text)

/-- Redirections have been read. -/
structure ReadRedirs (cmd : Cmd Span) (s : Text) (result : Parsed) : Prop where
  suffix : result.2 <:+ s
  read : ∃ redirs, result.1 = cmd.redirected redirs ∧
    tokens s = redirTokens (texts redirs) ++ tokens result.2 ∧
    forall redir, redir ∈ redirs -> redir.2.In s

theorem redircmd_eq {tok : Kind} {op : RedirOp} (found : tok.redir = some op) (cmd : Cmd Span)
    (file : Span) : redircmd cmd tok file = cmd.redirected [(op, file)] := by
  cases tok <;> cases found <;> rfl

/-- One more redirection in front. -/
theorem ReadRedirs.cons {op : RedirOp} {result : Parsed} (found : (gettoken s).kind.redir = some op)
    (isWord : (gettoken (gettoken s).rest).kind = .word)
    (known : ReadRedirs (cmd.redirected [(op, (gettoken (gettoken s).rest).span)])
      (gettoken (gettoken s).rest).rest result) : ReadRedirs cmd s result := by
  have first := gettoken_suffix s
  have second := (gettoken_suffix (gettoken s).rest).trans first
  rcases known with ⟨suffix, redirs, tree, read, inside⟩
  refine ⟨suffix.trans second, (op, (gettoken (gettoken s).rest).span) :: redirs, ?_, ?_, ?_⟩
  · rw [tree, ← Cmd.redirected_append]
    rfl
  · rw [tokens_some (token_redir found), tokens_some (token_word isWord), read]
    rfl
  · intro redir member
    rcases mem_cons.mp member with same | later
    · rw [same]
      exact ⟨_, first, isWord, rfl⟩
    · exact (inside redir later).mono second

theorem parseredirs_sound (bound : Nat) (cmd : Cmd Span) (s : Text) :
    (parseredirs bound cmd s).Ends True (bound ≤ s.length) (ReadRedirs cmd s) := by
  induction bound generalizing cmd s with
  | zero => exact Nat.zero_le _
  | succ bound ih =>
    simp only [parseredirs, peek_redir, peek_snd, gettoken_skip]
    cases found : (gettoken s).kind.redir with
    | none =>
      refine ⟨skip_suffix s, [], rfl, ?_, fun _ member => absurd member not_mem_nil⟩
      exact (tokens_skip s).symm
    | some op =>
      rw [Option.isSome_some, if_pos rfl]
      split
      · trivial
      · next isWord =>
          have first := (gettoken_suffix s).length_le
          have second := shorter_of_kind (not_not.mp isWord) (by decide)
          rw [redircmd_eq found]
          refine (ih _ _).mono (fun early => by omega) (fun result known => ?_)
          exact known.cons found (not_not.mp isWord)

abbrev wordTexts (words : List (Span × List (Redir Span))) : List (Text × List (Redir Text)) :=
  words.map (Prod.map Span.text texts)

/-- Words with redirections have been read. -/
structure ReadWords (cmd : Cmd Span) (argc : Nat) (s : Text) (result : Parsed) : Prop where
  suffix : result.2 <:+ s
  read : ∃ words, result.1 = cmd.withWords words ∧
    tokens s = wordTokens (wordTexts words) ++ tokens result.2 ∧
    (words ≠ [] -> argc + words.length ≤ MAXARGS - 1) ∧
    forall word, word ∈ words -> word.1.In s ∧ forall redir, redir ∈ word.2 -> redir.2.In s

theorem ReadWords.nil {argc : Nat} {s rest : Text} (suffix : rest <:+ s)
    (same : tokens rest = tokens s) : ReadWords cmd argc s (cmd, rest) :=
  ⟨suffix, [], rfl, same.symm, fun some => absurd rfl some,
    fun _ member => absurd member not_mem_nil⟩

theorem ReadWords.cons {argc : Nat} {between result : Parsed} (isWord : (gettoken s).kind = .word)
    (few : argc + 1 < MAXARGS)
    (redirs : ReadRedirs (cmd.addArg (gettoken s).span) (gettoken s).rest between)
    (known : ReadWords between.1 (argc + 1) between.2 result) : ReadWords cmd argc s result := by
  have first := gettoken_suffix s
  rcases redirs with ⟨second, redirs, tree, read, inside⟩
  rcases known with ⟨third, words, trees, reads, count, insides⟩
  refine ⟨third.trans (second.trans first), ((gettoken s).span, redirs) :: words, ?_, ?_, ?_, ?_⟩
  · rw [trees, tree]
    rfl
  · rw [tokens_some (token_word isWord), read, reads]
    simp only [wordTokens, wordTexts, texts, map_cons, flatMap_cons, Prod.map,
      cons_append, append_assoc]
  · intro _
    rw [length_cons]
    cases words with
    | nil => exact Nat.le_sub_one_of_lt few
    | cons word words =>
      have count := count (cons_ne_nil _ _)
      omega
  · intro word member
    rcases mem_cons.mp member with same | later
    · rw [same]
      exact ⟨⟨s, suffix_refl s, isWord, rfl⟩, fun redir known => (inside redir known).mono first⟩
    · have deeper := second.trans first
      rcases insides word later with ⟨wordIn, redirsIn⟩
      exact ⟨wordIn.mono deeper, fun redir known => (redirsIn redir known).mono deeper⟩

theorem parsewords_sound (bound : Nat) (cmd : Cmd Span) (argc : Nat) (s : Text) :
    (parsewords bound cmd argc s).Ends True (bound ≤ s.length) (ReadWords cmd argc s) := by
  induction bound generalizing cmd argc s with
  | zero => exact Nat.zero_le _
  | succ bound ih =>
    simp only [parsewords, peek_stops, peek_snd, gettoken_skip]
    split
    · exact ReadWords.nil (skip_suffix s) (tokens_skip s)
    · split
      · next eof =>
          have none := (token_eq_none_iff _).mpr eof
          refine ReadWords.nil (gettoken_suffix s) ?_
          rw [gettoken_eof eof, tokens_none none, tokens_nil]
      · split
        · trivial
        · next isWord =>
            split
            · trivial
            · next few =>
                have shorter := shorter_of_kind (not_not.mp isWord) (by decide)
                refine Result.Ends.bind (parseredirs_sound _ _ _) (fun early => by omega)
                  (fun between redirs => ?_)
                have further := redirs.suffix.length_le
                refine (ih _ _ _).mono (fun early => by omega) (fun result known => ?_)
                exact ReadWords.cons (not_not.mp isWord) (Nat.lt_of_not_ge few) redirs known

/-- Ampersands have been read. -/
structure ReadBacks (cmd : Cmd Span) (s : Text) (result : Parsed) : Prop where
  suffix : result.2 <:+ s
  read : ∃ count, result.1 = cmd.backs count ∧
    tokens s = List.replicate count .amp ++ tokens result.2

theorem backs_succ {W : Type} (cmd : Cmd W) (count : Nat) :
    (Cmd.back cmd).backs count = cmd.backs (count + 1) := by
  induction count with
  | zero => rfl
  | succ count ih => exact congrArg Cmd.back ih

theorem parsebacks_sound (bound : Nat) (cmd : Cmd Span) (s : Text) :
    (parsebacks bound cmd s).Ends True (bound ≤ s.length) (ReadBacks cmd s) := by
  induction bound generalizing cmd s with
  | zero => exact Nat.zero_le _
  | succ bound ih =>
    simp only [parsebacks, peek_amp, peek_snd, gettoken_skip]
    split
    · next kind =>
        have shorter := shorter_of_kind kind (by decide)
        refine (ih _ _).mono (fun early => by omega) (fun result known => ?_)
        rcases known with ⟨suffix, count, tree, read⟩
        refine ⟨suffix.trans (gettoken_suffix s), count + 1, ?_, ?_⟩
        · rw [tree, backs_succ]
        · have token : (gettoken s).token = some .amp := by
            rw [Lexeme.token, kind]
          rw [tokens_some token, read, replicate_succ, cons_append]
    · exact ⟨skip_suffix s, 0, rfl, (tokens_skip s).symm⟩

/-! ## The recursive functions -/

/-- What a function for the nonterminal may return at this position. -/
structure Sound (nonterminal : Nonterminal) (s : Text) (result : Parsed) : Prop where
  suffix : result.2 <:+ s
  derives : ∃ read, tokens s = read ++ tokens result.2 ∧
    Derives nonterminal read (result.1.map Span.text)
  inside : forall word, word ∈ result.1.words -> word.In s

theorem map_backs {W V : Type} (f : W -> V) (cmd : Cmd W) (count : Nat) :
    (cmd.backs count).map f = (cmd.map f).backs count := by
  induction count with
  | zero => rfl
  | succ count ih => exact congrArg Cmd.back ih

theorem words_backs {W : Type} (cmd : Cmd W) (count : Nat) :
    (cmd.backs count).words = cmd.words := by
  induction count with
  | zero => rfl
  | succ count ih => exact ih

theorem Sound.last {first left : Parsed} (pipe : Sound .pipe s first)
    (backs : ReadBacks first.1 first.2 left) : Sound .line s (left.1, skip left.2) := by
  rcases pipe with ⟨suffix, ⟨read, split, derives⟩, inside⟩
  rcases backs with ⟨further, count, tree, ampersands⟩
  refine ⟨(skip_suffix _).trans (further.trans suffix), ⟨read ++ List.replicate count .amp, ?_, ?_⟩,
    ?_⟩
  · rw [tokens_skip, split, ampersands, append_assoc]
  · rw [tree, map_backs]
    exact .last count derives
  · rw [tree, words_backs]
    exact inside

theorem Sound.more {first left right : Parsed} (pipe : Sound .pipe s first)
    (backs : ReadBacks first.1 first.2 left) (semi : (gettoken left.2).kind = .semi)
    (line : Sound .line (gettoken left.2).rest right) :
    Sound .line s (.list left.1 right.1, right.2) := by
  rcases pipe with ⟨suffix, ⟨read, split, derives⟩, inside⟩
  rcases backs with ⟨further, count, tree, ampersands⟩
  rcases line with ⟨last, ⟨readRight, splitRight, derivesRight⟩, insideRight⟩
  have token : (gettoken left.2).token = some .semi := by
    rw [Lexeme.token, semi]
  have start := (gettoken_suffix left.2).trans (further.trans suffix)
  refine ⟨last.trans start, ⟨read ++ List.replicate count .amp ++ .semi :: readRight, ?_, ?_⟩, ?_⟩
  · rw [split, ampersands, tokens_some token, splitRight]
    simp only [append_assoc, cons_append]
  · rw [Cmd.map, tree, map_backs]
    exact .more count derives derivesRight
  · intro word member
    rcases mem_append.mp member with isLeft | isRight
    · rw [tree, words_backs] at isLeft
      exact inside word isLeft
    · exact (insideRight word isRight).mono start

theorem Sound.single {left : Parsed} (exec : Sound .exec s left) :
    Sound .pipe s (left.1, skip left.2) := by
  rcases exec with ⟨suffix, ⟨read, split, derives⟩, inside⟩
  refine ⟨(skip_suffix _).trans suffix, ⟨read, ?_, .single derives⟩, inside⟩
  rw [tokens_skip, split]

theorem Sound.piped {left right : Parsed} (exec : Sound .exec s left)
    (bar : (gettoken left.2).kind = .bar) (pipe : Sound .pipe (gettoken left.2).rest right) :
    Sound .pipe s (.pipe left.1 right.1, right.2) := by
  rcases exec with ⟨suffix, ⟨read, split, derives⟩, inside⟩
  rcases pipe with ⟨last, ⟨readRight, splitRight, derivesRight⟩, insideRight⟩
  have token : (gettoken left.2).token = some .bar := by
    rw [Lexeme.token, bar]
  have start := (gettoken_suffix left.2).trans suffix
  refine ⟨last.trans start, ⟨read ++ .bar :: readRight, ?_, .piped derives derivesRight⟩, ?_⟩
  · rw [split, tokens_some token, splitRight, append_assoc, cons_append]
  · intro word member
    rcases mem_append.mp member with isLeft | isRight
    · exact inside word isLeft
    · exact (insideRight word isRight).mono start

theorem Sound.block {inner result : Parsed} (lparen : (gettoken s).kind = .lparen)
    (line : Sound .line (gettoken s).rest inner) (rparen : (gettoken inner.2).kind = .rparen)
    (redirs : ReadRedirs inner.1 (gettoken inner.2).rest result) : Sound .exec s result := by
  rcases line with ⟨suffix, ⟨read, split, derives⟩, inside⟩
  rcases redirs with ⟨last, redirs, tree, readRedirs, insideRedirs⟩
  have opening : (gettoken s).token = some .lparen := by
    rw [Lexeme.token, lparen]
  have closing : (gettoken inner.2).token = some .rparen := by
    rw [Lexeme.token, rparen]
  have first := suffix.trans (gettoken_suffix s)
  have second := (gettoken_suffix inner.2).trans first
  refine ⟨last.trans second, ⟨.lparen :: read ++ .rparen :: redirTokens (texts redirs), ?_, ?_⟩, ?_⟩
  · rw [tokens_some opening, split, tokens_some closing, readRedirs]
    simp only [cons_append, append_assoc]
  · rw [tree, Cmd.map_redirected]
    exact .block derives (texts redirs)
  · intro word member
    rw [tree] at member
    rcases Cmd.mem_words_redirected member with isInner | ⟨redir, known, same⟩
    · exact (inside word isInner).mono (gettoken_suffix s)
    · rw [← same]
      exact (insideRedirs redir known).mono second

theorem Sound.simple {first result : Parsed} (redirs : ReadRedirs (.exec []) s first)
    (words : ReadWords first.1 0 first.2 result) : Sound .exec s result := by
  rcases redirs with ⟨suffix, redirs, tree, read, inside⟩
  rcases words with ⟨last, words, trees, reads, few, insides⟩
  have whole : result.1 = (Cmd.exec (words.map Prod.fst)).redirected
      (redirs ++ words.flatMap Prod.snd) := by
    rw [trees, tree, Cmd.withWords_exec, nil_append]
  refine ⟨last.trans suffix,
    ⟨redirTokens (texts redirs) ++ wordTokens (wordTexts words), ?_, ?_⟩, ?_⟩
  · rw [read, reads, append_assoc]
  · have count : (wordTexts words).length ≤ MAXARGS - 1 := by
      rw [length_map]
      cases words with
      | nil => exact Nat.zero_le _
      | cons word words => exact Nat.le_of_add_left_le (few (cons_ne_nil _ _))
    have derives := Derives.simple (texts redirs) (wordTexts words) count
    rw [whole, Cmd.map_redirected, Cmd.map]
    simp only [texts, wordTexts, map_append, map_flatMap, flatMap_map, map_map] at derives ⊢
    exact derives
  · intro word member
    rw [whole] at member
    rcases Cmd.mem_words_redirected member with isWord | ⟨redir, known, same⟩
    · rcases mem_map.mp isWord with ⟨entry, listed, same⟩
      rw [← same]
      exact (insides entry listed).1.mono suffix
    · rw [← same]
      rcases mem_append.mp known with early | late
      · exact inside redir early
      · rcases mem_flatMap.mp late with ⟨entry, listed, within⟩
        exact ((insides entry listed).2 redir within).mono suffix

/-- What the four functions return.  Their bounds leave room for the calls among them. -/
structure AllSound (bound : Nat) : Prop where
  line : forall s, (parseline bound s).Ends True (bound < 4 * s.length + 4) (Sound .line s)
  pipe : forall s, (parsepipe bound s).Ends True (bound < 4 * s.length + 3) (Sound .pipe s)
  exec : forall s, (parseexec bound s).Ends True (bound < 4 * s.length + 2) (Sound .exec s)
  block : forall s, (parseblock bound s).Ends True (bound < 4 * s.length + 1) (Sound .exec s)

theorem parse_sound (bound : Nat) : AllSound bound := by
  induction bound with
  | zero =>
    exact ⟨fun _ => Nat.succ_pos _, fun _ => Nat.succ_pos _, fun _ => Nat.succ_pos _,
      fun _ => Nat.succ_pos _⟩
  | succ bound ih =>
    constructor
    · intro s
      rw [parseline]
      refine Result.Ends.bind (ih.pipe s) (fun early => by omega) (fun first pipe => ?_)
      have toFirst := pipe.suffix.length_le
      refine Result.Ends.bind (parsebacks_sound _ _ _) (fun early => by omega)
        (fun left backs => ?_)
      have toLeft := backs.suffix.length_le
      simp only [peek_semi, peek_snd, gettoken_skip]
      split
      · next semi =>
          have shorter := shorter_of_kind semi (by decide)
          refine Result.Ends.bind (ih.line _) (fun early => by omega) (fun right line => ?_)
          exact pipe.more backs semi line
      · exact pipe.last backs
    · intro s
      rw [parsepipe]
      refine Result.Ends.bind (ih.exec s) (fun early => by omega) (fun left exec => ?_)
      have toLeft := exec.suffix.length_le
      simp only [peek_bar, peek_snd, gettoken_skip]
      split
      · next bar =>
          have shorter := shorter_of_kind bar (by decide)
          refine Result.Ends.bind (ih.pipe _) (fun early => by omega) (fun right pipe => ?_)
          exact exec.piped bar pipe
      · exact exec.single
    · intro s
      have skipped := (skip_suffix s).length_le
      simp only [parseexec, peek_lparen, peek_snd]
      split
      · refine (ih.block _).mono (fun early => by omega) (fun result known => ?_)
        rcases known with ⟨suffix, ⟨read, split, derives⟩, inside⟩
        rw [tokens_skip] at split
        exact ⟨suffix.trans (skip_suffix s), ⟨read, split, derives⟩,
          fun word member => (inside word member).mono (skip_suffix s)⟩
      · refine Result.Ends.bind (parseredirs_sound _ _ _) (fun early => by omega)
          (fun first redirs => ?_)
        have toFirst := redirs.suffix.length_le
        refine (parsewords_sound _ _ _ _).mono (fun early => by omega) (fun result words => ?_)
        rcases redirs with ⟨suffix, redirs, tree, read, inside⟩
        rw [tokens_skip] at read
        exact Sound.simple ⟨suffix.trans (skip_suffix s), redirs, tree, read,
          fun redir known => (inside redir known).mono (skip_suffix s)⟩ words
    · intro s
      simp only [parseblock, Bool.not_eq_eq_eq_not, Bool.not_true, ← Bool.not_eq_true,
        peek_lparen, peek_snd, gettoken_skip]
      split
      · trivial
      · next lparen =>
          have shorter := shorter_of_kind (not_not.mp lparen) (by decide)
          refine Result.Ends.bind (ih.line _) (fun early => by omega) (fun inner line => ?_)
          have toInner := line.suffix.length_le
          simp only [peek_rparen]
          split
          · trivial
          · next rparen =>
              have last := (gettoken_suffix inner.2).length_le
              refine (parseredirs_sound _ _ _).mono (fun early => by omega)
                (fun result redirs => ?_)
              exact line.block (not_not.mp lparen) (not_not.mp rparen) redirs

end Shell
end Xv6
