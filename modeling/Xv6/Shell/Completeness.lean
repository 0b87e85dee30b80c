import Xv6.Shell.Soundness

namespace Xv6
namespace Shell

open List

/-!
# Derivable lines are accepted

Tokens that derive from a nonterminal, followed by a token that may follow it,
make the function of the nonterminal return the tree of the derivation: the
function stops neither earlier nor later, and it does not panic.
-/

/-! ## Tokens ahead -/

variable {rest : List Token} {s : Text} {token : Token} {nonterminal : Nonterminal}

theorem gettoken_of_tokens (read : tokens s = token :: rest) :
    (gettoken s).token = some token ∧ tokens (gettoken s).rest = rest := by
  cases found : (gettoken s).token with
  | none =>
    rw [tokens_none found] at read
    cases read
  | some other =>
    rw [tokens_some found] at read
    cases read
    exact ⟨rfl, rfl⟩

theorem kind_of_tokens_nil (read : tokens s = []) : (gettoken s).kind = .eof :=
  (scan_eof_iff _).mpr (skip_of_tokens_nil read)

/-- The kind of a token. -/
def Token.kind : Token -> Kind
  | .word _ => .word
  | .bar => .bar
  | .lparen => .lparen
  | .rparen => .rparen
  | .semi => .semi
  | .amp => .amp
  | .redir .input => .less
  | .redir .output => .greater
  | .redir .append => .append

theorem kind_of_token {lexeme : Lexeme} (found : lexeme.token = some token) :
    lexeme.kind = token.kind := by
  unfold Lexeme.token at found
  cases kind : lexeme.kind <;> rw [kind] at found <;> cases found <;> rfl

theorem kind_of_tokens (read : tokens s = token :: rest) : (gettoken s).kind = token.kind :=
  kind_of_token (gettoken_of_tokens read).1

theorem text_of_word {lexeme : Lexeme} {text : Text} (found : lexeme.token = some (.word text)) :
    lexeme.span.text = text := by
  rw [token_word (kind_of_token found)] at found
  cases found
  rfl

/-- The tokens that can follow what derives from a nonterminal. -/
def Token.follows : Nonterminal -> Token -> Bool
  | .line, token => token = .rparen
  | .pipe, token => token = .rparen || token = .amp || token = .semi
  | .exec, token => token = .rparen || token = .amp || token = .semi || token = .bar

/-- The rest of the line may follow. -/
def Follows (nonterminal : Nonterminal) (rest : List Token) : Prop :=
  forall token, rest.head? = some token -> token.follows nonterminal = true

/-- The kind of the next token, whatever may follow. -/
theorem Follows.kind (follows : Follows nonterminal (tokens s)) : (gettoken s).kind = .eof ∨
      ∃ token : Token, (gettoken s).kind = token.kind ∧ token.follows nonterminal = true := by
  cases read : tokens s with
  | nil => exact Or.inl (kind_of_tokens_nil read)
  | cons token rest =>
    refine Or.inr ⟨token, kind_of_tokens read, follows token ?_⟩
    rw [read]
    rfl

/-! ## Success -/

/-- The parser does not panic, and what it returns satisfies `goal`. -/
abbrev Result.Succeeds {α : Type} : (α -> Prop) -> Result α -> Prop := Result.Ends False True

/-- The tree reads as `cmd`, and these tokens are left. -/
structure Reads (cmd : Cmd Text) (rest : List Token) (result : Parsed) : Prop where
  tree : result.1.map Span.text = cmd
  left : tokens result.2 = rest

/-- No redirection comes next. -/
def NoRedir (rest : List Token) : Prop := forall op, rest.head? ≠ some (.redir op)

theorem NoRedir.kind (plain : NoRedir (tokens s)) : (gettoken s).kind.redir = none := by
  cases read : tokens s with
  | nil =>
    rw [kind_of_tokens_nil read]
    rfl
  | cons token rest =>
    rw [kind_of_tokens read]
    rw [read] at plain
    cases token with
    | redir op => exact absurd rfl (plain op)
    | _ => rfl

theorem parseredirs_complete (bound : Nat) (cmd : Cmd Span) (s : Text)
    (redirs : List (Redir Text)) (rest : List Token) (read : tokens s = redirTokens redirs ++ rest)
    (plain : NoRedir rest) :
    (parseredirs bound cmd s).Succeeds (Reads ((cmd.map Span.text).redirected redirs) rest) := by
  induction bound generalizing cmd s redirs with
  | zero => trivial
  | succ bound ih =>
    simp only [parseredirs, peek_redir, peek_snd, gettoken_skip]
    cases redirs with
    | nil =>
      have noMore : (gettoken s).kind.redir = none := by
        refine NoRedir.kind ?_
        rw [read]
        exact plain
      rw [noMore]
      exact ⟨rfl, (tokens_skip s).trans read⟩
    | cons redir redirs =>
      rcases gettoken_of_tokens read with ⟨operator, afterOperator⟩
      rcases gettoken_of_tokens afterOperator with ⟨file, afterFile⟩
      have kind := kind_of_token operator
      have isWord : (gettoken (gettoken s).rest).kind = .word := kind_of_token file
      have found : (gettoken s).kind.redir = some redir.1 := by
        rw [kind]
        cases redir.1 <;> rfl
      rw [found, Option.isSome_some, if_pos rfl, if_neg (not_not.mpr isWord), redircmd_eq found]
      refine (ih _ _ redirs afterFile).mono id (fun result reads => ⟨?_, reads.left⟩)
      rw [reads.tree, Cmd.map_redirected, map_singleton, Prod.map, text_of_word file]
      rfl

theorem Cmd.map_addArg {W V : Type} (f : W -> V) (word : W) (cmd : Cmd W) :
    (cmd.addArg word).map f = (cmd.map f).addArg (f word) := by
  induction cmd with
  | exec argv => simp only [Cmd.addArg, Cmd.map, map_append, map_cons, map_nil]
  | redir cmd file mode fd ih => simp only [Cmd.addArg, Cmd.map, ih]
  | pipe left right => rfl
  | list left right => rfl
  | back cmd => rfl

theorem Follows.noRedir (follows : Follows nonterminal rest) : NoRedir rest := by
  intro op head
  have impossible := follows _ head
  cases nonterminal <;> simp [Token.follows] at impossible

theorem wordTokens_cons (word : Text × List (Redir Text))
    (words : List (Text × List (Redir Text))) :
    wordTokens (word :: words) = .word word.1 :: (redirTokens word.2 ++ wordTokens words) :=
  flatMap_cons

theorem noRedir_wordTokens {words : List (Text × List (Redir Text))} (plain : NoRedir rest) :
    NoRedir (wordTokens words ++ rest) := by
  cases words with
  | nil => exact plain
  | cons word words =>
    intro op head
    cases head

theorem parsewords_complete (bound : Nat) (cmd : Cmd Span) (argc : Nat) (s : Text)
    (words : List (Text × List (Redir Text))) (rest : List Token)
    (read : tokens s = wordTokens words ++ rest) (follows : Follows .exec rest)
    (few : argc + words.length ≤ MAXARGS - 1) :
    (parsewords bound cmd argc s).Succeeds (Reads ((cmd.map Span.text).withWords words) rest) := by
  induction bound generalizing cmd argc s words with
  | zero => trivial
  | succ bound ih =>
    simp only [parsewords, peek_stops, peek_snd, gettoken_skip]
    cases words with
    | nil =>
      have kind : (gettoken s).kind = .eof ∨ (gettoken s).kind.stops = true := by
        have ahead : Follows .exec (tokens s) := by
          rw [read]
          exact follows
        rcases ahead.kind with eof | ⟨token, kind, fine⟩
        · exact Or.inl eof
        · rw [kind]
          cases token <;> simp_all [Token.follows, Token.kind, Kind.stops]
      split
      · exact ⟨rfl, (tokens_skip s).trans read⟩
      · next goOn =>
          have eof := kind.resolve_right goOn
          rw [if_pos eof]
          refine ⟨rfl, ?_⟩
          rw [gettoken_eof eof, tokens_nil, ← tokens_none ((token_eq_none_iff _).mpr eof)]
          exact read
    | cons word words =>
      rw [wordTokens_cons, cons_append, append_assoc] at read
      rcases gettoken_of_tokens read with ⟨found, after⟩
      have isWord : (gettoken s).kind = .word := kind_of_token found
      rw [length_cons] at few
      have room : ¬ argc + 1 ≥ MAXARGS := by
        have size : MAXARGS = 10 := rfl
        omega
      rw [isWord, if_neg (by decide), if_neg (by decide), if_neg (by decide), if_neg room]
      refine Result.Ends.bind (parseredirs_complete bound _ _ word.2 _ after
        (noRedir_wordTokens follows.noRedir)) id (fun between reads => ?_)
      refine (ih _ _ _ words reads.left (by omega)).mono id (fun result more => ⟨?_, more.left⟩)
      rw [more.tree, reads.tree, Cmd.map_addArg, text_of_word found]
      rfl

theorem parsebacks_complete (bound : Nat) (cmd : Cmd Span) (s : Text) (count : Nat)
    (rest : List Token) (read : tokens s = List.replicate count .amp ++ rest)
    (other : rest.head? ≠ some .amp) :
    (parsebacks bound cmd s).Succeeds (Reads ((cmd.map Span.text).backs count) rest) := by
  induction bound generalizing cmd s count with
  | zero => trivial
  | succ bound ih =>
    simp only [parsebacks, peek_amp, peek_snd, gettoken_skip]
    cases count with
    | zero =>
      have stop : (gettoken s).kind ≠ .amp := by
        intro isAmp
        have token : (gettoken s).token = some .amp := by
          rw [Lexeme.token, isAmp]
        rw [tokens_some token] at read
        refine other ?_
        rw [← nil_append rest, ← replicate_zero, ← read]
        rfl
      rw [if_neg stop]
      exact ⟨rfl, (tokens_skip s).trans read⟩
    | succ count =>
      rw [replicate_succ, cons_append] at read
      rcases gettoken_of_tokens read with ⟨found, after⟩
      have isAmp : (gettoken s).kind = .amp := kind_of_token found
      rw [if_pos isAmp]
      refine (ih _ _ count after).mono id (fun result reads => ⟨?_, reads.left⟩)
      rw [reads.tree, Cmd.map, backs_succ]

/-! ## The recursive functions -/

/-- The function of a nonterminal. -/
def parse : Nonterminal -> Nat -> Text -> Result Parsed
  | .line => parseline
  | .pipe => parsepipe
  | .exec => parseexec

theorem parseline_complete {first rest after : List Token} {cmd tree : Cmd Text} {count : Nat}
    (read : tokens s = first ++ (List.replicate count .amp ++ after))
    (pipe : ∀ bound s rest, tokens s = first ++ rest -> Follows .pipe rest ->
      (parse .pipe bound s).Succeeds (Reads cmd rest))
    (follows : Follows .pipe (List.replicate count .amp ++ after)) (noAmp : after.head? ≠ some .amp)
    (next : ∀ bound left, Reads (cmd.backs count) after left ->
      Result.Succeeds (Reads tree rest) (if (gettoken left.2).kind = .semi then do
          let right ← parseline bound (gettoken left.2).rest
          pure (.list left.1 right.1, right.2)
        else pure (left.1, skip left.2))) (bound : Nat) :
    (parse .line bound s).Succeeds (Reads tree rest) := by
  cases bound with
  | zero =>
    rw [parse, parseline]
    trivial
  | succ bound =>
    rw [parse, parseline]
    refine Result.Ends.bind (pipe bound s _ read follows) id (fun first reads => ?_)
    refine Result.Ends.bind (parsebacks_complete bound _ _ count _ reads.left noAmp) id
      (fun left backs => ?_)
    simp only [peek_semi, peek_snd, gettoken_skip]
    rw [reads.tree] at backs
    exact next bound left backs

theorem Follows.cons (fine : token.follows nonterminal = true) :
    Follows nonterminal (token :: rest) := by
  intro other head
  cases head
  exact fine

/-- What may follow a line may follow everything else. -/
theorem Follows.of_line (follows : Follows .line rest) : Follows nonterminal rest := by
  intro token head
  have isRparen : token = .rparen := of_decide_eq_true (follows token head)
  rw [isRparen]
  cases nonterminal <;> rfl

theorem Follows.amps (follows : Follows .pipe rest) (count : Nat) :
    Follows .pipe (List.replicate count .amp ++ rest) := by
  cases count with
  | zero => exact follows
  | succ count => exact Follows.cons rfl

theorem Follows.exec_of_pipe (follows : Follows .pipe rest) : Follows .exec rest := by
  intro token head
  have fine := follows token head
  cases token <;> simp_all [Token.follows]

theorem Follows.not_kind {kind : Kind} (follows : Follows nonterminal (tokens s))
    (real : kind ≠ .eof)
    (never : ∀ token : Token, token.kind = kind -> token.follows nonterminal = false) :
    (gettoken s).kind ≠ kind := by
  intro same
  rcases follows.kind with eof | ⟨token, found, fine⟩
  · exact real (same.symm.trans eof)
  · rw [never token (found.symm.trans same)] at fine
    cases fine

theorem parsepipe_succeeds {first after rest : List Token} {cmd tree : Cmd Text}
    (read : tokens s = first ++ after)
    (exec : ∀ bound s rest, tokens s = first ++ rest -> Follows .exec rest ->
      (parse .exec bound s).Succeeds (Reads cmd rest)) (follows : Follows .exec after)
    (next : ∀ bound left, Reads cmd after left ->
      Result.Succeeds (Reads tree rest) (if (gettoken left.2).kind = .bar then do
          let right ← parsepipe bound (gettoken left.2).rest
          pure (.pipe left.1 right.1, right.2)
        else pure (left.1, skip left.2))) (bound : Nat) :
    (parse .pipe bound s).Succeeds (Reads tree rest) := by
  cases bound with
  | zero =>
    rw [parse, parsepipe]
    trivial
  | succ bound =>
    rw [parse, parsepipe]
    refine Result.Ends.bind (exec bound s _ read follows) id (fun left reads => ?_)
    simp only [peek_bar, peek_snd, gettoken_skip]
    exact next bound left reads

theorem parseblock_succeeds {inner rest : List Token} {cmd : Cmd Text} {redirs : List (Redir Text)}
    (read : tokens s = .lparen :: inner ++ .rparen :: redirTokens redirs ++ rest)
    (line : ∀ bound s rest, tokens s = inner ++ rest -> Follows .line rest ->
      (parse .line bound s).Succeeds (Reads cmd rest))
    (follows : Follows .exec rest) (bound : Nat) :
    (parseblock bound s).Succeeds (Reads (cmd.redirected redirs) rest) := by
  cases bound with
  | zero =>
    rw [parseblock]
    trivial
  | succ bound =>
    rw [append_assoc, cons_append, cons_append] at read
    rcases gettoken_of_tokens read with ⟨opening, afterOpening⟩
    have lparen : (peek s [byte '(']).1 = true := (peek_lparen s).mpr (kind_of_token opening)
    simp only [parseblock, lparen, peek_snd, gettoken_skip, Bool.not_true, if_false,
      Bool.false_eq_true]
    refine Result.Ends.bind (line bound _ _ afterOpening (Follows.cons rfl)) id
      (fun inner reads => ?_)
    rcases gettoken_of_tokens reads.left with ⟨closing, afterClosing⟩
    have rparen : (peek inner.2 [byte ')']).1 = true :=
      (peek_rparen inner.2).mpr (kind_of_token closing)
    simp only [rparen, Bool.not_true, if_false, Bool.false_eq_true]
    rw [← reads.tree]
    exact parseredirs_complete bound _ _ redirs rest afterClosing follows.noRedir

/-- The words and redirections of a command do not begin with a parenthesis. -/
theorem not_lparen_simple {redirs : List (Redir Text)} {words : List (Text × List (Redir Text))}
    (read : tokens s = redirTokens redirs ++ wordTokens words ++ rest)
    (follows : Follows .exec rest) : (gettoken s).kind ≠ .lparen := by
  cases redirs with
  | cons redir redirs =>
    have kind := kind_of_tokens read
    rw [kind]
    cases redir.1 <;> exact fun impossible => by cases impossible
  | nil =>
    cases words with
    | cons word words =>
      rw [kind_of_tokens read]
      exact fun impossible => by cases impossible
    | nil =>
      have ahead : Follows .exec (tokens s) := by
        rw [read]
        exact follows
      refine ahead.not_kind (by decide) (fun token same => ?_)
      cases token with
      | lparen => rfl
      | redir op => cases op <;> cases same
      | _ => cases same

theorem parse_complete {read : List Token} {cmd : Cmd Text} (derives : Derives nonterminal read cmd)
    (bound : Nat) (s : Text) (rest : List Token) (ahead : tokens s = read ++ rest)
    (follows : Follows nonterminal rest) :
    (parse nonterminal bound s).Succeeds (Reads cmd rest) := by
  induction derives generalizing bound s rest with
  | last count first ih =>
    rw [append_assoc] at ahead
    have noAmp : rest.head? ≠ some .amp := by
      intro head
      cases follows _ head
    refine parseline_complete ahead ih (Follows.amps follows.of_line count) noAmp
      (fun bound left reads => ?_) bound
    have stop : (gettoken left.2).kind ≠ .semi := by
      refine Follows.not_kind (reads.left ▸ follows) (by decide) (fun token same => ?_)
      cases token with
      | redir op => cases op <;> cases same
      | semi => rfl
      | _ => cases same
    rw [if_neg stop]
    exact ⟨reads.tree, (tokens_skip _).trans reads.left⟩
  | more count first second ihFirst ihSecond =>
    rw [append_assoc, append_assoc, cons_append] at ahead
    refine parseline_complete ahead ihFirst (Follows.amps (Follows.cons rfl) count)
      (fun head => by cases head) (fun bound left reads => ?_) bound
    rcases gettoken_of_tokens reads.left with ⟨semi, afterSemi⟩
    have isSemi : (gettoken left.2).kind = .semi := kind_of_token semi
    rw [if_pos isSemi]
    refine Result.Ends.bind (ihSecond bound _ _ afterSemi follows) id (fun right line => ?_)
    refine ⟨?_, line.left⟩
    rw [Cmd.map, reads.tree, line.tree]
  | single only ih =>
    refine parsepipe_succeeds ahead ih follows.exec_of_pipe (fun bound left reads => ?_) bound
    have stop : (gettoken left.2).kind ≠ .bar := by
      refine Follows.not_kind (reads.left ▸ follows) (by decide) (fun token same => ?_)
      cases token with
      | redir op => cases op <;> cases same
      | bar => rfl
      | _ => cases same
    rw [if_neg stop]
    exact ⟨reads.tree, (tokens_skip _).trans reads.left⟩
  | piped first second ihFirst ihSecond =>
    rw [append_assoc, cons_append] at ahead
    refine parsepipe_succeeds ahead ihFirst (Follows.cons rfl) (fun bound left reads => ?_) bound
    rcases gettoken_of_tokens reads.left with ⟨bar, afterBar⟩
    have isBar : (gettoken left.2).kind = .bar := kind_of_token bar
    rw [if_pos isBar]
    refine Result.Ends.bind (ihSecond bound _ _ afterBar follows) id (fun right pipe => ?_)
    refine ⟨?_, pipe.left⟩
    rw [Cmd.map, reads.tree, pipe.tree]
  | block inner redirs ih =>
    cases bound with
    | zero =>
      rw [parse, parseexec]
      trivial
    | succ bound =>
      have lparen : (gettoken s).kind = .lparen := kind_of_tokens ahead
      simp only [parse, parseexec, peek_lparen, peek_snd]
      rw [if_pos lparen]
      refine parseblock_succeeds ?_ ih follows bound
      rw [tokens_skip]
      exact ahead
  | simple redirs words few =>
    cases bound with
    | zero =>
      rw [parse, parseexec]
      trivial
    | succ bound =>
      simp only [parse, parseexec, peek_lparen, peek_snd]
      rw [if_neg (not_lparen_simple ahead follows)]
      rw [← tokens_skip, append_assoc] at ahead
      refine Result.Ends.bind (parseredirs_complete bound _ _ redirs _ ahead
        (noRedir_wordTokens follows.noRedir)) id (fun first reads => ?_)
      rw [← Nat.zero_add words.length] at few
      refine (parsewords_complete bound _ 0 _ words rest reads.left follows few).mono id
        (fun result more => ⟨?_, more.left⟩)
      rw [more.tree, reads.tree, Cmd.map, map_nil, Cmd.withWords_exec, nil_append]

end Shell
end Xv6
