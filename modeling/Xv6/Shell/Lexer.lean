import Mathlib.Data.List.Infix
import Mathlib.Data.List.TakeWhile
import Mathlib.Tactic.Common

namespace Xv6
namespace Shell

open List

/-!
# The tokens of a command line

`gettoken` and `peek` of `sh.c`.  A pointer into the line is represented by
the text from there up to the terminating NUL, so the pointer `es` is the
empty text and moving a pointer forwards is dropping bytes.

The tokens of a text are what repeated calls of `gettoken` return.
-/

abbrev Text := List UInt8

def byte (c : Char) : UInt8 := UInt8.ofNat c.toNat

/-- The segments of a text that are ended by `mark`, and what follows the last one.
`current` has already been read. -/
def segments (mark : UInt8) (current : Text) : Text -> List Text × Text
  | [] => ([], current)
  | c :: text =>
    if c = mark then (current :: (segments mark [] text).1, (segments mark [] text).2)
    else segments mark (current ++ [c]) text

/-- Blank, tabulator, carriage return, newline and vertical tabulator. -/
def whitespace : List UInt8 := [32, 9, 13, 10, 11]

def symbols : List UInt8 :=
  [byte '<', byte '|', byte '>', byte '&', byte ';', byte '(', byte ')']

/-- The values of `gettoken`.  A word is `'a'` and `>>` is `'+'`. -/
inductive Kind where
  | eof
  | bar
  | lparen
  | rparen
  | semi
  | amp
  | less
  | greater
  | append
  | word
  deriving DecidableEq

/-- A token in the text: the pointers `q` and `eq`. -/
structure Span where
  q : Text
  eq : Text

/-- The value of `gettoken`, the token, and the new position. -/
structure Lexeme where
  kind : Kind
  span : Span
  rest : Text

/-- Advance over white space. -/
def skip (s : Text) : Text := s.dropWhile (fun c => c ∈ whitespace)

/-- A byte that does not end a word. -/
def wordByte (c : UInt8) : Bool := c ∉ whitespace && c ∉ symbols

/-- The cases of the `switch` that take one byte. -/
def single (c : UInt8) : Option Kind :=
  if c = byte '|' then some .bar
  else if c = byte '(' then some .lparen
  else if c = byte ')' then some .rparen
  else if c = byte ';' then some .semi
  else if c = byte '&' then some .amp
  else if c = byte '<' then some .less
  else none

/-- The `switch` of `gettoken`, at a byte that is not white space: the value and
the pointer after the token. -/
def scan : Text -> Kind × Text
  | [] => (.eof, [])
  | c :: s =>
    match single c with
    | some kind => (kind, s)
    | none =>
      if c = byte '>' then
        if s.head? = some (byte '>') then (.append, s.tail) else (.greater, s)
      else (.word, (c :: s).dropWhile wordByte)

def gettoken (ps : Text) : Lexeme :=
  let q := skip ps
  let scanned := scan q
  ⟨scanned.1, ⟨q, scanned.2⟩, skip scanned.2⟩

/-- Whether the next byte is one of `toks`, and the position of that byte. -/
def peek (ps : Text) (toks : List UInt8) : Bool × Text :=
  (match skip ps with
    | [] => false
    | c :: _ => c ∈ toks,
   skip ps)

/-! ## Tokens -/

inductive RedirOp where
  | input
  | output
  | append
  deriving DecidableEq

inductive Token where
  | word (text : Text)
  | bar
  | lparen
  | rparen
  | semi
  | amp
  | redir (op : RedirOp)
  deriving DecidableEq

/-- The bytes from `q` to `eq`. -/
def Span.text (span : Span) : Text := span.q.take (span.q.length - span.eq.length)

/-- The token that `gettoken` has found, unless it is at the end. -/
def Lexeme.token (lexeme : Lexeme) : Option Token :=
  match lexeme.kind with
  | .eof => none
  | .bar => some .bar
  | .lparen => some .lparen
  | .rparen => some .rparen
  | .semi => some .semi
  | .amp => some .amp
  | .less => some (.redir .input)
  | .greater => some (.redir .output)
  | .append => some (.redir .append)
  | .word => some (.word lexeme.span.text)

/-! ## Positions -/

theorem skip_suffix (s : Text) : skip s <:+ s := dropWhile_suffix _

variable {c : UInt8} {s : Text}

theorem skip_cons_blank (s : Text) (blank : c ∈ whitespace) : skip (c :: s) = skip s :=
  dropWhile_cons_of_pos (decide_eq_true blank)

theorem skip_cons_other (s : Text) (other : c ∉ whitespace) : skip (c :: s) = c :: s :=
  dropWhile_cons_of_neg (fun holds => other (of_decide_eq_true holds))

theorem skip_skip (s : Text) : skip (skip s) = skip s := by
  induction s with
  | nil => rfl
  | cons c s ih =>
    by_cases blank : c ∈ whitespace
    · rw [skip_cons_blank s blank, ih]
    · rw [skip_cons_other s blank, skip_cons_other s blank]

theorem gettoken_skip (s : Text) : gettoken (skip s) = gettoken s := by
  rw [gettoken, skip_skip, gettoken]

theorem scan_suffix (s : Text) : (scan s).2 <:+ s := by
  cases s with
  | nil => exact suffix_refl _
  | cons c s =>
    rw [scan]
    cases single c with
    | some kind => exact suffix_cons c s
    | none =>
      dsimp only
      split_ifs
      · exact (tail_suffix s).trans (suffix_cons c s)
      · exact suffix_cons c s
      · exact dropWhile_suffix _

theorem gettoken_suffix (s : Text) : (gettoken s).rest <:+ s :=
  ((skip_suffix _).trans (scan_suffix _)).trans (skip_suffix s)

theorem single_mem {kind : Kind} (found : single c = some kind) : c ∈ symbols := by
  unfold single at found
  split_ifs at found <;> simp_all [symbols]

/-- What is left for words: neither a symbol of one byte nor `>`. -/
theorem not_mem_symbols (other : single c = none) (notGreater : c ≠ byte '>') : c ∉ symbols := by
  unfold single at other
  split_ifs at other
  simp_all [symbols]

/-- Every token takes at least one byte. -/
theorem scan_shrinks (s : Text) (blank : c ∉ whitespace) :
    (scan (c :: s)).2.length < (c :: s).length := by
  rw [scan]
  cases found : single c with
  | some kind => exact Nat.lt_succ_self _
  | none =>
    dsimp only
    split_ifs with greater double
    · exact Nat.lt_succ_of_le (tail_suffix s).length_le
    · exact Nat.lt_succ_self _
    · have isWord : wordByte c = true := by
        rw [wordByte, decide_eq_true blank, decide_eq_true (not_mem_symbols found greater)]
        rfl
      rw [dropWhile_cons_of_pos isWord]
      exact Nat.lt_succ_of_le (dropWhile_suffix _).length_le

/-- After white space comes the end or a byte that is not white space. -/
theorem skip_eq_nil_or (s : Text) :
    skip s = [] ∨ ∃ c rest, skip s = c :: rest ∧ c ∉ whitespace := by
  cases found : skip s with
  | nil => exact Or.inl rfl
  | cons c rest =>
    refine Or.inr ⟨c, rest, rfl, fun blank => ?_⟩
    have again : skip (c :: rest) = c :: rest := by
      rw [← found, skip_skip]
    rw [skip_cons_blank rest blank] at again
    have short := congrArg List.length again
    have bound := (skip_suffix rest).length_le
    rw [length_cons] at short
    omega

theorem scan_eof_iff (s : Text) : (scan s).1 = .eof <-> s = [] := by
  cases s with
  | nil => exact ⟨fun _ => rfl, fun _ => rfl⟩
  | cons c s =>
    refine ⟨fun impossible => ?_, fun impossible => by cases impossible⟩
    rw [scan] at impossible
    unfold single at impossible
    split_ifs at impossible

theorem gettoken_eof (eof : (gettoken s).kind = .eof) : (gettoken s).rest = [] := by
  have none : skip s = [] := (scan_eof_iff _).mp eof
  rw [gettoken, none]
  rfl

theorem gettoken_shrinks (more : (gettoken s).kind ≠ .eof) :
    (gettoken s).rest.length < s.length := by
  have bound := (skip_suffix s).length_le
  rcases skip_eq_nil_or s with none | ⟨c, rest, found, blank⟩
  · exact absurd ((scan_eof_iff _).mpr none) more
  · have scanned := scan_shrinks rest blank
    have skipped := (skip_suffix (scan (skip s)).2).length_le
    rw [← found] at scanned
    exact lt_of_le_of_lt skipped (lt_of_lt_of_le scanned bound)

theorem token_eq_none_iff (lexeme : Lexeme) : lexeme.token = none <-> lexeme.kind = .eof := by
  unfold Lexeme.token
  cases lexeme.kind <;> simp

theorem kind_ne_eof {lexeme : Lexeme} {token : Token} (found : lexeme.token = some token) :
    lexeme.kind ≠ .eof := by
  intro eof
  cases ((token_eq_none_iff lexeme).mpr eof).symm.trans found

/-- The token sequence of a text. -/
def tokens (s : Text) : List Token :=
  match _ : (gettoken s).token with
  | none => []
  | some token => token :: tokens (gettoken s).rest
termination_by s.length
decreasing_by
  rename_i found
  exact gettoken_shrinks (kind_ne_eof found)

theorem tokens_none (eof : (gettoken s).token = none) : tokens s = [] := by
  rw [tokens]
  split
  · rfl
  · next token found =>
      rw [eof] at found
      cases found

theorem tokens_some {token : Token} (found : (gettoken s).token = some token) :
    tokens s = token :: tokens (gettoken s).rest := by
  rw [tokens]
  split
  · next eof =>
      rw [eof] at found
      cases found
  · next other same =>
      cases same.symm.trans found
      rfl

theorem tokens_skip (s : Text) : tokens (skip s) = tokens s := by
  have same := gettoken_skip s
  cases found : (gettoken s).token with
  | none =>
    rw [tokens_none found]
    rw [← same] at found
    exact tokens_none found
  | some token =>
    rw [tokens_some found]
    rw [← same] at found
    rw [tokens_some found, same]

theorem tokens_nil : tokens [] = [] := tokens_none rfl

/-- A text without tokens is white space. -/
theorem skip_of_tokens_nil (none : tokens s = []) : skip s = [] := by
  cases found : (gettoken s).token with
  | none => exact (scan_eof_iff _).mp ((token_eq_none_iff _).mp found)
  | some token =>
    rw [tokens_some found] at none
    cases none

/-! ## Looking ahead -/

/-- The byte with which a symbol begins. -/
def Kind.first : Kind -> Option UInt8
  | .bar => some (byte '|')
  | .lparen => some (byte '(')
  | .rparen => some (byte ')')
  | .semi => some (byte ';')
  | .amp => some (byte '&')
  | .less => some (byte '<')
  | .greater => some (byte '>')
  | .append => some (byte '>')
  | .eof => none
  | .word => none

theorem single_first {kind : Kind} (found : single c = some kind) : kind.first = some c := by
  unfold single at found
  split_ifs at found <;> cases found <;> subst_vars <;> rfl

/-- The first byte tells a symbol, and words begin with none of these. -/
theorem scan_first (c : UInt8) (s : Text) :
    (scan (c :: s)).1.first = if c ∈ symbols then some c else none := by
  rw [scan]
  cases found : single c with
  | some kind => rw [if_pos (single_mem found), single_first found]
  | none =>
    dsimp only
    split_ifs with greater double isSymbol isSymbol isSymbol
    · rw [greater]
      rfl
    · exact absurd (greater ▸ by decide) isSymbol
    · rw [greater]
      rfl
    · exact absurd (greater ▸ by decide) isSymbol
    · exact absurd isSymbol (not_mem_symbols found greater)
    · rfl

/-- Looking for symbols is looking at the next token. -/
theorem peek_eq {toks : List UInt8} (known : ∀ c, c ∈ toks -> c ∈ symbols) (s : Text) :
    (peek s toks).1 = (gettoken s).kind.first.any (fun c => c ∈ toks) := by
  rw [peek, gettoken]
  dsimp only
  rcases skip_eq_nil_or s with none | ⟨c, rest, found, _⟩
  · rw [none]
    rfl
  · rw [found, scan_first]
    split_ifs with isSymbol
    · rfl
    · exact decide_eq_false (fun member => isSymbol (known c member))

@[simp] theorem peek_snd (s : Text) (toks : List UInt8) : (peek s toks).2 = skip s := rfl

theorem peek_one (kind : Kind) (c : UInt8) (isSymbol : c ∈ symbols)
    (only : ∀ other : Kind, other.first = some c <-> other = kind) (s : Text) :
    (peek s [c]).1 = true <-> (gettoken s).kind = kind := by
  have known : ∀ d, d ∈ [c] -> d ∈ symbols := by
    intro d member
    rw [mem_singleton.mp member]
    exact isSymbol
  rw [peek_eq known, ← only]
  cases (gettoken s).kind.first with
  | none => simp
  | some d => simp

theorem peek_amp (s : Text) : (peek s [byte '&']).1 = true <-> (gettoken s).kind = .amp :=
  peek_one .amp _ (by decide) (fun other => by cases other <;> decide) s

theorem peek_semi (s : Text) : (peek s [byte ';']).1 = true <-> (gettoken s).kind = .semi :=
  peek_one .semi _ (by decide) (fun other => by cases other <;> decide) s

theorem peek_bar (s : Text) : (peek s [byte '|']).1 = true <-> (gettoken s).kind = .bar :=
  peek_one .bar _ (by decide) (fun other => by cases other <;> decide) s

theorem peek_lparen (s : Text) : (peek s [byte '(']).1 = true <-> (gettoken s).kind = .lparen :=
  peek_one .lparen _ (by decide) (fun other => by cases other <;> decide) s

theorem peek_rparen (s : Text) : (peek s [byte ')']).1 = true <-> (gettoken s).kind = .rparen :=
  peek_one .rparen _ (by decide) (fun other => by cases other <;> decide) s

/-- The operator of a redirection. -/
def Kind.redir : Kind -> Option RedirOp
  | .less => some .input
  | .greater => some .output
  | .append => some .append
  | _ => none

theorem peek_redir (s : Text) :
    (peek s [byte '<', byte '>']).1 = (gettoken s).kind.redir.isSome := by
  rw [peek_eq (by simp [symbols])]
  cases (gettoken s).kind <;> decide

/-- The tokens that end the words of a command. -/
def Kind.stops (kind : Kind) : Bool :=
  kind = .bar || kind = .rparen || kind = .amp || kind = .semi

theorem peek_stops (s : Text) :
    (peek s [byte '|', byte ')', byte '&', byte ';']).1 = (gettoken s).kind.stops := by
  rw [peek_eq (by simp [symbols])]
  cases (gettoken s).kind <;> decide

theorem token_redir {lexeme : Lexeme} {op : RedirOp} (found : lexeme.kind.redir = some op) :
    lexeme.token = some (.redir op) := by
  unfold Lexeme.token
  cases kind : lexeme.kind <;> rw [kind] at found <;> cases found <;> rfl

end Shell
end Xv6
