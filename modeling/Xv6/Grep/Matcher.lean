import Xv6.Shell.Lexer

namespace Xv6
namespace Grep

open Shell (Text byte)

/-!
# The matcher of `grep`

`match`, `matchhere` and `matchstar` of `user/grep.c`, and the language that a
pattern stands for.  A pointer into a string is the text from there up to the
terminating NUL.
-/

mutual

def matchhere : Text -> Text -> Bool
  | [], _ => true
  | c :: re, text =>
    if re.head? = some (byte '*') then matchstar c re.tail text
    else if c = byte '$' ∧ re = [] then text.isEmpty
    else
      match text with
      | [] => false
      | t :: text => if c = byte '.' ∨ c = t then matchhere re text else false
termination_by re text => (re.length, text.length, 0)

/-- The turns of the `do`-loop go along the text. -/
def matchstar (c : UInt8) (re : Text) : Text -> Bool
  | [] => matchhere re []
  | t :: text =>
    if matchhere re (t :: text) then true
    else if t = c ∨ c = byte '.' then matchstar c re text
    else false
termination_by text => (re.length, text.length, 1)

end

/-- The `do`-loop of `match`, which also looks at the empty string. -/
def matchAnywhere (re : Text) : Text -> Bool
  | [] => matchhere re []
  | t :: text => if matchhere re (t :: text) then true else matchAnywhere re text

def match_ (re text : Text) : Bool :=
  if re.head? = some (byte '^') then matchhere re.tail text else matchAnywhere re text

/-! ## The language of a pattern -/

/-- A character of the pattern stands for a character of the text. -/
def Stands (c x : UInt8) : Prop := c = byte '.' ∨ c = x

/-- The second text is in the language of the pattern where the third one
follows it. -/
inductive Language : Text -> Text -> Text -> Prop where
  | done (rest : Text) : Language [] [] rest
  | star {c : UInt8} {re repeated word rest : Text}
      (all : forall x, x ∈ repeated -> Stands c x) (next : Language re word rest) :
      Language (c :: byte '*' :: re) (repeated ++ word) rest
  | last : Language [byte '$'] [] []
  | one {c x : UInt8} {re word rest : Text} (plain : re.head? ≠ some (byte '*'))
      (inner : ¬ (c = byte '$' ∧ re = [])) (stands : Stands c x)
      (next : Language re word rest) : Language (c :: re) (x :: word) rest

/-- The text starts with a word of the language. -/
def Starts (re text : Text) : Prop := ∃ word rest, text = word ++ rest ∧ Language re word rest

theorem starts_nil (text : Text) : Starts [] text := ⟨[], text, rfl, .done text⟩

variable {c : UInt8}

theorem starts_star {re text : Text} : Starts (c :: byte '*' :: re) text <->
    ∃ repeated rest, text = repeated ++ rest ∧ (∀ x, x ∈ repeated -> Stands c x) ∧
      Starts re rest := by
  constructor
  · rintro ⟨word, rest, rfl, language⟩
    cases language with
    | @star _ _ repeated word _ all next =>
      exact ⟨repeated, word ++ rest, List.append_assoc _ _ _, all, word, rest, rfl, next⟩
    | one plain => exact (plain rfl).elim
  · rintro ⟨repeated, _, rfl, all, word, rest, rfl, next⟩
    exact ⟨repeated ++ word, rest, (List.append_assoc _ _ _).symm, .star all next⟩

theorem starts_last {text : Text} : Starts [byte '$'] text <-> text = [] := by
  constructor
  · rintro ⟨word, rest, rfl, language⟩
    cases language with
    | last => rfl
    | one _ inner => exact (inner ⟨rfl, rfl⟩).elim
  · rintro rfl
    exact ⟨[], [], rfl, .last⟩

theorem starts_one {re text : Text} (plain : re.head? ≠ some (byte '*'))
    (inner : ¬ (c = byte '$' ∧ re = [])) :
    Starts (c :: re) text <-> ∃ x rest, text = x :: rest ∧ Stands c x ∧ Starts re rest := by
  constructor
  · rintro ⟨word, rest, rfl, language⟩
    cases language with
    | star => exact (plain rfl).elim
    | last => exact (inner ⟨rfl, rfl⟩).elim
    | @one _ x _ word _ _ _ stands next =>
      exact ⟨x, word ++ rest, rfl, stands, word, rest, rfl, next⟩
  · rintro ⟨x, _, rfl, stands, word, rest, rfl, next⟩
    exact ⟨x :: word, rest, rfl, .one plain inner stands next⟩

/-! ## The functions decide the language -/

/-- The loop of `matchstar` tries the repetitions from the shortest on. -/
theorem matchstar_iff {re : Text} (here : ∀ text, matchhere re text = true <-> Starts re text)
    (text : Text) :
    matchstar c re text = true <-> ∃ repeated rest, text = repeated ++ rest ∧
      (∀ x, x ∈ repeated -> Stands c x) ∧ Starts re rest := by
  induction text with
  | nil =>
    rw [matchstar, here]
    constructor
    · exact fun starts => ⟨[], [], rfl, by simp, starts⟩
    · rintro ⟨repeated, rest, split, _, starts⟩
      rwa [(List.append_eq_nil_iff.mp split.symm).2] at starts
  | cons t text ih =>
    rw [matchstar]
    split
    · next found => exact iff_of_true rfl ⟨[], _, rfl, by simp, (here _).mp found⟩
    · next absent =>
        have shortest : ¬ Starts re (t :: text) := fun starts => absent ((here _).mpr starts)
        split
        · next stands =>
            rw [ih]
            constructor
            · rintro ⟨repeated, rest, rfl, all, starts⟩
              refine ⟨t :: repeated, rest, rfl, ?_, starts⟩
              intro x member
              rcases List.mem_cons.mp member with rfl | later
              · exact stands.symm.imp_right Eq.symm
              · exact all x later
            · rintro ⟨repeated, rest, split, all, starts⟩
              cases repeated with
              | nil => exact (shortest (split ▸ starts)).elim
              | cons x repeated =>
                obtain ⟨rfl, rfl⟩ := List.cons.inj split
                exact ⟨repeated, rest, rfl, fun y member => all y (List.mem_cons_of_mem _ member),
                  starts⟩
        · next other =>
            refine iff_of_false (by simp) ?_
            rintro ⟨repeated, rest, split, all, starts⟩
            cases repeated with
            | nil => exact shortest (split ▸ starts)
            | cons x repeated =>
              obtain ⟨rfl, rfl⟩ := List.cons.inj split
              exact other ((all t List.mem_cons_self).symm.imp_left Eq.symm)

theorem matchhere_iff (re text : Text) : matchhere re text = true <-> Starts re text := by
  -- The pattern gets shorter by one character or by two.
  induction size : re.length using Nat.strong_induction_on generalizing re text with
  | _ size ih =>
    cases re with
    | nil =>
      rw [matchhere]
      exact iff_of_true rfl (starts_nil text)
    | cons c re =>
      subst size
      rw [matchhere.eq_def]
      dsimp only
      split
      · next repeats =>
          obtain ⟨re, rfl⟩ : ∃ rest, re = byte '*' :: rest := by
            cases re with
            | nil => cases repeats
            | cons s rest => exact ⟨rest, by rw [Option.some.inj repeats]⟩
          rw [starts_star]
          refine matchstar_iff (fun text => ih re.length ?_ re text rfl) text
          simp only [List.length_cons]
          omega
      · next plain =>
          split
          · next final =>
              obtain ⟨rfl, rfl⟩ := final
              rw [starts_last, List.isEmpty_iff]
          · next inner =>
              rw [starts_one plain inner]
              cases text with
              | nil =>
                refine iff_of_false (by simp) ?_
                rintro ⟨x, rest, impossible, _⟩
                cases impossible
              | cons t text =>
                have rest := ih re.length (by simp) re text rfl
                dsimp only
                split
                · next stands =>
                    rw [rest]
                    constructor
                    · exact fun starts => ⟨t, text, rfl, stands, starts⟩
                    · rintro ⟨x, rest, same, _, starts⟩
                      cases same
                      exact starts
                · next differs =>
                    refine iff_of_false (by simp) ?_
                    rintro ⟨x, rest, same, stands, _⟩
                    cases same
                    exact differs stands

theorem matchAnywhere_iff (re text : Text) : matchAnywhere re text = true <->
    ∃ before after, text = before ++ after ∧ Starts re after := by
  induction text with
  | nil =>
    rw [matchAnywhere, matchhere_iff]
    constructor
    · exact fun starts => ⟨[], [], rfl, starts⟩
    · rintro ⟨before, after, split, starts⟩
      rwa [(List.append_eq_nil_iff.mp split.symm).2] at starts
  | cons t text ih =>
    rw [matchAnywhere]
    split
    · next found => exact iff_of_true rfl ⟨[], _, rfl, (matchhere_iff _ _).mp found⟩
    · next absent =>
        rw [ih]
        constructor
        · rintro ⟨before, after, rfl, starts⟩
          exact ⟨t :: before, after, rfl, starts⟩
        · rintro ⟨before, after, split, starts⟩
          cases before with
          | nil => exact (absent ((matchhere_iff _ _).mpr (split ▸ starts))).elim
          | cons x before =>
            obtain ⟨rfl, rfl⟩ := List.cons.inj split
            exact ⟨before, after, rfl, starts⟩

/-- `match` decides whether a part of the text, or a beginning of it if the
pattern starts with `^`, is in the language of the pattern. -/
theorem match_decides (re text : Text) : match_ re text = true <->
    if re.head? = some (byte '^') then
      ∃ word after, text = word ++ after ∧ Language re.tail word after
    else ∃ before word after, text = before ++ word ++ after ∧ Language re word after := by
  unfold match_
  split
  · exact matchhere_iff re.tail text
  · rw [matchAnywhere_iff]
    constructor
    · rintro ⟨before, _, rfl, word, rest, rfl, language⟩
      exact ⟨before, word, rest, (List.append_assoc _ _ _).symm, language⟩
    · rintro ⟨before, word, rest, rfl, language⟩
      exact ⟨before, word ++ rest, List.append_assoc _ _ _, word, rest, rfl, language⟩

end Grep
end Xv6
