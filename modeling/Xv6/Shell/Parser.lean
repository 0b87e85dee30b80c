import Xv6.Shell.Grammar

namespace Xv6
namespace Shell

/-!
# The parser of the shell

The parsing functions of `sh.c` in their own order.  Each takes the position
`*ps` and returns the new one.  `panic` ends the parser with its text.  Loops
and recursion are bounded by an argument, and a parser that has used it up is
`unfinished`; the bound is not part of the source.

A tree holds pointers into the line until `nulterminate` has put a NUL after
every word.
-/

inductive Result (α : Type) where
  | done (value : α)
  | panic (text : String)
  | unfinished

namespace Result

variable {α β : Type}

def bind : Result α -> (α -> Result β) -> Result β
  | done value, rest => rest value
  | panic text, _ => panic text
  | unfinished, _ => unfinished

instance : Monad Result where
  pure := done
  bind := bind

@[simp] theorem pure_eq (value : α) : (pure value : Result α) = done value := rfl

@[simp] theorem bind_eq (first : Result α) (rest : α -> Result β) :
    first >>= rest = first.bind rest := rfl

/-- What is returned satisfies `goal`; the other outcomes are allowed or not. -/
def Ends (panics unfinished : Prop) (goal : α -> Prop) : Result α -> Prop
  | done value => goal value
  | .panic _ => panics
  | .unfinished => unfinished

section Ends

variable {panics early unfinished : Prop} {first : Result α}

theorem Ends.bind {goal : β -> Prop} {rest : α -> Result β} {between : α -> Prop}
    (known : first.Ends panics early between) (lower : early -> unfinished)
    (next : ∀ value, between value -> (rest value).Ends panics unfinished goal) :
    (first.bind rest).Ends panics unfinished goal := by
  cases first with
  | done value => exact next value known
  | panic text => exact known
  | unfinished => exact lower known

theorem Ends.mono {strong weak : α -> Prop} (known : first.Ends panics early strong)
    (lower : early -> unfinished) (weaker : ∀ value, strong value -> weak value) :
    first.Ends panics unfinished weak := by
  cases first with
  | done value => exact weaker value known
  | panic text => exact known
  | unfinished => exact lower known

end Ends

end Result

/-- A tree with its position in the text. -/
abbrev Parsed := Cmd Span × Text

/-- `cmd->argv[argc] = q`.  The command may already be inside redirections, which
point to it. -/
def Cmd.addArg {W : Type} (word : W) : Cmd W -> Cmd W
  | .exec argv => .exec (argv ++ [word])
  | .redir cmd file mode fd => .redir (cmd.addArg word) file mode fd
  | other => other

/-- The `switch` of `parseredirs`. -/
def redircmd (cmd : Cmd Span) (tok : Kind) (file : Span) : Cmd Span :=
  match tok with
  | .less => .redir cmd file O_RDONLY 0
  | .greater => .redir cmd file (O_WRONLY ||| O_CREATE ||| O_TRUNC) 1
  | .append => .redir cmd file (O_WRONLY ||| O_CREATE) 1
  | _ => cmd

def parseredirs : Nat -> Cmd Span -> Text -> Result Parsed
  | 0, _, _ => .unfinished
  | bound + 1, cmd, ps =>
    let more := peek ps [byte '<', byte '>']
    if more.1 then
      let tok := gettoken more.2
      let file := gettoken tok.rest
      if file.kind ≠ .word then .panic "missing file for redirection"
      else parseredirs bound (redircmd cmd tok.kind file.span) file.rest
    else .done (cmd, more.2)

/-- The loop of `parseexec`. -/
def parsewords : Nat -> Cmd Span -> Nat -> Text -> Result Parsed
  | 0, _, _, _ => .unfinished
  | bound + 1, ret, argc, ps =>
    let stop := peek ps [byte '|', byte ')', byte '&', byte ';']
    if stop.1 then .done (ret, stop.2)
    else
      let tok := gettoken stop.2
      if tok.kind = .eof then .done (ret, tok.rest)
      else if tok.kind ≠ .word then .panic "syntax"
      else if argc + 1 ≥ MAXARGS then .panic "too many args"
      else do
        let next ← parseredirs bound (ret.addArg tok.span) tok.rest
        parsewords bound next.1 (argc + 1) next.2

/-- The loop of `parseline`. -/
def parsebacks : Nat -> Cmd Span -> Text -> Result Parsed
  | 0, _, _ => .unfinished
  | bound + 1, cmd, ps =>
    let more := peek ps [byte '&']
    if more.1 then parsebacks bound (.back cmd) (gettoken more.2).rest
    else .done (cmd, more.2)

mutual

def parseline : Nat -> Text -> Result Parsed
  | 0, _ => .unfinished
  | bound + 1, ps => do
    let first ← parsepipe bound ps
    let left ← parsebacks bound first.1 first.2
    let more := peek left.2 [byte ';']
    if more.1 then do
      let right ← parseline bound (gettoken more.2).rest
      pure (.list left.1 right.1, right.2)
    else pure (left.1, more.2)

def parsepipe : Nat -> Text -> Result Parsed
  | 0, _ => .unfinished
  | bound + 1, ps => do
    let left ← parseexec bound ps
    let more := peek left.2 [byte '|']
    if more.1 then do
      let right ← parsepipe bound (gettoken more.2).rest
      pure (.pipe left.1 right.1, right.2)
    else pure (left.1, more.2)

def parseblock : Nat -> Text -> Result Parsed
  | 0, _ => .unfinished
  | bound + 1, ps =>
    let opening := peek ps [byte '(']
    if !opening.1 then .panic "parseblock"
    else do
      let inner ← parseline bound (gettoken opening.2).rest
      let closing := peek inner.2 [byte ')']
      if !closing.1 then .panic "syntax - missing )"
      else parseredirs bound inner.1 (gettoken closing.2).rest

def parseexec : Nat -> Text -> Result Parsed
  | 0, _ => .unfinished
  | bound + 1, ps =>
    let opening := peek ps [byte '(']
    if opening.1 then parseblock bound opening.2
    else do
      let first ← parseredirs bound (.exec []) opening.2
      parsewords bound first.1 0 first.2

end

/-! ## The whole line -/

/-- The offset of a pointer into the line. -/
def offset (line pointer : Text) : Nat := line.length - pointer.length

/-- Put a NUL after every word of the tree. -/
def nulterminate (line : Text) : Cmd Span -> List UInt8 -> List UInt8
  | .exec argv, memory =>
    argv.foldl (fun memory word => memory.set (offset line word.eq) 0) memory
  | .redir cmd file _ _, memory =>
    (nulterminate line cmd memory).set (offset line file.eq) 0
  | .pipe left right, memory => nulterminate line right (nulterminate line left memory)
  | .list left right, memory => nulterminate line right (nulterminate line left memory)
  | .back cmd, memory => nulterminate line cmd memory

/-- The NUL-terminated string at an offset. -/
def cstring (memory : List UInt8) (start : Nat) : Text :=
  (memory.drop start).takeWhile (fun c => c ≠ 0)

/-- `parsecmd` on the string at the beginning of `memory`.  The tree that it returns
has pointers to strings, which are read off the memory it leaves. -/
def parsecmd (bound : Nat) (memory : List UInt8) : Result (Cmd Text) := do
  let line := cstring memory 0
  let parsed ← parseline bound line
  let left := (peek parsed.2 []).2
  if left ≠ [] then .panic "syntax"
  else
    let terminated := nulterminate line parsed.1 memory
    pure (parsed.1.map (fun word => cstring terminated (offset line word.q)))

end Shell
end Xv6
