import Xv6.Shell.Lexer

namespace Xv6
namespace Shell

/-!
# Commands and their grammar

The trees that the shell executes, over an arbitrary type of words, and the
grammar of a command line:

    line  ::= pipe '&'* [';' line]
    pipe  ::= exec ['|' pipe]
    exec  ::= '(' line ')' redir* | redir* (word redir*)*
    redir ::= ('<' | '>' | '>>') word

An `exec` of the second form has at most `MAXARGS - 1` words.
-/

def MAXARGS : Nat := 10

def O_RDONLY : Nat := 0x000
def O_WRONLY : Nat := 0x001
def O_CREATE : Nat := 0x200
def O_TRUNC : Nat := 0x400

/-- `struct cmd` with its five types. -/
inductive Cmd (W : Type) where
  | exec (argv : List W)
  | redir (cmd : Cmd W) (file : W) (mode fd : Nat)
  | pipe (left right : Cmd W)
  | list (left right : Cmd W)
  | back (cmd : Cmd W)
  deriving DecidableEq

/-- The mode in which the file of a redirection is opened. -/
def RedirOp.mode : RedirOp -> Nat
  | .input => O_RDONLY
  | .output => O_WRONLY ||| O_CREATE ||| O_TRUNC
  | .append => O_WRONLY ||| O_CREATE

/-- The descriptor that is redirected. -/
def RedirOp.fd : RedirOp -> Nat
  | .input => 0
  | .output => 1
  | .append => 1

/-- A redirection: its operator and its file. -/
abbrev Redir (W : Type) := RedirOp × W

namespace Cmd

variable {W V : Type}

/-- Redirections around a command, the last one outermost. -/
def redirected (cmd : Cmd W) (redirs : List (Redir W)) : Cmd W :=
  redirs.foldl (fun cmd redir => .redir cmd redir.2 redir.1.mode redir.1.fd) cmd

/-- A command that is put into the background `count` times. -/
def backs (cmd : Cmd W) : Nat -> Cmd W
  | 0 => cmd
  | count + 1 => .back (cmd.backs count)

def map (f : W -> V) : Cmd W -> Cmd V
  | exec argv => exec (argv.map f)
  | redir cmd file mode fd => redir (cmd.map f) (f file) mode fd
  | pipe left right => pipe (left.map f) (right.map f)
  | list left right => list (left.map f) (right.map f)
  | back cmd => back (cmd.map f)

end Cmd

/-! ## Derivations -/

def redirTokens (redirs : List (Redir Text)) : List Token :=
  redirs.flatMap (fun redir => [.redir redir.1, .word redir.2])

/-- Words, each with the redirections that follow it. -/
def wordTokens (words : List (Text × List (Redir Text))) : List Token :=
  words.flatMap (fun word => .word word.1 :: redirTokens word.2)

inductive Nonterminal where
  | line
  | pipe
  | exec

/-- The tokens derive from the nonterminal, and the tree is the one of that
derivation. -/
inductive Derives : Nonterminal -> List Token -> Cmd Text -> Prop where
  | last {tokens : List Token} {cmd : Cmd Text} (count : Nat) (first : Derives .pipe tokens cmd) :
      Derives .line (tokens ++ List.replicate count .amp) (cmd.backs count)
  | more {tokens rest : List Token} {cmd right : Cmd Text} (count : Nat)
      (first : Derives .pipe tokens cmd) (second : Derives .line rest right) :
      Derives .line (tokens ++ List.replicate count .amp ++ .semi :: rest)
        (.list (cmd.backs count) right)
  | single {tokens : List Token} {cmd : Cmd Text} (only : Derives .exec tokens cmd) :
      Derives .pipe tokens cmd
  | piped {tokens rest : List Token} {cmd right : Cmd Text} (first : Derives .exec tokens cmd)
      (second : Derives .pipe rest right) :
      Derives .pipe (tokens ++ .bar :: rest) (.pipe cmd right)
  | block {tokens : List Token} {cmd : Cmd Text} (inner : Derives .line tokens cmd)
      (redirs : List (Redir Text)) :
      Derives .exec (.lparen :: tokens ++ .rparen :: redirTokens redirs) (cmd.redirected redirs)
  | simple (redirs : List (Redir Text)) (words : List (Text × List (Redir Text)))
      (few : words.length ≤ MAXARGS - 1) :
      Derives .exec (redirTokens redirs ++ wordTokens words)
        ((Cmd.exec (words.map Prod.fst)).redirected (redirs ++ words.flatMap Prod.snd))

end Shell
end Xv6
