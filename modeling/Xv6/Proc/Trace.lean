import Xv6.Proc.Burst

namespace Xv6

/-!
# Tracing system calls

`syscall` checks the number in `a7` before it calls through `syscalls[]`.  The
trace stage after the call repeats no check: it shifts by the number and uses
it as an index into `sys_calls_names`, whatever the user program passed.
-/

/-- The functions in `syscalls[]`. -/
inductive Syscall where
  | sys_fork | sys_exit | sys_wait | sys_pipe | sys_read | sys_kill | sys_exec | sys_fstat
  | sys_chdir | sys_dup | sys_getpid | sys_sbrk | sys_sleep | sys_uptime | sys_open
  | sys_write | sys_mknod | sys_unlink | sys_link | sys_mkdir | sys_close | sys_trace
  | sys_wait_stat | sys_set_priority
  deriving DecidableEq, Repr

def SYS_fork : Int := 1
def SYS_kill : Int := 6
def SYS_sbrk : Int := 12

/-- `syscalls[]`.  No initialiser names the entry 0. -/
def syscalls : List (Option Syscall) :=
  [none, some .sys_fork, some .sys_exit, some .sys_wait, some .sys_pipe, some .sys_read,
    some .sys_kill, some .sys_exec, some .sys_fstat, some .sys_chdir, some .sys_dup,
    some .sys_getpid, some .sys_sbrk, some .sys_sleep, some .sys_uptime, some .sys_open,
    some .sys_write, some .sys_mknod, some .sys_unlink, some .sys_link, some .sys_mkdir,
    some .sys_close, some .sys_trace, some .sys_wait_stat, some .sys_set_priority]

def sys_calls_names : List String :=
  ["", "fork", "exit", "wait", "pipe", "read", "kill", "exec", "fstat", "chdir", "dup",
    "getpid", "sbrk", "sleep", "uptime", "open", "write", "mknod", "unlink", "link", "mkdir",
    "close", "trace", "wait_stat", "set_priority"]

/-- `num > 0 && num < NELEM(syscalls) && syscalls[num]`. -/
def dispatched (num : Int) : Option Syscall :=
  if 0 < num ∧ num < syscalls.length then syscalls.getD num.toNat none else none

/-- `p->mask & (1 << num)`.  In C a shift by an amount outside `0..31` has no
meaning; the machine uses the amount modulo 32. -/
def traced (mask num : Int) : Bool :=
  BitVec.ofInt 32 mask &&& (1#32 <<< (num % 32).toNat) != 0#32

/-- The lines that `syscall` prints.  The name of a system call is missing if
it was read outside of `sys_calls_names`. -/
inductive Message where
  | unknown (pid num : Int)
  | fork (pid : Int) (name : Option String) (ret : Int)
  | argument (pid : Int) (name : Option String) (argument ret : Int)
  | plain (pid : Int) (name : Option String) (ret : Int)

/-- What the trace stage does: by how much it shifts, which entry of
`sys_calls_names` it reads, and the line it prints. -/
structure TraceStage where
  shift : Int
  index : Option Int
  line : Option Message

def traceStage (proc : Proc) (num argument ret : Int) : TraceStage :=
  if traced proc.mask num then
    let name := if 0 ≤ num then sys_calls_names[num.toNat]? else none
    { shift := num
      index := some num
      line := some (if num = SYS_fork then .fork proc.pid name ret
        else if num = SYS_kill ∨ num = SYS_sbrk then .argument proc.pid name argument ret
        else .plain proc.pid name ret) }
  else ⟨num, none, none⟩

/-- The process, the register `a0` and the messages after `syscall`, and its
trace stage. -/
structure SyscallResult where
  proc : Proc
  a0 : Int
  messages : List Message
  stage : TraceStage

/-- The dispatch and the trace stage of `syscall`.  What the system calls
themselves do to the process, and what they return, is a parameter. -/
def serve (call : Syscall -> Proc -> Int × Proc) (proc : Proc) (num argument : Int) :
    SyscallResult :=
  match dispatched num with
  | some function =>
    let result := call function proc
    let stage := traceStage result.2 num argument (int32 result.1)
    ⟨result.2, result.1, stage.line.toList, stage⟩
  | none =>
    let stage := traceStage proc num argument (-1)
    ⟨proc, -1, .unknown proc.pid num :: stage.line.toList, stage⟩

/-- The argument that `syscall` saves for the trace. -/
def savedArgument (num : Int) (a0 : Nat) : Int :=
  if num = SYS_fork ∨ num = SYS_kill ∨ num = SYS_sbrk then int32 a0 else 0

/-- `syscall`, for the values of `a0` and `a7` in the trap frame. -/
def syscall (call : Syscall -> Proc -> Int × Proc) (proc : Proc) (a0 a7 : Nat) :
    SyscallResult :=
  serve call proc (int32 a7) (savedArgument (int32 a7) a0)

/-- `trace(mask, pid)`. -/
def trace (table : Slot -> Proc) (mask pid : Int) : Slot -> Proc := fun slot =>
  if (table slot).pid = pid then { table slot with mask := mask } else table slot

/-- `sys_trace` with the registers `a0` and `a1`. -/
def sys_trace (table : Slot -> Proc) (registers : Nat × Nat) : Slot -> Proc :=
  trace table (int32 registers.1) (int32 registers.2)

/-- The table after a sequence of calls of `trace`. -/
def traceCalls (table : Slot -> Proc) (calls : List (Nat × Nat)) : Slot -> Proc :=
  calls.foldl sys_trace table

/-- The trace stage shifts by `0..31`, reads an entry that `sys_calls_names`
has, and prints a line only for a number that `syscalls[]` dispatches. -/
def InBounds (num : Int) (stage : TraceStage) : Prop :=
  (0 ≤ stage.shift ∧ stage.shift ≤ 31) ∧
    (forall index, stage.index = some index -> 0 ≤ index ∧ index < sys_calls_names.length) ∧
    (stage.line.isSome -> (dispatched num).isSome)

theorem dispatched_isSome_iff (num : Int) : (dispatched num).isSome <-> 1 ≤ num ∧ num ≤ 24 := by
  have entries : ∀ index : Nat, index < syscalls.length -> 0 < index ->
      (syscalls.getD index none).isSome := by
    decide
  have length : syscalls.length = 25 := rfl
  unfold dispatched
  constructor
  · intro found
    split at found
    · omega
    · cases found
  · rintro ⟨low, high⟩
    rw [if_pos (by omega)]
    exact entries num.toNat (by omega) (by omega)

/-- The trace stage on its own. -/
theorem traceStage_inBounds_iff (proc : Proc) (num argument ret : Int) :
    InBounds num (traceStage proc num argument ret) <->
      (0 ≤ num ∧ num ≤ 31) ∧ (traced proc.mask num = true -> 1 ≤ num ∧ num ≤ 24) := by
  have names : (sys_calls_names.length : Int) = 25 := rfl
  by_cases bit : traced proc.mask num = true
  · simp only [InBounds, traceStage, bit, if_true, Option.some.injEq, forall_eq',
      Option.isSome_some, true_implies, dispatched_isSome_iff, names]
    omega
  · simp only [InBounds, traceStage, bit, if_false, reduceCtorEq, false_implies, implies_true,
      Option.isSome_none, Bool.false_eq_true, and_true]

/-- The stage works on the process as the system call left it, and a number
that is not dispatched leaves the process as it was. -/
theorem serve_stage (call : Syscall -> Proc -> Int × Proc) (proc : Proc) (num argument : Int) :
    ∃ proc' ret, (serve call proc num argument).stage = traceStage proc' num argument ret ∧
      (dispatched num = none -> proc' = proc) := by
  unfold serve
  cases found : dispatched num with
  | some function => exact ⟨_, _, rfl, fun impossible => by cases impossible⟩
  | none => exact ⟨proc, _, rfl, fun _ => rfl⟩

/-- Tracing stays in bounds exactly for the numbers of system calls, and for
the other numbers in `0..31` while their bit of the mask is clear. -/
theorem trace_inBounds_iff (table : Slot -> Proc) (calls : List (Nat × Nat)) (slot : Slot)
    (call : Syscall -> Proc -> Int × Proc) (a0 a7 : Nat) :
    InBounds (int32 a7) (syscall call (traceCalls table calls slot) a0 a7).stage <->
      (1 ≤ int32 a7 ∧ int32 a7 ≤ 24) ∨
        ((int32 a7 = 0 ∨ 25 ≤ int32 a7 ∧ int32 a7 ≤ 31) ∧
          traced (traceCalls table calls slot).mask (int32 a7) = false) := by
  unfold syscall
  generalize int32 a7 = num
  rcases serve_stage call (traceCalls table calls slot) num (savedArgument num a0) with
    ⟨proc, ret, stage, same⟩
  rw [stage, traceStage_inBounds_iff]
  by_cases known : 1 ≤ num ∧ num ≤ 24
  · omega
  · have undispatched : dispatched num = none := by
      rw [← Option.not_isSome_iff_eq_none, dispatched_isSome_iff]
      exact known
    rw [same undispatched]
    cases bit : traced (traceCalls table calls slot).mask num with
    | true =>
      simp only [true_implies, Bool.true_eq_false, and_false, or_false]
      omega
    | false =>
      simp only [Bool.false_eq_true, false_implies, and_true]
      omega

/-- A process that is traced for the number 25, and one that passes 32. -/
theorem trace_out_of_bounds : ∃ (table : Slot -> Proc) (calls : List (Nat × Nat))
    (call : Syscall -> Proc -> Int × Proc),
      (syscall call (traceCalls table calls 0) 0 25).stage.index = some 25 ∧
      (syscall call (traceCalls table calls 0) 0 25).stage.line.isSome ∧
      sys_calls_names[25]? = none ∧ dispatched (int32 25) = none ∧
      (syscall call (traceCalls table [] 0) 0 32).stage.shift = 32 := by
  refine ⟨fun _ => Proc.zero, [(2 ^ 25, 0)], fun _ proc => (0, proc), ?_⟩
  decide +kernel

end Xv6
