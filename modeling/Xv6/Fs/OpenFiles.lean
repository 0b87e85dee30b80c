import Xv6.Fs.Services

namespace Xv6
namespace Fs

open Conc

/-!
# System calls on open files

`open` and `close` change file structures besides, and `read` and `write` move the
offset of a file.
-/

section Files

variable {sb : Superblock} {stop : State -> Prop} {good : List (List Nat) -> Prop}
  {past : List (List Nat)} {base blocks : Finset Nat} {count : Nat} {p : Pid} {state after : State}
  {ip : Entry} {f : Handle} {omode : BitVec 32} {fd : Int}

/-- Open files and processes do not matter to an operation. -/
theorem Op.elsewhere (op : Op sb past blocks state) (entry : after.entry = state.entry)
    (disk : after.disk = state.disk) (log : after.log = state.log)
    (outstanding : after.outstanding = state.outstanding)
    (transactions : after.transactions = state.transactions)
    (panicked : after.panicked = state.panicked) : Op sb past blocks after :=
  ⟨op.toCalm.elsewhere entry disk log transactions panicked, outstanding ▸ op.running⟩

/-- One turn of the loop of `filewrite` writes at most four blocks. -/
theorem card_slotsOf_turn {off n : Nat} (short : n ≤ writeMax) : (slotsOf off n).card ≤ 5 := by
  have blocks := card_slotsOf_le off n
  have limit : writeMax = 3072 := rfl
  unfold BSIZE at blocks
  omega

variable (regime : Regime sb stop good base count)

include regime

/-! ## `close` -/

theorem AtRest.fileclose (rest : AtRest sb good state) :
    Meets () stop (fileclose sb p f) (fun _ => AtRest sb good) state := by
  have room := regime.room
  have fits := regime.fits _ rest.good
  have calm : Calm sb state.transactions base state := rest.quiet.calm
  simp only [Fs.fileclose, meets_do, meets_atomically]
  by_cases unused : (state.file f).ref < 1
  · rw [if_pos unused]
    exact calm.panics fits (by omega) (by decide)
  rw [if_neg unused]
  by_cases last : (state.file f).ref = 1
  · rw [if_pos last]
    have freed : Quiet sb (state.fileFree f) := rest.quiet.elsewhere rfl rfl rfl rfl rfl rfl
    dsimp only
    split
    · cases (state.file f).ip with
      | none =>
        have stuck : Calm sb state.transactions base (state.fileFree f) := freed.calm
        exact stuck.blocked fits (by omega)
      | some ip =>
        simp only [meets_do]
        refine freed.begin_op fun (op : Op sb _ base _) one => ?_
        have grew := Grew.insert base (sb.IBLOCK ((state.fileFree f).beginOp.entry ip).inum)
        have card := grew.card
        refine (op.mono grew.subset).iput fits (by omega)
          (fun _ => Finset.mem_insert_self _ _) fun after op' put => ?_
        exact op'.end_op regime rest.good (by omega) (put.steady.outstanding.trans one)
          fun rest' _ => rest'
    · exact ⟨freed, rest.good⟩
  · rw [if_neg last]
    exact ⟨rest.quiet.elsewhere rfl rfl rfl rfl rfl rfl, rest.good⟩

theorem AtRest.sys_close (rest : AtRest sb good state) :
    Meets () stop (sys_close sb p fd) (fun _ => AtRest sb good) state := by
  simp only [Fs.sys_close, argfd, meets_do, meets_look]
  split
  · exact rest
  · next fd f _ =>
      have closed : AtRest sb good (state.setFd p fd none) :=
        ⟨rest.quiet.elsewhere rfl rfl rfl rfl rfl rfl, rest.good⟩
      simp only [meets_do, meets_change, meets_pure]
      exact closed.fileclose regime

/-- `exit` closes all files and gives up the current directory. -/
theorem AtRest.exit (rest : AtRest sb good state) :
    Meets () stop (exit sb p) (fun _ => AtRest sb good) state := by
  have room := regime.room
  have calm : Calm sb state.transactions base state := rest.quiet.calm
  simp only [Fs.exit]
  split
  · exact calm.panics (regime.fits _ rest.good) (by omega) (by decide)
  simp only [meets_do]
  refine (meets_forEach (fun _ now => AtRest sb good now) ?_ rest).mono ?_
  · intro fd fds now rest
    simp only [meets_do, meets_look]
    cases (now.proc p).ofile fd with
    | none => exact rest
    | some f =>
      simp only [meets_do]
      refine (rest.fileclose regime).mono fun _ after rest' => ?_
      exact ⟨rest'.quiet.elsewhere rfl rfl rfl rfl rfl rfl, rest'.good⟩
  · intro _ now rest
    have fits := regime.fits _ rest.good
    refine rest.quiet.begin_op fun (op : Op sb _ base _) one => ?_
    simp only [putCwd, meets_do, meets_look]
    cases (now.beginOp.proc p).cwd with
    | none => exact op.blocked fits (by omega)
    | some cwd =>
      have grew := Grew.insert base (sb.IBLOCK (now.beginOp.entry cwd).inum)
      have card := grew.card
      refine (op.mono grew.subset).iput fits (by omega) (fun _ => Finset.mem_insert_self _ _)
        fun middle op' put => ?_
      refine op'.end_op regime rest.good (by omega) (put.steady.outstanding.trans one)
        fun rest' _ => ?_
      simp only [meets_change]
      exact (meets_pure _).mpr ⟨rest'.quiet.elsewhere rfl rfl rfl rfl rfl rfl, rest'.good⟩

/-! ## `open` -/

/-- The end of `sys_open`: the file is truncated if this was asked for. -/
theorem Op.openFile (op : Op sb past blocks after) (before : good past)
    (one : after.outstanding = 1) (within : blocks.card ≤ count) (has : Has sb p blocks ip after)
    {type value : Int} :
    Meets () stop (do
      if hasFlag omode O_TRUNC ∧ type = T_FILE then Fs.itrunc sb ip else pure ()
      Fs.iunlock p ip
      Fs.end_op sb
      pure value) (fun _ => AtRest sb good) after := by
  have fits := regime.fits _ before
  have finish : ∀ second, Op sb past blocks second -> second.outstanding = 1 -> Meets () stop (do
        Fs.iunlock p ip
        Fs.end_op sb
        pure value) (fun _ => AtRest sb good) second := by
    intro second op2 one2
    simp only [meets_do, meets_pure]
    refine op2.iunlock fits within fun op3 => ?_
    exact op3.end_op regime before within one2 fun rest _ => rest
  split
  · simp only [meets_do]
    refine op.itrunc fits within has.referenced has.valid has.allowed ?_
    intro second op2 steady2 _ _
    simpa only [meets_do] using finish second op2 (steady2.outstanding.trans one)
  · exact finish after op one

theorem Alone.openInode (alone : Alone sb good past blocks after) (within : blocks.card ≤ count)
    (has : Has sb p blocks ip after) :
    Meets () stop (openInode sb p ip omode) (fun _ => AtRest sb good) after := by
  have fits := regime.fits _ alone.before
  have bad := alone.dropped regime within has (-1)
  simp only [Fs.openInode, meets_do, meets_look]
  split
  · exact bad
  simp only [meets_do, filealloc, meets_atomically]
  cases hit : freeFile after with
  | none => exact bad
  | some f =>
    have free := List.find?_some hit
    rw [beq_iff_eq] at free
    simp only [meets_do, fdalloc, meets_atomically]
    cases freeFd p (after.fileTake f) with
    | none =>
      -- The file structure is given back at once, and it has no inode yet.
      have taken : (after.fileTake f).file f = { after.file f with ref := 1 } :=
        Function.update_self _ _ _
      have kind : ((after.fileTake f).file f).ofInode = false := by
        rw [taken]
        simp only [File.ofInode, alone.files.closed f free]
        rfl
      simp only [fileclose, meets_do, meets_atomically]
      have one : ((after.fileTake f).file f).ref = 1 := by rw [taken]
      rw [one, if_neg (by decide), if_pos rfl]
      simp only [kind, Bool.false_eq_true, if_false, meets_pure]
      have op : Op sb past blocks ((after.fileTake f).fileFree f) :=
        alone.elsewhere rfl rfl rfl rfl rfl rfl
      simp only [openBad, meets_do, meets_pure]
      refine op.iunlockput fits within has.allowed fun last op steady _ => ?_
      exact op.end_op regime alone.before within (steady.outstanding.trans alone.one)
        fun rest _ => rest
    | some fd =>
      simp only [meets_do, meets_change]
      refine Op.openFile regime ?_ alone.before ?_ within ?_
      · exact alone.elsewhere rfl rfl rfl rfl rfl rfl
      · exact alone.one
      · exact ⟨has.of_entry rfl, has.allowed⟩

section Calls

variable (callable : Callable sb good base p state)

include callable

theorem Callable.sys_open {path : Option Path} :
    Meets () stop (sys_open sb p path omode) (fun _ => AtRest sb good) state := by
  have room := regime.room
  have fits := regime.fits _ callable.good
  cases path with
  | none => exact callable.toAtRest
  | some path =>
    simp only [Fs.sys_open, meets_do]
    split
    · have cost := createCost_le T_FILE
      simp only [meets_do]
      refine callable.begin_op fun alone safe cwd => ?_
      refine alone.create fits (by omega) safe cwd ?_ ?_
      · intro larger after grew alone'
        have card := grew.card
        exact alone'.done regime (by omega) (-1)
      · intro ip larger after grew alone' has
        have card := grew.card
        exact alone'.openInode regime (by omega) has
    · simp only [namei, meets_do]
      refine callable.lookup regime false (fun after alone => alone.done regime (by omega) (-1)) ?_
      intro ip _ first alone1 _
      simp only [meets_pure, Option.map_some, meets_do]
      refine alone1.ilock fits (by omega) fun larger grew alone2 _ has2 => ?_
      have card := grew.card
      simp only [meets_look]
      split
      · exact alone2.dropped regime (by omega) has2 _
      · exact alone2.openInode regime (by omega) has2

/-! ## `write` -/

omit regime in
/-- Locking an inode outside an operation leaves the log alone. -/
theorem Callable.unlocked (calm : Calm sb state.transactions blocks after)
    (outstanding : after.outstanding = state.outstanding) (log : after.log = state.log) :
    AtRest sb good after where
  quiet := ⟨calm.settled, calm.consistent, outstanding.trans callable.quiet.idle,
    log.trans callable.quiet.empty, calm.alive⟩
  good := by
    rw [calm.committed]
    exact callable.good

omit callable in
/-- The loop of `filewrite`, one operation for each turn. -/
theorem AtRest.filewriteLoop {src : Source} {n : Nat} (turns i : Nat)
    (rest : AtRest sb good state) (small : (state.file f).off < 2 ^ 32) :
    Meets () stop (filewriteLoop sb p f ip src n turns i) (fun _ => AtRest sb good) state := by
  have room := regime.room
  induction turns generalizing i state with
  | zero => exact rest
  | succ turns ih =>
    unfold Fs.filewriteLoop
    split
    · have fits := regime.fits _ rest.good
      have short : min (n - i) writeMax ≤ writeMax := Nat.min_le_right _ _
      have bound := @card_slotsOf_turn (state.file f).off _ short
      simp only [meets_do]
      refine rest.quiet.begin_op fun (op : Op sb _ base _) one => ?_
      obtain ⟨larger, grew, inside⟩ : ∃ larger, Grew base 1 larger ∧
          sb.IBLOCK (state.beginOp.entry ip).inum ∈ larger :=
        ⟨_, Grew.insert base _, Finset.mem_insert_self _ _⟩
      have card := grew.card
      refine (op.mono grew.subset).ilock fits (by omega) fun op1 _ held1 => ?_
      have allowed : sb.IBLOCK ((state.beginOp.locked p ip).entry ip).inum ∈ larger := by
        rw [locked_entry_self]
        exact inside
      simp only [meets_look]
      have same : ((state.beginOp.locked p ip).file f).off = (state.file f).off := rfl
      rw [same]
      refine op1.writei fits (by omega) held1 allowed small (lt_of_le_of_lt short (by decide)) ?_
      intro r data first few op2 steady2 _
      have card2 := (@Grew.union larger data 5 (few.trans bound)).card
      have file2 : first.file = state.file := steady2.file
      -- The end of the turn, whether or not the offset has moved.
      have finish : ∀ second, Op sb state.transactions (larger ∪ data) second ->
          second.outstanding = 1 -> (second.file f).off < 2 ^ 32 -> Meets () stop (do
            iunlock p ip
            end_op sb
            if r ≠ (min (n - i) writeMax : Nat) then pure i
            else filewriteLoop sb p f ip src n turns (i + min (n - i) writeMax))
            (fun _ => AtRest sb good) second := by
        intro second op3 running small3
        simp only [meets_do]
        refine op3.iunlock fits (by omega) fun op4 => ?_
        refine op4.end_op regime rest.good (by omega) running fun rest' file' => ?_
        split
        · exact rest'
        · exact ih _ rest' (by rw [file']; exact small3)
      have running : first.outstanding = 1 := steady2.outstanding.trans one
      split
      · simp only [meets_do, meets_change]
        have moved := finish (first.setOff f (uint32 ((state.file f).off + r.toNat)))
          (op2.elsewhere rfl rfl rfl rfl rfl rfl) running ?_
        · simpa only [meets_do] using moved
        · exact lt_of_eq_of_lt (congrArg File.off (Function.update_self _ _ _))
            (Nat.mod_lt _ (by decide))
      · exact finish first op2 running (by rw [file2]; exact small)
    · exact rest

theorem Callable.sys_write {src : Source} {n device : Int} :
    Meets () stop (sys_write sb p fd src n device) (fun _ => AtRest sb good) state := by
  have room := regime.room
  have fits := regime.fits _ callable.good
  have calm : Calm sb state.transactions base state := callable.quiet.calm
  have stay := callable.toAtRest
  simp only [Fs.sys_write, argfd, meets_do, meets_look]
  split
  · exact stay
  · next f _ =>
      simp only [filewrite, meets_do, meets_look]
      split
      · exact stay
      · split
        · exact stay
        · split
          · exact stay
          · exact stay
        · simp only [inodeOf, meets_do, meets_look]
          cases (state.file f).ip with
          | none => exact calm.blocked fits (by omega)
          | some ip => exact stay.filewriteLoop regime _ _ (callable.files.offset f)
        · exact calm.panics fits (by omega) (by decide)

/-! ## `read` and `fstat` -/

theorem Callable.sys_read {dst : Sink} {n device : Int} :
    Meets () stop (sys_read sb p fd dst n device) (fun _ => AtRest sb good) state := by
  have room := regime.room
  have fits := regime.fits _ callable.good
  have calm : Calm sb state.transactions base state := callable.quiet.calm
  have stay := callable.toAtRest
  simp only [Fs.sys_read, argfd, meets_do, meets_look]
  split
  · exact stay
  · next f _ =>
      simp only [fileread, meets_do, meets_look]
      split
      · exact stay
      · split
        · exact stay
        · split
          · exact stay
          · exact stay
        · simp only [inodeOf, meets_do, meets_look]
          cases (state.file f).ip with
          | none => exact calm.blocked fits (by omega)
          | some ip =>
            simp only [meets_pure]
            refine calm.ilock fits (by omega) fun calm1 _ held1 => ?_
            have finish : ∀ value : Int, Meets () stop (if 0 < value then do
                  change (·.setOff f (uint32 ((state.file f).off + value.toNat)))
                  iunlock p ip
                  pure value
                else do
                  iunlock p ip
                  pure value) (fun _ => AtRest sb good) (state.locked p ip) := by
              intro value
              split
              · simp only [meets_do, meets_change, meets_pure]
                have calm2 : Calm sb state.transactions base ((state.locked p ip).setOff f
                    (uint32 ((state.file f).off + value.toNat))) :=
                  calm1.elsewhere rfl rfl rfl rfl rfl
                exact calm2.iunlock fits (by omega) fun calm3 => callable.unlocked calm3 rfl rfl
              · simp only [meets_do, meets_pure]
                exact calm1.iunlock fits (by omega) fun calm3 => callable.unlocked calm3 rfl rfl
            exact calm1.readi held1 (callable.files.offset f) (Nat.mod_lt _ (by decide))
              (fun _ _ => finish _) fun _ => finish _
        · exact calm.panics fits (by omega) (by decide)

theorem Callable.sys_fstat {copied : Bool} :
    Meets () stop (sys_fstat p fd copied) (fun _ => AtRest sb good) state := by
  have room := regime.room
  have fits := regime.fits _ callable.good
  have calm : Calm sb state.transactions base state := callable.quiet.calm
  simp only [Fs.sys_fstat, argfd, meets_do, meets_look]
  split
  · exact callable.toAtRest
  · next f _ =>
      simp only [filestat, meets_do, meets_look]
      split
      · simp only [inodeOf, meets_do, meets_look]
        cases (state.file f).ip with
        | none => exact calm.blocked fits (by omega)
        | some ip =>
          simp only [meets_pure]
          refine calm.ilock fits (by omega) fun calm1 _ _ => ?_
          exact calm1.iunlock fits (by omega) fun calm2 => callable.unlocked calm2 rfl rfl
      · exact callable.toAtRest

theorem Callable.syscall (call : Call) :
    Meets () stop (syscall sb p call) (fun _ => AtRest sb good) state := by
  cases call with
  | «open» path omode => exact callable.sys_open regime
  | close fd => exact callable.toAtRest.sys_close regime
  | read fd dst n device => exact callable.sys_read regime
  | write fd src n device => exact callable.sys_write regime
  | fstat fd copied => exact callable.sys_fstat regime
  | link source target => exact callable.sys_link regime
  | unlink path => exact callable.sys_unlink regime
  | mkdir path => exact callable.makeNode regime
  | mknod path major minor => exact callable.makeNode regime
  | chdir path => exact callable.sys_chdir regime
  | exit => exact callable.toAtRest.exit regime
  | exec path memory => exact callable.sys_exec regime

end Calls

end Files

end Fs
end Xv6
