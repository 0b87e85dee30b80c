import Xv6.Fs.Code

namespace Xv6
namespace Fs

open Conc

/-!
# Open files and system calls

`kernel/file.c`, `kernel/sysfile.c`, and the file related parts of `exit` and
`exec`.  What user memory and the page allocator contribute is an argument of
the system call.
-/

def O_WRONLY : BitVec 32 := 0x001
def O_RDWR : BitVec 32 := 0x002
def O_CREATE : BitVec 32 := 0x200
def O_TRUNC : BitVec 32 := 0x400

/-- A bit of the mode given to `open`. -/
def hasFlag (omode flag : BitVec 32) : Bool := (omode &&& flag) != 0

section

variable (sb : Superblock) (p : Pid)

/-! ## File structures -/

def freeFile (state : State) : Option Handle :=
  (List.finRange NFILE).find? (fun f => (state.file f).ref == 0)

/-- Allocate a file structure. -/
def filealloc : Routine (Option Handle) :=
  atomically (fun state =>
    match freeFile state with
    | some f => (some f, state.fileTake f)
    | none => (none, state))

/-- Close file `f`.  The structure is copied before it is given up. -/
def fileclose (f : Handle) : Routine Unit := do
  let found ← atomically (fun state =>
    if (state.file f).ref < 1 then (none, state)
    else if (state.file f).ref = 1 then (some (some (state.file f)), state.fileFree f)
    else (some none, state.fileDrop f))
  match found with
  | none => panic .fileclose
  | some none => pure ()
  | some (some ff) =>
    if ff.ofInode then
      match ff.ip with
      | some ip => do
        begin_op
        iput sb p ip
        end_op sb
      | none => Prog.halt
    else pure ()

/-- The inode that a file refers to. -/
def inodeOf (f : Handle) : Routine Entry := do
  match ← look fun state => (state.file f).ip with
  | some ip => pure ip
  | none => Prog.halt

/-- `copied` says whether the result reaches user memory. -/
def filestat (f : Handle) (copied : Bool) : Routine Int := do
  let file ← look fun state => state.file f
  if file.ofInode then do
    let ip ← inodeOf f
    ilock p ip
    iunlock p ip
    pure (if copied then 0 else -1)
  else pure (-1)

/-- The result of a device or pipe is not part of the file system. -/
def fileread (f : Handle) (dst : Sink) (n : Int) (device : Int) : Routine Int := do
  let file ← look fun state => state.file f
  if !file.readable then pure (-1)
  else
    match file.type with
    | .fdPipe => pure device
    | .fdDevice => if file.major < 0 ∨ NDEV ≤ file.major then pure (-1) else pure device
    | .fdInode => do
      let ip ← inodeOf f
      ilock p ip
      let off ← look fun state => (state.file f).off
      let r ← readi sb ip dst off (uint32 (n % 2 ^ 32).toNat)
      if 0 < r.1 then change (·.setOff f (uint32 (off + r.1.toNat))) else pure ()
      iunlock p ip
      pure r.1
    | .fdNone => panic .fileread

/-- The largest number of bytes that `filewrite` writes in one operation. -/
def writeMax : Nat := ((MAXOPBLOCKS - 1 - 1 - 2) / 2) * BSIZE

/-- The loop of `filewrite`.  A turn that does not end the loop writes at
least one byte. -/
def filewriteLoop (f : Handle) (ip : Entry) (src : Source) (n : Nat) : Nat -> Nat -> Routine Nat
  | 0, i => pure i
  | turns + 1, i =>
    if i < n then do
      let n1 := min (n - i) writeMax
      begin_op
      ilock p ip
      let off ← look fun state => (state.file f).off
      let r ← writei sb ip (src.shift i) off n1
      if 0 < r then change (·.setOff f (uint32 (off + r.toNat))) else pure ()
      iunlock p ip
      end_op sb
      if r ≠ n1 then pure i else filewriteLoop f ip src n turns (i + n1)
    else pure i

def filewrite (f : Handle) (src : Source) (n : Int) (device : Int) : Routine Int := do
  let file ← look fun state => state.file f
  if !file.writable then pure (-1)
  else
    match file.type with
    | .fdPipe => pure device
    | .fdDevice => if file.major < 0 ∨ NDEV ≤ file.major then pure (-1) else pure device
    | .fdInode => do
      let ip ← inodeOf f
      let i ← filewriteLoop sb p f ip src n.toNat n.toNat 0
      pure (if (i : Int) = n then n else -1)
    | .fdNone => panic .filewrite

/-! ## Descriptors -/

/-- `argfd`: the descriptor and the file, if it is an open one. -/
def argfd (fd : Int) : Routine (Option (Fd × Handle)) :=
  look fun state =>
    if inside : 0 ≤ fd ∧ fd.toNat < NOFILE then
      ((state.proc p).ofile ⟨fd.toNat, inside.2⟩).map (⟨fd.toNat, inside.2⟩, ·)
    else none

def freeFd (state : State) : Option Fd :=
  (List.finRange NOFILE).find? (fun fd => ((state.proc p).ofile fd).isNone)

/-- Allocate a file descriptor for the given file. -/
def fdalloc (f : Handle) : Routine (Option Fd) :=
  atomically (fun state =>
    match freeFd p state with
    | some fd => (some fd, state.setFd p fd (some f))
    | none => (none, state))

def sys_read (fd : Int) (dst : Sink) (n device : Int) : Routine Int := do
  match ← argfd p fd with
  | none => pure (-1)
  | some (_, f) => fileread sb p f dst n device

def sys_write (fd : Int) (src : Source) (n device : Int) : Routine Int := do
  match ← argfd p fd with
  | none => pure (-1)
  | some (_, f) => filewrite sb p f src n device

def sys_close (fd : Int) : Routine Int := do
  match ← argfd p fd with
  | none => pure (-1)
  | some (fd, f) => do
    change (·.setFd p fd none)
    fileclose sb p f
    pure 0

def sys_fstat (fd : Int) (copied : Bool) : Routine Int := do
  match ← argfd p fd with
  | none => pure (-1)
  | some (_, f) => filestat p f copied

/-! ## Links -/

/-- `nlink++` and `nlink--`. -/
def Dinode.link (node : Dinode) : Dinode := { node with nlink := int16 (node.nlink + 1) }
def Dinode.unlink (node : Dinode) : Dinode := { node with nlink := int16 (node.nlink - 1) }

/-- Undo the link count of `sys_link`. -/
def linkBad (ip : Entry) : Routine Int := do
  ilock p ip
  change (·.edit ip Dinode.unlink)
  iupdate sb ip
  iunlockput sb p ip
  end_op sb
  pure (-1)

/-- `sys_link` once the link to `ip` has been counted. -/
def linkAt (ip : Entry) (new : Path) : Routine Int := do
  match ← nameiparent sb p new with
  | none => linkBad sb p ip
  | some (dp, name) => do
    ilock p dp
    let inum ← look fun state => (state.entry ip).inum
    if (← dirlink sb p dp name inum) < 0 then do
      iunlockput sb p dp
      linkBad sb p ip
    else do
      iunlockput sb p dp
      iput sb p ip
      end_op sb
      pure 0

/-- Create the path `new` as a link to the same inode as `old`. -/
def sys_link (old new : Option Path) : Routine Int := do
  match old, new with
  | some old, some new => do
    begin_op
    match ← namei sb p old with
    | none => do
      end_op sb
      pure (-1)
    | some ip => do
      ilock p ip
      if (← look fun state => (state.entry ip).node.type) = T_DIR then do
        iunlockput sb p ip
        end_op sb
        pure (-1)
      else do
        change (·.edit ip Dinode.link)
        iupdate sb ip
        iunlock p ip
        linkAt sb p ip new
  | _, _ => pure (-1)

/-- Is the directory empty except for `"."` and `".."`? -/
def isdirempty (dp : Entry) : Routine Bool := do
  let size ← look fun state => (state.entry dp).node.size
  let found ← Prog.firstSome (fun off => do
    let de ← readDirent sb dp off .isdiremptyReadi
    pure (if de.inum ≠ 0 then some () else none)) (offsets 2 size)
  pure found.isNone

/-- The common end of the failures of `sys_unlink`. -/
def unlinkBad (dp : Entry) : Routine Int := do
  iunlockput sb p dp
  end_op sb
  pure (-1)

/-- Remove the entry at `off` of `dp`, which names `ip`. -/
def unlinkAt (dp ip : Entry) (off : Nat) (type : Int) : Routine Int := do
  if (← writei sb dp (.kernel (List.replicate DESIZE 0)) off DESIZE) ≠ DESIZE then
    panic .unlinkWritei
  else do
    if type = T_DIR then do
      change (·.edit dp Dinode.unlink)
      iupdate sb dp
    else pure ()
    iunlockput sb p dp
    change (·.edit ip Dinode.unlink)
    iupdate sb ip
    iunlockput sb p ip
    end_op sb
    pure 0

def sys_unlink (path : Option Path) : Routine Int := do
  match path with
  | none => pure (-1)
  | some path => do
    begin_op
    match ← nameiparent sb p path with
    | none => do
      end_op sb
      pure (-1)
    | some (dp, name) => do
      ilock p dp
      if namecmp name dotName = 0 ∨ namecmp name dotdotName = 0 then unlinkBad sb p dp
      else do
        match ← dirlookup sb dp name with
        | none => unlinkBad sb p dp
        | some (ip, off) => do
          ilock p ip
          let node ← look fun state => (state.entry ip).node
          if node.nlink < 1 then panic .unlinkNlink
          else do
            let full ←
              if node.type = T_DIR then do
                let empty ← isdirempty sb ip
                pure !empty
              else pure false
            if full then do
              iunlockput sb p ip
              unlinkBad sb p dp
            else unlinkAt sb p dp ip off node.type

/-- The entries of a new directory. -/
def createDots (dp ip : Entry) : Routine Unit := do
  change (·.edit dp Dinode.link)
  iupdate sb dp
  let nums ← look fun state => ((state.entry ip).inum, (state.entry dp).inum)
  if (← dirlink sb p ip dotName nums.1) < 0 then panic .createDots
  else if (← dirlink sb p ip dotdotName nums.2) < 0 then panic .createDots
  else pure ()

/-- `create` after the parent directory is locked and has no entry `name`. -/
def createIn (dp : Entry) (name : List UInt8) (type major minor : Int) : Routine Entry := do
  let ip ← ialloc sb type
  ilock p ip
  change (·.edit ip fun node => { node with major := major, minor := minor, nlink := 1 })
  iupdate sb ip
  if type = T_DIR then createDots sb p dp ip else pure ()
  let inum ← look fun state => (state.entry ip).inum
  if (← dirlink sb p dp name inum) < 0 then panic .createDirlink
  else do
    iunlockput sb p dp
    pure ip

/-- The inode comes back locked. -/
def create (path : Path) (type major minor : Int) : Routine (Option Entry) := do
  match ← nameiparent sb p path with
  | none => pure none
  | some (dp, name) => do
    ilock p dp
    match ← dirlookup sb dp name with
    | some (ip, _) => do
      iunlockput sb p dp
      ilock p ip
      let found ← look fun state => (state.entry ip).node.type
      if type = T_FILE ∧ (found = T_FILE ∨ found = T_DEVICE) then pure (some ip)
      else do
        iunlockput sb p ip
        pure none
    | none => do
      let ip ← createIn sb p dp name type major minor
      pure (some ip)

/-- The common end of the failures of `sys_open` once the inode is locked. -/
def openBad (ip : Entry) : Routine Int := do
  iunlockput sb p ip
  end_op sb
  pure (-1)

/-- `sys_open` once the inode is locked. -/
def openInode (ip : Entry) (omode : BitVec 32) : Routine Int := do
  let node ← look fun state => (state.entry ip).node
  if node.type = T_DEVICE ∧ (node.major < 0 ∨ NDEV ≤ node.major) then openBad sb p ip
  else do
    match ← filealloc with
    | none => openBad sb p ip
    | some f => do
      match ← fdalloc p f with
      | none => do
        fileclose sb p f
        openBad sb p ip
      | some fd => do
        change (·.fileOpen f ip (if node.type = T_DEVICE then .fdDevice else .fdInode)
          node.major (!hasFlag omode O_WRONLY)
          (hasFlag omode O_WRONLY || hasFlag omode O_RDWR))
        if hasFlag omode O_TRUNC ∧ node.type = T_FILE then itrunc sb ip else pure ()
        iunlock p ip
        end_op sb
        pure fd.val

def sys_open (path : Option Path) (omode : BitVec 32) : Routine Int := do
  match path with
  | none => pure (-1)
  | some path => do
    begin_op
    if hasFlag omode O_CREATE then do
      match ← create sb p path T_FILE 0 0 with
      | none => do
        end_op sb
        pure (-1)
      | some ip => openInode sb p ip omode
    else do
      match ← namei sb p path with
      | none => do
        end_op sb
        pure (-1)
      | some ip => do
        ilock p ip
        if (← look fun state => (state.entry ip).node.type) = T_DIR ∧ omode ≠ 0 then
          openBad sb p ip
        else openInode sb p ip omode

/-- `sys_mkdir` and `sys_mknod`. -/
def makeNode (path : Option Path) (type major minor : Int) : Routine Int := do
  begin_op
  let made ←
    match path with
    | none => pure none
    | some path => create sb p path type major minor
  match made with
  | none => do
    end_op sb
    pure (-1)
  | some ip => do
    iunlockput sb p ip
    end_op sb
    pure 0

def sys_mkdir (path : Option Path) : Routine Int := makeNode sb p path T_DIR 0 0

/-- The device numbers are cut to the parameters of `create`. -/
def sys_mknod (path : Option Path) (major minor : Int) : Routine Int :=
  makeNode sb p path T_DEVICE (int16 major) (int16 minor)

/-- Drop the reference of the current directory. -/
def putCwd : Routine Unit := do
  match ← look fun state => (state.proc p).cwd with
  | some cwd => iput sb p cwd
  | none => Prog.halt

def sys_chdir (path : Option Path) : Routine Int := do
  begin_op
  let found ←
    match path with
    | none => pure none
    | some path => namei sb p path
  match found with
  | none => do
    end_op sb
    pure (-1)
  | some ip => do
    ilock p ip
    if (← look fun state => (state.entry ip).node.type) ≠ T_DIR then do
      iunlockput sb p ip
      end_op sb
      pure (-1)
    else do
      iunlock p ip
      putCwd sb p
      end_op sb
      change (·.setCwd p (some ip))
      pure 0

/-! ## Processes -/

def exit : Routine Int := do
  if p.val = 0 then panic .initExiting
  else do
    Prog.forEach (fun fd => do
      match ← look fun state => (state.proc p).ofile fd with
      | some f => do
        fileclose sb p f
        change (·.setFd p fd none)
      | none => pure ()) (List.finRange NOFILE)
    begin_op
    putCwd sb p
    end_op sb
    change (·.setCwd p none)
    pure 0

/-- Where `exec` needs memory: for the page table, for the `i`-th segment, and
for the stack and the arguments, in which case the result is `argc`. -/
structure ExecMemory where
  pagetable : Bool
  segment : Nat -> Bool
  stack : Option Nat

def ELF_MAGIC : Nat := 0x464C457F
def ELF_PROG_LOAD : Nat := 1
/-- `sizeof(struct elfhdr)` and `sizeof(struct proghdr)`. -/
def ELFSIZE : Nat := 64
def PHSIZE : Nat := 56

/-- A field of a structure that was read into memory. -/
def field (bytes : List UInt8) (pos width : Nat) : Nat :=
  ofLittleEndian ((bytes.drop pos).take width)

/-- Load a program segment: whether every page could be read. -/
def loadseg (ip : Entry) (offset sz : Nat) : Routine Bool := do
  let failed ← Prog.firstSome (fun page => do
    let n := min (sz - page * Vm.PGSIZE) Vm.PGSIZE
    let got ← readi sb ip Sink.kernel (uint32 (offset + page * Vm.PGSIZE)) n
    pure (if got.1 ≠ n then some () else none)) (List.range ((sz + Vm.PGSIZE - 1) / Vm.PGSIZE))
  pure failed.isNone

/-- One turn of the loop over the program headers: whether it succeeds. -/
def execSegment (ip : Entry) (memory : ExecMemory) (phoff index : Nat) : Routine Bool := do
  let ph ← readi sb ip Sink.kernel (uint32 (phoff + index * PHSIZE)) PHSIZE
  if ph.1 ≠ PHSIZE then pure false
  else if field ph.2 0 4 ≠ ELF_PROG_LOAD then pure true
  else
    let vaddr := field ph.2 16 8
    let filesz := field ph.2 32 8
    let memsz := field ph.2 40 8
    if memsz < filesz then pure false
    else if (vaddr + memsz) % 2 ^ 64 < vaddr then pure false
    else if !memory.segment index then pure false
    else if vaddr % Vm.PGSIZE ≠ 0 then pure false
    else loadseg sb ip (uint32 (field ph.2 8 8)) (uint32 filesz)

/-- What `exec` reads from the file while the inode is locked. -/
def execLoad (ip : Entry) (memory : ExecMemory) : Routine Bool := do
  let elf ← readi sb ip Sink.kernel 0 ELFSIZE
  if elf.1 ≠ ELFSIZE then pure false
  else if field elf.2 0 4 ≠ ELF_MAGIC then pure false
  else if !memory.pagetable then pure false
  else do
    let failed ← Prog.firstSome (fun index => do
      let loaded ← execSegment sb ip memory (field elf.2 32 8) index
      pure (if loaded then none else some ())) (List.range (field elf.2 56 2))
    pure failed.isNone

def sys_exec (path : Option Path) (memory : ExecMemory) : Routine Int := do
  match path with
  | none => pure (-1)
  | some path => do
    begin_op
    match ← namei sb p path with
    | none => do
      end_op sb
      pure (-1)
    | some ip => do
      ilock p ip
      let loaded ← execLoad sb ip memory
      iunlockput sb p ip
      end_op sb
      if loaded then
        match memory.stack with
        | some argc => pure argc
        | none => pure (-1)
      else pure (-1)

end

/-- A system call that works on files, with its arguments.  A path is absent
if `argstr` fails. -/
inductive Call where
  | open (path : Option Path) (omode : BitVec 32)
  | close (fd : Int)
  | read (fd : Int) (dst : Sink) (n device : Int)
  | write (fd : Int) (src : Source) (n device : Int)
  | fstat (fd : Int) (copied : Bool)
  | link (old new : Option Path)
  | unlink (path : Option Path)
  | mkdir (path : Option Path)
  | mknod (path : Option Path) (major minor : Int)
  | chdir (path : Option Path)
  | exit
  | exec (path : Option Path) (memory : ExecMemory)

def syscall (sb : Superblock) (p : Pid) : Call -> Routine Int
  | .open path omode => sys_open sb p path omode
  | .close fd => sys_close sb p fd
  | .read fd dst n device => sys_read sb p fd dst n device
  | .write fd src n device => sys_write sb p fd src n device
  | .fstat fd copied => sys_fstat p fd copied
  | .link old new => sys_link sb p old new
  | .unlink path => sys_unlink sb p path
  | .mkdir path => sys_mkdir sb p path
  | .mknod path major minor => sys_mknod sb p path major minor
  | .chdir path => sys_chdir sb p path
  | .exit => exit sb p
  | .exec path memory => sys_exec sb p path memory

end Fs
end Xv6
