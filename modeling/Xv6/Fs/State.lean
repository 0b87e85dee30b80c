import Xv6.Fs.Layout
import Mathlib.Data.List.FinRange
import Mathlib.Logic.Function.Basic

namespace Xv6
namespace Fs

/-!
# The state of the file system

The in-memory tables of `kernel/fs.c` and `kernel/file.c`, the file related
fields of `struct proc`, and the disk.  `disk` is what `bread` gives, which is
the contents of the buffer cache in front of the disk proper, `home`.  Buffers
are not evicted in this model: a block keeps its contents in the cache until
the log writes it home.

Pointers into the tables are indices.  There is one device, so the device
number of an inode is left out.
-/

abbrev Pid := Fin NPROC
/-- A `struct inode *`. -/
abbrev Entry := Fin NINODE
/-- A `struct file *`. -/
abbrev Handle := Fin NFILE
abbrev Fd := Fin NOFILE

/-- `struct inode`.  `lock` is the holder of the sleep-lock, `node` the copy
of the disk inode. -/
structure Inode where
  inum : Nat
  ref : Nat
  lock : Option Pid
  valid : Bool
  node : Dinode

inductive FileType where
  | fdNone
  | fdPipe
  | fdInode
  | fdDevice
  deriving DecidableEq

/-- `struct file`. -/
structure File where
  type : FileType
  ref : Nat
  readable : Bool
  writable : Bool
  ip : Option Entry
  off : Nat
  major : Int

/-- The file has a reference to an inode. -/
def File.ofInode (file : File) : Bool := file.type = .fdInode || file.type = .fdDevice

/-- The file related fields of `struct proc`. -/
structure Proc where
  ofile : Fd -> Option Handle
  cwd : Option Entry

def Proc.setFd (proc : Proc) (fd : Fd) (file : Option Handle) : Proc :=
  { proc with ofile := Function.update proc.ofile fd file }

/-- The panics of the modelled code. -/
inductive Panic where
  | ballocOutOfBlocks
  | freeingFreeBlock
  | iallocNoInodes
  | igetNoInodes
  | ilock
  | ilockNoType
  | iunlock
  | bmapOutOfRange
  | dirlookupNotDir
  | dirlookupRead
  | dirlinkRead
  | dirlink
  | isdiremptyReadi
  | unlinkNlink
  | unlinkWritei
  | createDots
  | createDirlink
  | fileclose
  | fileread
  | filewrite
  | initExiting
  | tooBigTransaction
  | logWriteOutsideOfTrans
  | schedLocks
  deriving DecidableEq

/-- `entry` is `itable.inode` and `file` is `ftable.file`.  `log` lists the
blocks of the running transaction and `outstanding` counts its operations.
`transactions` is ghost state: the block lists of the committed transactions,
latest first. -/
structure State where
  entry : Entry -> Inode
  file : Handle -> File
  proc : Pid -> Proc
  disk : Volume
  home : Volume
  log : List Nat
  outstanding : Nat
  transactions : List (List Nat)
  panicked : Option Panic

/-- The volume after the listed blocks have been copied home from the cache. -/
def Volume.install (sb : Superblock) (blocks : List Nat) (cache home : Volume) : Volume where
  node := fun inum => if sb.IBLOCK inum ∈ blocks then cache.node inum else home.node inum
  used := fun block => if sb.BBLOCK block ∈ blocks then cache.used block else home.used block
  data := fun block => if block ∈ blocks then cache.data block else home.data block

namespace State

def setInode (state : State) (ip : Entry) (inode : Inode) : State :=
  { state with entry := Function.update state.entry ip inode }

def setFile (state : State) (f : Handle) (file : File) : State :=
  { state with file := Function.update state.file f file }

def setProc (state : State) (p : Pid) (proc : Proc) : State :=
  { state with proc := Function.update state.proc p proc }

/-! ## Inode entries -/

/-- `ip->ref++`. -/
def hold (state : State) (ip : Entry) : State :=
  state.setInode ip { state.entry ip with ref := (state.entry ip).ref + 1 }

/-- `iget` on a free entry. -/
def recycle (state : State) (ip : Entry) (inum : Nat) : State :=
  state.setInode ip { state.entry ip with inum := inum, ref := 1, valid := false }

/-- `ip->ref--`. -/
def drop (state : State) (ip : Entry) : State :=
  state.setInode ip { state.entry ip with ref := (state.entry ip).ref - 1 }

def acquiresleep (state : State) (p : Pid) (ip : Entry) : State :=
  state.setInode ip { state.entry ip with lock := some p }

def releasesleep (state : State) (ip : Entry) : State :=
  state.setInode ip { state.entry ip with lock := none }

/-- Read the disk inode into the entry. -/
def load (state : State) (ip : Entry) : State :=
  state.setInode ip { state.entry ip with
    valid := true, node := state.disk.node (state.entry ip).inum }

/-- Change the copy in the entry. -/
def edit (state : State) (ip : Entry) (change : Dinode -> Dinode) : State :=
  state.setInode ip { state.entry ip with node := change (state.entry ip).node }

/-- Write the copy to the disk. -/
def flush (state : State) (ip : Entry) : State :=
  { state with disk := { state.disk with
    node := Function.update state.disk.node (state.entry ip).inum (state.entry ip).node } }

def invalidate (state : State) (ip : Entry) : State :=
  state.setInode ip { state.entry ip with valid := false }

/-! ## Blocks -/

def setUsed (state : State) (block : Nat) (bit : Bool) : State :=
  { state with disk := { state.disk with used := Function.update state.disk.used block bit } }

def setData (state : State) (block : Nat) (bytes : Bytes) : State :=
  { state with disk := { state.disk with data := Function.update state.disk.data block bytes } }

def setNode (state : State) (inum : Nat) (node : Dinode) : State :=
  { state with disk := { state.disk with node := Function.update state.disk.node inum node } }

/-! ## Open files -/

/-- `f->ref = 1` for a free file structure. -/
def fileTake (state : State) (f : Handle) : State :=
  state.setFile f { state.file f with ref := 1 }

/-- `f->ref--` when other references remain. -/
def fileDrop (state : State) (f : Handle) : State :=
  state.setFile f { state.file f with ref := (state.file f).ref - 1 }

/-- The last `f->ref--`. -/
def fileFree (state : State) (f : Handle) : State :=
  state.setFile f { state.file f with ref := 0, type := .fdNone }

/-- The fields that `sys_open` fills in. -/
def fileOpen (state : State) (f : Handle) (ip : Entry) (type : FileType) (major : Int)
    (readable writable : Bool) : State :=
  let file := state.file f
  state.setFile f { file with
    type := type
    ip := some ip
    off := if type = .fdDevice then file.off else 0
    major := if type = .fdDevice then major else file.major
    readable := readable
    writable := writable }

def setOff (state : State) (f : Handle) (off : Nat) : State :=
  state.setFile f { state.file f with off := off }

/-! ## Processes -/

/-- `p->ofile[fd] = f`. -/
def setFd (state : State) (p : Pid) (fd : Fd) (f : Option Handle) : State :=
  state.setProc p ((state.proc p).setFd fd f)

/-- `p->cwd = ip`. -/
def setCwd (state : State) (p : Pid) (ip : Option Entry) : State :=
  state.setProc p { state.proc p with cwd := ip }

/-! ## The log -/

/-- `begin_op` does not have to wait for log space. -/
def mayBegin (state : State) : Bool :=
  decide (state.log.length + (state.outstanding + 1) * MAXOPBLOCKS ≤ LOGSIZE)

def beginOp (state : State) : State := { state with outstanding := state.outstanding + 1 }

/-- List a block, unless it is listed already. -/
def listBlock (log : List Nat) (block : Nat) : List Nat :=
  if block ∈ log then log else log ++ [block]

def logBlock (state : State) (block : Nat) : State :=
  { state with log := listBlock state.log block }

/-- The last operation that ends commits the transaction. -/
def endOp (sb : Superblock) (state : State) : State :=
  if state.outstanding = 1 then
    { state with
      outstanding := 0
      home := Volume.install sb state.log state.disk state.home
      log := []
      transactions := state.log :: state.transactions }
  else { state with outstanding := state.outstanding - 1 }

end State
end Fs
end Xv6
