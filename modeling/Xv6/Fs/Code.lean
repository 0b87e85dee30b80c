import Xv6.Fs.State
import Xv6.Conc.Sequential
import Xv6.Vm.Copy

namespace Xv6
namespace Fs

open Conc

/-!
# The code of the file system

`kernel/fs.c` with `log_write`, `begin_op` and `end_op` of `kernel/log.c`.  A
section under a spin-lock, and the use of one buffer between `bread` and
`brelse`, is one statement.  Sleep-locks of inodes are explicit.
-/

/-- A piece of kernel code run by a process. -/
abbrev Routine (α : Type) := Prog State Pid Unit Pid α

/-- A statement with a result. -/
def atomically {α : Type} (run : State -> α × State) : Routine α :=
  .act (fun _ state => some (run state)) .ret

def change (update : State -> State) : Routine Unit := Prog.modify (fun _ => update)

def look {α : Type} (view : State -> α) : Routine α := Prog.read (fun _ => view)

/-- `panic` does not return. -/
def panic {α : Type} (why : Panic) : Routine α := do
  change (fun state => { state with panicked := some why })
  Prog.halt

section

variable (sb : Superblock)

/-! ## The log -/

/-- `begin_op` waits while the log may be too full for another operation. -/
def begin_op : Routine Unit := Prog.await (fun _ => State.mayBegin) (fun _ => State.beginOp)

def end_op : Routine Unit := change (State.endOp sb)

/-- The number of blocks in the log from which on `log_write` panics. -/
def logLimit : Nat := min LOGSIZE (sb.nlog - 1)

/-- List a block in the log. -/
def log_write (block : Nat) : Routine Unit := do
  if logLimit sb ≤ (← look fun state => state.log.length) then panic .tooBigTransaction
  else if (← look fun state => state.outstanding) < 1 then panic .logWriteOutsideOfTrans
  else change (·.logBlock block)

/-! ## Blocks -/

def bzero (block : Nat) : Routine Unit := do
  change (·.setData block Bytes.zero)
  log_write sb block

/-- The first clear bit of the `index`-th bitmap block. -/
def firstFree (disk : Volume) (index : Nat) : Option Nat :=
  ((List.range (min BPB (sb.size - index * BPB))).find?
    (fun bi => !disk.used (index * BPB + bi))).map (fun bi => index * BPB + bi)

/-- Look for a free block in one bitmap block and mark it in use. -/
def ballocIn (index : Nat) : Routine (Option Nat) := do
  match ← look fun state => firstFree sb state.disk index with
  | some block => do
    change (·.setUsed block true)
    log_write sb (sb.BBLOCK block)
    pure (some block)
  | none => pure none

/-- Allocate a zeroed disk block. -/
def balloc : Routine Nat := do
  match ← Prog.firstSome (ballocIn sb) (List.range ((sb.size + BPB - 1) / BPB)) with
  | some block => do
    bzero sb block
    pure block
  | none => panic .ballocOutOfBlocks

/-- Free a disk block. -/
def bfree (block : Nat) : Routine Unit := do
  if ← look fun state => state.disk.used block then do
    change (·.setUsed block false)
    log_write sb (sb.BBLOCK block)
  else panic .freeingFreeBlock

/-! ## Inodes -/

/-- Copy a modified in-memory inode to disk. -/
def iupdate (ip : Entry) : Routine Unit := do
  change (·.flush ip)
  log_write sb (sb.IBLOCK (← look fun state => (state.entry ip).inum))

def inTable (state : State) (inum : Nat) : Option Entry :=
  (List.finRange NINODE).find? (fun ip =>
    decide (0 < (state.entry ip).ref) && (state.entry ip).inum == inum)

def emptyEntry (state : State) : Option Entry :=
  (List.finRange NINODE).find? (fun ip => (state.entry ip).ref == 0)

/-- Find the inode in the table, or a free entry for it. -/
def iget (inum : Nat) : Routine Entry := do
  match ← look fun state => inTable state inum with
  | some ip => do
    change (·.hold ip)
    pure ip
  | none =>
    match ← look emptyEntry with
    | some ip => do
      change (·.recycle ip inum)
      pure ip
    | none => panic .igetNoInodes

def idup (ip : Entry) : Routine Entry := do
  change (·.hold ip)
  pure ip

/-- Look at one inode on the disk and allocate it if it is free. -/
def iallocAt (type : Int) (inum : Nat) : Routine (Option Nat) := do
  if (← look fun state => (state.disk.node inum).type) = 0 then do
    change (·.setNode inum (Dinode.fresh type))
    log_write sb (sb.IBLOCK inum)
    pure (some inum)
  else pure none

/-- Allocate an inode of the given type. -/
def ialloc (type : Int) : Routine Entry := do
  match ← Prog.firstSome (iallocAt sb type) ((List.range sb.ninodes).drop 1) with
  | some inum => iget inum
  | none => panic .iallocNoInodes

variable (p : Pid)

/-- Lock the given inode and read it from disk if necessary. -/
def ilock (ip : Entry) : Routine Unit := do
  if (← look fun state => (state.entry ip).ref) < 1 then panic .ilock
  else do
    Prog.await (fun _ state => (state.entry ip).lock.isNone) (fun _ => (·.acquiresleep p ip))
    if ← look fun state => (state.entry ip).valid then pure ()
    else do
      change (·.load ip)
      if (← look fun state => (state.entry ip).node.type) = 0 then panic .ilockNoType
      else pure ()

def iunlock (ip : Entry) : Routine Unit := do
  if ← look fun state =>
      decide ((state.entry ip).lock = some p) && decide (1 ≤ (state.entry ip).ref) then
    change (·.releasesleep ip)
  else panic .iunlock

/-- Clear the `index`-th direct pointer of an inode after freeing its block. -/
def itruncDirect (ip : Entry) (index : Nat) : Routine Unit := do
  let block ← look fun state => (state.entry ip).node.addrs index
  if block = 0 then pure ()
  else do
    bfree sb block
    change (·.edit ip fun node => { node with addrs := Function.update node.addrs index 0 })

/-- Truncate inode. -/
def itrunc (ip : Entry) : Routine Unit := do
  Prog.forEach (itruncDirect sb ip) (List.range NDIRECT)
  let indirect ← look fun state => (state.entry ip).node.addrs NDIRECT
  if indirect = 0 then pure ()
  else do
    let a ← look fun state => state.disk.data indirect
    Prog.forEach (fun j => if a.word (4 * j) 4 = 0 then pure () else bfree sb (a.word (4 * j) 4))
      (List.range NINDIRECT)
    bfree sb indirect
    change (·.edit ip fun node => { node with addrs := Function.update node.addrs NDIRECT 0 })
  change (·.edit ip fun node => { node with size := 0 })
  iupdate sb ip

/-- Drop a reference to an in-memory inode.  An `acquiresleep` that had to
wait would panic, because `itable.lock` is held. -/
def iput (ip : Entry) : Routine Unit := do
  let inode ← look fun state => state.entry ip
  if inode.ref = 1 ∧ inode.valid = true ∧ inode.node.nlink = 0 then
    if inode.lock ≠ none then panic .schedLocks
    else do
      change (·.acquiresleep p ip)
      itrunc sb ip
      change (·.edit ip fun node => { node with type := 0 })
      iupdate sb ip
      change (·.invalidate ip)
      change (·.releasesleep ip)
      change (·.drop ip)
  else change (·.drop ip)

def iunlockput (ip : Entry) : Routine Unit := do
  iunlock p ip
  iput sb p ip

/-! ## Contents -/

/-- `ip->addrs[index]`, allocating a block for it if there is none. -/
def addrOf (ip : Entry) (index : Nat) : Routine Nat := do
  let addr ← look fun state => (state.entry ip).node.addrs index
  if addr = 0 then do
    let addr ← balloc sb
    change (·.edit ip fun node => { node with addrs := Function.update node.addrs index addr })
    pure addr
  else pure addr

/-- The disk block address of the `bn`-th block of an inode, allocating it if
there is none. -/
def bmap (ip : Entry) (bn : Nat) : Routine Nat := do
  if bn < NDIRECT then addrOf sb ip bn
  else if bn - NDIRECT < NINDIRECT then do
    let indirect ← addrOf sb ip NDIRECT
    let addr ← look fun state => (state.disk.data indirect).word (4 * (bn - NDIRECT)) 4
    if addr = 0 then do
      let addr ← balloc sb
      change (fun state => state.setData indirect
        ((state.disk.data indirect).setWord (4 * (bn - NDIRECT)) 4 addr))
      log_write sb indirect
      pure addr
    else pure addr
  else panic .bmapOutOfRange

/-- The other side of `either_copyout`: whether the bytes can be copied to the
given offset behind the destination. -/
abbrev Sink := Nat -> List UInt8 -> Bool

def Sink.kernel : Sink := fun _ _ => true

/-- The other side of `either_copyin`: bytes in the kernel or a user address. -/
inductive Source where
  | kernel (bytes : List UInt8)
  | user (space : Vm.Space) (va : Nat)

namespace Source

/-- The address `i` bytes further on. -/
def shift : Source -> Nat -> Source
  | .kernel bytes, i => .kernel (bytes.drop i)
  | .user space va, i => .user space (va + i)

/-- `either_copyin(dst, user_src, src, m)`: whether it succeeded, and the bytes
at `dst` afterwards. -/
def copyin : Source -> Nat -> Bytes -> Bool × Bytes
  | .kernel bytes, m, dst =>
    (true, fun index => if index < m then bytes.getD index 0 else dst index)
  | .user space va, m, dst => Vm.copyin space va m dst

end Source

/-- The number of bytes of a range that lie in its first block. -/
def chunk (off rest : Nat) : Nat := min rest (BSIZE - off % BSIZE)

/-- The loop of `readi`.  Every turn advances, so `n` turns are enough.  The
result is `none` if a copy failed. -/
def readiLoop (ip : Entry) (dst : Sink) (n : Nat) :
    Nat -> Nat -> Nat -> List UInt8 -> Routine (Option (List UInt8))
  | 0, _, _, got => pure (some got)
  | turns + 1, tot, off, got =>
    if tot < n then do
      let addr ← bmap sb ip (off / BSIZE)
      let m := chunk off (n - tot)
      let bytes ← look fun state => (state.disk.data addr).slice (off % BSIZE) m
      if dst tot bytes then readiLoop ip dst n turns (tot + m) (off + m) (got ++ bytes)
      else pure none
    else pure (some got)

/-- Read data from inode: the number of bytes, or `-1`, and the bytes. -/
def readi (ip : Entry) (dst : Sink) (off n : Nat) : Routine (Int × List UInt8) := do
  let size ← look fun state => (state.entry ip).node.size
  if size < off ∨ uint32 (off + n) < off then pure (0, [])
  else do
    let n := if size < uint32 (off + n) then size - off else n
    match ← readiLoop sb ip dst n n 0 off [] with
    | some bytes => pure ((bytes.length : Int), bytes)
    | none => pure (-1, [])

/-- The block after its bytes from `pos` on have been passed to `copy`. -/
def Bytes.copyAt (block : Bytes) (pos : Nat) (copy : Bytes -> Bool × Bytes) : Bool × Bytes :=
  let result := copy (fun index => block (pos + index))
  (result.1, fun index => if pos ≤ index then result.2 (index - pos) else block index)

/-- The loop of `writei`: the final values of `tot` and `off`. -/
def writeiLoop (ip : Entry) (src : Source) (n : Nat) : Nat -> Nat -> Nat -> Routine (Nat × Nat)
  | 0, tot, off => pure (tot, off)
  | turns + 1, tot, off =>
    if tot < n then do
      let addr ← bmap sb ip (off / BSIZE)
      let m := chunk off (n - tot)
      let block ← look fun state => state.disk.data addr
      let copied := Bytes.copyAt block (off % BSIZE) ((src.shift tot).copyin m)
      change (·.setData addr copied.2)
      if copied.1 then do
        log_write sb addr
        writeiLoop ip src n turns (tot + m) (off + m)
      else pure (tot, off)
    else pure (tot, off)

/-- Write data to inode: the number of bytes written, or `-1`. -/
def writei (ip : Entry) (src : Source) (off n : Nat) : Routine Int := do
  let size ← look fun state => (state.entry ip).node.size
  if size < off ∨ uint32 (off + n) < off then pure (-1)
  else if MAXFILE * BSIZE < uint32 (off + n) then pure (-1)
  else do
    let final ← writeiLoop sb ip src n n 0 off
    if size < final.2 then change (·.edit ip fun node => { node with size := final.2 })
    else pure ()
    iupdate sb ip
    pure final.1

/-! ## Directories -/

/-- The offsets that a loop over the entries of a directory visits. -/
def offsets (first size : Nat) : List Nat :=
  ((List.range ((size + DESIZE - 1) / DESIZE)).drop first).map (DESIZE * ·)

/-- Read one directory entry. -/
def readDirent (dp : Entry) (off : Nat) (why : Panic) : Routine Dirent := do
  let got ← readi sb dp Sink.kernel off DESIZE
  if got.1 ≠ DESIZE then panic why else pure (Dirent.decode got.2)

/-- Look for a directory entry: the inode and the offset of the entry. -/
def dirlookup (dp : Entry) (name : List UInt8) : Routine (Option (Entry × Nat)) := do
  let dir ← look fun state => (state.entry dp).node
  if dir.type ≠ T_DIR then panic .dirlookupNotDir
  else
    Prog.firstSome (fun off => do
      let de ← readDirent sb dp off .dirlookupRead
      if de.inum = 0 then pure none
      else if namecmp name de.name = 0 then do
        let ip ← iget de.inum
        pure (some (ip, off))
      else pure none) (offsets 0 dir.size)

/-- The offset of the first free entry, or the end of the directory. -/
def emptySlot (dp : Entry) : Routine Nat := do
  let size ← look fun state => (state.entry dp).node.size
  let found ← Prog.firstSome (fun off => do
    let de ← readDirent sb dp off .dirlinkRead
    pure (if de.inum = 0 then some off else none)) (offsets 0 size)
  pure (found.getD (DESIZE * ((size + DESIZE - 1) / DESIZE)))

/-- Write a new directory entry.  The field for the inode number has 16 bits. -/
def dirlink (dp : Entry) (name : List UInt8) (inum : Nat) : Routine Int := do
  match ← dirlookup sb dp name with
  | some (ip, _) => do
    iput sb p ip
    pure (-1)
  | none => do
    let off ← emptySlot sb dp
    let de : Dirent := ⟨inum, strncpy name DIRSIZ⟩
    if (← writei sb dp (.kernel de.encode) off DESIZE) ≠ DESIZE then panic .dirlink
    else pure 0

/-! ## Paths -/

/-- The loop of `namex`.  Every element has at least one byte, so the length
of the path bounds the number of turns. -/
def namexLoop (parent : Bool) : Nat -> List UInt8 -> Entry -> Routine (Option (Entry × List UInt8))
  | 0, _, ip =>
    if parent then do
      iput sb p ip
      pure none
    else pure (some (ip, []))
  | turns + 1, path, ip =>
    match skipelem path with
    | none =>
      if parent then do
        iput sb p ip
        pure none
      else pure (some (ip, []))
    | some (name, rest) => do
      ilock p ip
      if (← look fun state => (state.entry ip).node.type) ≠ T_DIR then do
        iunlockput sb p ip
        pure none
      else if parent ∧ rest = [] then do
        iunlock p ip
        pure (some (ip, name))
      else do
        match ← dirlookup sb ip name with
        | none => do
          iunlockput sb p ip
          pure none
        | some (next, _) => do
          iunlockput sb p ip
          namexLoop parent turns rest next

/-- Look up the inode of a path, or of its parent directory and the last
element. -/
def namex (path : Path) (parent : Bool) : Routine (Option (Entry × List UInt8)) := do
  let ip ←
    if path.chars.head? = some slash then iget ROOTINO
    else do
      match ← look fun state => (state.proc p).cwd with
      | some cwd => idup cwd
      | none => Prog.halt
  namexLoop sb p parent path.chars.length path.chars ip

def namei (path : Path) : Routine (Option Entry) := do
  let found ← namex sb p path false
  pure (found.map (·.1))

def nameiparent (path : Path) : Routine (Option (Entry × List UInt8)) := namex sb p path true

end
end Fs
end Xv6
