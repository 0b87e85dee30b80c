import Xv6.Data.Bytes
import Xv6.Param

namespace Xv6
namespace Fs

/-!
# The on-disk format

The constants and records of `kernel/fs.h`, `kernel/stat.h` and the parts of
`kernel/param.h` that the file system uses.
-/

def BSIZE : Nat := 1024
def NDIRECT : Nat := 12
def NINDIRECT : Nat := BSIZE / 4
def MAXFILE : Nat := NDIRECT + NINDIRECT
/-- Inodes per block, of `sizeof(struct dinode)` bytes each. -/
def IPB : Nat := BSIZE / 64
/-- Bitmap bits per block. -/
def BPB : Nat := BSIZE * 8
def DIRSIZ : Nat := 14
def ROOTINO : Nat := 1

def NINODE : Nat := 50
def NFILE : Nat := 100
def NOFILE : Nat := 16
def NDEV : Int := 10

instance : NeZero NINODE := ⟨by decide⟩

instance : NeZero NFILE := ⟨by decide⟩

instance : NeZero NOFILE := ⟨by decide⟩

def T_DIR : Int := 1
def T_FILE : Int := 2
def T_DEVICE : Int := 3

/-- The value a C `short` holds after a computation whose exact result is `x`. -/
def int16 (x : Int) : Int := Int.bmod x (2 ^ 16)

/-- `struct superblock`.  The inode blocks, the bitmap and the data blocks
follow each other, block numbers fit into the `int` variables of the block
allocator, and the log has room for one operation. -/
structure Superblock where
  size : Nat
  nblocks : Nat
  ninodes : Nat
  nlog : Nat
  inodestart : Nat
  bmapstart : Nat
  bounded : size < 2 ^ 31
  inodes : inodestart + ninodes / IPB + 1 ≤ bmapstart
  bitmap : bmapstart + size / BPB + 1 ≤ size - nblocks
  roomy : MAXOPBLOCKS + 1 < nlog

namespace Superblock

variable (sb : Superblock)

/-- The block that contains the inode `inum`. -/
def IBLOCK (inum : Nat) : Nat := inum / IPB + sb.inodestart

/-- The block of the free map that contains the bit of `block`. -/
def BBLOCK (block : Nat) : Nat := block / BPB + sb.bmapstart

/-- The blocks from the first one behind the bitmap on. -/
def IsData (block : Nat) : Prop := sb.size - sb.nblocks ≤ block ∧ block < sb.size

instance (block : Nat) : Decidable (sb.IsData block) := inferInstanceAs (Decidable (_ ∧ _))

variable {sb}

theorem IBLOCK_not_data {inum : Nat} (exists_ : inum < sb.ninodes) :
    ¬ sb.IsData (sb.IBLOCK inum) := by
  have inside : inum / IPB ≤ sb.ninodes / IPB := Nat.div_le_div_right exists_.le
  have inodes := sb.inodes
  have bitmap := sb.bitmap
  unfold IsData IBLOCK
  generalize inum / IPB = row at *
  generalize sb.ninodes / IPB = rows at *
  generalize sb.size / BPB = maps at *
  omega

theorem BBLOCK_not_data {block : Nat} (inside : block < sb.size) :
    ¬ sb.IsData (sb.BBLOCK block) := by
  have below : block / BPB ≤ sb.size / BPB := Nat.div_le_div_right inside.le
  have bitmap := sb.bitmap
  unfold IsData BBLOCK
  generalize block / BPB = map at *
  generalize sb.size / BPB = maps at *
  omega

/-- Block 0 holds no data, so that a zero pointer can mean that there is no
block. -/
theorem zero_not_data : ¬ sb.IsData 0 := by
  have bitmap := sb.bitmap
  unfold IsData
  generalize sb.size / BPB = maps at *
  omega

end Superblock

/-- `struct dinode`.  Positions of `addrs` from `NDIRECT + 1` on do not exist
on the disk and are not used. -/
@[ext] structure Dinode where
  type : Int
  major : Int
  minor : Int
  nlink : Int
  size : Nat
  addrs : Nat -> Nat

/-- A cleared inode of the given type. -/
def Dinode.fresh (type : Int) : Dinode := ⟨type, 0, 0, 0, 0, fun _ => 0⟩

/-- The contents of a disk: the inodes and the bitmap by their meaning, and
the bytes of every other block. -/
structure Volume where
  node : Nat -> Dinode
  used : Nat -> Bool
  data : Nat -> Bytes

/-! ## Directory entries and names -/

/-- `struct dirent`, with the `DIRSIZ` bytes of its name. -/
structure Dirent where
  inum : Nat
  name : List UInt8
  deriving DecidableEq

/-- `sizeof(struct dirent)`. -/
def DESIZE : Nat := 2 + DIRSIZ

def Dirent.decode (bytes : List UInt8) : Dirent :=
  ⟨ofLittleEndian (bytes.take 2), bytes.drop 2⟩

def Dirent.encode (entry : Dirent) : List UInt8 := littleEndian 2 entry.inum ++ entry.name

/-- `strncmp` on strings that end at a zero byte or with the list. -/
def strncmp : List UInt8 -> List UInt8 -> Nat -> Int
  | _, _, 0 => 0
  | p, q, n + 1 =>
    let c := p.headD 0
    let d := q.headD 0
    if c ≠ 0 ∧ c = d then strncmp p.tail q.tail n else (c.toNat : Int) - d.toNat

/-- `strncpy` into a buffer of `n` bytes: the rest is filled with zeros. -/
def strncpy : List UInt8 -> Nat -> List UInt8
  | _, 0 => []
  | t, n + 1 =>
    if t.headD 0 = 0 then List.replicate (n + 1) 0 else t.headD 0 :: strncpy t.tail n

def namecmp (s t : List UInt8) : Int := strncmp s t DIRSIZ

/-- The characters `/` and `.`. -/
def slash : UInt8 := 47
def dot : UInt8 := 46

/-- The names `"."` and `".."`. -/
def dotName : List UInt8 := [dot]
def dotdotName : List UInt8 := [dot, dot]

/-- A path that `argstr` has copied from user memory: the bytes before the
terminating zero. -/
structure Path where
  chars : List UInt8
  clean : forall char, char ∈ chars -> char ≠ 0

/-- `skipelem`: the next path element, cut to `DIRSIZ` bytes, and the path
behind it. -/
def skipelem (path : List UInt8) : Option (List UInt8 × List UInt8) :=
  match path.dropWhile (· == slash) with
  | [] => none
  | first :: rest =>
    some (((first :: rest).takeWhile (· != slash)).take DIRSIZ,
      ((first :: rest).dropWhile (· != slash)).dropWhile (· == slash))

end Fs
end Xv6
