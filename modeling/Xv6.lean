import Xv6.Console.Discipline
import Xv6.Fs.Integrity
import Xv6.Grep.Lines
import Xv6.Kernel.Ancestry
import Xv6.Kernel.Deadlock
import Xv6.Kernel.Nesting
import Xv6.Kernel.Quantum
import Xv6.Kernel.Running
import Xv6.Kernel.Wakeups
import Xv6.Lib.Memmove
import Xv6.Log.Durability
import Xv6.Malloc.Allocator
import Xv6.Paging.Copies
import Xv6.Pipe.Delivery
import Xv6.Proc.CfsdOrder
import Xv6.Proc.Trace
import Xv6.Proc.WaitStat
import Xv6.Shell.Acceptance
import Xv6.Shell.PathSearch
import Xv6.Table.Accounting
import Xv6.Table.CfsdRange
import Xv6.Table.Fcfs
import Xv6.Table.Kill
