import Ksnap.Engine.ReadSnapshot
import Ksnap.Foundation.Program

/-!
# System calls in the child

`inject_syscall` of `src/restorer.c` and the calls that are made through it. The two
bytes at the rip of the stopped child are swapped for a syscall opcode, one
instruction is single stepped, then code and registers go back.
-/

namespace Ksnap

open Foundation Foundation.Program

/-! ## The calls of a restore -/

/-- What `waitpid` reports of the new process. -/
inductive ChildStatus where
  | stopped
  | exited
  | signaled
  | other
  deriving DecidableEq

/-- Why a single step came back: after the instruction, or for another signal before it. -/
inductive StepStatus where
  | trapped
  | interrupted
  deriving DecidableEq

/-- The calls of a restore, first those of the engine before and in the forked child, then
those of the engine on the child it traces. -/
inductive RestoreCall where
  | fork
  /-- `close_range(STDERR_FILENO + 1, ~0U, 0)` -/
  | closeRange
  | dup2 (old new : Int32)
  | openFile (path : Bytes) (flags : UInt32)
  /-- `lseek` with `SEEK_SET` -/
  | lseek (fd : Int32) (position : UInt64)
  | close (fd : Int32)
  /-- `personality(ADDR_NO_RANDOMIZE)` -/
  | personality
  /-- `ptrace(PTRACE_TRACEME)` -/
  | traceMe
  | execv (path : Bytes)
  | exit
  /-- `waitpid` for the child after the fork -/
  | waitChild
  /-- `open` of `/proc/pid/mem` -/
  | openMemory
  | closeMemory
  /-- `ptrace(PTRACE_GETREGS)` -/
  | getRegs
  /-- `ptrace(PTRACE_SETREGS)` -/
  | setRegs (regs : UserRegs)
  /-- `ptrace(PTRACE_PEEKTEXT)` -/
  | peek (address : UInt64)
  /-- `ptrace(PTRACE_POKETEXT)` -/
  | poke (address word : UInt64)
  /-- The `ptrace(PTRACE_POKETEXT)` that puts the code back, whose result nobody looks at. -/
  | putBack (address word : UInt64)
  /-- `ptrace(PTRACE_SINGLESTEP)` -/
  | singleStep
  /-- `waitpid` after the single step, whose status nobody looks at -/
  | waitStep
  /-- `/proc/pid/maps` of the child -/
  | readMaps
  /-- `fseek` in the snapshot -/
  | seek (offset : UInt64)
  /-- `fread` of the snapshot, and whether it is complete -/
  | readPayload (count : ℕ)
  /-- `pwrite` to `/proc/pid/mem`, and whether it took every byte -/
  | writeMemory (address : UInt64) (bytes : Bytes)
  /-- `ptrace(PTRACE_SETREGSET)` with `NT_X86_XSTATE` -/
  | setXstate (xstate : Bytes)
  /-- `ptrace(PTRACE_DETACH)` -/
  | detach
  /-- `kill` with `SIGKILL` -/
  | kill
  /-- `waitpid` for the end of the child -/
  | waitEnd

/-- The replies, `false` and `none` for a call that failed. -/
abbrev RestoreReply : RestoreCall → Type
  | .openFile _ _ => Option Int32
  | .close _ | .personality | .exit | .closeMemory | .kill | .waitEnd => Unit
  | .waitChild => ChildStatus
  | .getRegs => Option UserRegs
  | .peek _ => Option UInt64
  | .waitStep => Option StepStatus
  | .readMaps => Option Bytes
  | .readPayload count => Option (List.Vector UInt8 count)
  | _ => Bool

abbrev RestoreInterface : Interface := ⟨RestoreCall, RestoreReply⟩

/-- A call on its own. -/
abbrev RestoreCall.perform (request : RestoreCall) :
    Program RestoreInterface (RestoreReply request) :=
  @Program.perform RestoreInterface request

/-- A call of an attempt. -/
abbrev RestoreCall.ask (request : RestoreCall) :
    Attempt RestoreInterface (RestoreReply request) :=
  @Program.ask RestoreInterface request

/-! ## Injecting -/

/-- A system call with its arguments. -/
structure SystemCall where
  number : UInt64
  arg1 : UInt64
  arg2 : UInt64
  arg3 : UInt64
  arg4 : UInt64
  arg5 : UInt64
  arg6 : UInt64
  deriving DecidableEq

/-- The registers for a system call. -/
def SystemCall.load (call : SystemCall) (saved : UserRegs) : UserRegs :=
  { saved with
    rax := call.number
    rdi := call.arg1
    rsi := call.arg2
    rdx := call.arg3
    r10 := call.arg4
    r8 := call.arg5
    r9 := call.arg6 }

/-- A code word with its first two bytes replaced by the syscall opcode. -/
def plantSyscall (originalCode : UInt64) : UInt64 :=
  (originalCode &&& 0xffffffffffff0000) ||| 0x050f

/-- Run one system call inside the stopped child, for its return value. -/
def injectSyscall (call : SystemCall) : Attempt RestoreInterface UInt64 := do
  let saved ← give (← RestoreCall.getRegs.ask)
  require (← (RestoreCall.setRegs (call.load saved)).ask)
  let originalCode ← give (← (RestoreCall.peek saved.rip).ask)
  require (← (RestoreCall.poke saved.rip (plantSyscall originalCode)).ask)
  require (← RestoreCall.singleStep.ask)
  require (← RestoreCall.waitStep.ask).isSome
  let after ← give (← RestoreCall.getRegs.ask)
  let _ ← (RestoreCall.putBack saved.rip originalCode).ask
  require (← (RestoreCall.setRegs saved).ask)
  return after.rax

/-- The kernel reports failures as `-errno` in rax. -/
def syscallFailed (syscallResult : UInt64) : Bool :=
  (-4095 : UInt64) ≤ syscallResult

/-- Inject a call that has to succeed. -/
def injectSucceeding (call : SystemCall) : Attempt RestoreInterface Unit := do
  let syscallResult ← injectSyscall call
  require (!syscallFailed syscallResult)

/-- `SYS_mmap`, `SYS_mprotect`, `SYS_mremap` and `SYS_fcntl` -/
def sysMmap : UInt64 := 9
def sysMprotect : UInt64 := 10
def sysMremap : UInt64 := 25
def sysFcntl : UInt64 := 72

/-- `MAP_PRIVATE | MAP_ANONYMOUS | MAP_FIXED` -/
def mapFixedAnonymous : UInt64 := 0x32

/-- `MREMAP_MAYMOVE | MREMAP_FIXED` -/
def mremapFixed : UInt64 := 3

/-- `F_SETFD` and `FD_CLOEXEC` -/
def fSetfd : UInt64 := 2
def fdCloexec : UInt64 := 1

/-- Every area starts as RWX, its own protection comes later. -/
def mmapCall (vma : VmaDescriptor) : SystemCall where
  number := sysMmap
  arg1 := vma.startAddress
  arg2 := vma.size
  arg3 := protAll.toUInt64
  arg4 := mapFixedAnonymous
  arg5 := -1
  arg6 := 0

def mprotectCall (vma : VmaDescriptor) : SystemCall where
  number := sysMprotect
  arg1 := vma.startAddress
  arg2 := vma.size
  arg3 := vma.prot.toUInt64
  arg4 := 0
  arg5 := 0
  arg6 := 0

/-- `(unsigned long long)fds[i].fd` extends the sign. -/
def setCloexecCall (entry : FdDescriptor) : SystemCall where
  number := sysFcntl
  arg1 := entry.fd.toInt64.toUInt64
  arg2 := fSetfd
  arg3 := fdCloexec
  arg4 := 0
  arg5 := 0
  arg6 := 0

def mremapCall (childStart childSize : UInt64) (wanted : KernelMap) : SystemCall where
  number := sysMremap
  arg1 := childStart
  arg2 := childSize
  arg3 := wanted.size
  arg4 := mremapFixed
  arg5 := wanted.startAddress
  arg6 := 0

def injectMmapSyscall (vma : VmaDescriptor) : Attempt RestoreInterface Unit :=
  injectSucceeding (mmapCall vma)

def injectMprotectSyscall (vma : VmaDescriptor) : Attempt RestoreInterface Unit :=
  injectSucceeding (mprotectCall vma)

end Ksnap
