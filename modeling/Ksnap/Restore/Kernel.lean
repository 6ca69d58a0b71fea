import Ksnap.Engine.Restore
import Ksnap.Foundation.Descriptors
import Ksnap.Foundation.Memory

/-!
# The child and its kernel

The world a restore runs in: the forked child with its descriptors, its memory and its
registers, and the snapshot file the engine reads from. Every call may fail. One that
succeeds does what it says, and a system call that is injected changes the memory of
the ranges it is given and nothing else.

A child that is not traced when it execs runs on its own from there, and so does one
that is stepped over anything but a planted syscall.
-/

namespace Ksnap

open Foundation Foundation.Program

/-- What is known of an open file. -/
structure OpenFile where
  path : Bytes
  flags : UInt32
  position : UInt64
  deriving DecidableEq

/-- `O_NOCTTY` -/
def oNoctty : UInt32 := 0o400

/-- The flags that only matter to open, or that belong to the descriptor. -/
def droppedFlags : UInt32 := oCreat ||| oExcl ||| oNoctty ||| oTrunc ||| oCloexec

/-- `O_LARGEFILE`, which the kernel adds to every open of a 64 bit process -/
def oLargefile : UInt32 := 0o100000

/-- `O_DIRECTORY` -/
def oDirectory : UInt32 := 0o200000

/-- `O_NOFOLLOW` -/
def oNofollow : UInt32 := 0o400000

/-- The flags that an open with `O_PATH` keeps, of all it is given. -/
def pathFlags : UInt32 := oPath ||| oDirectory ||| oNofollow

/-- What the flags of an open leave with the open file. -/
def keptFlags (flags : UInt32) : UInt32 :=
  if flags &&& oPath = 0 then (flags &&& ~~~droppedFlags) ||| oLargefile else flags &&& pathFlags

/-- Where the child is: still the engine, stopped after its exec, running on its own, or
dead. -/
inductive Phase where
  | engine
  | stopped
  | free
  | gone
  deriving DecidableEq

/-- The child, what the engine has done to it and seen of it, and how far the engine has read
the snapshot. -/
structure Child where
  phase : Phase
  /-- It executed an instruction of its own, after its exec. -/
  ranOwn : Bool
  traced : Bool
  descriptors : DescriptorTable Int32 OpenFile
  memory : Memory UInt8
  regs : UserRegs
  xstate : Option Bytes
  /-- The system calls that were injected and executed, with their results. -/
  calls : List (SystemCall × UInt64)
  /-- The texts of its maps file that were read. -/
  shown : List Bytes
  filePosition : ℕ
  /-- The file behind a path keeps a position. A device like `/dev/null` takes every seek, and
  stays at 0. -/
  keepsPosition : Bytes → Bool

/-! ## System calls -/

/-- The system call in the registers. -/
def SystemCall.ofRegs (regs : UserRegs) : SystemCall :=
  ⟨regs.rax, regs.rdi, regs.rsi, regs.rdx, regs.r10, regs.r8, regs.r9⟩

/-- The addresses whose cells a system call replaces. -/
def SystemCall.Touches (call : SystemCall) (result address : UInt64) : Prop :=
  syscallFailed result = false ∧
    (call.number = sysMmap ∧ Within call.arg1 call.arg2.toNat address ∨
      call.number = sysMremap ∧ (Within call.arg1 call.arg2.toNat address ∨
        Within call.arg5 call.arg3.toNat address))

/-- The descriptors after a system call, of which `fcntl` with `F_SETFD` sets a mark. -/
def SystemCall.descriptors (call : SystemCall) (result : UInt64)
    (table : DescriptorTable Int32 OpenFile) : DescriptorTable Int32 OpenFile :=
  if call.number = sysFcntl ∧ call.arg2 = fSetfd ∧ syscallFailed result = false then
    let fd := call.arg1.toUInt32.toInt32
    table.aim fd fd (call.arg3 &&& fdCloexec ≠ 0)
  else table

/-- The code at rip is a syscall opcode. -/
def Child.AtSyscall (child : Child) : Prop :=
  child.memory child.regs.rip = 0x0f ∧ child.memory (child.regs.rip + 1) = 0x05

instance (child : Child) : Decidable child.AtSyscall :=
  inferInstanceAs (Decidable (_ ∧ _))

/-- The child executes the system call in its registers. -/
def Child.Executes (before after : Child) : Prop :=
  ∃ result memory regs, regs.rax = result ∧
    (∀ address, ¬(SystemCall.ofRegs before.regs).Touches result address →
      memory address = before.memory address) ∧
    after = { before with
      memory := memory
      regs := regs
      descriptors := (SystemCall.ofRegs before.regs).descriptors result before.descriptors
      calls := before.calls ++ [(SystemCall.ofRegs before.regs, result)] }

/-- The child is stepped over one instruction, which is its own unless one was planted. -/
def Child.Steps (before after : Child) : Prop :=
  if before.AtSyscall then before.Executes after else after.ranOwn = true

/-! ## Calls of the engine -/

abbrev RestoreEvent : Type := Event RestoreInterface

/-- The calls that the child makes before its exec. -/
def ForkedStep (before : Child) : RestoreEvent → Child → Prop
  | ⟨.closeRange, true⟩, after =>
      after = { before with descriptors := before.descriptors.closeAll fun fd _ => 2 < fd }
  | ⟨.dup2 old new, true⟩, after =>
      (before.descriptors.slots old).isSome ∧ after = { before with
        descriptors :=
          if old = new then before.descriptors else before.descriptors.duplicate old new }
  | ⟨.openFile path flags, some fd⟩, after =>
      before.descriptors.LowestFree 0 fd ∧ after = { before with
        descriptors := before.descriptors.openAt fd ⟨path, keptFlags flags, 0⟩ }
  | ⟨.lseek fd position, true⟩, after =>
      ∃ slot, before.descriptors.slots fd = some slot ∧ after = { before with
        descriptors := before.descriptors.modify slot.file fun file =>
          { file with position := if before.keepsPosition file.path then position else 0 } }
  | ⟨.close fd, _⟩, after =>
      after = { before with descriptors := before.descriptors.closeOne fd }
  | ⟨.traceMe, accepted⟩, after => after = { before with traced := accepted }
  | ⟨.execv _, true⟩, after =>
      ∃ memory regs, after = { before with
        phase := if before.traced then .stopped else .free
        ranOwn := !before.traced
        descriptors := before.descriptors.exec
        memory := memory
        regs := regs }
  | ⟨.exit, _⟩, after => after = { before with phase := .gone }
  | _, after => after = before

/-- What waiting for the child reports. A child that runs on its own is waited for until it
is dead. -/
def WaitStep (before : Child) (status : ChildStatus) (after : Child) : Prop :=
  match status with
  | .stopped => before.phase = .stopped ∧ after = before
  | .exited | .signaled => before.phase ≠ .stopped ∧ after = { before with phase := .gone }
  | .other => after = before

/-- The calls that the engine makes on the child. -/
def TracerStep (content : Bytes) (before : Child) : RestoreEvent → Child → Prop
  | ⟨.waitChild, status⟩, after => WaitStep before status after
  | ⟨.getRegs, some regs⟩, after => regs = before.regs ∧ after = before
  | ⟨.setRegs regs, true⟩, after => after = { before with regs := regs }
  | ⟨.peek address, some word⟩, after =>
      word = readWord before.memory address ∧ after = before
  | ⟨.poke address word, true⟩, after | ⟨.putBack address word, true⟩, after =>
      after = { before with memory := writeWord before.memory address word }
  | ⟨.waitStep, some .trapped⟩, after => before.Steps after
  | ⟨.waitStep, none⟩, after => after = before ∨ before.Steps after
  | ⟨.readMaps, some text⟩, after => after = { before with shown := before.shown ++ [text] }
  | ⟨.seek offset, true⟩, after => after = { before with filePosition := offset.toNat }
  | ⟨.readPayload count, some bytes⟩, after =>
      (∀ index : Fin count, content[before.filePosition + index]? = some (bytes.get index)) ∧
        after = { before with filePosition := before.filePosition + count }
  | ⟨.readPayload _, none⟩, after =>
      ∃ position, after = { before with filePosition := position }
  | ⟨.writeMemory address bytes, complete⟩, after =>
      ∃ count, (complete = true → count = bytes.length) ∧
        after = { before with memory := writeRange before.memory address (bytes.take count) }
  | ⟨.setXstate xstate, true⟩, after => after = { before with xstate := some xstate }
  | ⟨.setXstate _, false⟩, after => ∃ xstate, after = { before with xstate := xstate }
  | ⟨.detach, true⟩, after => after = { before with phase := .free, ranOwn := true }
  | ⟨.kill, _⟩, after => after = { before with phase := .gone }
  | ⟨.waitEnd, _⟩, after =>
      after = { before with phase := if before.phase = .stopped then .stopped else .gone }
  | _, after => after = before

/-- What a call does to the child. -/
def ChildStep (content : Bytes) (before : Child) (event : RestoreEvent) (after : Child) : Prop :=
  match event.request with
  | .closeRange | .dup2 _ _ | .openFile _ _ | .lseek _ _ | .close _ | .personality | .traceMe
  | .execv _ | .exit => ForkedStep before event after
  | _ => TracerStep content before event after

/-! ## What the engine takes for granted

Three replies are never looked at: whether the child is traced, whether a single step
came back after its instruction, and whether the code was put back.
-/

def Traced : RestoreEvent → Prop
  | ⟨.traceMe, accepted⟩ => accepted = true
  | _ => True

def Trapped : RestoreEvent → Prop
  | ⟨.waitStep, some .interrupted⟩ => False
  | _ => True

def CodePutBack : RestoreEvent → Prop
  | ⟨.putBack _ _, written⟩ => written = true
  | _ => True

/-- The world of a restore from a snapshot file with this content, in which only some events
can happen. -/
abbrev childWorld (content : Bytes) (rely : RestoreEvent → Prop) :
    Environment RestoreInterface where
  State := Child
  step := fun before request reply after =>
    ChildStep content before ⟨request, reply⟩ after ∧ rely ⟨request, reply⟩

end Ksnap
