import Ksnap.Engine.Collect
import Ksnap.Foundation.Program

/-!
# Writing a snapshot

`write_snapshot` and `write_vma_payload` of `src/dumper.c`, as a program over the
calls that a dump makes. The layout of the file is computed in 64 bit words before
the first byte is written. The payloads are then streamed from `/proc/pid/mem`,
which may hand over less than it was asked for and may be interrupted any number
of times, so the loop over a payload counts its rounds.
-/

namespace Ksnap

open Foundation Foundation.Program

/-! ## The calls of a dump -/

/-- What `pread` of a number of bytes comes back with. -/
inductive MemoryRead (count : ℕ) where
  | chunk (bytes : Bytes) (fits : bytes.length ≤ count)
  /-- `EINTR` -/
  | interrupted
  | failed

/-- The calls of a dump that can fail or that something depends on. The pid and the
path of the snapshot are the same all along, so they are not part of a call. -/
inductive DumpCall where
  /-- `ptrace(PTRACE_SEIZE)` -/
  | seize
  /-- `ptrace(PTRACE_INTERRUPT)` -/
  | interrupt
  /-- `waitpid`, with `WIFSTOPPED` of its status -/
  | waitStop
  /-- `ptrace(PTRACE_GETREGS)` -/
  | getRegs
  /-- `calloc` of the buffer for the xstate -/
  | allocateXstate
  /-- `ptrace(PTRACE_GETREGSET)` with `NT_X86_XSTATE` -/
  | getXstate
  /-- `readlink` of `/proc/pid/exe` -/
  | readExe
  /-- `/proc/pid/maps` -/
  | readMaps
  /-- `/proc/pid/fd` and what it leads to -/
  | readFds
  /-- `open` of `/proc/pid/mem` -/
  | openMemory
  /-- `fopen(snapshot_path, "wb")` -/
  | createSnapshot
  /-- `fwrite`, and whether it took every item -/
  | write (bytes : Bytes)
  /-- `ftell` -/
  | tell
  /-- `pread` of `/proc/pid/mem` -/
  | readMemory (address : UInt64) (count : ℕ)
  | closeMemory
  /-- `fflush` -/
  | flush
  /-- `fsync` -/
  | sync
  /-- `fclose` of the snapshot -/
  | closeSnapshot
  /-- `kill` with `SIGKILL` -/
  | kill
  /-- `waitpid` for the death of the target -/
  | reap
  /-- `ptrace(PTRACE_DETACH)` -/
  | detach

/-- The replies, `false` and `none` for a call that failed. -/
abbrev DumpReply : DumpCall → Type
  | .waitStop => Option Bool
  | .getRegs => Option UserRegs
  | .getXstate => Option Bytes
  | .readExe => Option Bytes
  | .readMaps => Option MapsFile
  | .readFds => FdFiles
  | .tell => Option ℕ
  | .readMemory _ count => MemoryRead count
  | .closeMemory | .reap => Unit
  | _ => Bool

abbrev DumpInterface : Interface := ⟨DumpCall, DumpReply⟩

/-- A call on its own. -/
abbrev DumpCall.perform (request : DumpCall) : Program DumpInterface (DumpReply request) :=
  @Program.perform DumpInterface request

/-- A call of an attempt. -/
abbrev DumpCall.ask (request : DumpCall) : Attempt DumpInterface (DumpReply request) :=
  @Program.ask DumpInterface request

/-! ## The layout -/

/-- What `write_snapshot` is handed, collected from the target before. -/
structure SnapshotParts where
  regs : UserRegs
  xstate : Bytes
  exePath : Bytes
  vmas : List VmaDescriptor
  fds : List FdDescriptor
  pool : Bytes
  kernelMaps : List KernelMap

/-- An array of the header with the items copied to its front, over a filler. -/
def copyOver {α : Type} (count : ℕ) (filler : α) (items : List α) : List.Vector α count :=
  ⟨items.take count ++ List.replicate (count - items.length) filler, by simp; omega⟩

/-- The offsets of the sections, each after the one before it. -/
def SnapshotParts.vmaTableOffset (_ : SnapshotParts) : UInt64 :=
  UInt64.ofNat headerCodec.width

def SnapshotParts.fdTableOffset (parts : SnapshotParts) : UInt64 :=
  parts.vmaTableOffset + UInt64.ofNat parts.vmas.length * 48

def SnapshotParts.pathPoolOffset (parts : SnapshotParts) : UInt64 :=
  parts.fdTableOffset + UInt64.ofNat parts.fds.length * 32

def SnapshotParts.xstateOffset (parts : SnapshotParts) : UInt64 :=
  parts.pathPoolOffset + UInt64.ofNat parts.pool.length

def SnapshotParts.dataOffset (parts : SnapshotParts) : UInt64 :=
  parts.xstateOffset + UInt64.ofNat parts.xstate.length

def SnapshotParts.header (parts : SnapshotParts) : DumpHeader where
  magic := ⟨magic, rfl⟩
  version := formatVersion
  vmaCount := UInt32.ofNat parts.vmas.length
  vmaTableOffset := parts.vmaTableOffset
  pathPoolOffset := parts.pathPoolOffset
  pathPoolSize := UInt64.ofNat parts.pool.length
  dataOffset := parts.dataOffset
  exePathLen := UInt32.ofNat parts.exePath.length
  exePath := copyOver pathMax 0 parts.exePath
  kernelMapCount := UInt32.ofNat parts.kernelMaps.length
  kernelMaps := copyOver maxKernelMaps ⟨0, 0, .replicate kernelMapNameLen 0⟩ parts.kernelMaps
  regs := parts.regs
  xstateOffset := parts.xstateOffset
  xstateSize := UInt32.ofNat parts.xstate.length
  xstateReserved := 0
  fdTableOffset := parts.fdTableOffset
  fdCount := UInt32.ofNat parts.fds.length
  fdReserved := 0

/-- Payloads are streamed in table order, so each one starts where the last one ends. -/
def assignDataOffsets : UInt64 → List VmaDescriptor → List VmaDescriptor
  | _, [] => []
  | payloadOffset, vma :: vmas =>
      { vma with dataOffset := payloadOffset } ::
        assignDataOffsets (payloadOffset + vma.size) vmas

/-- The vma table as it is written. -/
def SnapshotParts.vmaTable (parts : SnapshotParts) : List VmaDescriptor :=
  assignDataOffsets parts.dataOffset parts.vmas

/-! ## The program -/

/-- `PAGE_SIZE`, the size of the copy buffer. -/
def pageSize : UInt64 := 4096

/-- What one round asks for, out of what is left. -/
def roundSize (left : UInt64) : UInt64 :=
  if pageSize < left then pageSize else left

/-- The loop over one payload, from the bytes that were sent before. -/
def writeVmaPayload (vma : VmaDescriptor) : ℕ → UInt64 → Attempt DumpInterface Unit
  | 0, _ => OptionT.mk .unfinished
  | rounds + 1, currSend =>
      if currSend < vma.size then do
        let bytesSize := roundSize (vma.size - currSend)
        match ← (DumpCall.readMemory (vma.startAddress + currSend) bytesSize.toNat).ask with
        | .interrupted => writeVmaPayload vma rounds currSend
        | .failed => failure
        | .chunk bytes _ =>
            require (!bytes.isEmpty)
            require (← (DumpCall.write bytes).ask)
            writeVmaPayload vma rounds (currSend + UInt64.ofNat bytes.length)
      else pure ()

/-- A section that is left out when it is empty. -/
def writeSection (bytes : Bytes) : Attempt DumpInterface Unit :=
  if bytes.isEmpty then pure ()
  else do require (← (DumpCall.write bytes).ask)

/-- Everything between the opening of the snapshot and the cleanup. -/
def writeSections (rounds : ℕ) (parts : SnapshotParts) : Attempt DumpInterface Unit := do
  require (← (DumpCall.write (headerCodec.encode parts.header)).ask)
  require (← (DumpCall.write (vmaCodec.encodeAll parts.vmaTable)).ask)
  writeSection (fdCodec.encodeAll parts.fds)
  writeSection parts.pool
  require (← (DumpCall.write parts.xstate).ask)
  require ((← DumpCall.tell.ask) = some parts.dataOffset.toNat)
  forM parts.vmaTable fun vma => writeVmaPayload vma rounds 0

/-- A snapshot is only done once it is on the disk, and one that was not written in full is
not even flushed. -/
def flushToDisk (written : Bool) : Program DumpInterface Bool := do
  if written then
    if ← DumpCall.flush.perform then DumpCall.sync.perform
    else return false
  else return false

/-- The cleanup of `write_snapshot` once the snapshot is open. A failure to close it still
means an incomplete dump. -/
def closeSnapshot (written : Bool) : Program DumpInterface Bool := do
  DumpCall.closeMemory.perform
  let synced ← flushToDisk written
  let closed ← DumpCall.closeSnapshot.perform
  return synced && closed

def writeSnapshot (rounds : ℕ) (parts : SnapshotParts) : Program DumpInterface Bool := do
  if ← DumpCall.openMemory.perform then
    if ← DumpCall.createSnapshot.perform then
      let written ← (writeSections rounds parts).run
      closeSnapshot written.isSome
    else
      DumpCall.closeMemory.perform
      return false
  else return false

end Ksnap
