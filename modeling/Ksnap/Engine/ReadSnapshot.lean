import Ksnap.Engine.Maps
import Ksnap.Foundation.Logged
import Ksnap.Foundation.Search

/-!
# Reading a snapshot

`read_snapshot_metadata` and `read_fd_table` of `src/restorer.c`. Offsets and sizes
come out of the file as 64 bit words and their sums wrap around. The reader keeps
a log of the sizes it asks malloc for, and every call that can fail for reasons of
its own, memory or disk, fails as `ReaderFaults` says.
-/

namespace Ksnap

open Foundation

/-- A regular file. Its size is an `off_t`, so it stays below `2 ^ 63`. -/
structure RegularFile where
  bytes : Bytes
  size_lt : bytes.length < 2 ^ 63

/-- `st_size` as the reader casts it. -/
def RegularFile.size (file : RegularFile) : UInt64 :=
  UInt64.ofNat file.bytes.length

/-- The parts of a snapshot that are read on their own, each after a seek. -/
inductive Section where
  | vmaTable
  | xstate
  | fdTable
  | pathPool
  deriving DecidableEq

/-- The calls of the reader that fail although nothing is wrong with the file. -/
structure ReaderFaults where
  header : Bool
  stat : Bool
  memory : Section → Bool
  read : Section → Bool

/-- Memory and disk do what they are asked. -/
def ReaderFaults.none : ReaderFaults :=
  ⟨false, false, fun _ => false, fun _ => false⟩

/-- The exits of the reader with ERROR, with what its message names. -/
inductive ReadError where
  | tooShort
  | notSnapshot
  | formatVersion (found : UInt32)
  | noMapping
  | tooManyKernelMaps (claimed : UInt32)
  | exePathLength (claimed : UInt32)
  | statFailed
  | xstateSize (claimed : UInt32)
  | truncated
  | noMemory (part : Section)
  | readFailure (part : Section)
  | unknownProtection (startAddress : UInt64) (prot : UInt32)
  | payloadPastEnd (startAddress : UInt64)
  | noPathPool
  | stdioDescriptor (fd : Int32)
  | notAscending
  | dupOfMissing (fd dupOf : Int32)
  | wouldCreate (fd : Int32)
  | pathOutsidePool (fd : Int32)
  | malformedPath (fd : Int32)
  /-- Not an exit of the code: it read a byte outside the path pool. -/
  | outOfBounds
  deriving DecidableEq

/-- A reading ends with a value or an error, and logs the sizes of its allocations. -/
abbrev Reading : Type → Type := Logged ReadError ℕ

open Logged (check orElse record)

/-- `malloc(size)`, with the error its failure leads to. -/
def allocate (size : ℕ) (fails : Bool) (error : ReadError) : Reading Unit := do
  record size
  check (!fails) error

/-- `fseek` to the offset, cast to `long`, and a full `fread`. A negative offset cannot be
sought, and a file that ends too early gives a short read. -/
def readAt (file : RegularFile) (offset : UInt64) (count : ℕ) (fails : Bool) : Option Bytes :=
  if 2 ^ 63 ≤ offset.toNat then none
  else if fails then none
  else if file.bytes.length < offset.toNat + count then none
  else some (slice file.bytes offset.toNat count)

/-- Read one part of the snapshot. -/
def readSection (file : RegularFile) (offset : UInt64) (count : ℕ) (part : Section)
    (faults : ReaderFaults) : Reading Bytes :=
  orElse (readAt file offset count (faults.read part)) (.readFailure part)

/-! ## The fd table -/

/-- `O_CREAT`, `O_EXCL`, `O_TRUNC`, `O_CLOEXEC` and `O_PATH` of x86_64. -/
def oCreat : UInt32 := 0o100
def oExcl : UInt32 := 0o200
def oTrunc : UInt32 := 0o1000
def oCloexec : UInt32 := 0o2000000
def oPath : UInt32 := 0o10000000

/-- `O_TMPFILE & ~O_DIRECTORY` -/
def oTmpfileOnly : UInt32 := 0o20000000

/-- `KSNAP_FD_FORBIDDEN_FLAGS` -/
def fdForbiddenFlags : UInt32 := oCreat ||| oExcl ||| oTrunc ||| oTmpfileOnly

/-- `fits_in_file`, which cannot wrap around. -/
def fitsInFile (offset size fileSize : UInt64) : Bool :=
  size ≤ fileSize && offset ≤ fileSize - size

/-- `compare_fd_number` -/
def compareFdNumber (key : Int32) (entry : FdDescriptor) : Ordering :=
  if entry.fd < key then .gt else if key < entry.fd then .lt else .eq

/-- The path of an entry ends at its recorded length and nowhere before. -/
def checkPath (pool : Bytes) (entry : FdDescriptor) : Reading Unit :=
  match pool[entry.pathOffset.toNat + entry.pathLen.toNat]? with
  | none => throw .outOfBounds
  | some terminator =>
      check (terminator = 0 && 0 ∉ slice pool entry.pathOffset.toNat entry.pathLen.toNat)
        (.malformedPath entry.fd)

/-- The entry is the first one, or its number is above the one before it. -/
def followsLast (before : List FdDescriptor) (entry : FdDescriptor) : Bool :=
  match before.getLast? with
  | some last => last.fd < entry.fd
  | none => true

/-- One round of the loop in `read_fd_table`, after the entries before this one. -/
def checkFdEntry (header : DumpHeader) (pool : Bytes) (before : List FdDescriptor)
    (entry : FdDescriptor) : Reading Unit := do
  check (2 < entry.fd) (.stdioDescriptor entry.fd)
  check (followsLast before entry) .notAscending
  check (entry.dupOf = -1 || (bsearch (compareFdNumber entry.dupOf) before).isSome)
    (.dupOfMissing entry.fd entry.dupOf)
  check (entry.flags &&& fdForbiddenFlags = 0) (.wouldCreate entry.fd)
  check (entry.pathLen ≠ 0 && entry.pathLen.toNat < pathMax &&
      entry.pathOffset.toUInt64 < header.pathPoolSize &&
      entry.pathLen.toUInt64 < header.pathPoolSize - entry.pathOffset.toUInt64)
    (.pathOutsidePool entry.fd)
  checkPath pool entry

/-- The loop over the entries, given those that were checked before. -/
def checkFdEntries (header : DumpHeader) (pool : Bytes) :
    List FdDescriptor → List FdDescriptor → Reading Unit
  | _, [] => pure ()
  | before, entry :: entries => do
      checkFdEntry header pool before entry
      checkFdEntries header pool (before ++ [entry]) entries

/-- The fd table and the path pool; both stay unread when there is no descriptor. -/
def readFdTable (faults : ReaderFaults) (file : RegularFile) (header : DumpHeader) :
    Reading (List FdDescriptor × Bytes) :=
  if header.fdCount = 0 then pure ([], [])
  else do
    let tableSize := header.fdCount.toUInt64 * 32
    check (fitsInFile header.fdTableOffset tableSize file.size &&
        fitsInFile header.pathPoolOffset header.pathPoolSize file.size) .truncated
    check (header.pathPoolSize ≠ 0) .noPathPool
    -- both blocks are asked for before either pointer is looked at
    record tableSize.toNat
    record header.pathPoolSize.toNat
    check (!faults.memory .fdTable && !faults.memory .pathPool) (.noMemory .fdTable)
    let table ←
      readSection file header.fdTableOffset (header.fdCount.toNat * 32) .fdTable faults
    let pool ←
      readSection file header.pathPoolOffset header.pathPoolSize.toNat .pathPool faults
    let fds := fdCodec.decodeAll header.fdCount.toNat table
    checkFdEntries header pool [] fds
    return (fds, pool)

/-! ## The whole of the metadata -/

/-- What the restore works with. -/
structure Snapshot where
  header : DumpHeader
  vmas : List VmaDescriptor
  xstate : Bytes
  fds : List FdDescriptor
  pool : Bytes

/-- `header->exe_path[header->exe_path_len] = '\0'` -/
def terminateExePath (header : DumpHeader) : DumpHeader :=
  { header with
    exePath := ⟨header.exePath.toList.set header.exePathLen.toNat 0, by simp⟩ }

/-- `PROT_READ | PROT_WRITE | PROT_EXEC` -/
def protAll : UInt32 := protRead ||| protWrite ||| protExec

/-- One round of the loop over the vma table. The sum wraps around. -/
def checkVma (file : RegularFile) (vma : VmaDescriptor) : Reading Unit := do
  check (vma.prot &&& ~~~protAll = 0) (.unknownProtection vma.startAddress vma.prot)
  check (vma.dataOffset + vma.size ≤ file.size) (.payloadPastEnd vma.startAddress)

def readSnapshotMetadata (faults : ReaderFaults) (file : RegularFile) : Reading Snapshot := do
  check (!faults.header && headerCodec.width ≤ file.bytes.length) .tooShort
  let header := headerCodec.decode file.bytes
  check (header.magic.toList = magic) .notSnapshot
  check (header.version = formatVersion) (.formatVersion header.version)
  check (header.vmaCount ≠ 0) .noMapping
  check (header.kernelMapCount.toNat ≤ maxKernelMaps)
    (.tooManyKernelMaps header.kernelMapCount)
  check (header.exePathLen ≠ 0 && header.exePathLen.toNat < pathMax)
    (.exePathLength header.exePathLen)
  let header := terminateExePath header
  check (!faults.stat) .statFailed
  check (xstateMinSize ≤ header.xstateSize && header.xstateSize < xstateMaxSize)
    (.xstateSize header.xstateSize)
  check (header.xstateOffset + header.xstateSize.toUInt64 ≤ file.size) .truncated
  let tableSize := header.vmaCount.toUInt64 * 48
  check (header.vmaTableOffset + tableSize ≤ file.size && header.dataOffset ≤ file.size)
    .truncated
  allocate tableSize.toNat (faults.memory .vmaTable) (.noMemory .vmaTable)
  let table ←
    readSection file header.vmaTableOffset (header.vmaCount.toNat * 48) .vmaTable faults
  let vmas := vmaCodec.decodeAll header.vmaCount.toNat table
  vmas.forM (checkVma file)
  allocate header.xstateSize.toNat (faults.memory .xstate) (.noMemory .xstate)
  let xstate ←
    readSection file header.xstateOffset header.xstateSize.toNat .xstate faults
  let (fds, pool) ← readFdTable faults file header
  return { header, vmas, xstate, fds, pool }

/-- The outcome of reading a snapshot file. -/
def readOutcome (faults : ReaderFaults) (file : RegularFile) : Except ReadError Snapshot :=
  (readSnapshotMetadata faults file).outcome

/-- The sizes that reading a snapshot file asks malloc for, in order. -/
def readAllocations (faults : ReaderFaults) (file : RegularFile) : List ℕ :=
  (readSnapshotMetadata faults file).entries

end Ksnap
