import Ksnap.Engine.Collect
import Ksnap.Engine.Inject

/-!
# Restore

`restorer` of `src/restorer.c`: a child is forked, reopens the files of the snapshot
and execs its executable under ptrace. The engine then rebuilds the address space of
the stopped child, gives it the registers of the snapshot, and lets it go or kills it.

The parent waits for the child before it does anything, so the calls of both follow
each other.
-/

namespace Ksnap

open Foundation Foundation.Program

/-! ## In the child, before its exec -/

/-- An `O_PATH` descriptor has no offset and refuses lseek. -/
def seekOpened (entry : FdDescriptor) (opened : Int32) : Attempt RestoreInterface Unit :=
  if entry.flags &&& oPath = 0 then do
    if ← (RestoreCall.lseek opened entry.position).ask then pure ()
    else do
      (RestoreCall.close opened).ask
      failure
  else pure ()

/-- The file is moved to its number, and the temporary number given back. -/
def moveOpened (entry : FdDescriptor) (opened : Int32) : Attempt RestoreInterface Unit :=
  if opened ≠ entry.fd then do
    let moved ← (RestoreCall.dup2 opened entry.fd).ask
    (RestoreCall.close opened).ask
    require moved
  else pure ()

/-- One round of the loop in `open_snapshot_fds`. -/
def openSnapshotFd (pool : Bytes) (entry : FdDescriptor) : Attempt RestoreInterface Unit :=
  if entry.dupOf ≠ -1 then do
    require (← (RestoreCall.dup2 entry.dupOf entry.fd).ask)
  else do
    let path := poolString pool entry.pathOffset
    let opened ← give (← (RestoreCall.openFile path (entry.flags &&& ~~~oCloexec)).ask)
    seekOpened entry opened
    moveOpened entry opened

def openSnapshotFds (fds : List FdDescriptor) (pool : Bytes) :
    Attempt RestoreInterface Unit := do
  require (← RestoreCall.closeRange.ask)
  forM fds (openSnapshotFd pool)

/-- What the child does once its files are open. Nothing is said about the trace. -/
def execTraced (exePath : Bytes) : Program RestoreInterface Unit := do
  RestoreCall.personality.perform
  let _ ← RestoreCall.traceMe.perform
  if ← (RestoreCall.execv exePath).perform then return ()
  else RestoreCall.exit.perform

def spawnTracedChild (exePath : Bytes) (fds : List FdDescriptor) (pool : Bytes) :
    Program RestoreInterface Unit := do
  let opened ← (openSnapshotFds fds pool).run
  if opened.isSome then execTraced exePath else RestoreCall.exit.perform

/-! ## Descriptor flags -/

/-- `O_CLOEXEC` is given back to a descriptor that had it. -/
def restoreFdFlag (entry : FdDescriptor) : Attempt RestoreInterface Unit :=
  if entry.flags &&& oCloexec = 0 then pure ()
  else injectSucceeding (setCloexecCall entry)

def restoreFdFlags (fds : List FdDescriptor) : Attempt RestoreInterface Unit :=
  forM fds restoreFdFlag

/-! ## Kernel mappings -/

/-- Where the name of a kernel mapping is in the header. -/
def kernelMapNameOffset (index : ℕ) : ℕ := 4152 + 48 * index + 16

/-- The memory from the name of a kernel mapping on. -/
def nameMemory (header : DumpHeader) (index : ℕ) : Bytes :=
  (headerCodec.encode header).drop (kernelMapNameOffset index)

/-- `find_named_map` in the child. A search that runs past the header does not come back. -/
def findChildMap (name : Bytes) : Attempt RestoreInterface (UInt64 × UInt64) := do
  let maps ← RestoreCall.readMaps.ask
  match findNamedMap maps name with
  | none => OptionT.mk .unfinished
  | some found => give found

/-- The hull of the kernel mappings where they are and where they are wanted. -/
structure KernelMapHull where
  childLowest : UInt64
  childHighest : UInt64
  wantedLowest : UInt64
  wantedHighest : UInt64

/-- `ULONG_MAX` and 0 -/
def KernelMapHull.empty : KernelMapHull :=
  ⟨0xffffffffffffffff, 0, 0xffffffffffffffff, 0⟩

/-- The hull with one more mapping, where the child has it and where it is wanted. -/
def KernelMapHull.add (hull : KernelMapHull) (childStart childSize : UInt64)
    (wanted : KernelMap) : KernelMapHull where
  childLowest := if childStart < hull.childLowest then childStart else hull.childLowest
  childHighest :=
    if hull.childHighest < childStart + childSize then childStart + childSize
    else hull.childHighest
  wantedLowest :=
    if wanted.startAddress < hull.wantedLowest then wanted.startAddress else hull.wantedLowest
  wantedHighest :=
    if hull.wantedHighest < wanted.startAddress + wanted.size then
      wanted.startAddress + wanted.size
    else hull.wantedHighest

/-- The first loop of `restore_kernel_maps`, over the mappings with their indices. -/
def measureKernelMaps (header : DumpHeader) :
    List (KernelMap × ℕ) → KernelMapHull → Attempt RestoreInterface KernelMapHull
  | [], hull => pure hull
  | (wanted, index) :: rest, hull => do
      let (childStart, childSize) ← findChildMap (nameMemory header index)
      require (childSize = wanted.size)
      measureKernelMaps header rest (hull.add childStart childSize wanted)

/-- One round of the second loop of `restore_kernel_maps`. -/
def moveKernelMap (header : DumpHeader) (wanted : KernelMap) (index : ℕ) :
    Attempt RestoreInterface Unit := do
  let (childStart, childSize) ← findChildMap (nameMemory header index)
  if childStart = wanted.startAddress then pure ()
  else injectSucceeding (mremapCall childStart childSize wanted)

/-- The kernel mappings that the header counts, with their indices. -/
def DumpHeader.countedKernelMaps (header : DumpHeader) : List (KernelMap × ℕ) :=
  (header.kernelMaps.toList.take header.kernelMapCount.toNat).zipIdx

def restoreKernelMaps (header : DumpHeader) : Attempt RestoreInterface Unit :=
  if header.kernelMapCount = 0 then pure ()
  else do
    let hull ← measureKernelMaps header header.countedKernelMaps .empty
    require !(hull.childLowest < hull.wantedHighest && hull.wantedLowest < hull.childHighest)
    forM header.countedKernelMaps fun (wanted, index) => moveKernelMap header wanted index

/-! ## Mappings -/

/-- What one round of the copy loop asks for, out of what is left. -/
def payloadRound (left : UInt64) : UInt64 :=
  if 4096 < left then 4096 else left

/-- The copy loop of `restore_vma`, from the bytes that were copied before. Each round copies
at least one byte, so the size of the mapping is enough fuel. -/
def copyPayload (vma : VmaDescriptor) : ℕ → UInt64 → Attempt RestoreInterface Unit
  | 0, _ => OptionT.mk .unfinished
  | rounds + 1, currRead =>
      if currRead < vma.size then do
        let bytesToReadNow := payloadRound (vma.size - currRead)
        let bytes ← give (← (RestoreCall.readPayload bytesToReadNow.toNat).ask)
        require (← (RestoreCall.writeMemory (vma.startAddress + currRead) bytes.toList).ask)
        copyPayload vma rounds (currRead + bytesToReadNow)
      else pure ()

def restoreVma (vma : VmaDescriptor) : Attempt RestoreInterface Unit := do
  injectMmapSyscall vma
  require (← (RestoreCall.seek vma.dataOffset).ask)
  copyPayload vma (vma.size.toNat + 1) 0

/-! ## Protections -/

/-- `rip` is in the area, whose end wraps around. -/
def holdsSite (rip : UInt64) (vma : VmaDescriptor) : Bool :=
  vma.startAddress ≤ rip && rip < vma.startAddress + vma.size

/-- The protection of one area, unless the area has it already. -/
def protectVma (vma : VmaDescriptor) : Attempt RestoreInterface Unit :=
  if vma.prot = protAll then pure () else injectMprotectSyscall vma

/-- One round of the loop in `restore_protections`, which leaves the site out. -/
def protectUnlessSite (site : Option ℕ) (vma : VmaDescriptor) (index : ℕ) :
    Attempt RestoreInterface Unit :=
  if some index = site then pure () else protectVma vma

/-- The area of the injection site comes last. -/
def protectSite (site : Option ℕ) (vmas : List VmaDescriptor) :
    Attempt RestoreInterface Unit :=
  match site.bind (vmas[·]?) with
  | some vma => protectVma vma
  | none => pure ()

def restoreProtections (vmas : List VmaDescriptor) : Attempt RestoreInterface Unit := do
  let regs ← give (← RestoreCall.getRegs.ask)
  let site := vmas.findIdx? (holdsSite regs.rip)
  forM vmas.zipIdx fun (vma, index) => protectUnlessSite site vma index
  protectSite site vmas

/-! ## The whole restore -/

/-- What is done while the memory of the child is open. -/
def rebuildMemory (snapshot : Snapshot) : Attempt RestoreInterface Unit := do
  restoreFdFlags snapshot.fds
  restoreKernelMaps snapshot.header
  forM snapshot.vmas restoreVma

/-- The address space of the child, with its protections. -/
def restoreMemory (snapshot : Snapshot) : Attempt RestoreInterface Unit := do
  require (← RestoreCall.openMemory.ask)
  let rebuilt ← OptionT.lift (rebuildMemory snapshot).run
  RestoreCall.closeMemory.ask
  require rebuilt.isSome
  restoreProtections snapshot.vmas

/-- Everything that is restored in the stopped child, the registers last. -/
def restoreState (snapshot : Snapshot) : Attempt RestoreInterface Unit := do
  restoreMemory snapshot
  require (← (RestoreCall.setRegs snapshot.header.regs).ask)
  require (← (RestoreCall.setXstate snapshot.xstate).ask)

/-- A child that stopped is restored, and let go or killed. -/
def restoreStopped (snapshot : Snapshot) : Program RestoreInterface Bool := do
  let restored ← (restoreState snapshot).run
  if restored.isSome then
    let _ ← RestoreCall.detach.perform
    RestoreCall.waitEnd.perform
    return true
  else
    RestoreCall.kill.perform
    RestoreCall.waitEnd.perform
    return false

/-- The parent, from the first report of the child on. -/
def restoreChild (snapshot : Snapshot) : Program RestoreInterface Bool := do
  match ← RestoreCall.waitChild.perform with
  | .stopped => restoreStopped snapshot
  | .exited | .signaled => return false
  | .other =>
      RestoreCall.kill.perform
      RestoreCall.waitEnd.perform
      return false

/-- The string with the path of the executable. -/
def DumpHeader.exeString (header : DumpHeader) : Bytes :=
  cString header.exePath.toList

/-- A restore of the file that was found at the path of the snapshot. -/
def restorer (faults : ReaderFaults) (file : RegularFile) : Program RestoreInterface Bool :=
  match readOutcome faults file with
  | .error _ => return false
  | .ok snapshot => do
      if ← RestoreCall.fork.perform then
        spawnTracedChild snapshot.header.exeString snapshot.fds snapshot.pool
        restoreChild snapshot
      else return false

end Ksnap
