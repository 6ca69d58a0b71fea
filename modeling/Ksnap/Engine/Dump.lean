import Ksnap.Engine.WriteSnapshot

/-!
# Dump

`dump` of `src/dumper.c`: the target is seized and stopped, its state is collected
and written, and every exit from there on goes through one label that kills the
target or lets it go.
-/

namespace Ksnap

open Foundation Foundation.Program

/-- The parts of `ksnap_config_t` a dump looks at. Strings that are not given are absent. -/
structure DumpConfig where
  fileName : Option Bytes
  outputDir : Option Bytes
  killAfterDump : Bool

/-- `KSNAP_DEFAULT_SNAPSHOT_DIR` -/
def defaultSnapshotDir : Bytes := ascii "../save"

/-- `KSNAP_DEFAULT_SNAPSHOT_NAME` -/
def defaultSnapshotName : Bytes := ascii "snapshot.ksnap"

/-- Directory and file name of the snapshot joined into one path, which has to fit with
its terminator. -/
def buildSnapshotPath (fileName outputDir : Option Bytes) : Option Bytes :=
  let path := outputDir.getD defaultSnapshotDir ++ [47] ++ fileName.getD defaultSnapshotName
  if path.length < pathMax then some path else none

theorem eq_of_buildSnapshotPath {fileName outputDir : Option Bytes} {path : Bytes}
    (built : buildSnapshotPath fileName outputDir = some path) :
    outputDir.getD defaultSnapshotDir ++ [47] ++ fileName.getD defaultSnapshotName = path := by
  rw [buildSnapshotPath] at built
  split at built
  · exact Option.some.inj built
  · cases built

/-- `read_xstate`: a full buffer could mean that the area was cut short. -/
def checkXstate (area : Bytes) : Option Bytes :=
  if area.length < xstateMinSize.toNat || xstateMaxSize.toNat ≤ area.length then none
  else some area

/-- `read_exe_path`: readlink cuts a text that is too long for the buffer. -/
def checkExePath (link : Bytes) : Option Bytes :=
  let path := link.take (pathMax - 1)
  if path.length = 0 then none else some path

/-- The steps from the seized target to the parts of its snapshot. -/
def collectParts (memory : Allocations) : Attempt DumpInterface SnapshotParts := do
  let regs ← give (← DumpCall.getRegs.ask)
  require (← DumpCall.allocateXstate.ask)
  let area ← give (← DumpCall.getXstate.ask)
  let xstate ← give (checkXstate area)
  let link ← give (← DumpCall.readExe.ask)
  let exePath ← give (checkExePath link)
  let maps ← DumpCall.readMaps.ask
  let vmaTable ← give (collectVmas maps memory .empty)
  let files ← DumpCall.readFds.ask
  let fdTable ← give (collectFds files memory vmaTable.pool)
  return {
    regs := regs
    xstate := xstate
    exePath := exePath
    vmas := vmaTable.vmas
    fds := fdTable.fds
    pool := fdTable.pool.data
    kernelMaps := vmaTable.kernelMaps }

/-- Everything between the seize and the label. -/
def dumpSeized (memory : Allocations) (rounds : ℕ) : Attempt DumpInterface Unit := do
  require (← DumpCall.interrupt.ask)
  require ((← DumpCall.waitStop.ask) = some true)
  let parts ← collectParts memory
  require (← OptionT.lift (writeSnapshot rounds parts))

/-- The end of the label, which wakes the process. -/
def detachTarget (result : Bool) : Program DumpInterface Bool := do
  let detached ← DumpCall.detach.perform
  return detached && result

/-- The label, which every exit after the seize goes through. -/
def finishDump (config : DumpConfig) (captured : Bool) : Program DumpInterface Bool := do
  if captured && config.killAfterDump then
    if ← DumpCall.kill.perform then
      DumpCall.reap.perform
      return true
    else detachTarget false
  else detachTarget captured

def dump (config : DumpConfig) (memory : Allocations) (rounds : ℕ) :
    Program DumpInterface Bool := do
  if (buildSnapshotPath config.fileName config.outputDir).isNone then return false
  if ← DumpCall.seize.perform then
    let captured ← (dumpSeized memory rounds).run
    finishDump config captured.isSome
  else return false

end Ksnap
