import Ksnap.Check.Counts
import Ksnap.Dump.Image

/-!
# Check and the dump that follows

The numbers of a report are those of the snapshot that a dump of the same mappings and
descriptors writes: both walk the same lines, and the payloads that are written are as
long as the mappings they were counted from.
-/

namespace Ksnap

open Foundation Foundation.Program

/-- The payloads are as long as the mappings of the lines together. -/
theorem payloadSize_of_described {pool : Bytes} {lines : List MapsLine}
    {vmas : List VmaDescriptor} (described : List.Forall₂ (VmaDescribed pool) lines vmas) :
    payloadSize vmas = (lines.map fun parsed => (parsed.stop - parsed.start).toNat).sum := by
  induction described with
  | nil => rfl
  | @cons parsed vma _ _ here _ ih =>
      have size : vma.size = parsed.stop - parsed.start := by
        rw [here.1]
        rfl
      rw [payloadSize_cons, List.map_cons, List.sum_cons, ih, size]

/-- The counts of collected parts are those of the lines and the descriptors. -/
theorem Collected.counts {maps : MapsFile} {files : FdFiles} {names : List Bytes}
    {parts : SnapshotParts} (collected : Collected (some maps) files parts)
    (opened : files.directory = some names) :
    parts.vmas.length = (linesOf .dump (fgetsLines mapsLineMax maps.text)).length ∧
      parts.kernelMaps.length = (linesOf .kernel (fgetsLines mapsLineMax maps.text)).length ∧
        parts.fds.length = (dumpedFds files names).length ∧
          payloadSize parts.vmas = dumpedBytes (fgetsLines mapsLineMax maps.text) := by
  rcases collected.tables with
    ⟨memory, vmaTable, fdTable, collectsVmas, collectsFds, vmas, kernelMaps, fds, _⟩
  rcases vmasCollected_of_collectVmas collectsVmas with ⟨file, sameFile, _, _, vmasCollected⟩
  rcases fdTableCollected_of_collectFds collectsFds with ⟨namesRead, sameNames, fdsCollected⟩
  cases sameFile
  cases opened.symm.trans sameNames
  refine ⟨?_, ?_, ?_, ?_⟩
  · rw [vmas]
    exact vmasCollected.vmas.length_eq.symm
  · rw [kernelMaps]
    exact vmasCollected.kernelMaps.length_eq.symm
  · rw [fds, ← fdsCollected.numbers.length_eq, List.length_map]
  · rw [vmas]
    exact payloadSize_of_described vmasCollected.vmas

/-- What Check counted before is what the snapshot holds. -/
theorem checkOne_agrees {process : CheckedProcess} {probe : Bool} {maps : MapsFile}
    {names : List Bytes} {target : Target} {config : DumpConfig} {memory : Allocations}
    {rounds : ℕ} {disk : Option Bytes} {written : SnapshotFile} {file : RegularFile}
    (complete : ScansComplete process maps names) (sameMaps : target.maps = some maps)
    (sameFiles : target.files = process.files)
    (run : (dump config memory rounds).Exec (dumpWorld target) (untouched disk) true written)
    (bytes : written.disk = some file.bytes) :
    (checkOne process probe).dumpableVmas = (headerCodec.decode file.bytes).vmaCount ∧
      (checkOne process probe).kernelMaps = (headerCodec.decode file.bytes).kernelMapCount ∧
        (checkOne process probe).dumpableFds = (headerCodec.decode file.bytes).fdCount.toNat ∧
          (checkOne process probe).snapshotBytes.toNat =
            file.bytes.length - (headerCodec.decode file.bytes).dataOffset.toNat := by
  rcases dump_disk run with ⟨parts, payloads, collected, _, _, payloadsMatch, onDisk⟩
  rw [sameMaps, sameFiles] at collected
  rcases collected.counts complete.names with ⟨vmas, kernelMaps, fds, payload⟩
  have sound := collected.sound
  have whole : file.bytes = parts.fileBytes payloads.flatten :=
    Option.some.inj (bytes.symm.trans onDisk)
  have header : headerCodec.decode file.bytes = parts.header := by
    rw [whole]
    exact decode_header
  have length := length_fileBytes sound payloadsMatch.length
  have small := payloads_small sound payloadsMatch.length whole
  have counted := counts_checkOne complete probe
  simp only [CheckReport.counts, countsOf, CheckCounts.mk.injEq] at counted
  rcases counted with ⟨countedVmas, countedKernelMaps, countedBytes, countedFds⟩
  rw [header, countedVmas, countedKernelMaps, countedBytes, countedFds, whole, length, ← vmas,
    ← kernelMaps, ← fds, ← payload]
  refine ⟨rfl, rfl, ?_, ?_⟩
  · have fdsSmall := sound.fds_lt
    simp only [SnapshotParts.header, UInt32.toNat_ofNat']
    omega
  · simp only [SnapshotParts.header, UInt64.toNat_ofNat']
    omega

/-! ## A process of one byte, and one with shared descriptors -/

/-- A process with one thread, one argument, one mapping and no descriptor. -/
def smallestProcess : CheckedProcess where
  pid := 7
  status := .ok (ascii "Threads:\t1\n")
  cmdline := some (ascii "a")
  exe := .ok (ascii "/a")
  access := fun _ => none
  maps := .ok smallestMaps
  files := noDescriptors
  children := none
  seize := none
  interrupt := none
  waitStop := some true
  detach := none

/-- A process with two mappings that are dumped, whose two descriptors share a file. -/
def sampleProcess : CheckedProcess :=
  { smallestProcess with maps := .ok sampleMaps, files := sharedDescriptors }

theorem sampleProcess_complete :
    ScansComplete sampleProcess sampleMaps [ascii "5", ascii "0", ascii "3"] where
  reached := ⟨_, rfl⟩
  maps := rfl
  names := rfl

/-- Check of the process promises its snapshot: two areas, two kernel mappings, two
descriptors. -/
theorem checkOne_agrees_sample :
    (checkOne sampleProcess true).dumpableVmas =
        (headerCodec.decode sampleSnapshot.bytes).vmaCount ∧
      (checkOne sampleProcess true).kernelMaps =
          (headerCodec.decode sampleSnapshot.bytes).kernelMapCount ∧
        (checkOne sampleProcess true).dumpableFds =
            (headerCodec.decode sampleSnapshot.bytes).fdCount.toNat ∧
          (checkOne sampleProcess true).snapshotBytes.toNat =
            sampleSnapshot.bytes.length -
              (headerCodec.decode sampleSnapshot.bytes).dataOffset.toNat := by
  rcases @sample_dumped ⟨none, none, false⟩ rfl rfl _ (.inl rfl) with ⟨written, run, bytes⟩
  exact checkOne_agrees sampleProcess_complete rfl rfl (exec_unlinked run) bytes

end Ksnap
