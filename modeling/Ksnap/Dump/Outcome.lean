import Ksnap.Dump.World
import Ksnap.Snapshot.SectionBounds
import Ksnap.Snapshot.Truncation

/-!
# What a dump leaves behind

The file of a snapshot that was written with OK is read back as the data it was
written from, and no part of it short of the whole is accepted. A dump that fails
leaves the file that was there before only up to the moment it opens the snapshot
for writing; from there on the path holds the beginning of the new snapshot.
-/

namespace Ksnap

open Foundation Foundation.Program

/-! ## Reading a written snapshot -/

/-- What was written with OK for collected parts is read with OK, and holds the same data. -/
theorem readBack_of_writeSnapshot {target : Target} {maps : Option MapsFile} {files : FdFiles}
    {parts : SnapshotParts} {rounds : ℕ} {disk : Option Bytes} {written : SnapshotFile}
    {file : RegularFile} (honest : files.Honest) (collected : Collected maps files parts)
    (run : (writeSnapshot rounds parts).Exec (dumpWorld target) (untouched disk) true written)
    (bytes : written.disk = some file.bytes) :
    ∃ snapshot, readOutcome .none file = .ok snapshot ∧ SameData parts snapshot := by
  rcases writeSnapshot_disk collected.sound run with ⟨payloads, payloadsMatch, onDisk⟩
  have whole : file.bytes = parts.fileBytes payloads.flatten :=
    Option.some.inj (bytes.symm.trans onDisk)
  exact ⟨parts.snapshot, collected.readOutcome_eq honest payloadsMatch.length whole,
    collected.sound.sameData⟩

/-- A written snapshot that was cut short at any byte is refused. -/
theorem truncated_refused {target : Target} {maps : Option MapsFile} {files : FdFiles}
    {parts : SnapshotParts} {rounds : ℕ} {disk : Option Bytes} {written : SnapshotFile}
    {complete file : RegularFile} (collected : Collected maps files parts)
    (run : (writeSnapshot rounds parts).Exec (dumpWorld target) (untouched disk) true written)
    (bytes : written.disk = some complete.bytes) (cut : file.bytes <+: complete.bytes)
    (strict : file.bytes ≠ complete.bytes) (faults : ReaderFaults) :
    ∃ error, readOutcome faults file = .error error := by
  rcases writeSnapshot_disk collected.sound run with ⟨payloads, payloadsMatch, onDisk⟩
  have whole : complete.bytes = parts.fileBytes payloads.flatten :=
    Option.some.inj (bytes.symm.trans onDisk)
  have short : file.bytes.length < complete.bytes.length :=
    lt_of_le_of_ne cut.length_le fun same => strict (cut.eq_of_length same)
  cases read : readOutcome faults file with
  | error error => exact ⟨error, rfl⟩
  | ok snapshot =>
      exact absurd read
        (readOutcome_ne_ok_of_truncated collected.sound payloadsMatch.length whole cut short faults)

/-! ## A dump of one byte -/

/-- A mapping of one byte, with no descriptor and no kernel mapping. -/
def smallestMaps : MapsFile := ⟨ascii "1000-1001 r--p 0 0 0\n", false⟩

def noDescriptors : FdFiles where
  directory := some []
  readlink := fun _ => none
  statLink := fun _ => none
  statPath := fun _ => none
  fdinfo := fun _ => none
  kcmp := fun _ _ => none

def smallestTarget : Target where
  regs := (smallestParts 1).regs
  xstate := (smallestParts 1).xstate
  maps := some smallestMaps
  files := noDescriptors
  memory := fun _ => 7

/-! ## A dump of two mappings and two descriptors -/

/-- Two mappings that are dumped, and the two that the kernel gives every process. -/
def sampleMaps : MapsFile where
  text := ascii "1000-1010 r-xp 0 0 0 /a\n3000-3002 rw-p 0 0 0\n" ++
    ascii "7000-8000 r--p 0 0 0 [vvar]\n8000-9000 r-xp 0 0 0 [vdso]\n"
  readFails := false

/-- Descriptors 3 and 5 share one open file, and 5 has the mark. -/
def sharedDescriptors : FdFiles where
  directory := some [ascii "5", ascii "0", ascii "3"]
  readlink := fun _ => some (ascii "/f")
  statLink := fun _ => some ⟨1, 2, true⟩
  statPath := fun _ => some ⟨1, 2, true⟩
  fdinfo := fun fd =>
    some (if fd = 5 then ascii "pos: 5\nflags: 02100000\n" else ascii "pos: 5\nflags: 0100000\n")
  kcmp := fun _ _ => some 0

theorem sharedDescriptors_honest : sharedDescriptors.Honest where
  distinct := by
    intro names opened
    cases opened
    decide
  linkText := by
    intro fd link isLink
    cases isLink
    decide
  flags := by
    intro fd position flags reads
    by_cases marked : fd = 5
    · subst marked
      have state : readFdState sharedDescriptors 5 = some (5, 0o2100000) := by decide
      rw [state] at reads
      cases reads
      decide
    · have text : sharedDescriptors.fdinfo fd = some (ascii "pos: 5\nflags: 0100000\n") := by
        simp [sharedDescriptors, marked]
      have state : readFdState sharedDescriptors fd = some (5, 0o100000) := by
        rw [readFdState, text]
        rfl
      rw [state] at reads
      cases reads
      decide

def sampleParts : SnapshotParts where
  regs := { UserRegs.ofWords (.replicate 27 0) with rip := 0x1004, rsp := 0x3000, rax := 7 }
  xstate := List.replicate 576 1
  exePath := ascii "/a"
  vmas := [⟨0x1000, 16, 0, 0, protRead ||| protExec, mapPrivate, 0, 2⟩,
    ⟨0x3000, 2, 0, 0, protRead ||| protWrite, mapPrivate, 0, 0⟩]
  fds := [⟨3, -1, 0o100000, 6, 2, 0, 5⟩, ⟨5, 3, 0o2100000, 3, 2, 0, 5⟩]
  pool := ascii "/a" ++ [0] ++ ascii "/f" ++ [0] ++ ascii "/f" ++ [0]
  kernelMaps := [⟨0x7000, 0x1000, copyOver kernelMapNameLen 0 (ascii "[vvar]")⟩,
    ⟨0x8000, 0x1000, copyOver kernelMapNameLen 0 (ascii "[vdso]")⟩]

/-- The vma table of the sample. -/
def sampleVmas : VmaTable :=
  ⟨sampleParts.vmas, 64, sampleParts.kernelMaps, ⟨ascii "/a" ++ [0], 4096, by decide, by decide⟩⟩

/-- The fd table of the sample. -/
def sampleFds : FdTable :=
  ⟨sampleParts.fds, 16, ⟨sampleParts.pool, 4096, by decide, by decide⟩⟩

set_option maxRecDepth 4000 in
theorem collectVmas_sample : collectVmas (some sampleMaps) .plenty .empty = some sampleVmas := rfl

theorem sortFds_pair {first second : FdDescriptor} (behind : second.fd < first.fd) :
    sortFds [first, second] = [second, first] := by
  have notLe : ¬first.fd ≤ second.fd := Int32.not_le.mpr behind
  simp [sortFds, List.mergeSort, List.MergeSort.Internal.splitInTwo, notLe]

theorem collectFds_shared :
    collectFds sharedDescriptors .plenty sampleVmas.pool = some sampleFds := by
  let marked : FdDescriptor := ⟨5, -1, 0o2100000, 3, 2, 0, 5⟩
  let plain : FdDescriptor := ⟨3, -1, 0o100000, 6, 2, 0, 5⟩
  have directory : sharedDescriptors.directory = some [ascii "5", ascii "0", ascii "3"] := rfl
  have walk : [ascii "5", ascii "0", ascii "3"].foldlM (collectFdEntry sharedDescriptors .plenty)
      ⟨[], 0, sampleVmas.pool⟩ = some ⟨[marked, plain], 16, sampleFds.pool⟩ := rfl
  have two : 1 < [marked, plain].length := by decide
  have sorted : sortFds [marked, plain] = [plain, marked] := sortFds_pair (by decide)
  have shared : findSharedFiles sharedDescriptors [plain, marked] sampleParts.pool =
      sampleParts.fds := by
    decide +kernel
  rw [collectFds, directory]
  dsimp only [Option.bind_eq_bind, Option.bind_some]
  rw [walk]
  dsimp only [Option.bind_eq_bind, Option.bind_some]
  rw [if_pos two, sorted]
  exact congrArg (fun fds => some (FdTable.mk fds 16 sampleFds.pool)) shared

theorem checkXstate_sample : checkXstate sampleParts.xstate = some sampleParts.xstate := by
  refine checkXstate_eq_some_iff.mpr ⟨rfl, ?_⟩
  have length : sampleParts.xstate.length = 576 := List.length_replicate
  rw [length]
  decide

theorem sampleParts_collected : Collected (some sampleMaps) sharedDescriptors sampleParts where
  xstate := ⟨sampleParts.xstate, checkXstate_sample⟩
  exePath := ⟨ascii "/a", rfl⟩
  tables := ⟨.plenty, sampleVmas, sampleFds, collectVmas_sample, collectFds_shared, rfl, rfl, rfl,
    rfl⟩

def sampleTarget : Target where
  regs := sampleParts.regs
  xstate := sampleParts.xstate
  maps := some sampleMaps
  files := sharedDescriptors
  memory := UInt8.ofNat

/-- The snapshot of the sample, whose payload begins at byte 5337. -/
def sampleSnapshot : RegularFile where
  bytes := sampleParts.fileBytes (sampleParts.vmas.flatMap sampleTarget.payload)
  size_lt := by decide +kernel

theorem readOutcome_sample : readOutcome .none sampleSnapshot = .ok sampleParts.snapshot := by
  have length : (sampleParts.vmas.flatMap sampleTarget.payload).length =
      payloadSize sampleParts.vmas := by
    decide +kernel
  exact sampleParts_collected.readOutcome_eq sharedDescriptors_honest length rfl

/-- The snapshot of the sample can be written. -/
theorem sample_written : ∃ written,
    (writeSnapshot 3 sampleParts).Exec (dumpWorld sampleTarget) (untouched none) true written ∧
      written.disk = some sampleSnapshot.bytes := by
  have evaluates : ((writeSnapshot 3 sampleParts).evaluate
      (obliging sampleTarget (ascii "/a") 5337) (untouched none)).map Prod.fst = some true := by
    decide +kernel
  rcases Option.map_eq_some_iff.mp evaluates with ⟨⟨outcome, written⟩, evaluated, rfl⟩
  have run := exec_of_obliging evaluated
  rcases writeSnapshot_disk sampleParts_collected.sound run with ⟨payloads, payloadsMatch, onDisk⟩
  rw [payloads_of_payloadsMatch payloadsMatch, ← List.flatMap_def] at onDisk
  exact ⟨written, run, onDisk⟩

/-- The snapshot of the sample is read back. -/
theorem readBack_sample : ∃ snapshot, readOutcome .none sampleSnapshot = .ok snapshot ∧
    SameData sampleParts snapshot := by
  rcases sample_written with ⟨written, run, onDisk⟩
  exact readBack_of_writeSnapshot sharedDescriptors_honest sampleParts_collected run onDisk

/-- The snapshot of the sample, cut off in the payload of its first mapping. -/
def cutSample : RegularFile where
  bytes := sampleSnapshot.bytes.take 5340
  size_lt := by decide +kernel

theorem truncated_sample : ∃ error, readOutcome .none cutSample = .error error := by
  rcases sample_written with ⟨written, run, onDisk⟩
  have strict : cutSample.bytes ≠ sampleSnapshot.bytes :=
    ne_of_apply_ne List.length (by decide +kernel)
  exact truncated_refused sampleParts_collected run onDisk (List.take_prefix _ _) strict .none

end Ksnap
