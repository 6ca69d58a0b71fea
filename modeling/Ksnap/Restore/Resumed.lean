import Ksnap.Restore.MovedMaps
import Ksnap.Restore.Release
import Ksnap.Restore.SameMemory

/-!
# From the target to the process that runs on

A dump and a restore of its file put together. Whatever the reads of the dump were split
into and whichever calls of the restore fail, a child that is traced, and whose injected calls
run undisturbed, only runs on its own as the target that was stopped: with its registers, its
vector state, every byte of its memory, the protections, the kernel mappings and the descriptors.
-/

namespace Ksnap

open Foundation Foundation.Program

/-! ## The process that was dumped -/

/-- The kernel mapping of this line is where the target had it, or was moved there. -/
def KernelMapKept (parsed : MapsLine) (child : Child) : Prop :=
  ∃ text ∈ child.shown, ∃ found ∈ parsedLines text, found.path = parsed.path ∧
    (found.start = parsed.start ∨ ∃ wanted, KernelMap.ofLine parsed = some wanted ∧
      Executed (mremapCall found.start (found.stop - found.start) wanted) child.calls)

/-- The child has everything of the target that a snapshot has. -/
structure RunsAs (target : Target) (maps : MapsFile)
    (descriptors : DescriptorTable Int32 OpenFile) (child : Child) : Prop where
  regs : child.regs = target.regs
  xstate : child.xstate = some target.xstate
  memory : ∀ parsed ∈ linesOf .dump (fgetsLines mapsLineMax maps.text), ∀ address,
    parsed.start ≤ address → address < parsed.stop →
      child.memory address = target.memory address.toNat
  /-- Every mapping was made before the first protection was set. -/
  calls : ∃ mapping protecting, child.calls = mapping ++ protecting ∧
    ∀ parsed ∈ linesOf .dump (fgetsLines mapsLineMax maps.text),
      Executed (mmapCall (.ofLine parsed 0)) mapping ∧ Protected (.ofLine parsed 0) protecting
  kernelMaps : ∀ parsed ∈ linesOf .kernel (fgetsLines mapsLineMax maps.text),
    KernelMapKept parsed child
  descriptors : SameDescriptors target.files descriptors child.descriptors

/-! ## What is read of a dumped file -/

/-- A file is read in one way only. -/
theorem Accepted.unique {file : RegularFile} {snapshot other : Snapshot}
    (accepted : Accepted file snapshot) (acceptedToo : Accepted file other) :
    snapshot = other := by
  have same := (readOutcome_of_accepted accepted).symm.trans (readOutcome_of_accepted acceptedToo)
  exact Except.ok.inj same

section

variable {maps : Option MapsFile} {files : FdFiles} {parts : SnapshotParts}

/-- Whatever else could have failed, what is read are the parts. -/
theorem Collected.snapshot_eq {payload : Bytes} {file : RegularFile} {faults : ReaderFaults}
    {snapshot : Snapshot} (collected : Collected maps files parts) (honest : files.Honest)
    (whole : payload.length = payloadSize parts.vmas)
    (bytes : file.bytes = parts.fileBytes payload)
    (read : readOutcome faults file = .ok snapshot) : snapshot = parts.snapshot := by
  have readBack := collected.readOutcome_eq honest whole bytes
  exact (accepted_of_readOutcome read).unique (accepted_of_readOutcome readBack)

/-- The name of a kernel mapping is found under its place in the header. -/
theorem recordedName_of_line {parsed : MapsLine} {wanted : KernelMap} {index : ℕ}
    {header : DumpHeader} (wellFormed : parsed.WellFormed)
    (record : KernelMap.ofLine parsed = some wanted)
    (recorded : header.kernelMaps.toList[index]? = some wanted) :
    recordedName header index = parsed.path := by
  rcases nameMemory_eq recorded with ⟨rest, memory⟩
  rw [KernelMap.ofLine] at record
  split at record
  · rename_i short
    cases record
    have padding : List.replicate (kernelMapNameLen - parsed.path.length) (0 : UInt8) =
        0 :: List.replicate (kernelMapNameLen - parsed.path.length - 1) 0 := by
      rw [← List.replicate_succ]
      congr 1
      omega
    have bytes : nameMemory header index = parsed.path ++
        List.replicate (kernelMapNameLen - parsed.path.length) 0 ++ rest := memory
    rw [recordedName, bytes, padding, List.append_assoc, List.cons_append]
    exact cString_append_zero wellFormed.path_nulFree _
  · cases record

/-- The lines of kernel mappings are the entries that the header counts. -/
theorem Collected.exists_kernelMap (collected : Collected maps files parts)
    {file : MapsFile} (shows : maps = some file) {parsed : MapsLine}
    (mem : parsed ∈ linesOf .kernel (fgetsLines mapsLineMax file.text)) :
    ∃ wanted index, KernelMap.ofLine parsed = some wanted ∧
      (wanted, index) ∈ parts.snapshot.header.countedKernelMaps := by
  obtain ⟨memory, vmaTable, fdTable, collects, _, _, sameMaps, _⟩ := collected.tables
  rcases vmasCollected_of_collectVmas collects with ⟨file', isShown, _, _, vmasCollected⟩
  cases shows.symm.trans isShown
  have records := vmasCollected.kernelMaps
  rw [← sameMaps] at records
  rcases List.getElem_of_mem mem with ⟨index, inside, rfl⟩
  have insideMaps : index < parts.kernelMaps.length := records.length_eq ▸ inside
  refine ⟨parts.kernelMaps[index], index, records.get inside insideMaps, ?_⟩
  rw [DumpHeader.countedKernelMaps, collected.sound.sameData.kernelMaps,
    List.mem_zipIdx_iff_getElem?]
  exact List.getElem?_eq_getElem insideMaps

/-- A kernel mapping that is in place in the child is the one of its line. -/
theorem kernelMapKept_of_inPlace {header : DumpHeader} {parsed : MapsLine} {wanted : KernelMap}
    {index : ℕ} {child : Child} (wellFormed : parsed.WellFormed)
    (record : KernelMap.ofLine parsed = some wanted)
    (counted : (wanted, index) ∈ header.countedKernelMaps)
    (inPlace : InPlace header (wanted, index) child) : KernelMapKept parsed child := by
  rcases inPlace with ⟨start, size, ⟨text, isShown, found⟩, moved⟩
  rcases findNamedLine_parsed found with ⟨line, mem, isRegion⟩
  have name := recordedName_of_line wellFormed record (recorded_of_counted counted)
  have path : line.path = parsed.path := (congrArg Region.name isRegion).trans name
  have lineStart : line.start = start := congrArg Region.start isRegion
  have lineSize : line.stop - line.start = size := congrArg Region.size isRegion
  have wantedStart : wanted.startAddress = parsed.start := by
    rw [KernelMap.ofLine] at record
    split at record
    · cases record
      rfl
    · cases record
  refine ⟨text, isShown, line, mem, path, ?_⟩
  rw [lineSize, lineStart]
  rcases moved with already | executed
  · exact .inl (already.trans wantedStart)
  · exact .inr ⟨wanted, record, executed⟩

end

/-! ## Memory and protections -/

section

variable {target : Target} {maps : MapsFile} {parts : SnapshotParts} {payloads : List Bytes}
  {file : RegularFile}

/-- The table of the file has one entry for each line, with its range and protection. -/
theorem Collected.described {files : FdFiles} (collected : Collected (some maps) files parts) :
    ∃ pool, List.Forall₂ (VmaDescribed pool)
      (linesOf .dump (fgetsLines mapsLineMax maps.text)) parts.vmas := by
  rcases collected.tables with ⟨_, vmaTable, _, collects, _, sameVmas, _⟩
  rcases vmasCollected_of_collectVmas collects with ⟨maps', isShown, _, _, vmasCollected⟩
  cases isShown
  exact ⟨vmaTable.pool.data, sameVmas ▸ vmasCollected.vmas⟩

theorem mem_assignDataOffsets {offset : UInt64} {vmas : List VmaDescriptor} {vma : VmaDescriptor}
    (mem : vma ∈ vmas) :
    ∃ placed ∈ assignDataOffsets offset vmas, placed.startAddress = vma.startAddress ∧
      placed.size = vma.size ∧ placed.prot = vma.prot := by
  induction vmas generalizing offset with
  | nil => cases mem
  | cons first vmas ih =>
      rcases List.mem_cons.mp mem with rfl | later
      · exact ⟨_, List.mem_cons_self, rfl, rfl, rfl⟩
      · rcases @ih (offset + first.size) later with ⟨placed, placedMem, same⟩
        exact ⟨placed, List.mem_cons_of_mem _ placedMem, same⟩

/-- The table has an entry with the range and the protection of every dumped line. -/
theorem Collected.exists_placed {files : FdFiles} (collected : Collected (some maps) files parts)
    {parsed : MapsLine} (mem : parsed ∈ linesOf .dump (fgetsLines mapsLineMax maps.text)) :
    ∃ placed ∈ parts.vmaTable, placed.startAddress = parsed.start ∧
      placed.size = parsed.stop - parsed.start ∧
        placed.prot = permsToProt parsed.privileges := by
  rcases collected.described with ⟨pool, described⟩
  rcases List.getElem_of_mem mem with ⟨index, inside, rfl⟩
  have insideVmas : index < parts.vmas.length := described.length_eq ▸ inside
  have here : parts.vmas[index] = .ofLine _ parts.vmas[index].pathOffset :=
    (described.get inside insideVmas).1
  have entry : parts.vmas[index] ∈ parts.vmas := List.getElem_mem insideVmas
  rcases @mem_assignDataOffsets parts.dataOffset _ _ entry with
    ⟨placed, placedMem, start, size, prot⟩
  rw [here] at start size prot
  exact ⟨placed, placedMem, start, size, prot⟩

/-- Where every mapping holds its payload, the memory of the target is there. -/
theorem memory_of_holdsPayloads (collected : Collected (some maps) target.files parts)
    (disjoint : (linesOf .dump (fgetsLines mapsLineMax maps.text)).Pairwise Disjoint)
    (payloadsMatch : PayloadsMatch target parts.vmas payloads)
    (whole : file.bytes = parts.fileBytes payloads.flatten) {memory : Memory UInt8}
    (holds : HoldsPayloads file.bytes memory parts.vmaTable) :
    ∀ parsed ∈ linesOf .dump (fgetsLines mapsLineMax maps.text), ∀ address,
      parsed.start ≤ address → address < parsed.stop →
        memory address = target.memory address.toNat := by
  have sound := collected.sound
  rcases collected.described with ⟨pool, described⟩
  have apart : (parts.vmaTable.map VmaDescriptor.range).Pairwise Apart := by
    rw [SnapshotParts.vmaTable, map_range_assignDataOffsets, map_range_of_described described,
      List.pairwise_map]
    refine disjoint.imp_of_mem fun firstMem secondMem notBoth => ?_
    exact notBoth.apart (wellFormed_of_mem_linesOf firstMem) (wellFormed_of_mem_linesOf secondMem)
  have inChild := holds.of_apart apart
  have small := payloads_small sound payloadsMatch.length whole
  have dropped : file.bytes.drop parts.dataOffset.toNat = payloads.flatten := by
    rw [whole, drop_dataOffset sound]
  have payload : payloads.flatten <+: file.bytes.drop parts.dataOffset.toNat :=
    dropped ▸ List.prefix_rfl
  have inFile := content_of_payloadsMatch payloadsMatch (by omega) payload
  intro parsed mem address from_ below
  have wellFormed := wellFormed_of_mem_linesOf mem
  rcases collected.exists_placed mem with ⟨vma, vmaMem, start, size, _⟩
  have inside : Within vma.startAddress vma.size.toNat address := by
    rw [start, size]
    exact wellFormed.within_iff.mpr ⟨from_, below⟩
  rcases inside.exists_index with ⟨index, indexInside, rfl⟩
  -- both sides are the byte of the payload at this index
  have copied := inChild vma vmaMem index indexInside
  rw [inFile vma vmaMem index indexInside] at copied
  have ends := wellFormed.toNat_size
  have stopBelow := parsed.stop.toNat_lt
  have noWrap : (vma.startAddress + UInt64.ofNat index).toNat =
      vma.startAddress.toNat + index := by
    rw [size] at indexInside
    rw [UInt64.toNat_add, UInt64.toNat_ofNat', start]
    omega
  rw [noWrap]
  exact Option.some.inj copied

/-- The calls for the entries of the table are the calls for the lines. -/
theorem calls_of_lines {files : FdFiles} (collected : Collected (some maps) files parts)
    {calls : List (SystemCall × UInt64)}
    (made : ∃ earlier mapping protecting, calls = earlier ++ mapping ++ protecting ∧
      MapsAreas parts.vmaTable mapping ∧ OnlyProtects parts.vmaTable protecting ∧
      ∀ vma ∈ parts.vmaTable, Protected vma protecting) :
    ∃ mapping protecting, calls = mapping ++ protecting ∧
      ∀ parsed ∈ linesOf .dump (fgetsLines mapsLineMax maps.text),
        Executed (mmapCall (.ofLine parsed 0)) mapping ∧
          Protected (.ofLine parsed 0) protecting := by
  rcases made with ⟨earlier, mapping, protecting, split, maps, _, protected_⟩
  refine ⟨earlier ++ mapping, protecting, split, ?_⟩
  intro parsed mem
  rcases collected.exists_placed mem with ⟨vma, vmaMem, start, size, prot⟩
  have sameMmap : mmapCall (.ofLine parsed 0) = mmapCall vma := by
    simp only [mmapCall, VmaDescriptor.ofLine, start, size]
  have sameMprotect : mprotectCall (.ofLine parsed 0) = mprotectCall vma := by
    simp only [mprotectCall, VmaDescriptor.ofLine, start, size, prot]
  have sameProt : (VmaDescriptor.ofLine parsed 0).prot = vma.prot := prot.symm
  have mapped : Executed (mmapCall vma) (earlier ++ mapping) := by
    rcases maps.executed vmaMem with ⟨result, succeeds, inMapping⟩
    exact ⟨result, succeeds, List.mem_append_right _ inMapping⟩
  refine ⟨sameMmap ▸ mapped, ?_⟩
  rw [Protected, sameProt, sameMprotect]
  exact protected_ vma vmaMem

end

/-! ## The child that runs -/

/-- Descriptors that are placed out of an empty table need no pool. -/
theorem Placed.withPool {keeps : Bytes → Bool} {pool other : Bytes} {mark : FdDescriptor → Bool}
    {fds : List FdDescriptor} {table : DescriptorTable Int32 OpenFile}
    (placed : Placed keeps pool mark fds table) (same : fds ≠ [] → pool = other) :
    Placed keeps other mark fds table := by
  rcases eq_or_ne fds [] with rfl | some_
  · exact ⟨placed.numbers, placed.marks, by simp, placed.copies, placed.separate⟩
  · exact same some_ ▸ placed

/-- A child that runs on its own, at any moment of any restore of a file with what was collected of
a target, is that target. -/
theorem runsAs_of_collected {target : Target} {maps : MapsFile} {parts : SnapshotParts}
    {payloads : List Bytes}
    (disjoint : (linesOf .dump (fgetsLines mapsLineMax maps.text)).Pairwise Disjoint)
    {descriptors : DescriptorTable Int32 OpenFile} (reported : Reported target.files descriptors)
    (honest : target.files.Honest) (collected : Collected (some maps) target.files parts)
    (regs : parts.regs = target.regs) (xstate : parts.xstate = target.xstate)
    (payloadsMatch : PayloadsMatch target parts.vmas payloads) {file : RegularFile}
    (whole : file.bytes = parts.fileBytes payloads.flatten) {faults : ReaderFaults}
    {child met : Child} (forked : Forked child)
    (reopens : Reopens target.files child.keepsPosition descriptors)
    (reached : (restorer faults file).Reaches (childWorld file.bytes Controlled) child met)
    (ran : met.ranOwn = true) : RunsAs target maps descriptors met := by
  rcases (restorer_restores forked).1 met reached ran with ⟨snapshot, read, restored⟩
  cases collected.snapshot_eq honest payloadsMatch.length whole read
  exact {
    regs := restored.regs.trans regs
    xstate := restored.xstate.trans (congrArg some xstate)
    memory := memory_of_holdsPayloads collected disjoint payloadsMatch whole
      restored.memory.payloads
    calls := calls_of_lines collected restored.memory.calls
    kernelMaps := by
      intro parsed mem
      rcases collected.exists_kernelMap rfl mem with ⟨wanted, index, record, counted⟩
      exact kernelMapKept_of_inPlace (wellFormed_of_mem_linesOf mem) record counted
        (restored.memory.inPlace _ counted)
    descriptors := by
      rcases collected.tables with ⟨_, _, fdTable, _, collectsFds, _, _, fds, pool⟩
      rcases fdTableCollected_of_collectFds collectsFds with ⟨names, listed, fdsCollected⟩
      have placed := restored.descriptors.withPool collected.sound.sameData.pool
      rw [collected.sound.sameData.fds, fds, pool] at placed
      exact sameDescriptors_of_placed reported honest.distinct listed fdsCollected reopens placed }

/-- A child that runs on its own, at any moment of any restore of a dumped file, is the target
that was dumped. -/
theorem runs_as_dumped {target : Target} {maps : MapsFile} (shows : target.maps = some maps)
    (disjoint : (linesOf .dump (fgetsLines mapsLineMax maps.text)).Pairwise Disjoint)
    {descriptors : DescriptorTable Int32 OpenFile} (reported : Reported target.files descriptors)
    (honest : target.files.Honest) {config : DumpConfig} {memory : Allocations} {rounds : ℕ}
    {disk : Option Bytes} {written : SnapshotFile}
    (dumps : (dump config memory rounds).Exec (dumpWorld target) (untouched disk) true written)
    {file : RegularFile} (bytes : written.disk = some file.bytes) {faults : ReaderFaults}
    {child met : Child} (forked : Forked child)
    (reopens : Reopens target.files child.keepsPosition descriptors)
    (reached : (restorer faults file).Reaches (childWorld file.bytes Controlled) child met)
    (ran : met.ranOwn = true) : RunsAs target maps descriptors met := by
  rcases dump_disk dumps with ⟨parts, payloads, collected, regs, xstate, payloadsMatch, onDisk⟩
  rw [shows] at collected
  have whole : file.bytes = parts.fileBytes payloads.flatten :=
    Option.some.inj (bytes.symm.trans onDisk)
  exact runsAs_of_collected disjoint reported honest collected regs xstate payloadsMatch whole
    forked reopens reached ran

/-- The sample can be restored. -/
theorem sample_restored : ∃ child : Child,
    (restorer .none sampleSnapshot).Reaches (childWorld sampleSnapshot.bytes Controlled)
      sampleEngine child ∧ child.ranOwn = true := by
  have evaluates : ((restoreRead sampleParts.snapshot).evaluate (obligingKernel sampleKernel)
      sampleEngine).map (fun ends => (ends.1, ends.2.ranOwn)) = some (true, true) := by
    decide +kernel
  rcases Option.map_eq_some_iff.mp evaluates with ⟨⟨outcome, final⟩, evaluated, ends⟩
  have run := @exec_of_obligingKernel _ sampleKernel Controlled (obligingKernel_relied rfl rfl)
    _ _ _ _ evaluated
  rw [restorer_of_read readOutcome_sample]
  exact ⟨final, run.reaches, congrArg Prod.snd ends⟩

set_option maxRecDepth 30000 in
/-- The sample runs on: with both areas, both kernel mappings and its shared descriptors. -/
theorem runs_as_dumped_sample : ∃ child : Child, child.ranOwn = true ∧
    RunsAs sampleTarget sampleMaps sharedTable child := by
  rcases @sample_dumped ⟨none, none, false⟩ rfl rfl _ (.inl rfl) with ⟨written, dumps, bytes⟩
  rcases sample_restored with ⟨child, reached, ran⟩
  have forked : Forked sampleEngine := ⟨rfl, rfl⟩
  exact ⟨child, ran, runs_as_dumped rfl sampleMaps_disjoint sharedDescriptors_reported
    sharedDescriptors_honest (exec_unlinked dumps) bytes forked sharedDescriptors_reopens reached
      ran⟩

end Ksnap
