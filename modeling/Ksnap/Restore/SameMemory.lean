import Ksnap.Dump.Image
import Ksnap.Restore.Obliging
import Ksnap.Restore.Rebuild

/-!
# Memory from the target to the child

The payload that a dump writes for a mapping is the memory of the target, and the one
that a restore copies into the child is the same part of the same file. Mappings that
do not overlap keep what they were given, so the child ends up with every byte of
them.
-/

namespace Ksnap

open Foundation Foundation.Program

/-! ## Payloads of a written file -/

theorem drop_dataOffset {parts : SnapshotParts} (sound : parts.Sound) (payload : Bytes) :
    (parts.fileBytes payload).drop parts.dataOffset.toNat = payload := by
  have split : parts.fileBytes payload = parts.fileBytes [] ++ payload := by
    simp [SnapshotParts.fileBytes, snapshotBytes]
  have length : (parts.fileBytes []).length = parts.dataOffset.toNat := by
    rw [SnapshotParts.fileBytes, length_snapshotBytes, toNat_dataOffset sound, List.length_nil,
      Nat.add_zero]
  rw [split]
  exact List.drop_left' length

/-- Every entry of the table points at the memory of its mapping. -/
theorem content_of_payloadsMatch {target : Target} {vmas : List VmaDescriptor}
    {payloads : List Bytes} (payloadsMatch : PayloadsMatch target vmas payloads) {content : Bytes}
    {offset : UInt64} (small : offset.toNat + payloadSize vmas < 2 ^ 64)
    (holds : payloads.flatten <+: content.drop offset.toNat) :
    ∀ placed ∈ assignDataOffsets offset vmas, ∀ index, index < placed.size.toNat →
      content[placed.dataOffset.toNat + index]? =
        some (target.memory (placed.startAddress.toNat + index)) := by
  induction payloadsMatch generalizing offset with
  | nil =>
      intro placed mem
      cases mem
  | @cons vma payload vmas payloads here _ ih =>
      rw [payloadSize_cons] at small
      rw [List.flatten_cons] at holds
      rcases holds with ⟨rest, split⟩
      intro placed mem
      rcases List.mem_cons.mp mem with rfl | later
      · intro index inside
        have insidePayload : index < payload.length := here.1 ▸ inside
        have byte := here.2 index _ (List.getElem?_eq_getElem insidePayload)
        dsimp only
        rw [← List.getElem?_drop, ← split, List.append_assoc,
          List.getElem?_append_left insidePayload, List.getElem?_eq_getElem insidePayload, byte]
      · have next := toNat_add_size small
        apply ih (by omega) _ placed later
        refine ⟨rest, ?_⟩
        rw [next, ← List.drop_drop, ← split, List.append_assoc, List.drop_left' here.1]

/-! ## Ranges that do not overlap -/

/-- The addresses of a mapping, as a start and a size. -/
def MapsLine.range (parsed : MapsLine) : UInt64 × ℕ :=
  (parsed.start, (parsed.stop - parsed.start).toNat)

def VmaDescriptor.range (vma : VmaDescriptor) : UInt64 × ℕ :=
  (vma.startAddress, vma.size.toNat)

/-- No address is in both ranges. -/
def Apart (first second : UInt64 × ℕ) : Prop :=
  ∀ address, Within first.1 first.2 address → ¬Within second.1 second.2 address

/-- The mapping ends before the other one starts, or the other way round. -/
def Disjoint (first second : MapsLine) : Prop :=
  first.stop ≤ second.start ∨ second.stop ≤ first.start

theorem map_range_assignDataOffsets (offset : UInt64) (vmas : List VmaDescriptor) :
    (assignDataOffsets offset vmas).map VmaDescriptor.range = vmas.map VmaDescriptor.range := by
  induction vmas generalizing offset with
  | nil => rfl
  | cons vma vmas ih =>
      rw [assignDataOffsets, List.map_cons, List.map_cons, ih]
      rfl

theorem map_range_of_described {pool : Bytes} {lines : List MapsLine} {vmas : List VmaDescriptor}
    (described : List.Forall₂ (VmaDescribed pool) lines vmas) :
    vmas.map VmaDescriptor.range = lines.map MapsLine.range := by
  induction described with
  | nil => rfl
  | cons here _ ih =>
      rw [List.map_cons, List.map_cons, ih, here.1]
      rfl

theorem MapsLine.WellFormed.toNat_size {parsed : MapsLine} (wellFormed : parsed.WellFormed) :
    parsed.start.toNat + (parsed.stop - parsed.start).toNat = parsed.stop.toNat := by
  have nonempty := UInt64.lt_iff_toNat_lt.mp wellFormed.nonempty
  rw [UInt64.toNat_sub_of_le _ _ (UInt64.le_iff_toNat_le.mpr (Nat.le_of_lt nonempty))]
  omega

/-- The addresses of a line are an interval. -/
theorem MapsLine.WellFormed.within_iff {parsed : MapsLine} (wellFormed : parsed.WellFormed)
    {address : UInt64} : Within parsed.range.1 parsed.range.2 address ↔
      parsed.start ≤ address ∧ address < parsed.stop := by
  have size := wellFormed.toNat_size
  have stopBelow := parsed.stop.toNat_lt
  have noWrap : parsed.start.toNat + (parsed.stop - parsed.start).toNat ≤ 2 ^ 64 := by omega
  rw [UInt64.le_iff_toNat_le, UInt64.lt_iff_toNat_lt, ← size]
  exact within_iff_of_noWrap noWrap

theorem Disjoint.apart {first second : MapsLine} (disjoint : Disjoint first second)
    (wellFormed : first.WellFormed) (wellFormed' : second.WellFormed) :
    Apart first.range second.range := by
  intro address inFirst inSecond
  have here := wellFormed.within_iff.mp inFirst
  have there := wellFormed'.within_iff.mp inSecond
  simp only [UInt64.le_iff_toNat_le, UInt64.lt_iff_toNat_lt] at here there
  rcases disjoint with before | after
  · rw [UInt64.le_iff_toNat_le] at before
    omega
  · rw [UInt64.le_iff_toNat_le] at after
    omega

/-- Mappings that do not overlap hold their payloads. -/
theorem HoldsPayloads.of_apart {content : Bytes} {memory : Memory UInt8}
    {vmas : List VmaDescriptor} (holds : HoldsPayloads content memory vmas)
    (apart : (vmas.map VmaDescriptor.range).Pairwise Apart) :
    ∀ vma ∈ vmas, ∀ index, index < vma.size.toNat →
      some (memory (vma.startAddress + UInt64.ofNat index)) =
        content[vma.dataOffset.toNat + index]? := by
  induction vmas with
  | nil =>
      intro vma mem
      cases mem
  | cons first later ih =>
      rw [List.map_cons, List.pairwise_cons] at apart
      intro vma mem
      rcases List.mem_cons.mp mem with rfl | mem
      · intro index inside
        apply holds.1 index inside
        intro other otherMem
        apply apart.1 other.range (List.mem_map_of_mem otherMem)
        exact within_add vma.startAddress (Nat.le_of_lt vma.size.toNat_lt) inside
      · exact ih holds.2 apart.2 vma mem

/-! ## The child has the memory of the target -/

/-- The marks are set from outside: the memory and the registers of the child stay. -/
structure OnlyMarks (before after : Child) : Prop where
  held : Held after
  memory : after.memory = before.memory
  regs : after.regs = before.regs

theorem restoreFdFlags_onlyMarks {content : Bytes} {rely : RestoreEvent → Prop}
    (undisturbed : ∀ event, rely event → Undisturbed event) {fds : List FdDescriptor}
    {child : Child} (held : Held child) :
    (restoreFdFlags fds).run.Ensures (childWorld content rely) Held
      (fun outcome after => outcome.isSome → OnlyMarks child after) child := by
  unfold restoreFdFlags
  refine ensures_forM (fun _ => OnlyMarks child) ⟨held, rfl, rfl⟩ ?_ (fun _ marks _ => marks)
  intro _ entry _ middle _ marks
  unfold restoreFdFlag
  split
  · exact marks
  · refine (injectSucceeding_spec (fun event relied => (undisturbed event relied).1)
      (setCloexecCall entry) marks.held).mono ?_
    intro outcome after injects
    cases outcome with
    | none => simp
    | some _ =>
        rcases injects rfl with ⟨result, _, injected⟩
        have notMmap : sysFcntl ≠ sysMmap := by decide
        have notMremap : sysFcntl ≠ sysMremap := by decide
        have memory : after.memory = middle.memory := by
          funext address
          apply injected.memory fun event relied => (undisturbed event relied).2
          rintro ⟨_, ⟨isMmap, _⟩ | ⟨isMremap, _⟩⟩
          · exact notMmap isMmap
          · exact notMremap isMremap
        exact ⟨injected.held, memory.trans marks.memory, injected.regs.trans marks.regs⟩

/-- Every byte of every dumped mapping is in the child as it was in the target. -/
theorem memory_restored {target : Target} {maps : MapsFile} (shows : target.maps = some maps)
    (disjoint : (linesOf .dump (fgetsLines mapsLineMax maps.text)).Pairwise Disjoint)
    {config : DumpConfig} {memory : Allocations} {rounds : ℕ} {disk : Option Bytes}
    {written : SnapshotFile}
    (dumps : (dump config memory rounds).Exec (dumpWorld target) (untouched disk) true written)
    {file : RegularFile} (bytes : written.disk = some file.bytes) {faults : ReaderFaults}
    {snapshot : Snapshot} (read : readOutcome faults file = .ok snapshot)
    {child restored : Child} (held : Held child)
    (restores : (restoreMemory snapshot).run.Exec (childWorld file.bytes Undisturbed) child
      (some ()) restored) :
    ∀ parsed ∈ linesOf .dump (fgetsLines mapsLineMax maps.text), ∀ address,
      parsed.start ≤ address → address < parsed.stop →
        restored.memory address = target.memory address.toNat := by
  rcases dump_disk dumps with ⟨parts, payloads, collected, _, _, payloadsMatch, onDisk⟩
  have sound := collected.sound
  have whole : file.bytes = parts.fileBytes payloads.flatten :=
    Option.some.inj (bytes.symm.trans onDisk)
  have vmas : snapshot.vmas = parts.vmaTable :=
    (accepted_of_readOutcome read).vmas_of_cut sound whole List.prefix_rfl
  -- the table of the file has the ranges of the lines
  rcases collected.tables with ⟨_, vmaTable, _, collects, _, sameVmas, _⟩
  rcases vmasCollected_of_collectVmas collects with ⟨maps', isShown, _, _, vmasCollected⟩
  cases shows.symm.trans isShown
  have ranges : snapshot.vmas.map VmaDescriptor.range =
      (linesOf .dump (fgetsLines mapsLineMax maps.text)).map MapsLine.range := by
    rw [vmas, SnapshotParts.vmaTable, map_range_assignDataOffsets, sameVmas,
      map_range_of_described vmasCollected.vmas]
  have apart : (snapshot.vmas.map VmaDescriptor.range).Pairwise Apart := by
    rw [ranges, List.pairwise_map]
    refine disjoint.imp_of_mem ?_
    intro first second firstMem secondMem notBoth
    exact notBoth.apart (wellFormed_of_mem_linesOf firstMem) (wellFormed_of_mem_linesOf secondMem)
  -- the child holds the payloads, and they are the memory of the target
  have undisturbed : ∀ event, Undisturbed event → Undisturbed event := fun _ relied => relied
  have flags := (@restoreFdFlags_onlyMarks file.bytes Undisturbed undisturbed snapshot.fds child
    held).mono fun _ _ marks success => And.intro (marks success).held trivial
  have rebuilt := (@restoreMemory_spec file.bytes Undisturbed child undisturbed snapshot
    (fun _ => True) held flags).exec restores rfl
  have inChild := rebuilt.2.2.payloads.of_apart apart
  have small := payloads_small sound payloadsMatch.length whole
  have behind : file.bytes.drop parts.dataOffset.toNat = payloads.flatten := by
    rw [whole, drop_dataOffset sound]
  have payload : payloads.flatten <+: file.bytes.drop parts.dataOffset.toNat :=
    behind ▸ List.prefix_rfl
  have inFile := content_of_payloadsMatch payloadsMatch (by omega) payload
  intro parsed mem address from_ below
  have wellFormed := wellFormed_of_mem_linesOf mem
  have inside := wellFormed.within_iff.mpr ⟨from_, below⟩
  have rangeMem : parsed.range ∈ snapshot.vmas.map VmaDescriptor.range := by
    rw [ranges]
    exact List.mem_map_of_mem mem
  rcases List.mem_map.mp rangeMem with ⟨vma, vmaMem, sameRange⟩
  rw [← sameRange] at inside
  rcases inside.exists_index with ⟨index, indexInside, rfl⟩
  replace indexInside : index < vma.size.toNat := indexInside
  have tableMem : vma ∈ parts.vmaTable := vmas ▸ vmaMem
  have copied := inChild vma vmaMem index indexInside
  have dumped := inFile vma tableMem index indexInside
  rw [dumped] at copied
  have start : vma.startAddress = parsed.start := congrArg Prod.fst sameRange
  have size : vma.size.toNat = (parsed.stop - parsed.start).toNat := congrArg Prod.snd sameRange
  have ends := wellFormed.toNat_size
  have stopBelow := parsed.stop.toNat_lt
  have indexNat : (UInt64.ofNat index).toNat = index := by
    rw [UInt64.toNat_ofNat']
    exact Nat.mod_eq_of_lt (by omega)
  have noWrap : (vma.startAddress + UInt64.ofNat index).toNat =
      vma.startAddress.toNat + index := by
    rw [UInt64.toNat_add, indexNat, start]
    exact Nat.mod_eq_of_lt (by omega)
  change restored.memory (vma.startAddress + UInt64.ofNat index) =
    target.memory (vma.startAddress + UInt64.ofNat index).toNat
  rw [noWrap]
  exact Option.some.inj copied

/-- The kernel has put its mappings somewhere else. -/
def sampleKernel : KernelReplies where
  content := sampleSnapshot.bytes
  maps := some (ascii "20000-21000 r--p 0 0 0 [vvar]\n21000-22000 r-xp 0 0 0 [vdso]\n")
  traced := true
  stepped := .trapped

theorem sampleMaps_disjoint :
    (linesOf .dump (fgetsLines mapsLineMax sampleMaps.text)).Pairwise Disjoint := by
  unfold Disjoint
  decide +kernel

/-- Both areas of the sample are in the child as they were in the target, also where its next
instruction was patched. -/
theorem memory_restored_sample : ∃ restored : Child, ∀ parsed ∈
    linesOf .dump (fgetsLines mapsLineMax sampleMaps.text), ∀ address,
      parsed.start ≤ address → address < parsed.stop →
        restored.memory address = sampleTarget.memory address.toNat := by
  have evaluates : ((restoreMemory sampleParts.snapshot).run.evaluate
      (obligingKernel sampleKernel) sampleChild).map Prod.fst = some (some ()) := by
    decide +kernel
  rcases Option.map_eq_some_iff.mp evaluates with ⟨⟨outcome, restored⟩, evaluated, rfl⟩
  rcases @sample_dumped ⟨none, none, false⟩ rfl rfl _ (.inl rfl) with ⟨written, dumps, bytes⟩
  have relied := fun before request =>
    (@obligingKernel_relied sampleKernel rfl rfl before request).2
  exact ⟨restored, memory_restored rfl sampleMaps_disjoint (exec_unlinked dumps) bytes
    readOutcome_sample ⟨rfl, rfl⟩ (exec_of_obligingKernel relied evaluated)⟩

end Ksnap
