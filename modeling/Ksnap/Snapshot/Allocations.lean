import Ksnap.Snapshot.FdTable

/-!
# What the reader asks malloc for

The fd table, the path pool and the xstate are bounded by the file or by a constant before
memory is asked for. The vma table is bounded by a sum that wraps around, so a header can
have the reader ask for hundreds of gigabytes. The seek that follows refuses such a file,
but then the memory has been asked for.
-/

namespace Ksnap

open Foundation Foundation.Logged

/-- The most that a file of this size should cost at once. -/
def allocationBound (file : RegularFile) : ℕ :=
  max file.bytes.length xstateMaxSize.toNat

/-- No allocation of the reader is larger than that, whichever calls fail. -/
def AllocationsBounded (file : RegularFile) : Prop :=
  ∀ faults, ∀ size ∈ readAllocations faults file, size ≤ allocationBound file

/-- No check in front of the vma table refuses the header, and yet the table runs over the end
of the 64 bit numbers: so many of its bytes lie `below` 2 ^ 64, and those `past` it begin at 0
again, where the sum has wrapped around to. Together they are more than the bound. -/
structure WrapsOver (file : RegularFile) (below past : ℕ) : Prop where
  headerFits : headerCodec.width ≤ file.bytes.length
  accepted : HeaderAccepted file (headerCodec.decode file.bytes)
  start : (headerCodec.decode file.bytes).vmaTableOffset.toNat + below = 2 ^ 64
  table : 48 * (headerCodec.decode file.bytes).vmaCount.toNat = below + past
  large : allocationBound file < below + past

/-! ## Bounded allocations -/

section

variable {bound : ℕ}

/-- Any error is fine where only the allocations count. -/
theorem keeps_checked {condition : Bool} {error : ReadError} :
    Keeps (· ≤ bound) (fun _ => True) (check condition error) fun _ => condition = true :=
  keeps_check fun _ => trivial

theorem keeps_allocate {size : ℕ} {fails : Bool} {error : ReadError} (small : size ≤ bound) :
    Keeps (· ≤ bound) (fun _ => True) (allocate size fails error) fun _ => True := by
  have records : Keeps (· ≤ bound) (fun _ => True) (record size : Reading Unit) fun _ => True :=
    keeps_record small
  exact records.bind fun _ _ => keeps_checked.mono fun _ _ => trivial

theorem mem_entries_allocate {α : Type} {size : ℕ} {fails : Bool} {error : ReadError}
    {rest : Unit → Reading α}
    (keeps : Keeps (· ≤ bound) (fun _ => True) (rest ()) fun _ => True) :
    size ∈ entries (allocate size fails error >>= rest) := by
  rw [allocate, bind_assoc]
  exact mem_entries_record_bind (keeps_checked.bind fun _ _ => keeps)

theorem keeps_readSection {file : RegularFile} {offset : UInt64} {count : ℕ} {part : Section}
    {faults : ReaderFaults} :
    Keeps (· ≤ bound) (fun _ => True) (readSection file offset count part faults) fun _ => True :=
  (keeps_orElse fun _ => trivial).mono fun _ _ => trivial

theorem keeps_checkFdEntries_bounded {header : DumpHeader} {pool : Bytes}
    (before entries : List FdDescriptor) :
    Keeps (· ≤ bound) (fun _ => True) (checkFdEntries header pool before entries)
      fun _ => True := by
  have path : ∀ entry, Keeps (· ≤ bound) (fun _ => True) (checkPath pool entry)
      fun _ => True := by
    intro entry
    rw [checkPath]
    split
    · exact keeps_throw trivial
    · exact keeps_checked.mono fun _ _ => trivial
  have checks : ∀ before entry, Keeps (· ≤ bound) (fun _ => True)
      (checkFdEntry header pool before entry) fun _ => True := by
    intro before entry
    rw [checkFdEntry]
    refine keeps_checked.bind fun _ _ => ?_
    refine keeps_checked.bind fun _ _ => ?_
    refine keeps_checked.bind fun _ _ => ?_
    refine keeps_checked.bind fun _ _ => ?_
    exact keeps_checked.bind fun _ _ => path entry
  induction entries generalizing before with
  | nil => exact keeps_pure trivial
  | cons entry entries ih =>
      exact (checks before entry).bind fun _ _ => ih (before ++ [entry])

/-- Both blocks of the fd table fit into the file, so neither is larger. -/
theorem keeps_readFdTable_bounded {faults : ReaderFaults} {file : RegularFile}
    {header : DumpHeader} (large : file.bytes.length ≤ bound) :
    Keeps (· ≤ bound) (fun _ => True) (readFdTable faults file header) fun _ => True := by
  have sizeNat := file.size_toNat
  rw [readFdTable]
  split
  · exact keeps_pure trivial
  · refine keeps_checked.bind fun _ fits => ?_
    rw [Bool.and_eq_true, fitsInFile_iff, fitsInFile_iff] at fits
    refine keeps_checked.bind fun _ _ => ?_
    refine (keeps_record (by omega)).bind fun _ _ => ?_
    refine (keeps_record (by omega)).bind fun _ _ => ?_
    refine keeps_checked.bind fun _ _ => ?_
    refine keeps_readSection.bind fun table _ => ?_
    refine keeps_readSection.bind fun pool _ => ?_
    exact (keeps_checkFdEntries_bounded _ _).bind fun _ _ => keeps_pure trivial

/-- What follows the allocation of the vma table. -/
theorem keeps_behindTable {faults : ReaderFaults} {file : RegularFile} {header : DumpHeader}
    (large : file.bytes.length ≤ bound) (xstate : header.xstateSize.toNat ≤ bound) :
    Keeps (· ≤ bound) (fun _ => True)
      (do
        let table ←
          readSection file header.vmaTableOffset (header.vmaCount.toNat * 48) .vmaTable faults
        let vmas := vmaCodec.decodeAll header.vmaCount.toNat table
        vmas.forM (checkVma file)
        allocate header.xstateSize.toNat (faults.memory .xstate) (.noMemory .xstate)
        let xstate ←
          readSection file header.xstateOffset header.xstateSize.toNat .xstate faults
        let (fds, pool) ← readFdTable faults file header
        return { header, vmas, xstate, fds, pool } : Reading Snapshot)
      fun _ => True := by
  refine keeps_readSection.bind fun table _ => ?_
  refine (keeps_forM fun vma _ => ?_).bind fun _ _ => ?_
  · exact keeps_checked.bind fun _ _ => keeps_checked.mono fun _ _ => trivial
  · refine (keeps_allocate xstate).bind fun _ _ => ?_
    refine keeps_readSection.bind fun _ _ => ?_
    exact (keeps_readFdTable_bounded large).bind fun _ _ => keeps_pure trivial

end

/-! ## The bound and the sum -/

/-- A table that passed the check is as small as the file, unless the sum wrapped around. -/
theorem tableSize_le_of_noWrap {file : RegularFile} {header : DumpHeader}
    (fits : header.vmaTableOffset + header.vmaCount.toUInt64 * 48 ≤ file.size)
    (noWrap : header.vmaTableOffset.toNat + 48 * header.vmaCount.toNat < 2 ^ 64) :
    48 * header.vmaCount.toNat ≤ file.bytes.length := by
  have tableSize := vmaTableSize_toNat header
  rw [UInt64.le_iff_toNat_le, UInt64.toNat_add, file.size_toNat, tableSize,
    Nat.mod_eq_of_lt (by omega)] at fits
  omega

/-- So a larger table is one over which the sum wrapped around. -/
theorem tableSize_le_of_not_wrapsOver {file : RegularFile}
    (within : ∀ below past, ¬WrapsOver file below past)
    (headerFits : headerCodec.width ≤ file.bytes.length)
    (accepted : HeaderAccepted file (headerCodec.decode file.bytes)) :
    48 * (headerCodec.decode file.bytes).vmaCount.toNat ≤ allocationBound file := by
  by_contra large
  have start := (headerCodec.decode file.bytes).vmaTableOffset.toNat_lt
  by_cases noWrap : (headerCodec.decode file.bytes).vmaTableOffset.toNat +
      48 * (headerCodec.decode file.bytes).vmaCount.toNat < 2 ^ 64
  · have small := tableSize_le_of_noWrap accepted.vmaTableFits noWrap
    exact large (small.trans (le_max_left _ _))
  · refine within (2 ^ 64 - (headerCodec.decode file.bytes).vmaTableOffset.toNat)
      ((headerCodec.decode file.bytes).vmaTableOffset.toNat +
        48 * (headerCodec.decode file.bytes).vmaCount.toNat - 2 ^ 64) ?_
    exact ⟨headerFits, accepted, by omega, by omega, by omega⟩

/-- The checks in front of the vma table, and what comes behind them. -/
theorem readSnapshotMetadata_bounded {faults : ReaderFaults} {file : RegularFile}
    (within : ∀ below past, ¬WrapsOver file below past) :
    Keeps (· ≤ allocationBound file) (fun _ => True) (readSnapshotMetadata faults file)
      fun _ => True := by
  rw [readSnapshotMetadata]
  refine keeps_checked.bind fun _ headerFits => ?_
  refine keeps_checked.bind fun _ magic => ?_
  refine keeps_checked.bind fun _ version => ?_
  refine keeps_checked.bind fun _ vmaCount => ?_
  refine keeps_checked.bind fun _ kernelMapCount => ?_
  refine keeps_checked.bind fun _ exePathLen => ?_
  refine keeps_checked.bind fun _ _ => ?_
  refine keeps_checked.bind fun _ xstateSize => ?_
  refine keeps_checked.bind fun _ xstateFits => ?_
  refine keeps_checked.bind fun _ tableFits => ?_
  simp only [Bool.and_eq_true, decide_eq_true_eq] at *
  have accepted : HeaderAccepted file (headerCodec.decode file.bytes) :=
    ⟨⟨magic, version, vmaCount, kernelMapCount, exePathLen.1, exePathLen.2, xstateSize.1,
      xstateSize.2⟩, xstateFits, tableFits.1, tableFits.2⟩
  have small := tableSize_le_of_not_wrapsOver within headerFits.2 accepted
  have tableSize := vmaTableSize_toNat (terminateExePath (headerCodec.decode file.bytes))
  refine (keeps_allocate ?_).bind fun _ _ => ?_
  · rw [tableSize, Nat.mul_comm]
    exact small
  · apply keeps_behindTable (le_max_left _ _)
    exact (UInt32.lt_iff_toNat_lt.mp xstateSize.2).le.trans (le_max_right _ _)

/-- A header that passes every check in front of the vma table has it allocated. -/
theorem tableSize_mem_readAllocations {file : RegularFile}
    (headerFits : headerCodec.width ≤ file.bytes.length)
    (accepted : HeaderAccepted file (headerCodec.decode file.bytes)) :
    48 * (headerCodec.decode file.bytes).vmaCount.toNat ∈ readAllocations .none file := by
  have tableSize := vmaTableSize_toNat (headerCodec.decode file.bytes)
  have xstateSmall : (headerCodec.decode file.bytes).xstateSize.toNat ≤ allocationBound file :=
    (UInt32.lt_iff_toNat_lt.mp accepted.xstateSize_lt).le.trans (le_max_right _ _)
  rw [Nat.mul_comm, ← tableSize, readAllocations, readSnapshotMetadata]
  refine mem_entries_check (Bool.and_eq_true_iff.mpr ⟨rfl, decide_eq_true headerFits⟩) ?_
  refine mem_entries_check (by simpa using accepted.magic) ?_
  refine mem_entries_check (by simpa using accepted.version) ?_
  refine mem_entries_check (by simpa using accepted.vmaCount) ?_
  refine mem_entries_check (by simpa using accepted.kernelMapCount) ?_
  refine mem_entries_check (by simpa using ⟨accepted.exePathLen_ne, accepted.exePathLen_lt⟩) ?_
  refine mem_entries_check rfl ?_
  refine mem_entries_check (by simpa using ⟨accepted.xstateSize_ge, accepted.xstateSize_lt⟩) ?_
  refine mem_entries_check (decide_eq_true accepted.xstateFits) ?_
  refine mem_entries_check (Bool.and_eq_true_iff.mpr
    ⟨decide_eq_true accepted.vmaTableFits, decide_eq_true accepted.dataOffset⟩) ?_
  exact mem_entries_allocate (keeps_behindTable (le_max_left _ _) xstateSmall)

/-- No allocation is larger than the file and the largest xstate exactly if the vma table does
not slip through a sum that wraps around. -/
theorem allocationsBounded_iff (file : RegularFile) :
    AllocationsBounded file ↔ ∀ below past, ¬WrapsOver file below past := by
  constructor
  · intro allocations below past wraps
    have small := allocations .none _
      (tableSize_mem_readAllocations wraps.headerFits wraps.accepted)
    rw [wraps.table] at small
    exact absurd small (Nat.not_le.mpr wraps.large)
  · intro within faults
    exact (readSnapshotMetadata_bounded within).entries

/-! ## A file that asks for 192 GiB -/

/-- As many mappings as 32 bits can count, at an offset from which their table ends at
2 ^ 64. -/
def hugeTableHeader : DumpHeader :=
  { (smallestParts 1).header with
    vmaCount := 0xffffffff
    vmaTableOffset := 0xffffffd000000030
    xstateOffset := 0
    xstateSize := 576
    dataOffset := 0 }

/-- The header and nothing behind it. -/
def hugeTableFile : RegularFile where
  bytes := headerCodec.encode hugeTableHeader
  size_lt := by
    rw [Codec.length_encode, headerCodec_width]
    decide

theorem decode_hugeTableFile : headerCodec.decode hugeTableFile.bytes = hugeTableHeader := by
  simp only [hugeTableFile, Codec.decode_encode_self]

theorem hugeTableHeader_accepted : HeaderAccepted hugeTableFile hugeTableHeader := by
  have sound := headerSound_of_parts (@smallestParts_sound 1 (by decide) (by decide))
  have size : hugeTableFile.size.toNat = 4592 := by
    rw [RegularFile.size_toNat, hugeTableFile, Codec.length_encode, headerCodec_width]
  refine ⟨⟨rfl, rfl, by decide, by decide, sound.exePathLen_ne, sound.exePathLen_lt, by decide,
    by decide⟩, ?_, ?_, ?_⟩
  all_goals
    rw [UInt64.le_iff_toNat_le, size]
    decide

/-- A file of less than five kilobytes has the reader ask for 192 GiB. -/
theorem not_allocationsBounded : ¬ ∀ file, AllocationsBounded file := by
  intro claimed
  have headerFits : headerCodec.width ≤ hugeTableFile.bytes.length :=
    (Codec.length_encode _ _).ge
  have allocated := tableSize_mem_readAllocations headerFits
    (decode_hugeTableFile.symm ▸ hugeTableHeader_accepted)
  have small := claimed hugeTableFile .none _ allocated
  rw [decode_hugeTableFile, allocationBound, hugeTableFile, Codec.length_encode,
    headerCodec_width] at small
  exact absurd small (by decide)

end Ksnap
