import Ksnap.Engine.ReadSnapshot

/-!
# Accepted snapshots

What the reader has checked when it returns OK, as a proposition about the file and
the snapshot read from it. `accepted_of_readOutcome` gathers the checks from any
reading that passes, and `readOutcome_of_accepted` passes a file that meets them,
when memory and disk do not fail. Both keep the 64 bit arithmetic of the code; the
bounds in plain numbers are consequences.
-/

namespace Ksnap

open Foundation Foundation.Logged

/-- What one entry of the fd table has passed, after the entries before it. -/
structure EntryAccepted (header : DumpHeader) (pool : Bytes) (before : List FdDescriptor)
    (entry : FdDescriptor) : Prop where
  aboveStdio : 2 < entry.fd
  ascending : ∀ last, before.getLast? = some last → last.fd < entry.fd
  dupOf : entry.dupOf = -1 ∨ (bsearch (compareFdNumber entry.dupOf) before).isSome
  flags : entry.flags &&& fdForbiddenFlags = 0
  nonempty : entry.pathLen ≠ 0
  short : entry.pathLen.toNat < pathMax
  offsetInside : entry.pathOffset.toUInt64 < header.pathPoolSize
  pathInside : entry.pathLen.toUInt64 < header.pathPoolSize - entry.pathOffset.toUInt64
  terminated : pool[entry.pathOffset.toNat + entry.pathLen.toNat]? = some 0
  unbroken : 0 ∉ slice pool entry.pathOffset.toNat entry.pathLen.toNat

/-- Every entry has passed, each after those before it. -/
def EntriesAccepted (header : DumpHeader) (pool : Bytes) :
    List FdDescriptor → List FdDescriptor → Prop
  | _, [] => True
  | before, entry :: entries =>
      EntryAccepted header pool before entry ∧
        EntriesAccepted header pool (before ++ [entry]) entries

/-- The fd table and the pool of a file with descriptors. -/
structure FdTableRead (file : RegularFile) (header : DumpHeader) (fds : List FdDescriptor)
    (pool : Bytes) : Prop where
  tableFits : fitsInFile header.fdTableOffset (header.fdCount.toUInt64 * 32) file.size
  poolFits : fitsInFile header.pathPoolOffset header.pathPoolSize file.size
  poolNonempty : header.pathPoolSize ≠ 0
  table : ∃ raw, readAt file header.fdTableOffset (header.fdCount.toNat * 32) false = some raw ∧
    fds = fdCodec.decodeAll header.fdCount.toNat raw
  poolRead : readAt file header.pathPoolOffset header.pathPoolSize.toNat false = some pool
  entries : EntriesAccepted header pool [] fds

/-- The fd table of a snapshot; without descriptors nothing is read. -/
def FdTableAccepted (file : RegularFile) (header : DumpHeader) (fds : List FdDescriptor)
    (pool : Bytes) : Prop :=
  (header.fdCount = 0 ∧ fds = [] ∧ pool = []) ∨
    (header.fdCount ≠ 0 ∧ FdTableRead file header fds pool)

/-- What one mapping has passed. The sum wraps around. -/
structure VmaAccepted (file : RegularFile) (vma : VmaDescriptor) : Prop where
  prot : vma.prot &&& ~~~protAll = 0
  payload : vma.dataOffset + vma.size ≤ file.size

/-- What the reader has checked of the header alone. -/
structure HeaderSound (header : DumpHeader) : Prop where
  magic : header.magic.toList = magic
  version : header.version = formatVersion
  vmaCount : header.vmaCount ≠ 0
  kernelMapCount : header.kernelMapCount.toNat ≤ maxKernelMaps
  exePathLen_ne : header.exePathLen ≠ 0
  exePathLen_lt : header.exePathLen.toNat < pathMax
  xstateSize_ge : xstateMinSize ≤ header.xstateSize
  xstateSize_lt : header.xstateSize < xstateMaxSize

/-- What the reader has checked of the header and the size of the file. -/
structure HeaderAccepted (file : RegularFile) (header : DumpHeader) : Prop
    extends HeaderSound header where
  xstateFits : header.xstateOffset + header.xstateSize.toUInt64 ≤ file.size
  vmaTableFits : header.vmaTableOffset + header.vmaCount.toUInt64 * 48 ≤ file.size
  dataOffset : header.dataOffset ≤ file.size

/-- A snapshot that was read from a file. -/
structure Accepted (file : RegularFile) (snapshot : Snapshot) : Prop where
  headerFits : headerCodec.width ≤ file.bytes.length
  header : snapshot.header = terminateExePath (headerCodec.decode file.bytes)
  headerAccepted : HeaderAccepted file (headerCodec.decode file.bytes)
  vmaTable : ∃ raw,
    readAt file snapshot.header.vmaTableOffset (snapshot.header.vmaCount.toNat * 48) false =
      some raw ∧
    snapshot.vmas = vmaCodec.decodeAll snapshot.header.vmaCount.toNat raw
  vmas : ∀ vma ∈ snapshot.vmas, VmaAccepted file vma
  xstate : readAt file snapshot.header.xstateOffset snapshot.header.xstateSize.toNat false =
    some snapshot.xstate
  fdTable : FdTableAccepted file snapshot.header snapshot.fds snapshot.pool

/-! ## Sizes -/

theorem RegularFile.size_toNat (file : RegularFile) : file.size.toNat = file.bytes.length := by
  have := file.size_lt
  simp only [RegularFile.size, UInt64.toNat_ofNat']
  omega

/-- A table of 32 bit many records cannot outgrow 64 bits. -/
theorem tableSize_toNat (count : UInt32) {width : UInt64} (small : width.toNat < 2 ^ 32) :
    (count.toUInt64 * width).toNat = count.toNat * width.toNat := by
  have bound : count.toNat * width.toNat < 2 ^ 32 * 2 ^ 32 :=
    Nat.mul_lt_mul'' count.toNat_lt small
  rw [UInt64.toNat_mul, UInt32.toNat_toUInt64]
  exact Nat.mod_eq_of_lt bound

theorem vmaTableSize_toNat (header : DumpHeader) :
    (header.vmaCount.toUInt64 * 48).toNat = header.vmaCount.toNat * 48 :=
  tableSize_toNat header.vmaCount (by decide)

theorem fdTableSize_toNat (header : DumpHeader) :
    (header.fdCount.toUInt64 * 32).toNat = header.fdCount.toNat * 32 :=
  tableSize_toNat header.fdCount (by decide)

/-! ## Reading one part -/

theorem readAt_eq_some_iff {file : RegularFile} {offset : UInt64} {count : ℕ} {fails : Bool}
    {raw : Bytes} :
    readAt file offset count fails = some raw ↔
      fails = false ∧ offset.toNat < 2 ^ 63 ∧ offset.toNat + count ≤ file.bytes.length ∧
        raw = slice file.bytes offset.toNat count := by
  unfold readAt
  split
  · simp; omega
  · split
    · simp_all
    · split
      · simp; omega
      · simp_all [eq_comm]

theorem readAt_healthy {file : RegularFile} {offset : UInt64} {count : ℕ} {fails : Bool}
    {raw : Bytes} (read : readAt file offset count fails = some raw) :
    readAt file offset count false = some raw := by
  rw [readAt_eq_some_iff] at read ⊢
  exact ⟨rfl, read.2⟩

/-! ## The rules of the checks -/

section

variable {log final : List ℕ} {value : Unit}

theorem yields_checkPath {pool : Bytes} {entry : FdDescriptor} :
    Yields (checkPath pool entry) log value final ↔
      (pool[entry.pathOffset.toNat + entry.pathLen.toNat]? = some 0 ∧
        0 ∉ slice pool entry.pathOffset.toNat entry.pathLen.toNat) ∧ final = log := by
  unfold checkPath
  split
  · simp_all
  · simp_all

theorem followsLast_iff {before : List FdDescriptor} {entry : FdDescriptor} :
    followsLast before entry = true ↔
      ∀ last, before.getLast? = some last → last.fd < entry.fd := by
  unfold followsLast
  cases before.getLast? <;> simp

theorem yields_checkFdEntry {header : DumpHeader} {pool : Bytes} {before : List FdDescriptor}
    {entry : FdDescriptor} :
    Yields (checkFdEntry header pool before entry) log value final ↔
      EntryAccepted header pool before entry ∧ final = log := by
  simp only [checkFdEntry, yields_check_bind, yields_checkPath, followsLast_iff,
    Bool.and_eq_true, Bool.or_eq_true, decide_eq_true_eq]
  constructor
  · rintro ⟨stdio, ascending, dupOf, flags, ⟨⟨⟨nonempty, short⟩, offset⟩, inside⟩,
      ⟨terminated, unbroken⟩, rfl⟩
    exact ⟨⟨stdio, ascending, dupOf, flags, nonempty, short, offset, inside, terminated,
      unbroken⟩, rfl⟩
  · rintro ⟨accepted, rfl⟩
    exact ⟨accepted.aboveStdio, accepted.ascending, accepted.dupOf, accepted.flags,
      ⟨⟨⟨accepted.nonempty, accepted.short⟩, accepted.offsetInside⟩, accepted.pathInside⟩,
      ⟨accepted.terminated, accepted.unbroken⟩, rfl⟩

theorem yields_checkFdEntries {header : DumpHeader} {pool : Bytes}
    {before entries : List FdDescriptor} :
    Yields (checkFdEntries header pool before entries) log value final ↔
      EntriesAccepted header pool before entries ∧ final = log := by
  induction entries generalizing before log with
  | nil => simp [checkFdEntries, EntriesAccepted]
  | cons entry entries ih =>
      simp only [checkFdEntries, EntriesAccepted, yields_bind, yields_checkFdEntry, ih]
      constructor
      · rintro ⟨_, _, ⟨here, rfl⟩, later, rfl⟩
        exact ⟨⟨here, later⟩, rfl⟩
      · rintro ⟨⟨here, later⟩, rfl⟩
        exact ⟨(), _, ⟨here, rfl⟩, later, rfl⟩

theorem yields_checkVma {file : RegularFile} (vma : VmaDescriptor) (log final : List ℕ) :
    Yields (checkVma file vma) log () final ↔ VmaAccepted file vma ∧ final = log := by
  simp only [checkVma, yields_check_bind, yields_check, decide_eq_true_eq]
  constructor
  · rintro ⟨prot, payload, rfl⟩
    exact ⟨⟨prot, payload⟩, rfl⟩
  · rintro ⟨accepted, rfl⟩
    exact ⟨accepted.prot, accepted.payload, rfl⟩

theorem yields_allocate_bind {α : Type} {size : ℕ} {fails : Bool} {error : ReadError}
    {rest : Unit → Reading α} {log final : List ℕ} {value : α} :
    Yields (allocate size fails error >>= rest) log value final ↔
      fails = false ∧ Yields (rest ()) (log ++ [size]) value final := by
  simp only [allocate, bind_assoc, yields_record_bind, yields_check_bind,
    Bool.not_eq_eq_eq_not, Bool.not_true]

end

/-! ## The fd table -/

theorem fdTableAccepted_of_yields {faults : ReaderFaults} {file : RegularFile}
    {header : DumpHeader} {fds : List FdDescriptor} {pool : Bytes} {log final : List ℕ}
    (yields : Yields (readFdTable faults file header) log (fds, pool) final) :
    FdTableAccepted file header fds pool := by
  unfold readFdTable at yields
  split at yields
  · rename_i empty
    simp only [yields_pure, Prod.mk.injEq] at yields
    exact .inl ⟨empty, yields.1⟩
  · rename_i some_
    simp only [yields_check_bind, yields_record_bind, readSection, yields_orElse_bind,
      Bool.and_eq_true, decide_eq_true_eq] at yields
    rcases yields with ⟨⟨tableFits, poolFits⟩, nonempty, _, raw, table, pool', poolRead, checked⟩
    simp only [yields_bind, yields_checkFdEntries, yields_pure, Prod.mk.injEq] at checked
    rcases checked with ⟨_, _, ⟨entries, rfl⟩, ⟨rfl, rfl⟩, rfl⟩
    exact .inr ⟨some_, tableFits, poolFits, nonempty, ⟨raw, readAt_healthy table, rfl⟩,
      readAt_healthy poolRead, entries⟩

theorem yields_of_fdTableAccepted {file : RegularFile} {header : DumpHeader}
    {fds : List FdDescriptor} {pool : Bytes} (accepted : FdTableAccepted file header fds pool)
    (log : List ℕ) :
    ∃ final, Yields (readFdTable .none file header) log (fds, pool) final := by
  unfold readFdTable
  rcases accepted with ⟨empty, rfl, rfl⟩ | ⟨some_, accepted⟩
  · exact ⟨log, by simp [empty]⟩
  · rcases accepted.table with ⟨raw, table, rfl⟩
    rw [if_neg some_]
    simp only [yields_check_bind, yields_record_bind, readSection, yields_orElse_bind,
      Bool.and_eq_true, decide_eq_true_eq]
    refine ⟨log ++ [(header.fdCount.toUInt64 * 32).toNat] ++ [header.pathPoolSize.toNat],
      ⟨accepted.tableFits, accepted.poolFits⟩, accepted.poolNonempty, by decide, raw, table,
      pool, accepted.poolRead, ?_⟩
    simp only [yields_bind, yields_checkFdEntries, yields_pure]
    exact ⟨(), _, ⟨accepted.entries, rfl⟩, trivial, rfl⟩

/-! ## The whole of the metadata -/

theorem accepted_of_readOutcome {faults : ReaderFaults} {file : RegularFile}
    {snapshot : Snapshot} (read : readOutcome faults file = .ok snapshot) :
    Accepted file snapshot := by
  rcases outcome_eq_ok_iff.mp read with ⟨final, yields⟩
  simp only [readSnapshotMetadata, yields_check_bind, yields_allocate_bind,
    yields_forM_bind yields_checkVma, readSection, yields_orElse_bind, Bool.and_eq_true,
    decide_eq_true_eq] at yields
  obtain ⟨⟨_, headerFits⟩, magic, version, vmaCount, kernelMaps, ⟨pathNonempty, pathShort⟩, _,
    ⟨xstateGe, xstateLt⟩, xstateFits, ⟨tableFits, dataOffset⟩, _, raw, table, vmas, _, xstate,
    xstateRead, last⟩ := yields
  simp only [yields_bind, yields_pure] at last
  rcases last with ⟨⟨fds, pool⟩, _, fdTable, rfl, _⟩
  exact {
    headerFits := headerFits
    header := rfl
    headerAccepted := ⟨⟨magic, version, vmaCount, kernelMaps, pathNonempty, pathShort, xstateGe,
      xstateLt⟩, xstateFits, tableFits, dataOffset⟩
    vmaTable := ⟨raw, readAt_healthy table, rfl⟩
    vmas := vmas
    xstate := readAt_healthy xstateRead
    fdTable := fdTableAccepted_of_yields fdTable }

theorem readOutcome_of_accepted {file : RegularFile} {snapshot : Snapshot}
    (accepted : Accepted file snapshot) : readOutcome .none file = .ok snapshot := by
  have header := accepted.headerAccepted
  rcases accepted.vmaTable with ⟨raw, table, vmas⟩
  obtain ⟨final, fdTable⟩ := yields_of_fdTableAccepted accepted.fdTable
    ([] ++ [(snapshot.header.vmaCount.toUInt64 * 48).toNat] ++
      [snapshot.header.xstateSize.toNat])
  have vmasAccepted := accepted.vmas
  have xstate := accepted.xstate
  rw [vmas] at vmasAccepted
  have result : snapshot = {
      header := snapshot.header
      vmas := vmaCodec.decodeAll snapshot.header.vmaCount.toNat raw
      xstate := snapshot.xstate
      fds := snapshot.fds
      pool := snapshot.pool } := by
    rw [← vmas]
  rw [accepted.header] at table xstate fdTable vmasAccepted result
  refine outcome_eq_ok_iff.mpr ⟨final, ?_⟩
  simp only [readSnapshotMetadata, yields_check_bind, yields_allocate_bind,
    yields_forM_bind yields_checkVma, readSection, yields_orElse_bind, Bool.and_eq_true,
    decide_eq_true_eq]
  refine ⟨⟨rfl, accepted.headerFits⟩, header.magic, header.version, header.vmaCount,
    header.kernelMapCount, ⟨header.exePathLen_ne, header.exePathLen_lt⟩, rfl,
    ⟨header.xstateSize_ge, header.xstateSize_lt⟩, header.xstateFits,
    ⟨header.vmaTableFits, header.dataOffset⟩, rfl, raw, table, vmasAccepted, rfl,
    snapshot.xstate, xstate, ?_⟩
  simp only [yields_bind, yields_pure]
  exact ⟨(snapshot.fds, snapshot.pool), _, fdTable, result, rfl⟩

end Ksnap
