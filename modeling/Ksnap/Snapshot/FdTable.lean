import Ksnap.Snapshot.RoundTrip
import Ksnap.Snapshot.SectionBounds

/-!
# Which fd tables are read

What `read_fd_table` checks, without its arithmetic: every sum is taken in plain numbers,
and a search for an entry is a search for its number. The checks of one entry hold each
other up. The prefix that is searched is sorted by then, nothing is subtracted from the
size of the pool but an offset inside it, and the terminator is looked at once it is known
to be in the pool.
-/

namespace Ksnap

open Foundation Foundation.Logged

/-- What an entry has to be, after those before it. -/
structure EntrySound (poolSize : ℕ) (pool : Bytes) (before : List FdDescriptor)
    (entry : FdDescriptor) : Prop where
  aboveStdio : 2 < entry.fd
  ascending : ∀ last, before.getLast? = some last → last.fd < entry.fd
  dupOf : entry.dupOf = -1 ∨ ∃ other ∈ before, other.fd = entry.dupOf
  flags : entry.flags &&& fdForbiddenFlags = 0
  nonempty : 0 < entry.pathLen.toNat
  short : entry.pathLen.toNat < pathMax
  inside : entry.pathOffset.toNat + entry.pathLen.toNat < poolSize
  terminated : pool[entry.pathOffset.toNat + entry.pathLen.toNat]? = some 0
  unbroken : 0 ∉ slice pool entry.pathOffset.toNat entry.pathLen.toNat

/-- The fd table and the pool as the file stores them. -/
def storedFds (file : RegularFile) (header : DumpHeader) : List FdDescriptor :=
  fdCodec.decodeAll header.fdCount.toNat
    (slice file.bytes header.fdTableOffset.toNat (header.fdCount.toNat * 32))

def storedPool (file : RegularFile) (header : DumpHeader) : Bytes :=
  slice file.bytes header.pathPoolOffset.toNat header.pathPoolSize.toNat

/-- What the fd table of a file has to be. -/
structure FdTableSound (file : RegularFile) (header : DumpHeader) : Prop where
  tableInside : header.fdTableOffset.toNat + 32 * header.fdCount.toNat ≤ file.bytes.length
  poolInside : header.pathPoolOffset.toNat + header.pathPoolSize.toNat ≤ file.bytes.length
  poolNonempty : 0 < header.pathPoolSize.toNat
  entries : EachAfter (EntrySound header.pathPoolSize.toNat (storedPool file header))
    (storedFds file header)

/-! ## Arithmetic that does not wrap -/

theorem fitsInFile_iff {offset size fileSize : UInt64} :
    fitsInFile offset size fileSize = true ↔ offset.toNat + size.toNat ≤ fileSize.toNat := by
  simp only [fitsInFile, Bool.and_eq_true, decide_eq_true_eq, UInt64.le_iff_toNat_le]
  constructor
  · rintro ⟨size, offset⟩
    rw [UInt64.toNat_sub_of_le _ _ (UInt64.le_iff_toNat_le.mpr size)] at offset
    omega
  · intro fits
    have size : size.toNat ≤ fileSize.toNat := by omega
    refine ⟨size, ?_⟩
    rw [UInt64.toNat_sub_of_le _ _ (UInt64.le_iff_toNat_le.mpr size)]
    omega

/-- The two comparisons with the size of the pool. -/
theorem pathInside_iff {poolSize : UInt64} {offset length : UInt32} :
    (offset.toUInt64 < poolSize ∧ length.toUInt64 < poolSize - offset.toUInt64) ↔
      offset.toNat + length.toNat < poolSize.toNat := by
  simp only [UInt64.lt_iff_toNat_lt, UInt32.toNat_toUInt64]
  constructor
  · rintro ⟨offsetInside, lengthInside⟩
    have le : offset.toUInt64 ≤ poolSize := by
      rw [UInt64.le_iff_toNat_le, UInt32.toNat_toUInt64]
      exact offsetInside.le
    rw [UInt64.toNat_sub_of_le _ _ le, UInt32.toNat_toUInt64] at lengthInside
    omega
  · intro inside
    have le : offset.toUInt64 ≤ poolSize := by
      rw [UInt64.le_iff_toNat_le, UInt32.toNat_toUInt64]
      omega
    rw [UInt64.toNat_sub_of_le _ _ le, UInt32.toNat_toUInt64]
    omega

/-! ## Entries -/

theorem ascending_concat {before : List FdDescriptor} {entry : FdDescriptor}
    (ascending : before.Pairwise fun left right => left.fd < right.fd)
    (last : ∀ last, before.getLast? = some last → last.fd < entry.fd) :
    (before ++ [entry]).Pairwise fun left right => left.fd < right.fd := by
  rw [List.pairwise_append]
  refine ⟨ascending, List.pairwise_singleton _ _, ?_⟩
  intro other mem new isNew
  cases List.mem_singleton.mp isNew
  rcases List.eq_nil_or_concat before with rfl | ⟨init, final, rfl⟩
  · cases mem
  · have below := last final (by simp)
    rw [List.concat_eq_append] at mem ascending
    rcases List.mem_append.mp mem with earlier | isFinal
    · exact Int32.lt_trans
        ((List.pairwise_append.mp ascending).2.2 other earlier final List.mem_cons_self) below
    · cases List.mem_singleton.mp isFinal
      exact below

/-- After entries in ascending order the checks are exactly what an entry has to be. -/
theorem entryAccepted_iff {header : DumpHeader} {pool : Bytes} {before : List FdDescriptor}
    {entry : FdDescriptor} (ascending : before.Pairwise fun left right => left.fd < right.fd) :
    EntryAccepted header pool before entry ↔
      EntrySound header.pathPoolSize.toNat pool before entry := by
  have search : (bsearch (compareFdNumber entry.dupOf) before).isSome ↔
      ∃ other ∈ before, other.fd = entry.dupOf := by
    rw [bsearch_isSome_iff (sortedFor_of_ascending _ ascending)]
    simp only [compareFdNumber_eq_iff]
  have nonempty : entry.pathLen ≠ 0 ↔ 0 < entry.pathLen.toNat := by
    rw [Nat.pos_iff_ne_zero, ne_eq, ← UInt32.toNat_inj]
    rfl
  constructor
  · intro accepted
    exact ⟨accepted.aboveStdio, accepted.ascending, accepted.dupOf.imp_right search.mp,
      accepted.flags, nonempty.mp accepted.nonempty, accepted.short,
      pathInside_iff.mp ⟨accepted.offsetInside, accepted.pathInside⟩, accepted.terminated,
      accepted.unbroken⟩
  · intro sound
    rcases pathInside_iff.mpr sound.inside with ⟨offsetInside, pathInside⟩
    exact ⟨sound.aboveStdio, sound.ascending, sound.dupOf.imp_right search.mpr, sound.flags,
      nonempty.mpr sound.nonempty, sound.short, offsetInside, pathInside, sound.terminated,
      sound.unbroken⟩

theorem entriesAccepted_iff {header : DumpHeader} {pool : Bytes}
    {before entries : List FdDescriptor}
    (ascending : before.Pairwise fun left right => left.fd < right.fd) :
    EntriesAccepted header pool before entries ↔
      EachAfter (fun first entry =>
        EntrySound header.pathPoolSize.toNat pool (before ++ first) entry) entries := by
  induction entries generalizing before with
  | nil => exact iff_of_true trivial eachAfter_nil
  | cons entry entries ih =>
      rw [EntriesAccepted, entryAccepted_iff ascending]
      constructor
      · rintro ⟨here, later⟩
        rw [ih (ascending_concat ascending here.ascending)] at later
        rintro (_ | ⟨head, first⟩) other last split
        · cases split
          simpa using here
        · cases split
          simpa using later first other last rfl
      · intro each
        have here : EntrySound header.pathPoolSize.toNat pool before entry := by
          simpa using each [] entry entries rfl
        refine ⟨here, ?_⟩
        rw [ih (ascending_concat ascending here.ascending)]
        intro first other last split
        simpa using each (entry :: first) other last (congrArg (entry :: ·) split)

/-! ## The table -/

/-- What is read of a file with descriptors, in plain numbers. -/
theorem fdTableRead_iff {file : RegularFile} {header : DumpHeader} :
    (∃ fds pool, FdTableRead file header fds pool) ↔ FdTableSound file header := by
  have size := file.size_lt
  have sizeNat := file.size_toNat
  have tableSize := fdTableSize_toNat header
  have positive : header.pathPoolSize ≠ 0 ↔ 0 < header.pathPoolSize.toNat := by
    rw [Nat.pos_iff_ne_zero, ne_eq, ← UInt64.toNat_inj]
    rfl
  constructor
  · rintro ⟨fds, pool, read⟩
    rcases read.table with ⟨raw, readTable, rfl⟩
    rcases readAt_eq_some_iff.mp readTable with ⟨_, _, tableInside, rfl⟩
    rcases readAt_eq_some_iff.mp read.poolRead with ⟨_, _, poolInside, rfl⟩
    refine ⟨by omega, poolInside, positive.mp read.poolNonempty, ?_⟩
    exact (entriesAccepted_iff List.Pairwise.nil).mp read.entries
  · intro sound
    have tableInside := sound.tableInside
    have poolInside := sound.poolInside
    refine ⟨storedFds file header, storedPool file header, ?_, ?_, positive.mpr sound.poolNonempty,
      ⟨_, ?_, rfl⟩, ?_, ?_⟩
    · rw [fitsInFile_iff]
      omega
    · rw [fitsInFile_iff]
      omega
    · rw [readAt_eq_some_iff]
      exact ⟨rfl, by omega, by omega, rfl⟩
    · rw [readAt_eq_some_iff]
      exact ⟨rfl, by omega, poolInside, rfl⟩
    · exact (entriesAccepted_iff List.Pairwise.nil).mpr sound.entries

/-! ## Reads of the pool -/

/-- The error with which the model ends at a read outside of the pool. -/
def InBounds (error : ReadError) : Prop := error ≠ .outOfBounds

theorem keeps_refusal {condition : Bool} {error : ReadError} (inBounds : InBounds error) :
    Keeps (fun _ : ℕ => True) InBounds (check condition error) fun _ => condition = true :=
  keeps_check fun _ => inBounds

/-- An entry whose path is in the pool is checked inside the pool. -/
theorem keeps_checkPath {pool : Bytes} {entry : FdDescriptor}
    (inside : entry.pathOffset.toNat + entry.pathLen.toNat < pool.length) :
    Keeps (fun _ => True) InBounds (checkPath pool entry) fun _ => True := by
  rw [checkPath, List.getElem?_eq_getElem inside]
  exact (keeps_refusal (by simp [InBounds])).mono fun _ _ => trivial

theorem keeps_checkFdEntry {header : DumpHeader} {pool : Bytes}
    (poolSize : pool.length = header.pathPoolSize.toNat) (before : List FdDescriptor)
    (entry : FdDescriptor) :
    Keeps (fun _ => True) InBounds (checkFdEntry header pool before entry) fun _ => True := by
  rw [checkFdEntry]
  refine (keeps_refusal (by simp [InBounds])).bind fun _ _ => ?_
  refine (keeps_refusal (by simp [InBounds])).bind fun _ _ => ?_
  refine (keeps_refusal (by simp [InBounds])).bind fun _ _ => ?_
  refine (keeps_refusal (by simp [InBounds])).bind fun _ _ => ?_
  refine (keeps_refusal (by simp [InBounds])).bind fun _ inPool => keeps_checkPath ?_
  simp only [Bool.and_eq_true, decide_eq_true_eq] at inPool
  rw [poolSize]
  exact pathInside_iff.mp ⟨inPool.1.2, inPool.2⟩

theorem keeps_checkFdEntries {header : DumpHeader} {pool : Bytes}
    (poolSize : pool.length = header.pathPoolSize.toNat) (before entries : List FdDescriptor) :
    Keeps (fun _ => True) InBounds (checkFdEntries header pool before entries) fun _ => True := by
  induction entries generalizing before with
  | nil => exact keeps_pure trivial
  | cons entry entries ih =>
      exact (keeps_checkFdEntry poolSize before entry).bind fun _ _ => ih (before ++ [entry])

theorem length_of_readAt {file : RegularFile} {offset : UInt64} {count : ℕ} {fails : Bool}
    {raw : Bytes} (read : readAt file offset count fails = some raw) : raw.length = count := by
  rcases readAt_eq_some_iff.mp read with ⟨_, _, inside, rfl⟩
  rw [length_slice]
  omega

theorem keeps_readFdTable (faults : ReaderFaults) (file : RegularFile) (header : DumpHeader) :
    Keeps (fun _ => True) InBounds (readFdTable faults file header) fun _ => True := by
  have reads : ∀ {offset : UInt64} {count : ℕ} {part : Section},
      Keeps (fun _ => True) InBounds (readSection file offset count part faults)
        fun raw => raw.length = count := by
    intro offset count part
    exact (keeps_orElse fun _ => by simp [InBounds]).mono fun raw read => length_of_readAt read
  rw [readFdTable]
  split
  · exact keeps_pure trivial
  · refine (keeps_refusal (by simp [InBounds])).bind fun _ _ => ?_
    refine (keeps_refusal (by simp [InBounds])).bind fun _ _ => ?_
    refine (keeps_record trivial).bind fun _ _ => ?_
    refine (keeps_record trivial).bind fun _ _ => ?_
    refine (keeps_refusal (by simp [InBounds])).bind fun _ _ => ?_
    refine reads.bind fun table _ => ?_
    refine reads.bind fun pool poolSize => ?_
    exact (keeps_checkFdEntries poolSize _ _).bind fun _ _ => keeps_pure trivial

/-- Where memory and disk do not fail, the tables that are read are the sound ones, and
whatever happens no byte outside of the pool is looked at. -/
theorem fdTable_read_iff (file : RegularFile) {header : DumpHeader} (some_ : header.fdCount ≠ 0) :
    ((∃ table, (readFdTable .none file header).outcome = .ok table) ↔ FdTableSound file header) ∧
      ∀ faults, (readFdTable faults file header).outcome ≠ .error .outOfBounds := by
  refine ⟨?_, fun faults fails => (keeps_readFdTable faults file header).outcome fails rfl⟩
  rw [← fdTableRead_iff]
  constructor
  · rintro ⟨⟨fds, pool⟩, passes⟩
    rcases outcome_eq_ok_iff.mp passes with ⟨final, yields⟩
    rcases fdTableAccepted_of_yields yields with ⟨none_, _⟩ | ⟨_, read⟩
    · exact absurd none_ some_
    · exact ⟨fds, pool, read⟩
  · rintro ⟨fds, pool, read⟩
    rcases yields_of_fdTableAccepted (.inr ⟨some_, read⟩) [] with ⟨final, yields⟩
    exact ⟨(fds, pool), outcome_eq_ok_iff.mpr ⟨final, yields⟩⟩

/-- Descriptor 3 on `/f` and descriptor 5 that shares its file, with the pool behind them. -/
def sharedFdFile : RegularFile where
  bytes := fdCodec.encode ⟨3, -1, 0, 0, 2, 0, 5⟩ ++ fdCodec.encode ⟨5, 3, 0, 0, 2, 0, 5⟩ ++
    ascii "/f" ++ [0]
  size_lt := by simp [fdCodec.length_encode, ascii]

def sharedFdHeader : DumpHeader :=
  { (smallestParts 1).header with
    fdCount := 2
    fdTableOffset := 0
    pathPoolOffset := 64
    pathPoolSize := 3 }

theorem fdTable_read_shared : FdTableSound sharedFdFile sharedFdHeader :=
  (fdTable_read_iff sharedFdFile (by decide)).1.mp ⟨_, rfl⟩

end Ksnap
