import Ksnap.Engine.Dump
import Ksnap.Snapshot.CollectedFds
import Ksnap.Snapshot.Written

/-!
# From the collectors to the reader

None of the reader's refusals can be reached by a file that was written for parts
the collectors handed over: the counts and the sizes fit, the descriptors ascend,
the mark of a copy names an entry before it, and every path ends where its length
says. What is read back is what was collected.
-/

namespace Ksnap

open Foundation

/-- The parts that the collectors can hand over for a target with this maps file and these
descriptors. -/
structure Collected (maps : Option MapsFile) (files : FdFiles) (parts : SnapshotParts) :
    Prop where
  xstate : ∃ area, checkXstate area = some parts.xstate
  exePath : ∃ link, checkExePath link = some parts.exePath
  tables : ∃ memory vmaTable fdTable,
    collectVmas maps memory .empty = some vmaTable ∧
      collectFds files memory vmaTable.pool = some fdTable ∧
        parts.vmas = vmaTable.vmas ∧ parts.kernelMaps = vmaTable.kernelMaps ∧
          parts.fds = fdTable.fds ∧ parts.pool = fdTable.pool.data

/-- The numbers in the folder are distinct. -/
def FdFiles.NumbersDistinct (files : FdFiles) : Prop :=
  ∀ names, files.directory = some names → (fdNumbers names).Nodup

/-- What the kernel is relied on to say about descriptors: the numbers in the folder are
distinct, the text of a link is a string that is not empty, and the flags of an open file
hold none that would create one. -/
structure FdFiles.Honest (files : FdFiles) : Prop where
  distinct : files.NumbersDistinct
  linkText : ∀ fd link, files.readlink fd = some link → link ≠ [] ∧ 0 ∉ link
  flags : ∀ fd position flags, readFdState files fd = some (position, flags) →
    flags &&& fdForbiddenFlags = 0

variable {maps : Option MapsFile} {files : FdFiles} {parts : SnapshotParts}

/-! ## The parts are sound -/

theorem checkXstate_eq_some_iff {area xstate : Bytes} :
    checkXstate area = some xstate ↔ xstate = area ∧
      xstateMinSize.toNat ≤ area.length ∧ area.length < xstateMaxSize.toNat := by
  simp only [checkXstate]
  split
  · rename_i outside
    simp only [Bool.or_eq_true, decide_eq_true_eq] at outside
    simp
    omega
  · rename_i inside
    simp only [Bool.or_eq_true, decide_eq_true_eq, not_or, not_lt, not_le] at inside
    simp [inside, eq_comm]

theorem length_checkExePath {link path : Bytes} (checked : checkExePath link = some path) :
    path ≠ [] ∧ path.length < pathMax := by
  simp only [checkExePath] at checked
  split at checked
  · cases checked
  · rename_i nonempty
    cases checked
    have cut := List.length_take_le (pathMax - 1) link
    refine ⟨fun empty => nonempty (by rw [empty]; rfl), ?_⟩
    simp only [pathMax] at cut ⊢
    omega

/-- A mapping of a line is not empty and does not wrap around. -/
theorem toNat_size_ofLine {parsed : MapsLine} (wellFormed : parsed.WellFormed)
    (pathOffset : UInt32) : 0 < (VmaDescriptor.ofLine parsed pathOffset).size.toNat ∧
      parsed.start.toNat + (VmaDescriptor.ofLine parsed pathOffset).size.toNat =
        parsed.stop.toNat := by
  have nonempty := UInt64.lt_iff_toNat_lt.mp wellFormed.nonempty
  have size := UInt64.toNat_sub_of_le parsed.stop parsed.start
    (UInt64.le_iff_toNat_le.mpr nonempty.le)
  simp only [VmaDescriptor.ofLine]
  omega

theorem Collected.sound (collected : Collected maps files parts) : parts.Sound := by
  rcases collected.xstate with ⟨area, checkedXstate⟩
  rcases checkXstate_eq_some_iff.mp checkedXstate with ⟨same, ge, lt⟩
  rcases collected.exePath with ⟨link, checkedPath⟩
  obtain ⟨memory, vmaTable, fdTable, collectsVmas, collectsFds, vmas, kernelMaps, fds, pool⟩ :=
    collected.tables
  rcases vmasCollected_of_collectVmas collectsVmas with ⟨file, _, _, nonempty, vmasCollected⟩
  rcases fdTableCollected_of_collectFds collectsFds with ⟨names, _, fdsCollected⟩
  have described : ∀ vma ∈ parts.vmas, ∃ parsed, parsed.WellFormed ∧
      vma = .ofLine parsed vma.pathOffset := by
    intro vma mem
    rw [vmas] at mem
    rcases vmasCollected.exists_line mem with ⟨parsed, parsedMem, described⟩
    exact ⟨parsed, wellFormed_of_mem_linesOf parsedMem, described.1⟩
  exact {
    vmas_ne_nil := vmas ▸ nonempty
    vmas_lt := by
      have capacity := vmaTable.capacity.toNat_lt
      have le := vmasCollected.count_le
      rw [vmas]
      omega
    vma_nonempty := by
      intro vma mem
      rcases described vma mem with ⟨parsed, wellFormed, same⟩
      have positive := (toNat_size_ofLine wellFormed vma.pathOffset).1
      rw [← same] at positive
      intro empty
      rw [empty] at positive
      exact absurd positive (lt_irrefl 0)
    vma_inside := by
      intro vma mem
      rcases described vma mem with ⟨parsed, wellFormed, same⟩
      have ends := (toNat_size_ofLine wellFormed vma.pathOffset).2
      rw [← same] at ends
      have start : vma.startAddress = parsed.start := by rw [same]; rfl
      rw [start, ends]
      exact parsed.stop.toNat_lt
    vma_prot := by
      intro vma mem
      rcases described vma mem with ⟨parsed, _, same⟩
      rw [same]
      exact permsToProt_known parsed.privileges
    fds_lt := fds ▸ fdsCollected.count_lt
    pool_lt := pool ▸ fdTable.pool.addressable
    kernelMaps_le := kernelMaps ▸ vmasCollected.kernelMaps_le
    exePath_ne_nil := (length_checkExePath checkedPath).1
    exePath_lt := (length_checkExePath checkedPath).2
    xstate_ge := same ▸ ge
    xstate_lt := same ▸ lt }

/-! ## The descriptors pass -/

/-- The path of a descriptor that is dumped is the text of its link, which is not empty. -/
theorem path_ne_nil_of_dump {fd : Int32} (honest : files.Honest)
    (class_ : (classifyFd files fd).1 = .dump) : (classifyFd files fd).2 ≠ [] := by
  unfold classifyFd at class_ ⊢
  split
  · rename_i low
    simp [low] at class_
  · rename_i high
    split
    · rename_i fails
      simp [high, fails] at class_
    · rename_i link reads
      rcases honest.linkText fd link reads with ⟨nonempty, nulFree⟩
      have nulFreeCut : 0 ∉ link.take (pathMax - 1) :=
        fun mem => nulFree (List.mem_of_mem_take mem)
      simp only [cString_of_notMem nulFreeCut]
      intro empty
      rcases List.take_eq_nil_iff.mp empty with zero | none_
      · cases zero
      · exact nonempty none_

theorem strictlyAscending {table : FdTable} {names : List Bytes} {start : PathPool}
    (numbersDistinct : files.NumbersDistinct) (opened : files.directory = some names)
    (collected : FdTableCollected files start names table) :
    table.fds.Pairwise fun left right => left.fd < right.fd := by
  have distinct : (table.fds.map (·.fd)).Nodup :=
    collected.numbers.nodup_iff.mpr ((numbersDistinct names opened).filter _)
  have different := List.pairwise_map.mp distinct
  refine (collected.ascending.and different).imp ?_
  rintro left right ⟨le, ne⟩
  exact Int32.lt_of_le_of_ne le ne

/-- A table in ascending order can be searched. -/
theorem sortedFor_of_ascending {fds : List FdDescriptor} (key : Int32)
    (ascending : fds.Pairwise fun left right => left.fd < right.fd) :
    SortedFor (compareFdNumber key) fds := by
  refine ascending.imp ?_
  intro left right below
  simp only [compareFdNumber]
  constructor
  · intro before
    have keyBelow : key < left.fd := by
      by_contra notBelow
      rw [if_neg notBelow] at before
      split at before <;> cases before
    have keyBelowRight := Int32.lt_trans keyBelow below
    simp [keyBelowRight, Int32.lt_asymm keyBelowRight]
  · intro after
    have keyAbove : right.fd < key := by
      by_contra notAbove
      rw [if_neg notAbove] at after
      split at after <;> cases after
    simp [Int32.lt_trans below keyAbove]

theorem compareFdNumber_eq_iff {key : Int32} {entry : FdDescriptor} :
    compareFdNumber key entry = .eq ↔ entry.fd = key := by
  unfold compareFdNumber
  split
  · rename_i below
    simp [Int32.ne_of_lt below]
  · split
    · rename_i above
      simp [(Int32.ne_of_lt above).symm]
    · rename_i notBelow notAbove
      simp [Int32.le_antisymm (Int32.not_lt.mp notAbove) (Int32.not_lt.mp notBelow)]

theorem entryAccepted_of_described {header : DumpHeader} {pool : Bytes}
    {before : List FdDescriptor} {entry : FdDescriptor} (honest : files.Honest)
    (poolSize : header.pathPoolSize.toNat = pool.length)
    (described : FdDescribed files pool entry)
    (ascending : (before ++ [entry]).Pairwise fun left right => left.fd < right.fd)
    (shared : FdShared files before entry) : EntryAccepted header pool before entry := by
  have pathLen := described.pathLen_toNat
  have length := classifyFd_path_length files entry.fd
  have nonempty := List.length_pos_of_ne_nil (path_ne_nil_of_dump honest described.class_)
  have inside := described.path.end_lt
  rcases List.pairwise_append.mp ascending with ⟨ascendingBefore, _, aboveBefore⟩
  exact {
    aboveStdio := described.aboveStdio
    ascending := fun last lastMem =>
      aboveBefore last (List.mem_of_getLast? lastMem) entry List.mem_cons_self
    dupOf := by
      rcases shared with own | ⟨other, mem, _, mark, _⟩
      · exact .inl own
      · refine .inr ((bsearch_isSome_iff (sortedFor_of_ascending _ ascendingBefore)).mpr ?_)
        exact ⟨other, mem, compareFdNumber_eq_iff.mpr mark.symm⟩
    flags := honest.flags _ _ _ described.state
    nonempty := by
      intro zero
      rw [zero] at pathLen
      exact absurd pathLen nonempty.ne
    short := pathLen ▸ length
    offsetInside := by
      rw [UInt64.lt_iff_toNat_lt, UInt32.toNat_toUInt64]
      omega
    pathInside := by
      have le : entry.pathOffset.toUInt64 ≤ header.pathPoolSize := by
        rw [UInt64.le_iff_toNat_le, UInt32.toNat_toUInt64]
        omega
      rw [UInt64.lt_iff_toNat_lt, UInt64.toNat_sub_of_le _ _ le, UInt32.toNat_toUInt64,
        UInt32.toNat_toUInt64]
      omega
    terminated := by
      rw [pathLen]
      exact described.path.terminator
    unbroken := by
      rw [pathLen, described.path.slice_eq]
      exact classifyFd_path_nulFree files entry.fd }

theorem entriesAccepted_of_eachAfter {header : DumpHeader} {pool : Bytes}
    {entries : List FdDescriptor} (before : List FdDescriptor)
    (each : ∀ first entry last, entries = first ++ entry :: last →
      EntryAccepted header pool (before ++ first) entry) :
    EntriesAccepted header pool before entries := by
  induction entries generalizing before with
  | nil => trivial
  | cons entry entries ih =>
      refine ⟨by simpa using each [] entry entries rfl, ih (before ++ [entry]) ?_⟩
      intro first later last split
      simpa using each (entry :: first) later last (by rw [split]; rfl)

theorem Collected.entriesAccepted (collected : Collected maps files parts)
    (honest : files.Honest) : EntriesAccepted parts.header parts.pool [] parts.fds := by
  rcases collected.tables with ⟨_, _, fdTable, _, collectsFds, _, _, fds, pool⟩
  rcases fdTableCollected_of_collectFds collectsFds with ⟨names, opened, fdsCollected⟩
  have ascending := strictlyAscending honest.distinct opened fdsCollected
  have poolSize := (laidOut_of_parts collected.sound).pathPoolSize
  refine entriesAccepted_of_eachAfter [] ?_
  intro before entry after split
  rw [pool] at poolSize ⊢
  rw [fds] at split
  rw [split] at ascending
  rw [List.nil_append]
  refine entryAccepted_of_described honest poolSize
    (fdsCollected.described entry (by simp [split])) ?_
    (fdsCollected.shared before entry after split)
  have first : (before ++ [entry]) ++ after = before ++ entry :: after := by simp
  rw [← first] at ascending
  exact (List.pairwise_append.mp ascending).1

/-- A snapshot with a descriptor has its path in the pool. -/
theorem Collected.pool_ne_nil (collected : Collected maps files parts) (some_ : parts.fds ≠ []) :
    parts.pool ≠ [] := by
  rcases collected.tables with ⟨_, _, fdTable, _, collectsFds, _, _, fds, pool⟩
  rcases fdTableCollected_of_collectFds collectsFds with ⟨_, _, fdsCollected⟩
  rcases List.exists_mem_of_ne_nil _ some_ with ⟨entry, mem⟩
  have inside := (fdsCollected.described entry (fds ▸ mem)).path.end_lt
  rw [pool]
  intro empty
  rw [empty] at inside
  exact absurd inside (by simp)

/-! ## Reading the file back -/

/-- What was read is what was collected, with the offsets of the payloads assigned. -/
structure SameData (parts : SnapshotParts) (snapshot : Snapshot) : Prop where
  regs : snapshot.header.regs = parts.regs
  kernelMaps : snapshot.header.kernelMaps.toList.take snapshot.header.kernelMapCount.toNat =
    parts.kernelMaps
  exePath : snapshot.header.exePath.toList.take snapshot.header.exePathLen.toNat = parts.exePath
  xstate : snapshot.xstate = parts.xstate
  vmas : snapshot.vmas = parts.vmaTable
  fds : snapshot.fds = parts.fds
  pool : parts.fds ≠ [] → snapshot.pool = parts.pool

/-- The snapshot that is read from a file written for the parts. -/
def SnapshotParts.snapshot (parts : SnapshotParts) : Snapshot :=
  laidOutSnapshot parts.header parts.vmaTable parts.fds parts.pool parts.xstate

theorem SnapshotParts.Sound.sameData (sound : parts.Sound) : SameData parts parts.snapshot where
  regs := rfl
  kernelMaps := by
    have le := sound.kernelMaps_le
    have count : (UInt32.ofNat parts.kernelMaps.length).toNat = parts.kernelMaps.length := by
      rw [UInt32.toNat_ofNat']
      exact Nat.mod_eq_of_lt (by simp only [maxKernelMaps] at le; omega)
    change (copyOver _ _ parts.kernelMaps).toList.take (UInt32.ofNat _).toNat = _
    rw [count, copyOver_toList le, List.take_left']
    rfl
  exePath := by
    have lt := sound.exePath_lt
    have count : (UInt32.ofNat parts.exePath.length).toNat = parts.exePath.length := by
      rw [UInt32.toNat_ofNat']
      exact Nat.mod_eq_of_lt (by simp only [pathMax] at lt; omega)
    change (copyOver _ _ parts.exePath).toList.take (UInt32.ofNat _).toNat = _
    rw [count, copyOver_toList lt.le, List.take_left']
    rfl
  xstate := rfl
  vmas := rfl
  fds := rfl
  pool := fun some_ => if_neg some_

/-- A file that was written in full is accepted. -/
theorem Collected.readOutcome_eq {payload : Bytes} {file : RegularFile}
    (collected : Collected maps files parts) (honest : files.Honest)
    (whole : payload.length = payloadSize parts.vmas)
    (bytes : file.bytes = parts.fileBytes payload) :
    readOutcome .none file = .ok parts.snapshot := by
  have sound := collected.sound
  refine readOutcome_of_accepted (accepted_of_laidOut bytes (laidOut_of_parts sound)
    (headerSound_of_parts sound) (terminateExePath_header sound.exePath_lt) ?_ ?_)
  · intro vma mem
    exact vmaAccepted_of_parts sound whole bytes mem
  · intro some_
    exact ⟨collected.pool_ne_nil some_, collected.entriesAccepted honest⟩

end Ksnap
