import Ksnap.Snapshot.Collected

/-!
# Collected descriptors

What `collect_fds` hands over when it returns OK: one entry for each descriptor of
the class that is dumped, in ascending order, with its offset, its flags and its
path. An entry is marked as a copy of an earlier one only when kcmp said that both
share one open file, and kcmp was asked about every earlier entry that could.
-/

namespace Ksnap

open Foundation

/-- The numbers among the names of a folder. -/
def fdNumbers (names : List Bytes) : List Int32 :=
  (names.filter startsWithDigit).map atoi

/-- Those of the class that is dumped. -/
def dumpedFds (files : FdFiles) (names : List Bytes) : List Int32 :=
  (fdNumbers names).filter fun fd => (classifyFd files fd).1 = .dump

/-- What an entry says of its descriptor, apart from sharing. -/
structure FdDescribed (files : FdFiles) (pool : Bytes) (entry : FdDescriptor) : Prop where
  class_ : (classifyFd files entry.fd).1 = .dump
  state : readFdState files entry.fd = some (entry.position, entry.flags)
  path : PoolHolds pool entry.pathOffset (classifyFd files entry.fd).2
  pathLen : entry.pathLen = UInt32.ofNat (classifyFd files entry.fd).2.length

theorem FdDescribed.mono {files : FdFiles} {pool longer : Bytes} {entry : FdDescriptor}
    (described : FdDescribed files pool entry) (longerPool : pool <+: longer) :
    FdDescribed files longer entry :=
  { described with path := described.path.mono longerPool }

theorem FdDescribed.pathLen_toNat {files : FdFiles} {pool : Bytes} {entry : FdDescriptor}
    (described : FdDescribed files pool entry) :
    entry.pathLen.toNat = (classifyFd files entry.fd).2.length := by
  have short := classifyFd_path_length files entry.fd
  simp only [pathMax] at short
  rw [described.pathLen, UInt32.toNat_ofNat']
  exact Nat.mod_eq_of_lt (by omega)

/-- The variables of `collect_fds` after some names. -/
structure FdsCollected (files : FdFiles) (start : PathPool) (seen : List Bytes)
    (table : FdTable) : Prop where
  numbers : table.fds.map (·.fd) = dumpedFds files seen
  described : ∀ entry ∈ table.fds, FdDescribed files table.pool.data entry
  own : ∀ entry ∈ table.fds, entry.dupOf = -1
  capacity : TableCapacity table.capacity
  count_le : table.fds.length ≤ table.capacity.toNat
  pool : start.data <+: table.pool.data

theorem two_lt_of_mem_dumpedFds {files : FdFiles} {names : List Bytes} {fd : Int32}
    (mem : fd ∈ dumpedFds files names) : 2 < fd := by
  have class_ := (List.mem_filter.mp mem).2
  refine @two_lt_of_classifyFd files fd ?_
  intro stdio
  simp [stdio] at class_

theorem dumpedFds_append (files : FdFiles) (names more : List Bytes) :
    dumpedFds files (names ++ more) = dumpedFds files names ++ dumpedFds files more := by
  simp [dumpedFds, fdNumbers]

theorem dumpedFds_singleton (files : FdFiles) (name : Bytes) :
    dumpedFds files [name] =
      if startsWithDigit name ∧ (classifyFd files (atoi name)).1 = .dump then [atoi name]
      else [] := by
  cases digit : startsWithDigit name with
  | true => simp [dumpedFds, fdNumbers, digit, List.filter_cons]
  | false => simp [dumpedFds, fdNumbers, digit]

/-- What one name does to the variables of the loop, when it does not end it. -/
inductive FdEntryTaken (files : FdFiles) (memory : Allocations) (table after : FdTable)
    (name : Bytes) : Prop
  | skipped
      (notDump : ¬(startsWithDigit name ∧ (classifyFd files (atoi name)).1 = .dump))
      (same : after = table)
  | dump (digit : startsWithDigit name) {path : Bytes}
      (class_ : classifyFd files (atoi name) = (.dump, path)) {capacity : UInt32}
      (grows : growTable fdTableInitialCapacity table.capacity table.fds.length
        (memory.fdTable table.fds.length) = some capacity)
      {position : UInt64} {flags : UInt32}
      (state : readFdState files (atoi name) = some (position, flags))
      {pool : PathPool} {pathOffset : UInt32}
      (appends : poolAppend table.pool path (memory.fdPath table.fds.length) =
        some (pool, pathOffset))
      (added : after = {
        fds := table.fds ++ [⟨atoi name, -1, flags, pathOffset, UInt32.ofNat path.length, 0,
          position⟩]
        capacity := capacity
        pool := pool })

theorem collectFdEntry_taken {files : FdFiles} {memory : Allocations} {table after : FdTable}
    {name : Bytes} (step : collectFdEntry files memory table name = some after) :
    FdEntryTaken files memory table after name := by
  simp only [collectFdEntry] at step
  split at step
  · rename_i notDigit
    exact .skipped (fun both => by simp [both.1] at notDigit) (Option.some.inj step).symm
  · rename_i digit
    split at step
    · rename_i class_
      exact .skipped (by simp [class_]) (Option.some.inj step).symm
    · cases step
    · rename_i path class_
      simp only [Option.bind_eq_bind, Option.bind_eq_some_iff, Option.some.injEq] at step
      rcases step with ⟨capacity, grows, ⟨position, flags⟩, state, ⟨pool, pathOffset⟩, appends, rfl⟩
      exact .dump (by simpa using digit) class_ grows state appends rfl
    · rename_i notDump
      refine .skipped ?_ (Option.some.inj step).symm
      rintro ⟨_, class_⟩
      exact notDump (classifyFd files (atoi name)).2 (Prod.ext class_ rfl)

theorem FdsCollected.step {files : FdFiles} {memory : Allocations} {start : PathPool}
    {seen : List Bytes} {table after : FdTable} {name : Bytes}
    (collected : FdsCollected files start seen table)
    (step : collectFdEntry files memory table name = some after) :
    FdsCollected files start (seen ++ [name]) after := by
  have numbers := collected.numbers
  cases collectFdEntry_taken step with
  | skipped notDump same =>
      subst same
      exact { collected with
        numbers := by
          rw [dumpedFds_append, dumpedFds_singleton, if_neg notDump, List.append_nil, numbers] }
  | @dump digit path class_ capacity grows position flags state pool pathOffset appends added =>
      rcases growTable_spec ⟨4, rfl⟩ collected.capacity collected.count_le grows with ⟨power, room⟩
      rcases poolHolds_of_poolAppend appends with ⟨holds, longer⟩
      have path_eq : (classifyFd files (atoi name)).2 = path := by rw [class_]
      subst added
      exact {
        numbers := by
          rw [dumpedFds_append, dumpedFds_singleton, if_pos ⟨digit, by rw [class_]⟩]
          simp [numbers]
        described := by
          intro entry mem
          rcases List.mem_append.mp mem with before | new
          · exact (collected.described entry before).mono longer
          · rcases List.mem_singleton.mp new with rfl
            exact {
              class_ := by simp only [class_]
              state := state
              path := by simpa only [path_eq] using holds
              pathLen := by simp only [path_eq] }
        own := by
          intro entry mem
          rcases List.mem_append.mp mem with before | new
          · exact collected.own entry before
          · rcases List.mem_singleton.mp new with rfl
            rfl
        capacity := power
        count_le := by
          simp only [List.length_append, List.length_singleton]
          omega
        pool := collected.pool.trans longer }

/-! ## Sorting -/

theorem sortFds_perm (fds : List FdDescriptor) : (sortFds fds).Perm fds :=
  List.mergeSort_perm _ _

theorem sortFds_pairwise (fds : List FdDescriptor) :
    (sortFds fds).Pairwise fun left right => left.fd ≤ right.fd := by
  have trans : ∀ first second third : FdDescriptor, decide (first.fd ≤ second.fd) = true →
      decide (second.fd ≤ third.fd) = true → decide (first.fd ≤ third.fd) = true := by
    intro first second third le le'
    simp only [decide_eq_true_eq] at le le' ⊢
    exact Int32.le_trans le le'
  have total : ∀ first second : FdDescriptor,
      (decide (first.fd ≤ second.fd) || decide (second.fd ≤ first.fd)) = true := by
    intro first second
    simp only [Bool.or_eq_true, decide_eq_true_eq]
    exact Int32.le_total first.fd second.fd
  simpa [sortFds] using List.pairwise_mergeSort trans total fds

/-! ## Sharing -/

/-- The entry has an open file of its own, or it shares the one of an earlier entry that
has. -/
def FdShared (files : FdFiles) (before : List FdDescriptor) (entry : FdDescriptor) : Prop :=
  entry.dupOf = -1 ∨ ∃ other ∈ before,
    other.dupOf = -1 ∧ entry.dupOf = other.fd ∧ files.kcmp other.fd entry.fd = some 0

/-- No earlier entry on the same path shares an open file with an entry that has its own. -/
def FdSeparate (files : FdFiles) (pool : Bytes) (before : List FdDescriptor)
    (entry : FdDescriptor) : Prop :=
  entry.dupOf = -1 → ∀ other ∈ before, other.dupOf = -1 →
    poolString pool entry.pathOffset = poolString pool other.pathOffset →
      files.kcmp other.fd entry.fd ≠ some 0

theorem findSharedFile_some {files : FdFiles} {pool : Bytes} {entry : FdDescriptor}
    {others : List FdDescriptor} {dupOf : Int32}
    (found : findSharedFile files pool entry others = some (some dupOf)) :
    ∃ other ∈ others, other.dupOf = -1 ∧ dupOf = other.fd ∧
      files.kcmp other.fd entry.fd = some 0 := by
  induction others with
  | nil => cases found
  | cons other others ih =>
      simp only [findSharedFile] at found
      split at found
      · rcases ih found with ⟨later, mem, shares⟩
        exact ⟨later, List.mem_cons_of_mem _ mem, shares⟩
      · rename_i candidate
        simp only [Bool.or_eq_true, decide_eq_true_eq, not_or, not_not] at candidate
        split at found
        · cases found
        · rename_i same
          cases found
          exact ⟨other, List.mem_cons_self, candidate.1, rfl, same⟩
        · rcases ih found with ⟨later, mem, shares⟩
          exact ⟨later, List.mem_cons_of_mem _ mem, shares⟩

theorem findSharedFile_none {files : FdFiles} {pool : Bytes} {entry : FdDescriptor}
    {others : List FdDescriptor} (nothing : findSharedFile files pool entry others = some none) :
    ∀ other ∈ others, other.dupOf = -1 →
      poolString pool entry.pathOffset = poolString pool other.pathOffset →
        files.kcmp other.fd entry.fd ≠ some 0 := by
  induction others with
  | nil => simp
  | cons other others ih =>
      simp only [findSharedFile] at nothing
      intro candidate mem own samePath
      rcases List.mem_cons.mp mem with rfl | later
      · rw [if_neg (by simp [own, samePath])] at nothing
        intro same
        rw [same] at nothing
        cases nothing
      · refine ih ?_ candidate later own samePath
        split at nothing
        · exact nothing
        · split at nothing
          · cases nothing
          · cases nothing
          · exact nothing

/-- The entry as it was collected. -/
def FdDescriptor.alone (entry : FdDescriptor) : FdDescriptor :=
  { entry with dupOf := -1 }

/-- Only the marks are new in the table. -/
theorem map_alone_findSharedFrom (files : FdFiles) (pool : Bytes)
    (settled entries : List FdDescriptor) :
    (findSharedFrom files pool settled entries).map (·.alone) =
      (settled ++ entries).map (·.alone) := by
  induction entries generalizing settled with
  | nil => simp [findSharedFrom]
  | cons entry entries ih =>
      simp only [findSharedFrom]
      split
      · rfl
      · rw [ih]
        simp
      · rw [ih]
        simp [FdDescriptor.alone]

theorem findSharedFrom_shared {files : FdFiles} {pool : Bytes}
    {settled entries : List FdDescriptor} (shared : EachAfter (FdShared files) settled)
    (own : ∀ entry ∈ entries, entry.dupOf = -1) :
    EachAfter (FdShared files) (findSharedFrom files pool settled entries) := by
  induction entries generalizing settled with
  | nil => exact shared
  | cons entry entries ih =>
      have ownLater : ∀ later ∈ entries, later.dupOf = -1 :=
        fun later mem => own later (List.mem_cons_of_mem _ mem)
      simp only [findSharedFrom]
      split
      · exact shared.append fun other mem before => .inl (own other mem)
      · exact ih (eachAfter_concat.mpr ⟨shared, .inl (own entry List.mem_cons_self)⟩) ownLater
      · rename_i found
        rcases findSharedFile_some found with ⟨other, mem, shares⟩
        exact ih (eachAfter_concat.mpr ⟨shared, .inr ⟨other, mem, shares⟩⟩) ownLater

theorem findSharedFile_ne_none {files : FdFiles} {entry : FdDescriptor}
    {others : List FdDescriptor}
    (compares : ∀ other ∈ others, (files.kcmp other.fd entry.fd).isSome) (pool : Bytes) :
    findSharedFile files pool entry others ≠ none := by
  induction others with
  | nil => simp [findSharedFile]
  | cons other others ih =>
      simp only [findSharedFile]
      have later := ih fun another mem => compares another (List.mem_cons_of_mem _ mem)
      split
      · exact later
      · have answers := compares other List.mem_cons_self
        split
        · rename_i fails
          rw [fails] at answers
          cases answers
        · simp
        · exact later

/-- With a kcmp that never fails on these numbers, no sharing is missed. -/
theorem findSharedFrom_separate {files : FdFiles} {pool : Bytes} {numbers : List Int32}
    (compares : ∀ first ∈ numbers, ∀ second ∈ numbers, (files.kcmp first second).isSome)
    (aboveStdio : ∀ fd ∈ numbers, 2 < fd) {settled entries : List FdDescriptor}
    (known : ∀ entry ∈ settled ++ entries, entry.fd ∈ numbers)
    (separate : EachAfter (FdSeparate files pool) settled) :
    EachAfter (FdSeparate files pool) (findSharedFrom files pool settled entries) := by
  induction entries generalizing settled with
  | nil => exact separate
  | cons entry entries ih =>
      have knownEntry : entry.fd ∈ numbers := known entry (by simp)
      have knownSettled : ∀ other ∈ settled, other.fd ∈ numbers :=
        fun other mem => known other (List.mem_append_left _ mem)
      have knownNext : ∀ marked : FdDescriptor, marked.fd = entry.fd →
          ∀ other ∈ (settled ++ [marked]) ++ entries, other.fd ∈ numbers := by
        intro marked same other mem
        simp only [List.append_assoc, List.singleton_append, List.mem_append, List.mem_cons] at mem
        rcases mem with before | rfl | after
        · exact knownSettled other before
        · rw [same]
          exact knownEntry
        · exact known other (by simp [after])
      have answers : ∀ other ∈ settled, (files.kcmp other.fd entry.fd).isSome :=
        fun other mem => compares _ (knownSettled other mem) _ knownEntry
      simp only [findSharedFrom]
      split
      · rename_i fails
        exact absurd fails (findSharedFile_ne_none answers pool)
      · rename_i nothing
        apply ih (knownNext entry rfl)
        exact eachAfter_concat.mpr ⟨separate, fun _ => findSharedFile_none nothing⟩
      · rename_i dupOf found
        rcases findSharedFile_some found with ⟨other, mem, _, mark, _⟩
        -- the mark is the number of a descriptor, which -1 is not
        refine ih (knownNext _ rfl) (eachAfter_concat.mpr ⟨separate, fun own => ?_⟩)
        have above := aboveStdio _ (knownSettled other mem)
        rw [← mark, show dupOf = -1 from own] at above
        exact absurd above (by decide)

/-! ## The whole table -/

/-- What `collect_fds` hands over. -/
structure FdTableCollected (files : FdFiles) (start : PathPool) (names : List Bytes)
    (table : FdTable) : Prop where
  numbers : (table.fds.map (·.fd)).Perm (dumpedFds files names)
  ascending : table.fds.Pairwise fun left right => left.fd ≤ right.fd
  described : ∀ entry ∈ table.fds, FdDescribed files table.pool.data entry
  shared : EachAfter (FdShared files) table.fds
  separate : (∀ first ∈ dumpedFds files names, ∀ second ∈ dumpedFds files names,
      (files.kcmp first second).isSome) →
    EachAfter (FdSeparate files table.pool.data) table.fds
  count_lt : table.fds.length < 2 ^ 32
  pool : start.data <+: table.pool.data

theorem FdDescribed.aboveStdio {files : FdFiles} {pool : Bytes} {entry : FdDescriptor}
    (described : FdDescribed files pool entry) : 2 < entry.fd := by
  have notStdio : (classifyFd files entry.fd).1 ≠ .skipStdio := by
    rw [described.class_]
    decide
  exact two_lt_of_classifyFd notStdio

/-- The entries before and after marking agree in everything but the mark. -/
theorem exists_alone_of_mem {marked fds : List FdDescriptor}
    (same : marked.map (·.alone) = fds.map (·.alone)) {entry : FdDescriptor}
    (mem : entry ∈ marked) : ∃ original ∈ fds, entry = { original with dupOf := entry.dupOf } := by
  have aloneMem : entry.alone ∈ fds.map (·.alone) := same ▸ List.mem_map_of_mem mem
  rcases List.mem_map.mp aloneMem with ⟨original, originalMem, equal⟩
  refine ⟨original, originalMem, ?_⟩
  calc entry = { entry.alone with dupOf := entry.dupOf } := rfl
    _ = { original with dupOf := entry.dupOf } := by rw [← equal]; rfl

theorem map_of_map_alone {marked fds : List FdDescriptor}
    (same : marked.map (·.alone) = fds.map (·.alone)) :
    marked.map (·.fd) = fds.map (·.fd) := by
  have numbers := congrArg (List.map (·.fd)) same
  simpa [FdDescriptor.alone, Function.comp_def] using numbers

theorem pairwise_of_map_alone {marked fds : List FdDescriptor}
    (same : marked.map (·.alone) = fds.map (·.alone))
    (ascending : fds.Pairwise fun left right => left.fd ≤ right.fd) :
    marked.Pairwise fun left right => left.fd ≤ right.fd := by
  have numbers : (fds.map (·.fd)).Pairwise (· ≤ ·) := List.pairwise_map.mpr ascending
  rw [← map_of_map_alone same] at numbers
  exact List.pairwise_map.mp numbers

theorem fdTableCollected_of_collectFds {files : FdFiles} {memory : Allocations}
    {start : PathPool} {table : FdTable} (collects : collectFds files memory start = some table) :
    ∃ names, files.directory = some names ∧ FdTableCollected files start names table := by
  simp only [collectFds, Option.bind_eq_bind, Option.bind_eq_some_iff, Option.some.injEq]
    at collects
  rcases collects with ⟨names, opened, ended, loop, rfl⟩
  have initially : FdsCollected files start [] ⟨[], 0, start⟩ := {
    numbers := rfl
    described := by simp
    own := by simp
    capacity := .inl rfl
    count_le := Nat.zero_le _
    pool := List.prefix_rfl }
  have collected := foldlM_invariant (FdsCollected files start)
    (fun _ _ _ _ before taken => before.step taken) initially loop
  obtain ⟨sorted, sorted_def⟩ : ∃ sorted,
      sorted = if 1 < ended.fds.length then sortFds ended.fds else ended.fds := ⟨_, rfl⟩
  have perm : sorted.Perm ended.fds := by
    rw [sorted_def]
    split
    · exact sortFds_perm ended.fds
    · exact List.Perm.refl _
  have ascending : sorted.Pairwise fun left right => left.fd ≤ right.fd := by
    rw [sorted_def]
    split
    · exact sortFds_pairwise ended.fds
    · rename_i few
      generalize ended.fds = fds at few
      rcases fds with _ | ⟨entry, _ | ⟨second, rest⟩⟩
      · exact .nil
      · exact List.pairwise_singleton _ _
      · simp at few
  rw [← sorted_def]
  have same := map_alone_findSharedFrom files ended.pool.data [] sorted
  rw [List.nil_append] at same
  have sortedDescribed : ∀ entry ∈ sorted, FdDescribed files ended.pool.data entry :=
    fun entry mem => collected.described entry (perm.subset mem)
  refine ⟨names, opened, {
    numbers := by
      simp only [findSharedFiles]
      rw [map_of_map_alone same, ← collected.numbers]
      exact perm.map _
    ascending := pairwise_of_map_alone same ascending
    described := by
      intro entry mem
      rcases exists_alone_of_mem same mem with ⟨original, originalMem, equal⟩
      have described := sortedDescribed original originalMem
      rw [equal]
      exact ⟨described.class_, described.state, described.path, described.pathLen⟩
    shared := findSharedFrom_shared eachAfter_nil fun entry mem =>
      collected.own entry (perm.subset mem)
    separate := by
      intro compares
      refine findSharedFrom_separate compares ?_ ?_ eachAfter_nil
      · intro fd mem
        exact two_lt_of_mem_dumpedFds mem
      · intro entry mem
        rw [← collected.numbers]
        exact List.mem_map_of_mem (perm.subset (by simpa using mem))
    count_lt := by
      have length := congrArg List.length same
      have capacity := ended.capacity.toNat_lt
      have le := collected.count_le
      simp only [List.length_map, perm.length_eq] at length
      simp only [findSharedFiles]
      omega
    pool := collected.pool }⟩

end Ksnap
