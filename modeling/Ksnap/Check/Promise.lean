import Ksnap.Check.Agreement

/-!
# What Check leaves out

A process that Check has no reason against passes through the collectors exactly when
a few more things hold, none of which Check looks at: every descriptor can be
classified, the state of every dumped one can be read, the names of the kernel
mappings fit, and the tables and the pool stay within 32 bits.
-/

namespace Ksnap

open Foundation

/-! ## The pool -/

/-- What a string takes in the pool, with its terminator. -/
def pooled (path : Bytes) : ℕ :=
  path.length + 1

/-- What the paths of the dumped mappings take. An empty one takes nothing. -/
def vmaPathBytes (lines : List Bytes) : ℕ :=
  ((linesOf .dump lines).map fun parsed => if parsed.path = [] then 0 else pooled parsed.path).sum

/-- What the paths of the dumped descriptors take. -/
def fdPathBytes (files : FdFiles) (names : List Bytes) : ℕ :=
  ((dumpedFds files names).map fun fd => pooled (classifyFd files fd).2).sum

theorem vmaPathBytes_append (lines more : List Bytes) :
    vmaPathBytes (lines ++ more) = vmaPathBytes lines + vmaPathBytes more := by
  simp [vmaPathBytes, linesOf_append]

theorem fdPathBytes_append (files : FdFiles) (names more : List Bytes) :
    fdPathBytes files (names ++ more) = fdPathBytes files names + fdPathBytes files more := by
  simp [fdPathBytes, dumpedFds_append]

theorem length_poolAppend {pool appended : PathPool} {path : Bytes} {reallocSucceeds : Bool}
    {offset : UInt32} (appends : poolAppend pool path reallocSucceeds = some (appended, offset)) :
    appended.data.length = pool.data.length + pooled path := by
  rw [(poolAppend_spec appends).1]
  simp [pooled]

/-! ## Collecting the mappings -/

/-- The variables of `collect_vmas`, with the size of the pool. -/
structure VmasPooled (seen : List Bytes) (table : VmaTable) : Prop
    extends VmasCollected .empty seen table where
  poolLength : table.pool.data.length = vmaPathBytes seen

theorem VmasPooled.initial : VmasPooled [] ⟨[], 0, [], .empty⟩ where
  vmas := .nil
  kernelMaps := .nil
  kernelMaps_le := Nat.zero_le _
  capacity := .inl rfl
  count_le := Nat.zero_le _
  pool := List.prefix_rfl
  poolLength := rfl

theorem VmasPooled.step {memory : Allocations} {seen : List Bytes} {table after : VmaTable}
    {mapsLine : Bytes} (pooledBefore : VmasPooled seen table)
    (step : collectVmaLine memory table mapsLine = some after) :
    VmasPooled (seen ++ [mapsLine]) after := by
  refine { pooledBefore.toVmasCollected.step step with poolLength := ?_ }
  rw [vmaPathBytes_append, ← pooledBefore.poolLength]
  cases collectVmaLine_taken step with
  | unparsable fails same =>
      subst same
      simp [vmaPathBytes, linesOf_unparsable fails]
  | skipped parses notDump notKernel same =>
      subst same
      simp [vmaPathBytes, linesOf_singleton parses, notDump]
  | kernel parses class_ record room added =>
      subst added
      simp [vmaPathBytes, linesOf_singleton parses, class_]
  | dump parses class_ grows path added =>
      subst added
      rcases path with ⟨nonempty, appends⟩ | ⟨empty, rfl⟩
      · rw [length_poolAppend appends]
        simp [vmaPathBytes, linesOf_singleton parses, class_, List.ne_nil_of_length_pos nonempty]
      · simp [vmaPathBytes, linesOf_singleton parses, class_, empty]

/-- The mappings fit into the tables and the pool. -/
structure VmasFit (lines : List Bytes) : Prop where
  kernelCount : (linesOf .kernel lines).length ≤ maxKernelMaps
  kernelNames : ∀ parsed ∈ linesOf .kernel lines, parsed.path.length < kernelMapNameLen
  vmaCount : (linesOf .dump lines).length ≤ 2 ^ 31
  pathBytes : vmaPathBytes lines < 2 ^ 32

theorem VmasFit.of_append {lines more : List Bytes} (fit : VmasFit (lines ++ more)) :
    VmasFit lines := by
  rcases fit with ⟨kernelCount, kernelNames, vmaCount, pathBytes⟩
  rw [linesOf_append, List.length_append] at kernelCount vmaCount
  rw [vmaPathBytes_append] at pathBytes
  refine ⟨by omega, ?_, by omega, by omega⟩
  intro parsed mem
  apply kernelNames parsed
  rw [linesOf_append]
  exact List.mem_append_left _ mem

/-- What was collected did fit. -/
theorem VmasPooled.fit {lines : List Bytes} {table : VmaTable}
    (pooledAll : VmasPooled lines table) : VmasFit lines where
  kernelCount := by
    rw [pooledAll.kernelMaps.length_eq]
    exact pooledAll.kernelMaps_le
  kernelNames := by
    intro parsed mem
    rcases List.getElem_of_mem mem with ⟨index, inside, rfl⟩
    have insideMaps : index < table.kernelMaps.length := pooledAll.kernelMaps.length_eq ▸ inside
    have record := pooledAll.kernelMaps.get inside insideMaps
    by_contra long
    simp only [List.get_eq_getElem, KernelMap.ofLine, dif_neg long] at record
    cases record
  vmaCount := by
    rw [pooledAll.vmas.length_eq]
    exact pooledAll.count_le.trans pooledAll.capacity.le
  pathBytes := by
    rw [← pooledAll.poolLength]
    exact table.pool.addressable

/-- A line of mappings that fit is taken, when memory can be had. -/
theorem exists_collectVmaLine {seen : List Bytes} {table : VmaTable} {mapsLine : Bytes}
    (pooledBefore : VmasPooled seen table) (fit : VmasFit (seen ++ [mapsLine])) :
    ∃ after, collectVmaLine .plenty table mapsLine = some after := by
  rcases fit with ⟨kernelCount, kernelNames, vmaCount, pathBytes⟩
  rw [vmaPathBytes_append, ← pooledBefore.poolLength] at pathBytes
  rw [linesOf_append, List.length_append] at kernelCount vmaCount
  unfold collectVmaLine
  split
  · exact ⟨table, rfl⟩
  · rename_i parsed parses
    rw [linesOf_singleton parses] at kernelCount vmaCount
    split
    · exact ⟨table, rfl⟩
    · exact ⟨table, rfl⟩
    · exact ⟨table, rfl⟩
    · rename_i class_
      rw [if_pos class_, List.length_singleton, pooledBefore.kernelMaps.length_eq] at kernelCount
      have short : parsed.path.length < kernelMapNameLen := by
        apply kernelNames parsed
        rw [linesOf_append, linesOf_singleton parses, if_pos class_]
        exact List.mem_append_right _ List.mem_cons_self
      rw [if_neg (by omega), KernelMap.ofLine, dif_pos short]
      exact ⟨_, rfl⟩
    · rename_i class_
      rw [if_pos class_, List.length_singleton, pooledBefore.vmas.length_eq] at vmaCount
      have grows := @growTable_isSome vmaTableInitialCapacity table.capacity table.vmas.length
        (by decide) pooledBefore.capacity (by omega)
      rcases Option.isSome_iff_exists.mp grows with ⟨capacity, grown⟩
      simp only [Allocations.plenty, grown, Option.bind_eq_bind, Option.bind_some]
      split
      · rename_i nonempty
        have room : table.pool.data.length + parsed.path.length + 1 < 2 ^ 32 := by
          simp only [vmaPathBytes, linesOf_singleton parses, class_, if_true, List.map_singleton,
            List.sum_singleton, if_neg (List.ne_nil_of_length_pos nonempty), pooled] at pathBytes
          omega
        rcases Option.isSome_iff_exists.mp (poolAppend_isSome room) with ⟨⟨pool, offset⟩, appends⟩
        rw [appends]
        exact ⟨_, rfl⟩
      · exact ⟨_, rfl⟩

/-- The loop of `collect_vmas` completes exactly on mappings that fit. -/
theorem collectVmaLines_iff {lines : List Bytes} :
    (∃ table, lines.foldlM (collectVmaLine .plenty) ⟨[], 0, [], .empty⟩ = some table) ↔
      VmasFit lines := by
  constructor
  · intro completes
    rcases completes with ⟨table, loop⟩
    have pooledAll := foldlM_invariant VmasPooled
      (fun _ _ _ _ before taken => before.step taken) .initial loop
    exact pooledAll.fit
  · intro fit
    have step : ∀ seen mapsLine rest table, lines = seen ++ mapsLine :: rest →
        VmasPooled seen table → ∃ after, collectVmaLine .plenty table mapsLine = some after ∧
          VmasPooled (seen ++ [mapsLine]) after := by
      intro seen mapsLine rest table split before
      rw [split, List.append_cons] at fit
      rcases exists_collectVmaLine before fit.of_append with ⟨after, taken⟩
      exact ⟨after, taken, before.step taken⟩
    rcases foldlM_isSome VmasPooled .initial step with ⟨table, completes, _⟩
    exact ⟨table, completes⟩

/-- The pool of collected mappings, for the descriptors to go on with. -/
theorem length_collectVmaLines {lines : List Bytes} {table : VmaTable}
    (loop : lines.foldlM (collectVmaLine .plenty) ⟨[], 0, [], .empty⟩ = some table) :
    table.pool.data.length = vmaPathBytes lines :=
  (foldlM_invariant VmasPooled (fun _ _ _ _ before taken => before.step taken) .initial
    loop).poolLength

/-! ## Collecting the descriptors -/

theorem fdNumbers_append (names more : List Bytes) :
    fdNumbers (names ++ more) = fdNumbers names ++ fdNumbers more := by
  simp [fdNumbers]

theorem fdNumbers_singleton (name : Bytes) :
    fdNumbers [name] = if startsWithDigit name then [atoi name] else [] := by
  cases digit : startsWithDigit name with
  | true => simp [fdNumbers, digit]
  | false => simp [fdNumbers, digit]

/-- The variables of `collect_fds`, with the size of the pool. -/
structure FdsPooled (files : FdFiles) (start : PathPool) (seen : List Bytes)
    (table : FdTable) : Prop extends FdsCollected files start seen table where
  poolLength : table.pool.data.length = start.data.length + fdPathBytes files seen
  readable : ∀ fd ∈ fdNumbers seen, (classifyFd files fd).1 ≠ .unreadable

theorem FdsPooled.initial (files : FdFiles) (start : PathPool) :
    FdsPooled files start [] ⟨[], 0, start⟩ where
  numbers := rfl
  described := by simp
  own := by simp
  capacity := .inl rfl
  count_le := Nat.zero_le _
  pool := List.prefix_rfl
  poolLength := rfl
  readable := by simp [fdNumbers]

/-- A descriptor that cannot be read ends the loop. -/
theorem readable_of_collectFdEntry {files : FdFiles} {memory : Allocations}
    {table after : FdTable} {name : Bytes} (digit : startsWithDigit name = true)
    (step : collectFdEntry files memory table name = some after) :
    (classifyFd files (atoi name)).1 ≠ .unreadable := by
  intro unreadable
  have class_ : classifyFd files (atoi name) = (.unreadable, (classifyFd files (atoi name)).2) :=
    Prod.ext unreadable rfl
  simp only [collectFdEntry, digit, Bool.not_true, Bool.false_eq_true, if_false] at step
  rw [class_] at step
  cases step

theorem FdsPooled.step {files : FdFiles} {memory : Allocations} {start : PathPool}
    {seen : List Bytes} {table after : FdTable} {name : Bytes}
    (before : FdsPooled files start seen table)
    (step : collectFdEntry files memory table name = some after) :
    FdsPooled files start (seen ++ [name]) after := by
  refine { before.toFdsCollected.step step with poolLength := ?_, readable := ?_ }
  · rw [fdPathBytes_append, ← Nat.add_assoc, ← before.poolLength]
    cases collectFdEntry_taken step with
    | skipped notDump same =>
        subst same
        rw [fdPathBytes, dumpedFds_singleton, if_neg notDump]
        rfl
    | @dump digit path class_ _ grows _ _ state pool _ appends added =>
        subst added
        rw [length_poolAppend appends, fdPathBytes, dumpedFds_singleton,
          if_pos ⟨digit, by rw [class_]⟩]
        simp [class_]
  · intro fd mem
    rw [fdNumbers_append, List.mem_append, fdNumbers_singleton] at mem
    rcases mem with earlier | last
    · exact before.readable fd earlier
    · split at last
      · rename_i digit
        cases List.mem_singleton.mp last
        exact readable_of_collectFdEntry digit step
      · cases last

/-- The descriptors can be read and fit into the table and what is left of the pool. -/
structure FdsFit (files : FdFiles) (taken : ℕ) (names : List Bytes) : Prop where
  readable : ∀ fd ∈ fdNumbers names, (classifyFd files fd).1 ≠ .unreadable
  states : ∀ fd ∈ dumpedFds files names, (readFdState files fd).isSome
  count : (dumpedFds files names).length ≤ 2 ^ 31
  pathBytes : taken + fdPathBytes files names < 2 ^ 32

theorem FdsFit.of_append {files : FdFiles} {taken : ℕ} {names more : List Bytes}
    (fit : FdsFit files taken (names ++ more)) : FdsFit files taken names := by
  rcases fit with ⟨readable, states, count, pathBytes⟩
  rw [dumpedFds_append, List.length_append] at count
  rw [fdPathBytes_append] at pathBytes
  refine ⟨?_, ?_, by omega, by omega⟩
  · intro fd mem
    apply readable fd
    rw [fdNumbers_append]
    exact List.mem_append_left _ mem
  · intro fd mem
    apply states fd
    rw [dumpedFds_append]
    exact List.mem_append_left _ mem

theorem FdsPooled.fit {files : FdFiles} {start : PathPool} {names : List Bytes} {table : FdTable}
    (pooledAll : FdsPooled files start names table) : FdsFit files start.data.length names where
  readable := pooledAll.readable
  states := by
    intro fd mem
    rw [← pooledAll.numbers] at mem
    rcases List.mem_map.mp mem with ⟨entry, entryMem, rfl⟩
    rw [(pooledAll.described entry entryMem).state]
    rfl
  count := by
    rw [← pooledAll.numbers, List.length_map]
    exact pooledAll.count_le.trans pooledAll.capacity.le
  pathBytes := by
    rw [← pooledAll.poolLength]
    exact table.pool.addressable

/-- A descriptor that fits is taken, when memory can be had. -/
theorem exists_collectFdEntry {files : FdFiles} {start : PathPool} {seen : List Bytes}
    {table : FdTable} {name : Bytes} (before : FdsPooled files start seen table)
    (fit : FdsFit files start.data.length (seen ++ [name])) :
    ∃ after, collectFdEntry files .plenty table name = some after := by
  rcases fit with ⟨readable, states, count, pathBytes⟩
  rw [fdPathBytes_append, ← Nat.add_assoc, ← before.poolLength] at pathBytes
  rw [dumpedFds_append, List.length_append, ← before.numbers, List.length_map] at count
  unfold collectFdEntry
  split
  · exact ⟨table, rfl⟩
  · rename_i digit
    rw [Bool.not_eq_true, Bool.not_eq_false'] at digit
    have number : atoi name ∈ fdNumbers (seen ++ [name]) := by
      rw [fdNumbers_append, fdNumbers_singleton, if_pos digit]
      exact List.mem_append_right _ List.mem_cons_self
    dsimp only
    split
    · exact ⟨table, rfl⟩
    · rename_i class_
      exact absurd (congrArg Prod.fst class_) (readable _ number)
    · rename_i path class_
      have dumped : dumpedFds files [name] = [atoi name] := by
        rw [dumpedFds_singleton, if_pos ⟨digit, congrArg Prod.fst class_⟩]
      rw [dumped, List.length_singleton] at count
      have grows := @growTable_isSome fdTableInitialCapacity table.capacity table.fds.length
        (by decide) before.capacity (by omega)
      rcases Option.isSome_iff_exists.mp grows with ⟨capacity, grown⟩
      have dumpedMem : atoi name ∈ dumpedFds files (seen ++ [name]) := by
        rw [dumpedFds_append, dumped]
        exact List.mem_append_right _ List.mem_cons_self
      rcases Option.isSome_iff_exists.mp (states _ dumpedMem) with ⟨⟨position, flags⟩, state⟩
      have room : table.pool.data.length + path.length + 1 < 2 ^ 32 := by
        simp only [fdPathBytes, dumped, List.map_singleton, List.sum_singleton, class_,
          pooled] at pathBytes
        omega
      rcases Option.isSome_iff_exists.mp (poolAppend_isSome room) with ⟨⟨pool, offset⟩, appends⟩
      simp only [Allocations.plenty, grown, state, appends, Option.bind_eq_bind, Option.bind_some]
      exact ⟨_, rfl⟩
    · exact ⟨table, rfl⟩

/-- `collect_fds` completes exactly on descriptors that fit. -/
theorem collectFds_iff {files : FdFiles} {start : PathPool} :
    (∃ table, collectFds files .plenty start = some table) ↔
      ∃ names, files.directory = some names ∧ FdsFit files start.data.length names := by
  constructor
  · intro collects
    rcases collects with ⟨table, collects⟩
    simp only [collectFds, Option.bind_eq_bind, Option.bind_eq_some_iff] at collects
    rcases collects with ⟨names, opened, ended, loop, _⟩
    have pooledAll := foldlM_invariant (FdsPooled files start)
      (fun _ _ _ _ before taken => before.step taken) (.initial files start) loop
    exact ⟨names, opened, pooledAll.fit⟩
  · intro fits
    rcases fits with ⟨names, opened, fit⟩
    have step : ∀ seen name rest table, names = seen ++ name :: rest →
        FdsPooled files start seen table → ∃ after,
          collectFdEntry files .plenty table name = some after ∧
            FdsPooled files start (seen ++ [name]) after := by
      intro seen name rest table split before
      rw [split, List.append_cons] at fit
      rcases exists_collectFdEntry before fit.of_append with ⟨after, taken⟩
      exact ⟨after, taken, before.step taken⟩
    rcases foldlM_isSome (FdsPooled files start) (.initial files start) step with
      ⟨table, completes, _⟩
    simp only [collectFds, opened, completes, Option.bind_eq_bind, Option.bind_some]
    exact ⟨_, rfl⟩

/-! ## Without a reason -/

/-- The lines of the mappings, when their file opens. -/
def CheckedProcess.mapsLines (process : CheckedProcess) : List Bytes :=
  match process.maps with
  | .ok maps => fgetsLines mapsLineMax maps.text
  | .error _ => []

@[simp]
theorem kernelMaps_reasonIf (report : CheckReport) (code : ReasonCode) (detail : Bytes)
    (condition : Bool) :
    (reasonIf condition code detail report).kernelMaps = report.kernelMaps :=
  congrArg CheckCounts.kernelMaps (counts_reasonIf report code detail condition)

@[simp]
theorem dumpableVmas_reasonIf (report : CheckReport) (code : ReasonCode) (detail : Bytes)
    (condition : Bool) :
    (reasonIf condition code detail report).dumpableVmas = report.dumpableVmas :=
  congrArg CheckCounts.dumpableVmas (counts_reasonIf report code detail condition)

theorem reasons_mapsVerdicts {readFails : Bool} {scan : MapsScan}
    (noReasons : (mapsVerdicts readFails scan).reasons = []) :
    readFails = false ∧ scan.report.kernelMaps.toNat ≤ maxKernelMaps ∧
      scan.report.dumpableVmas ≠ 0 := by
  simp only [mapsVerdicts, reasons_reasonIf_eq_nil_iff, kernelMaps_reasonIf,
    dumpableVmas_reasonIf, decide_eq_false_iff_not, not_lt] at noReasons
  rcases noReasons with ⟨someVma, fewKernelMaps, _, _, reads, _⟩
  exact ⟨reads, fewKernelMaps, someVma⟩

theorem reasons_scanFdEntries (files : FdFiles) (report : CheckReport) (names : List Bytes) :
    (names.foldl (scanFdEntry files) report).reasons = report.reasons := by
  induction names generalizing report with
  | nil => rfl
  | cons name names ih =>
      rw [List.foldl_cons, ih]
      unfold scanFdEntry
      split
      · rfl
      · split <;> rfl

theorem reasons_scanFds (process : CheckedProcess) (report : CheckReport) :
    (scanFds process report).reasons = report.reasons := by
  rw [scanFds]
  split
  · rfl
  · exact reasons_scanFdEntries _ _ _

theorem reasons_countChildren (process : CheckedProcess) (report : CheckReport) :
    (countChildren process report).reasons = report.reasons := by
  rw [countChildren]
  split <;> rfl

/-- A report without a reason: the scans were reached, and the one of the mappings found none. -/
theorem reasons_checkOne {process : CheckedProcess} {probe : Bool}
    (noReasons : (checkOne process probe).reasons = []) :
    ∃ report, beforeScans process = .ok report ∧
      (scanMaps process (probeExe process report)).reasons = [] := by
  cases before : beforeScans process with
  | error report =>
      simp only [checkOne, before] at noReasons
      exact absurd noReasons (reasons_of_beforeScans before)
  | ok report =>
      refine ⟨report, rfl, ?_⟩
      simp only [checkOne, before] at noReasons
      split at noReasons
      · rename_i probes
        simp only [reasons_countChildren, reasons_scanFds, Bool.and_eq_true,
          decide_eq_true_eq] at probes
        exact List.length_eq_zero_iff.mp probes.2
      · rw [reasons_countChildren, reasons_scanFds] at noReasons
        exact noReasons

/-- What a report without a reason says about the mappings. -/
theorem mapsScanned_of_noReasons {process : CheckedProcess} {probe : Bool}
    (noReasons : (checkOne process probe).reasons = []) :
    ∃ maps, process.maps = .ok maps ∧ maps.readFails = false ∧
      (UInt32.ofNat (linesOf .kernel process.mapsLines).length).toNat ≤ maxKernelMaps ∧
        UInt32.ofNat (linesOf .dump process.mapsLines).length ≠ 0 := by
  rcases reasons_checkOne noReasons with ⟨report, before, scanned⟩
  cases opened : process.maps with
  | error errno =>
      simp only [scanMaps, opened] at scanned
      exact absurd scanned (reasons_addInaccessible_ne_nil _ _ _ _ _)
  | ok maps =>
      simp only [scanMaps, opened] at scanned
      have counts := counts_scanMapsLines (counts_probeExe before)
        (fgetsLines mapsLineMax maps.text)
      simp only [CheckReport.counts, countsOf, CheckCounts.mk.injEq] at counts
      rcases reasons_mapsVerdicts scanned with ⟨reads, fewKernelMaps, someVma⟩
      rw [counts.2.1] at fewKernelMaps
      rw [counts.1] at someVma
      simp only [CheckedProcess.mapsLines, opened]
      exact ⟨maps, rfl, reads, fewKernelMaps, someVma⟩

/-! ## The dump that follows -/

/-- What the collectors ask of a process, and Check does not look at. -/
structure CollectorsFit (process : CheckedProcess) (names : List Bytes) : Prop where
  directory : process.files.directory = some names
  readable : ∀ fd ∈ fdNumbers names, (classifyFd process.files fd).1 ≠ .unreadable
  states : ∀ fd ∈ dumpedFds process.files names, (readFdState process.files fd).isSome
  kernelNames : ∀ parsed ∈ linesOf .kernel process.mapsLines,
    parsed.path.length < kernelMapNameLen
  kernelCount : (linesOf .kernel process.mapsLines).length < 2 ^ 32
  vmaCount : (linesOf .dump process.mapsLines).length ≤ 2 ^ 31
  fdCount : (dumpedFds process.files names).length ≤ 2 ^ 31
  pathBytes : vmaPathBytes process.mapsLines + fdPathBytes process.files names < 2 ^ 32

/-- When Check has no reason against a process, both collectors return OK exactly under the
conditions it leaves out. -/
theorem collectors_succeed_iff {process : CheckedProcess} {probe : Bool}
    (noReasons : (checkOne process probe).reasons = []) :
    (∃ vmaTable fdTable, collectVmas process.maps.toOption .plenty .empty = some vmaTable ∧
      collectFds process.files .plenty vmaTable.pool = some fdTable) ↔
        ∃ names, CollectorsFit process names := by
  rcases mapsScanned_of_noReasons noReasons with
    ⟨maps, opened, reads, fewKernelMaps, someVma⟩
  have lines : process.mapsLines = fgetsLines mapsLineMax maps.text := by
    simp only [CheckedProcess.mapsLines, opened]
  rw [UInt32.toNat_ofNat'] at fewKernelMaps
  have vmas : ∀ table, collectVmas process.maps.toOption .plenty .empty = some table ↔
      process.mapsLines.foldlM (collectVmaLine .plenty) ⟨[], 0, [], .empty⟩ = some table := by
    intro table
    rw [collectVmas_eq_some_iff, lines]
    constructor
    · rintro ⟨_, same, _, _, loop⟩
      rw [opened] at same
      cases same
      exact loop
    · intro loop
      refine ⟨maps, by rw [opened]; rfl, reads, ?_, loop⟩
      intro none_
      have collected := foldlM_invariant VmasPooled
        (fun _ _ _ _ before taken => before.step taken) .initial loop
      have length := collected.vmas.length_eq
      rw [none_, ← lines] at length
      rw [length] at someVma
      exact someVma rfl
  constructor
  · intro succeed
    rcases succeed with ⟨vmaTable, fdTable, collectsVmas, collectsFds⟩
    have loop := (vmas vmaTable).mp collectsVmas
    rcases collectVmaLines_iff.mp ⟨vmaTable, loop⟩ with
      ⟨kernelCount, kernelNames, vmaCount, _⟩
    rcases collectFds_iff.mp ⟨fdTable, collectsFds⟩ with ⟨names, directory, fit⟩
    rw [length_collectVmaLines loop] at fit
    rcases fit with ⟨readable, states, fdCount, pathBytes⟩
    refine ⟨names, directory, readable, states, kernelNames, ?_, vmaCount, fdCount, pathBytes⟩
    exact kernelCount.trans_lt (by decide)
  · intro fits
    rcases fits with ⟨names, fit⟩
    have vmasFit : VmasFit process.mapsLines := by
      refine ⟨?_, fit.kernelNames, fit.vmaCount, ?_⟩
      · rw [Nat.mod_eq_of_lt fit.kernelCount] at fewKernelMaps
        exact fewKernelMaps
      · have pathBytes := fit.pathBytes
        omega
    rcases collectVmaLines_iff.mpr vmasFit with ⟨vmaTable, loop⟩
    have fdsFit : FdsFit process.files vmaTable.pool.data.length names := by
      rw [length_collectVmaLines loop]
      exact ⟨fit.readable, fit.states, fit.fdCount, fit.pathBytes⟩
    rcases collectFds_iff.mpr ⟨names, fit.directory, fdsFit⟩ with ⟨fdTable, collectsFds⟩
    exact ⟨vmaTable, fdTable, (vmas vmaTable).mpr loop, collectsFds⟩

set_option maxRecDepth 4000 in
/-- The sample is promised, and its collectors succeed. -/
theorem collectorsFit_sampleProcess : ∃ names, CollectorsFit sampleProcess names :=
  (@collectors_succeed_iff sampleProcess true rfl).mp
    ⟨_, _, collectVmas_sample, collectFds_shared⟩

/-- One descriptor, on a file that is there but cannot be asked for any more. -/
def staleDescriptor : FdFiles where
  directory := some [ascii "3"]
  readlink := fun _ => some (ascii "/mnt/a")
  statLink := fun _ => none
  statPath := fun _ => none
  fdinfo := fun _ => some (ascii "pos: 0\nflags: 0\n")
  kcmp := fun _ _ => some 1

/-- Check has no reason against a process with such a descriptor, and the dump that follows
cannot collect it, although every file of the process can be read. -/
theorem not_collectors_succeed_of_check :
    ¬ ∀ (process : CheckedProcess) (probe : Bool), (checkOne process probe).reasons = [] →
      process.files.directory.isSome → (∀ fd, (readFdState process.files fd).isSome) →
        ∃ vmaTable fdTable, collectVmas process.maps.toOption .plenty .empty = some vmaTable ∧
          collectFds process.files .plenty vmaTable.pool = some fdTable := by
  intro promised
  have collects := promised { smallestProcess with files := staleDescriptor } true rfl rfl
    (fun _ => rfl)
  rcases collects with ⟨vmaTable, fdTable, _, collectsFds⟩
  cases collectsFds

end Ksnap
