import Ksnap.Dump.Outcome

/-!
# The image of a target

What a dump writes as a function of what it dumps. The dump grows its tables in memory that
may run out and reads the target in pieces of any size, and each of this may end it. None of
it shows in a dump that returns OK: the file is the image of the target, byte for byte.
-/

namespace Ksnap

open Foundation Foundation.Program

/-! ## The tables -/

/-- What the tables of a dump hold, without the memory they are in. -/
structure ImageTables where
  vmas : List VmaDescriptor
  kernelMaps : List KernelMap
  fds : List FdDescriptor
  pool : Bytes

/-- The tables before anything is collected. -/
def ImageTables.empty : ImageTables := ⟨[], [], [], []⟩

/-- The tables with the mapping of one line. -/
def ImageTables.addLine (tables : ImageTables) (mapsLine : Bytes) : ImageTables :=
  match parseMapsLine mapsLine with
  | none => tables
  | some parsed =>
      match classifyMapsLine parsed with
      | .kernel =>
          { tables with kernelMaps := tables.kernelMaps ++ (KernelMap.ofLine parsed).toList }
      | .dump =>
          if parsed.path = [] then { tables with vmas := tables.vmas ++ [.ofLine parsed 0] }
          else
            { tables with
              vmas := tables.vmas ++ [.ofLine parsed (.ofNat tables.pool.length)]
              pool := tables.pool ++ parsed.path ++ [0] }
      | _ => tables

/-- The tables with one descriptor, which is of its own so far. -/
def ImageTables.addFd (files : FdFiles) (tables : ImageTables) (name : Bytes) : ImageTables :=
  let fd := atoi name
  let path := (classifyFd files fd).2
  if startsWithDigit name ∧ (classifyFd files fd).1 = .dump then
    match readFdState files fd with
    | none => tables
    | some (position, flags) =>
        { tables with
          fds := tables.fds ++ [{
            fd := fd
            dupOf := -1
            flags := flags
            pathOffset := .ofNat tables.pool.length
            pathLen := .ofNat path.length
            reserved := 0
            position := position }]
          pool := tables.pool ++ path ++ [0] }
  else tables

/-- All tables of a target. -/
def Target.tables (target : Target) : ImageTables :=
  let lines := (target.maps.map fun maps => fgetsLines mapsLineMax maps.text).getD []
  let names := target.files.directory.getD []
  let tables := names.foldl (ImageTables.addFd target.files) (lines.foldl .addLine .empty)
  { tables with fds := findSharedFiles target.files (sortFds tables.fds) tables.pool }

/-- The parts of the target's snapshot, where its executable is found under this link. -/
def Target.parts (target : Target) (link : Bytes) : SnapshotParts where
  regs := target.regs
  xstate := target.xstate
  exePath := link.take (pathMax - 1)
  vmas := target.tables.vmas
  fds := target.tables.fds
  pool := target.tables.pool
  kernelMaps := target.tables.kernelMaps

/-- The snapshot of the target. -/
def Target.image (target : Target) (link : Bytes) : Bytes :=
  let parts := target.parts link
  parts.fileBytes (parts.vmas.flatMap target.payload)

/-! ## Collecting forgets the memory -/

/-- What the vma table adds to tables of descriptors. -/
def VmaTable.contents (table : VmaTable) : ImageTables :=
  ⟨table.vmas, table.kernelMaps, [], table.pool.data⟩

theorem ofNat_of_poolAppend {pool appended : PathPool} {path : Bytes} {reallocSucceeds : Bool}
    {offset : UInt32}
    (appends : poolAppend pool path reallocSucceeds = some (appended, offset)) :
    offset = .ofNat pool.data.length := by
  rw [← UInt32.toNat_inj, (poolAppend_spec appends).2, UInt32.toNat_ofNat',
    Nat.mod_eq_of_lt pool.addressable]

theorem contents_collectVmaLine {memory : Allocations} {table after : VmaTable}
    {mapsLine : Bytes} (step : collectVmaLine memory table mapsLine = some after) :
    after.contents = table.contents.addLine mapsLine := by
  rw [collectVmaLine] at step
  rw [ImageTables.addLine]
  cases parses : parseMapsLine mapsLine with
  | none =>
      rw [parses] at step
      cases step
      rfl
  | some parsed =>
      rw [parses] at step
      dsimp only at step ⊢
      cases class_ : classifyMapsLine parsed with
      | kernel =>
          rw [class_] at step
          dsimp only at step
          by_cases full : table.kernelMaps.length = maxKernelMaps
          · rw [if_pos full] at step
            cases step
          · rw [if_neg full] at step
            rcases Option.bind_eq_some_iff.mp step with ⟨kernelMap, record, added⟩
            cases added
            rw [record]
            rfl
      | dump =>
          rw [class_] at step
          rcases Option.bind_eq_some_iff.mp step with ⟨capacity, _, grown⟩
          by_cases nonempty : 0 < parsed.path.length
          · rw [if_pos nonempty] at grown
            rcases Option.bind_eq_some_iff.mp grown with ⟨⟨pool, pathOffset⟩, appends, added⟩
            cases added
            rw [if_neg (List.ne_nil_of_length_pos nonempty), ofNat_of_poolAppend appends,
              VmaTable.contents, (poolAppend_spec appends).1]
            rfl
          · rw [if_neg nonempty] at grown
            cases grown
            rw [if_pos (List.length_eq_zero_iff.mp (by omega))]
            rfl
      | _ =>
          rw [class_] at step
          cases step
          rfl

/-- A loop that may fail at any item and one that may not come to the same contents. -/
theorem foldl_of_foldlM {α σ τ : Type} {body : σ → α → Option σ} {contents : σ → τ}
    {add : τ → α → τ}
    (step : ∀ state item after, body state item = some after →
      contents after = add (contents state) item)
    {items : List α} {state final : σ} (loop : items.foldlM body state = some final) :
    contents final = items.foldl add (contents state) := by
  induction items generalizing state with
  | nil =>
      cases loop
      rfl
  | cons item items ih =>
      rw [List.foldlM_cons] at loop
      rcases Option.bind_eq_some_iff.mp loop with ⟨after, taken, rest⟩
      rw [List.foldl_cons, ← step state item after taken]
      exact ih rest

theorem contents_collectVmas {maps : Option MapsFile} {memory : Allocations} {table : VmaTable}
    (collects : collectVmas maps memory .empty = some table) :
    table.contents = ((maps.map fun file => fgetsLines mapsLineMax file.text).getD []).foldl
      .addLine .empty := by
  rcases collectVmas_eq_some_iff.mp collects with ⟨file, rfl, _, _, loop⟩
  exact foldl_of_foldlM (fun _ _ _ => contents_collectVmaLine) loop

/-- What the fd table holds beside the tables of the mappings. -/
def FdTable.contents (tables : ImageTables) (table : FdTable) : ImageTables :=
  { tables with fds := table.fds, pool := table.pool.data }

theorem contents_collectFdEntry {files : FdFiles} {memory : Allocations} {tables : ImageTables}
    {table after : FdTable} {name : Bytes}
    (step : collectFdEntry files memory table name = some after) :
    after.contents tables = (table.contents tables).addFd files name := by
  rw [ImageTables.addFd]
  cases collectFdEntry_taken step with
  | skipped notDump same =>
      rw [if_neg notDump, same]
  | @dump digit path class_ capacity grows position flags state pool pathOffset appends added =>
      rw [class_, if_pos ⟨digit, rfl⟩, state, added, ofNat_of_poolAppend appends,
        FdTable.contents, (poolAppend_spec appends).1]
      rfl

theorem sortFds_few {fds : List FdDescriptor} (few : ¬1 < fds.length) : sortFds fds = fds := by
  rcases fds with _ | ⟨entry, _ | ⟨second, rest⟩⟩
  · simp [sortFds]
  · simp [sortFds]
  · simp at few

theorem contents_collectFds {files : FdFiles} {memory : Allocations} {tables : ImageTables}
    {start : PathPool} {table : FdTable} (same : tables.fds = []) (pool : tables.pool = start.data)
    (collects : collectFds files memory start = some table) :
    let collected := (files.directory.getD []).foldl (ImageTables.addFd files) tables
    table.pool.data = collected.pool ∧
      table.fds = findSharedFiles files (sortFds collected.fds) collected.pool ∧
      collected.vmas = tables.vmas ∧ collected.kernelMaps = tables.kernelMaps := by
  rcases Option.bind_eq_some_iff.mp collects with ⟨names, opened, rest⟩
  rcases Option.bind_eq_some_iff.mp rest with ⟨ended, loop, ends⟩
  cases ends
  have begins : FdTable.contents tables ⟨[], 0, start⟩ = tables := by
    rw [FdTable.contents, ← same, ← pool]
  have step : ∀ table name after, collectFdEntry files memory table name = some after →
      after.contents tables = (table.contents tables).addFd files name :=
    fun _ _ _ => contents_collectFdEntry
  have contents := foldl_of_foldlM step loop
  rw [begins] at contents
  rw [opened, Option.getD_some, ← contents]
  refine ⟨rfl, ?_, rfl, rfl⟩
  have sorted : (if 1 < ended.fds.length then sortFds ended.fds else ended.fds) =
      sortFds ended.fds := by
    split
    · rfl
    · next few => exact (sortFds_few few).symm
  rw [sorted]
  rfl

/-- The tables of a dump are those of its target. -/
theorem tables_of_collected {target : Target} {memory : Allocations} {vmaTable : VmaTable}
    {fdTable : FdTable} (vmas : collectVmas target.maps memory .empty = some vmaTable)
    (fds : collectFds target.files memory vmaTable.pool = some fdTable) :
    target.tables = ⟨vmaTable.vmas, vmaTable.kernelMaps, fdTable.fds, fdTable.pool.data⟩ := by
  have contents := contents_collectVmas vmas
  rcases contents_collectFds (show vmaTable.contents.fds = [] from rfl) rfl fds with
    ⟨pool, found, sameVmas, sameKernelMaps⟩
  rw [Target.tables, ← contents, sameVmas, sameKernelMaps, ← found, ← pool]
  rfl

/-! ## The dump writes the image -/

/-- Where the executable is found. -/
def LinkIs (link : Bytes) : DumpEvent → Prop
  | ⟨.readExe, some found⟩ => found = link
  | _ => True

/-- The world of a dump of this target, whose executable is found under this link. -/
abbrev linkedWorld (target : Target) (link : Bytes) : Environment DumpInterface where
  State := SnapshotFile
  step := fun before request reply after =>
    (dumpWorld target).step before request reply after ∧ LinkIs link ⟨request, reply⟩

variable {target : Target} {link : Bytes}

theorem exec_unlinked {α : Type} {program : Program DumpInterface α} {before after : SnapshotFile}
    {result : α} (run : program.Exec (linkedWorld target link) before result after) :
    program.Exec (dumpWorld target) before result after :=
  @Exec.simulate DumpInterface α (linkedWorld target link) before (dumpWorld target) id
    (fun _ _ _ _ taken => taken.1) program result after run

theorem exePath_of_checkExePath {path : Bytes} (checked : checkExePath link = some path) :
    path = link.take (pathMax - 1) := by
  simp only [checkExePath] at checked
  split at checked
  · cases checked
  · cases checked
    rfl

/-- The label does not touch the file, and a dump that failed before it fails. -/
theorem captured_of_finishDump {config : DumpConfig} {captured result : Bool}
    {before after : SnapshotFile}
    (run : (finishDump config captured).Exec (dumpWorld target) before result after) :
    (result = true → captured = true) ∧ after = before := by
  constructor
  · rcases run.traced [] with ⟨trace, recorded⟩
    exact (finishDump_captured config captured []).exec recorded.record
  · have unconcerned : (finishDump config captured).OnlyCalls Unconcerned := by
      refine (onlyCalls_finishDump config captured).mono fun request call => ?_
      rcases call with rfl | rfl | rfl <;> trivial
    exact (ensures_unconcerned unconcerned before).exec run

theorem ensures_collectParts_linked (memory : Allocations) (file : SnapshotFile) :
    (collectParts memory).run.Ensures (linkedWorld target link) (fun _ => True)
      (fun outcome after => ∀ parts, outcome = some parts →
        after = file ∧ parts = target.parts link ∧ Collected target.maps target.files parts)
      file := by
  unfold collectParts
  rw [ensures_ask_bind]
  rintro regsReply _ ⟨⟨sameRegs, rfl⟩, -⟩
  refine ⟨trivial, ?_⟩
  rw [ensures_give_bind]
  refine ⟨?_, by simp⟩
  rintro regs rfl
  obtain rfl : regs = target.regs := sameRegs
  rw [ensures_ask_bind]
  rintro allocated _ ⟨⟨-, rfl⟩, -⟩
  refine ⟨trivial, ?_⟩
  rw [ensures_require_bind]
  refine ⟨fun _ => ?_, by simp⟩
  rw [ensures_ask_bind]
  rintro areaReply _ ⟨⟨sameXstate, rfl⟩, -⟩
  refine ⟨trivial, ?_⟩
  rw [ensures_give_bind]
  refine ⟨?_, by simp⟩
  rintro area rfl
  obtain rfl : area = target.xstate := sameXstate
  rw [ensures_give_bind]
  refine ⟨fun xstate checkedXstate => ?_, by simp⟩
  obtain rfl : xstate = target.xstate := (checkXstate_eq_some_iff.mp checkedXstate).1
  rw [ensures_ask_bind]
  rintro linkReply _ ⟨⟨-, rfl⟩, sameLink⟩
  refine ⟨trivial, ?_⟩
  rw [ensures_give_bind]
  refine ⟨?_, by simp⟩
  rintro found rfl
  obtain rfl : found = link := sameLink
  rw [ensures_give_bind]
  refine ⟨fun exePath checkedPath => ?_, by simp⟩
  rw [ensures_ask_bind]
  rintro maps _ ⟨⟨sameMaps, rfl⟩, -⟩
  obtain rfl : maps = target.maps := sameMaps
  refine ⟨trivial, ?_⟩
  rw [ensures_give_bind]
  refine ⟨fun vmaTable collectsVmas => ?_, by simp⟩
  rw [ensures_ask_bind]
  rintro files _ ⟨⟨sameFiles, rfl⟩, -⟩
  obtain rfl : files = target.files := sameFiles
  refine ⟨trivial, ?_⟩
  rw [ensures_give_bind]
  refine ⟨fun fdTable collectsFds => ?_, by simp⟩
  rintro parts ⟨⟩
  have tables := tables_of_collected collectsVmas collectsFds
  refine ⟨rfl, ?_, ?_⟩
  · simp only [Target.parts, tables, exePath_of_checkExePath checkedPath]
  · exact ⟨⟨_, checkedXstate⟩, ⟨_, checkedPath⟩,
      ⟨memory, vmaTable, fdTable, collectsVmas, collectsFds, rfl, rfl, rfl, rfl⟩⟩

/-- The file is the image of the target, of which everything could be collected. -/
def HoldsImage (target : Target) (link : Bytes) (file : SnapshotFile) : Prop :=
  file.disk = some (target.image link) ∧
    Collected target.maps target.files (target.parts link)

theorem ensures_dumpSeized_linked (memory : Allocations) (rounds : ℕ) (disk : Option Bytes) :
    (dumpSeized memory rounds).run.Ensures (linkedWorld target link) (fun _ => True)
      (fun outcome after => outcome.isSome → HoldsImage target link after)
      (untouched disk) := by
  unfold dumpSeized
  rw [ensures_ask_bind]
  rintro interrupted _ ⟨⟨-, rfl⟩, -⟩
  refine ⟨trivial, ?_⟩
  rw [ensures_require_bind]
  refine ⟨fun _ => ?_, by simp⟩
  rw [ensures_ask_bind]
  rintro stopped _ ⟨⟨-, rfl⟩, -⟩
  refine ⟨trivial, ?_⟩
  rw [ensures_require_bind]
  refine ⟨fun _ => ?_, by simp⟩
  rw [ensures_attempt_bind]
  refine (ensures_collectParts_linked memory _).mono fun outcome after collects => ?_
  cases outcome with
  | none => simp
  | some parts =>
      rcases collects parts rfl with ⟨rfl, same, collected⟩
      dsimp only
      rw [ensures_lift_bind]
      refine ensures_of_exec fun saved file run => ?_
      rw [ensures_require]
      refine ⟨?_, by simp⟩
      rintro rfl -
      rcases writeSnapshot_disk collected.sound (exec_unlinked run) with
        ⟨payloads, payloadsMatch, onDisk⟩
      refine ⟨?_, same ▸ collected⟩
      rw [onDisk, payloads_of_payloadsMatch payloadsMatch, ← List.flatMap_def, same]
      rfl

theorem image_of_dump {config : DumpConfig} {memory : Allocations} {rounds : ℕ}
    {disk : Option Bytes} {file : SnapshotFile}
    (run : (dump config memory rounds).Exec (linkedWorld target link) (untouched disk) true file) :
    HoldsImage target link file := by
  have spec : (dump config memory rounds).Ensures (linkedWorld target link) (fun _ => True)
      (fun result after => result = true → HoldsImage target link after)
      (untouched disk) := by
    unfold dump
    split
    · exact fun impossible => absurd impossible (by decide)
    · rw [ensures_perform_bind]
      rintro seized _ ⟨⟨-, rfl⟩, -⟩
      refine ⟨trivial, ?_⟩
      cases seized with
      | false => exact fun impossible => absurd impossible (by decide)
      | true =>
          rw [if_pos rfl, ensures_bind]
          refine (ensures_dumpSeized_linked memory rounds disk).mono fun outcome after image => ?_
          refine ensures_of_exec ?_
          rintro _ final finishes rfl
          rcases captured_of_finishDump (exec_unlinked finishes) with ⟨captured, rfl⟩
          exact image (captured rfl)
  exact spec.exec run rfl

/-- A dump that returns OK leaves the image of its target at the path of the snapshot: the file
depends on the target alone, whatever was there before, however much the tables were grown in
and however few bytes each read and write took. -/
theorem dump_writes_image {config : DumpConfig} {memory : Allocations} {rounds : ℕ}
    {disk : Option Bytes} {file : SnapshotFile}
    (run : (dump config memory rounds).Exec (linkedWorld target link) (untouched disk) true file) :
    file.disk = some (target.image link) :=
  (image_of_dump run).1

theorem obliging_linked (position : ℕ) (before : SnapshotFile) (request : DumpCall) :
    (linkedWorld target link).step before request (obliging target link position before request).1
      (obliging target link position before request).2 := by
  refine ⟨obliging_allowed target link position before request, ?_⟩
  cases request with
  | readExe => exact rfl
  | _ => exact trivial

/-- A dump whose other calls all succeed, of a target of which everything can be collected, ends
as the write of the snapshot does. -/
theorem dump_of_writeSnapshot {config : DumpConfig} {memory : Allocations} {rounds : ℕ}
    {disk : Option Bytes} {written : SnapshotFile} {exePath : Bytes} {vmaTable : VmaTable}
    {fdTable : FdTable} {saved : Bool}
    (fits : (buildSnapshotPath config.fileName config.outputDir).isSome)
    (keeps : config.killAfterDump = false) (xstate : checkXstate target.xstate = some target.xstate)
    (path : checkExePath link = some exePath)
    (vmas : collectVmas target.maps memory .empty = some vmaTable)
    (fds : collectFds target.files memory vmaTable.pool = some fdTable)
    (writes : (writeSnapshot rounds (target.parts link)).Exec (linkedWorld target link)
      (untouched disk) saved written) :
    (dump config memory rounds).Exec (linkedWorld target link) (untouched disk) saved written := by
  have parts : target.parts link = {
      regs := target.regs
      xstate := target.xstate
      exePath := exePath
      vmas := vmaTable.vmas
      fds := fdTable.fds
      pool := fdTable.pool.data
      kernelMaps := vmaTable.kernelMaps } := by
    rw [Target.parts, tables_of_collected vmas fds, exePath_of_checkExePath path]
  have collects : (collectParts memory).run.Exec (linkedWorld target link) (untouched disk)
      (some (target.parts link)) (untouched disk) := by
    refine ⟨some target.regs, _, ⟨⟨rfl, rfl⟩, trivial⟩, exec_give_bind.mpr ⟨_, rfl, ?_⟩⟩
    refine ⟨true, _, ⟨⟨trivial, rfl⟩, trivial⟩, exec_require_bind.mpr ?_⟩
    rw [if_pos rfl]
    refine ⟨some target.xstate, _, ⟨⟨rfl, rfl⟩, trivial⟩, exec_give_bind.mpr ⟨_, rfl, ?_⟩⟩
    refine exec_give_bind.mpr ⟨target.xstate, xstate, ?_⟩
    refine ⟨some link, _, ⟨⟨trivial, rfl⟩, rfl⟩, exec_give_bind.mpr ⟨_, rfl, ?_⟩⟩
    refine exec_give_bind.mpr ⟨exePath, path, ?_⟩
    refine ⟨target.maps, _, ⟨⟨rfl, rfl⟩, trivial⟩, ?_⟩
    refine exec_give_bind.mpr ⟨vmaTable, vmas, ?_⟩
    refine ⟨target.files, _, ⟨⟨rfl, rfl⟩, trivial⟩, ?_⟩
    refine exec_give_bind.mpr ⟨fdTable, fds, ?_⟩
    exact ⟨congrArg some parts, rfl⟩
  have captures : (dumpSeized memory rounds).run.Exec (linkedWorld target link) (untouched disk)
      (if saved then some () else none) written := by
    refine ⟨true, _, ⟨⟨trivial, rfl⟩, trivial⟩, exec_require_bind.mpr ?_⟩
    rw [if_pos rfl]
    refine ⟨some true, _, ⟨⟨trivial, rfl⟩, trivial⟩, exec_require_bind.mpr ?_⟩
    rw [if_pos (by decide)]
    refine exec_attempt_bind.mpr ⟨some (target.parts link), _, collects, ?_⟩
    refine exec_bind.mpr ⟨some saved, written, exec_bind.mpr ⟨saved, written, writes, rfl, rfl⟩, ?_⟩
    cases saved <;> exact ⟨rfl, rfl⟩
  unfold dump
  rw [if_neg (by simpa [Option.isNone_iff_eq_none, Option.isSome_iff_ne_none] using fits)]
  refine exec_bind.mpr ⟨true, _, exec_perform.mpr ⟨⟨trivial, rfl⟩, trivial⟩, ?_⟩
  rw [if_pos rfl]
  refine exec_bind.mpr ⟨_, written, captures, ?_⟩
  rw [finishDump, if_neg (by simp [keeps])]
  refine ⟨true, _, ⟨⟨trivial, rfl⟩, trivial⟩, ?_⟩
  cases saved <;> exact ⟨rfl, rfl⟩

theorem parts_sample : sampleTarget.parts (ascii "/a") = sampleParts := by
  rw [Target.parts, @tables_of_collected sampleTarget _ _ _ collectVmas_sample collectFds_shared]
  rfl

theorem image_sample : sampleTarget.image (ascii "/a") = sampleSnapshot.bytes := by
  rw [Target.image, parts_sample]
  rfl

/-- A dump of the sample ends as the write of its snapshot. -/
theorem dump_of_evaluate {config : DumpConfig}
    (fits : (buildSnapshotPath config.fileName config.outputDir).isSome)
    (keeps : config.killAfterDump = false) {disk : Option Bytes} {saved : Bool}
    {written : SnapshotFile}
    {kernel : SnapshotFile → (request : DumpCall) → DumpInterface.Reply request × SnapshotFile}
    (linked : ∀ before request, (linkedWorld sampleTarget (ascii "/a")).step before request
      (kernel before request).1 (kernel before request).2)
    (evaluated : (writeSnapshot 3 sampleParts).evaluate kernel (untouched disk) =
      some (saved, written)) :
    (dump config .plenty 3).Exec (linkedWorld sampleTarget (ascii "/a")) (untouched disk) saved
      written := by
  rw [← parts_sample] at evaluated
  exact @dump_of_writeSnapshot sampleTarget _ config _ _ _ _ _ _ _ _ fits keeps
    checkXstate_sample rfl collectVmas_sample collectFds_shared (exec_of_evaluate linked evaluated)

/-- The sample is dumped, also over an older file. -/
theorem sample_dumped {config : DumpConfig}
    (fits : (buildSnapshotPath config.fileName config.outputDir).isSome)
    (keeps : config.killAfterDump = false) {disk : Option Bytes}
    (before : disk = none ∨ disk = some [1]) : ∃ file,
    (dump config .plenty 3).Exec (linkedWorld sampleTarget (ascii "/a")) (untouched disk) true
      file ∧ file.disk = some sampleSnapshot.bytes := by
  have evaluates : ((writeSnapshot 3 sampleParts).evaluate
      (obliging sampleTarget (ascii "/a") 5337) (untouched disk)).map Prod.fst = some true := by
    rcases before with rfl | rfl <;> decide +kernel
  rcases Option.map_eq_some_iff.mp evaluates with ⟨⟨outcome, written⟩, evaluated, rfl⟩
  have run := dump_of_evaluate fits keeps (obliging_linked 5337) evaluated
  refine ⟨written, run, ?_⟩
  rw [(image_of_dump run).1, image_sample]

/-- What the dump of the sample leaves is its image. -/
theorem dump_writes_image_sample : ∃ file,
    (dump ⟨none, none, false⟩ .plenty 3).Exec (linkedWorld sampleTarget (ascii "/a"))
      (untouched (some [1])) true file ∧ file.disk = some (sampleTarget.image (ascii "/a")) := by
  rcases @sample_dumped ⟨none, none, false⟩ rfl rfl _ (.inr rfl) with ⟨file, run, -⟩
  exact ⟨file, run, dump_writes_image run⟩

end Ksnap
