import Ksnap.Dump.Outcome
import Ksnap.Restore.Obliging
import Ksnap.Restore.Placement
import Ksnap.Snapshot.RoundTrip

/-!
# Descriptors from the target to the child

The descriptors of a target are a table too, of which the kernel reports each link,
offset and flags, and says of any two whether they share an open file. The table that
is collected from these reports and put in place in the child is the same one above the
standard descriptors, with the same files, marks and sharing.
-/

namespace Ksnap

open Foundation Foundation.Program

/-- What holds of every open file: its path is a string that fits, and the flags that only
matter to open are gone. Without access to the content there is no offset, and only some flags
are there at all. -/
structure OpenFile.Real (file : OpenFile) : Prop where
  path_lt : file.path.length < pathMax
  path_nulFree : 0 ∉ file.path
  flags : file.flags &&& droppedFlags = 0
  pathOnly : file.flags &&& oPath ≠ 0 → file.position = 0 ∧ file.flags &&& pathFlags = file.flags

/-- The file was opened the way that the engine opens it: by a 64 bit process, unless it was
opened without access to the content. -/
def OpenFile.Large (file : OpenFile) : Prop :=
  file.flags &&& oPath = 0 → file.flags ||| oLargefile = file.flags

/-- The flags as they are reported: those of the open file, and the mark. -/
def reportedFlags (flags : UInt32) (mark : Bool) : UInt32 :=
  flags ||| if mark then oCloexec else 0

/-- The kernel answers what is asked about the descriptors of this table. -/
structure Reported (files : FdFiles) (table : DescriptorTable Int32 OpenFile) : Prop where
  real : ∀ fd file, table.LeadsTo fd file → file.Real
  listed : ∀ names, files.directory = some names →
    ∀ fd, fd ∈ fdNumbers names ↔ (table.slots fd).isSome
  link : ∀ fd file, table.LeadsTo fd file → files.readlink fd = some file.path
  state : ∀ fd position flags, readFdState files fd = some (position, flags) →
    ∀ file mark, table.LeadsTo fd file → table.HasMark fd mark →
      position = file.position ∧ flags = reportedFlags file.flags mark
  kcmp : ∀ first second, (table.slots first).isSome → (table.slots second).isSome →
    ∃ order, files.kcmp first second = some order ∧ (order = 0 ↔ table.Shares first second)

/-- The descriptor is open in the target, and of the class that is dumped. -/
def Dumped (files : FdFiles) (target : DescriptorTable Int32 OpenFile) (fd : Int32) : Prop :=
  (target.slots fd).isSome ∧ (classifyFd files fd).1 = .dump

/-- What the dumped descriptors need for a restore to give their open files back: each was opened
as a 64 bit process does, and is on a file with a position, as every regular file has one. -/
def Reopens (files : FdFiles) (keeps : Bytes → Bool) (target : DescriptorTable Int32 OpenFile) :
    Prop :=
  ∀ fd, Dumped files target fd → ∀ file, target.LeadsTo fd file →
    file.Large ∧ keeps file.path = true

/-- Above the standard descriptors exactly the dumped ones are open, on the same files with
the same marks and the same sharing. -/
structure SameDescriptors (files : FdFiles) (target restored : DescriptorTable Int32 OpenFile) :
    Prop where
  numbers : ∀ fd, 2 < fd → ((restored.slots fd).isSome ↔ Dumped files target fd)
  leadsTo : ∀ fd, Dumped files target fd →
    ∀ file, target.LeadsTo fd file → restored.LeadsTo fd file
  marks : ∀ fd, Dumped files target fd →
    ∀ mark, target.HasMark fd mark → restored.HasMark fd mark
  sharing : ∀ first second, Dumped files target first → Dumped files target second →
    (restored.Shares first second ↔ target.Shares first second)

/-! ## Flags -/

theorem and_or_right (left right mask : UInt32) :
    (left ||| right) &&& mask = (left &&& mask) ||| (right &&& mask) :=
  UInt32.toBitVec_inj.mp BitVec.and_or_distrib_right

theorem and_or_left (mask left right : UInt32) :
    mask &&& (left ||| right) = (mask &&& left) ||| (mask &&& right) :=
  UInt32.toBitVec_inj.mp BitVec.and_or_distrib_left

/-- Flags without those of a mask are all outside it. -/
theorem and_not_of_and_eq_zero {flags mask : UInt32} (none_ : flags &&& mask = 0) :
    flags &&& ~~~mask = flags := by
  have split := and_or_left flags mask (~~~mask)
  rw [UInt32.or_not_self, none_, UInt32.zero_or] at split
  rw [← split]
  exact UInt32.toBitVec_inj.mp BitVec.and_allOnes

section

variable {file : OpenFile} (real : file.Real) (mark : Bool)

include real

theorem OpenFile.Real.noCloexec : file.flags &&& oCloexec = 0 := by
  have isDropped : droppedFlags &&& oCloexec = oCloexec := rfl
  rw [← isDropped, ← UInt32.and_assoc, real.flags, UInt32.zero_and]

theorem reportedFlags_unmarked : reportedFlags file.flags mark &&& ~~~oCloexec = file.flags := by
  have absorbed : (if mark then oCloexec else 0) &&& ~~~oCloexec = 0 := by cases mark <;> rfl
  rw [reportedFlags, and_or_right, absorbed, UInt32.or_zero]
  exact and_not_of_and_eq_zero real.noCloexec

/-- The engine opens a file with the flags that it had. -/
theorem keptFlags_reportedFlags (large : file.Large) :
    keptFlags (reportedFlags file.flags mark &&& ~~~oCloexec) = file.flags := by
  rw [reportedFlags_unmarked real, keptFlags]
  split
  · rename_i hasContent
    rw [and_not_of_and_eq_zero real.flags]
    exact large hasContent
  · rename_i pathOnly
    exact (real.pathOnly pathOnly).2

theorem oCloexec_reportedFlags :
    decide (reportedFlags file.flags mark &&& oCloexec ≠ 0) = mark := by
  rw [reportedFlags, and_or_right, real.noCloexec]
  cases mark <;> rfl

omit real in
theorem oPath_reportedFlags (flags : UInt32) :
    reportedFlags flags mark &&& oPath = flags &&& oPath := by
  have disjoint : (if mark then oCloexec else 0) &&& oPath = 0 := by cases mark <;> rfl
  rw [reportedFlags, and_or_right, disjoint, UInt32.or_zero]

end

/-! ## The collected table -/

section

variable {files : FdFiles} {keeps : Bytes → Bool} {target : DescriptorTable Int32 OpenFile}
  {start : PathPool} {names : List Bytes} {table : FdTable}

theorem leadsTo_of_isSome {fd : Int32} (open_ : (target.slots fd).isSome) :
    ∃ file mark, target.LeadsTo fd file ∧ target.HasMark fd mark := by
  rcases Option.isSome_iff_exists.mp open_ with ⟨slot, here⟩
  exact ⟨target.files slot.file, slot.cloexec, ⟨slot, here, rfl⟩, ⟨slot, here, rfl⟩⟩

/-- The entries are those of the dumped descriptors. -/
theorem dumped_iff (reported : Reported files target) (opened : files.directory = some names)
    (collected : FdTableCollected files start names table) {fd : Int32} :
    Dumped files target fd ↔ ∃ entry ∈ table.fds, entry.fd = fd := by
  rw [← List.mem_map, collected.numbers.mem_iff, dumpedFds, List.mem_filter,
    reported.listed names opened fd, Dumped]
  simp

/-- An entry describes the open file of its descriptor, and the mark of its own. -/
theorem openedFile_eq (reported : Reported files target) {pool : Bytes} {entry : FdDescriptor}
    (described : FdDescribed files pool entry) {file : OpenFile} {mark : Bool}
    (leadsTo : target.LeadsTo entry.fd file) (hasMark : target.HasMark entry.fd mark) :
    (file.Large → keeps file.path = true → openedFile keeps pool entry = file) ∧
      poolString pool entry.pathOffset = file.path ∧ hasCloexec entry = mark := by
  have real := reported.real entry.fd file leadsTo
  rcases reported.state entry.fd _ _ described.state file mark leadsTo hasMark with
    ⟨position, flags⟩
  have path : poolString pool entry.pathOffset = file.path := by
    have aboveStdio := described.aboveStdio
    have short : file.path.take (pathMax - 1) = file.path :=
      List.take_of_length_le (Nat.le_sub_one_of_lt real.path_lt)
    rw [described.path.poolString_eq (classifyFd_path_nulFree files entry.fd), classifyFd,
      if_neg (Int32.not_le.mpr aboveStdio), reported.link entry.fd file leadsTo]
    simp only [short]
    exact cString_of_notMem real.path_nulFree
  refine ⟨?_, path, ?_⟩
  · intro large keepsPosition
    rw [openedFile, path, flags, keptFlags_reportedFlags real mark large,
      oPath_reportedFlags mark, position]
    simp only [keepsPosition, and_true]
    have offset : (if file.flags &&& oPath = 0 then file.position else 0) = file.position := by
      split
      · rfl
      · rename_i pathOnly
        exact (real.pathOnly pathOnly).1.symm
    rw [offset]
  · rw [hasCloexec, flags]
    exact oCloexec_reportedFlags real mark

theorem inOrder_of_collected (distinct : files.NumbersDistinct)
    (opened : files.directory = some names)
    (collected : FdTableCollected files start names table) :
    EachAfter FollowsInOrder table.fds := by
  intro before entry after split
  have ascending := strictlyAscending distinct opened collected
  rw [split] at ascending
  have mem : entry ∈ table.fds := split ▸ List.mem_append_right _ List.mem_cons_self
  refine ⟨(collected.described entry mem).aboveStdio, ?_, ?_⟩
  · intro other earlier
    exact (List.pairwise_append.mp ascending).2.2 other earlier entry List.mem_cons_self
  · intro isCopy
    rcases collected.shared before entry after split with own | copies
    · exact absurd own isCopy
    · rcases copies with ⟨other, earlier, _, number, _⟩
      exact ⟨other, earlier, number.symm⟩

/-- The entry whose open file a descriptor has: its own one, or the one it is a copy of. -/
theorem exists_original (reported : Reported files target) (opened : files.directory = some names)
    (collected : FdTableCollected files start names table) {pool : Bytes}
    {mark : FdDescriptor → Bool} {restored : DescriptorTable Int32 OpenFile}
    (placed : Placed keeps pool mark table.fds restored) {entry : FdDescriptor}
    (mem : entry ∈ table.fds) :
    ∃ original ∈ table.fds, original.dupOf = -1 ∧ restored.Shares original.fd entry.fd ∧
      target.Shares original.fd entry.fd := by
  have open_ : ∀ other ∈ table.fds, (target.slots other.fd).isSome := by
    intro other otherMem
    exact ((dumped_iff reported opened collected).mpr ⟨other, otherMem, rfl⟩).1
  rcases List.append_of_mem mem with ⟨before, after, split⟩
  rcases collected.shared before entry after split with own | copies
  · refine ⟨entry, mem, own, ?_, DescriptorTable.shares_self (open_ entry mem)⟩
    rcases placed.marks entry mem with ⟨slot, here, _⟩
    exact DescriptorTable.shares_self (by rw [here]; rfl)
  · rcases copies with ⟨original, earlier, own, number, same⟩
    have originalMem : original ∈ table.fds := split ▸ List.mem_append_left _ earlier
    refine ⟨original, originalMem, own, ?_, ?_⟩
    · rw [← number]
      apply placed.copies entry mem
      intro isOwn
      have above := (collected.described original originalMem).aboveStdio
      rw [← number, isOwn] at above
      exact absurd above (by decide)
    · rcases reported.kcmp original.fd entry.fd (open_ original originalMem) (open_ entry mem)
        with ⟨order, answers, shares⟩
      rw [same] at answers
      exact shares.mp (Option.some.inj answers).symm

/-- Entries on open files of their own share none in the target. -/
theorem not_shares_of_own (reported : Reported files target)
    (opened : files.directory = some names)
    (collected : FdTableCollected files start names table) {before after : List FdDescriptor}
    {first second : FdDescriptor} (split : table.fds = before ++ second :: after)
    (earlier : first ∈ before) (firstOwn : first.dupOf = -1) (secondOwn : second.dupOf = -1) :
    ¬target.Shares first.fd second.fd := by
  intro shares
  have isDumped : ∀ other ∈ table.fds, Dumped files target other.fd := fun other mem =>
    (dumped_iff reported opened collected).mpr ⟨other, mem, rfl⟩
  have compares : ∀ one ∈ dumpedFds files names, ∀ other ∈ dumpedFds files names,
      (files.kcmp one other).isSome := by
    intro one oneMem other otherMem
    have oneOpen := (reported.listed names opened one).mp (List.mem_filter.mp oneMem).1
    have otherOpen := (reported.listed names opened other).mp (List.mem_filter.mp otherMem).1
    rcases reported.kcmp one other oneOpen otherOpen with ⟨order, answers, _⟩
    rw [answers]
    rfl
  have firstMem : first ∈ table.fds := split ▸ List.mem_append_left _ earlier
  have secondMem : second ∈ table.fds := split ▸ List.mem_append_right _ List.mem_cons_self
  have firstDumped := isDumped first firstMem
  have secondDumped := isDumped second secondMem
  rcases leadsTo_of_isSome firstDumped.1 with ⟨file, mark, leadsTo, hasMark⟩
  rcases leadsTo_of_isSome secondDumped.1 with ⟨file', mark', leadsTo', hasMark'⟩
  have noSeek : Bytes → Bool := fun _ => true
  have firstPath :=
    (@openedFile_eq _ noSeek _ reported _ _ (collected.described first firstMem) _ _ leadsTo
      hasMark).2.1
  have secondPath :=
    (@openedFile_eq _ noSeek _ reported _ _ (collected.described second secondMem) _ _ leadsTo'
      hasMark').2.1
  have sameFile : file' = file := leadsTo'.unique (leadsTo.of_shares shares)
  have samePath : poolString table.pool.data second.pathOffset =
      poolString table.pool.data first.pathOffset := by
    rw [secondPath, firstPath, sameFile]
  rcases reported.kcmp first.fd second.fd firstDumped.1 secondDumped.1 with
    ⟨order, answers, isZero⟩
  apply collected.separate compares before second after split secondOwn first earlier firstOwn
    samePath
  rw [answers, isZero.mpr shares]

/-- The table that is in place is the one of the target. -/
theorem sameDescriptors_of_placed (reported : Reported files target)
    (distinct : files.NumbersDistinct) (opened : files.directory = some names)
    (collected : FdTableCollected files start names table) (reopens : Reopens files keeps target)
    {restored : DescriptorTable Int32 OpenFile}
    (placed : Placed keeps table.pool.data hasCloexec table.fds restored) :
    SameDescriptors files target restored := by
  have inOrder := inOrder_of_collected distinct opened collected
  have known : ∀ {fd : Int32}, Dumped files target fd ↔ ∃ entry ∈ table.fds, entry.fd = fd :=
    dumped_iff reported opened collected
  constructor
  · intro fd above
    rw [placed.numbers fd above, known]
  · intro fd dumped file leadsTo
    rcases known.mp dumped with ⟨entry, mem, rfl⟩
    rcases exists_original reported opened collected placed mem with
      ⟨original, originalMem, own, restoredShares, targetShares⟩
    have originalDumped := known.mpr ⟨original, originalMem, rfl⟩
    rcases leadsTo_of_isSome originalDumped.1 with ⟨file', mark, originalLeads, hasMark⟩
    have same : file' = file := (originalLeads.of_shares targetShares).unique leadsTo
    have described := collected.described original originalMem
    have restoredFile := placed.own original originalMem own
    rcases reopens original.fd originalDumped file' originalLeads with ⟨large, keepsPosition⟩
    rw [(openedFile_eq reported described originalLeads hasMark).1 large keepsPosition, same]
      at restoredFile
    exact restoredFile.of_shares restoredShares
  · intro fd dumped mark hasMark
    rcases known.mp dumped with ⟨entry, mem, rfl⟩
    rcases leadsTo_of_isSome dumped.1 with ⟨file, _, leadsTo, _⟩
    have described := collected.described entry mem
    have marked := placed.marks entry mem
    rw [(@openedFile_eq _ keeps _ reported _ _ described _ _ leadsTo hasMark).2.2] at marked
    exact marked
  · intro first second firstDumped secondDumped
    rcases known.mp firstDumped with ⟨entry, mem, rfl⟩
    rcases known.mp secondDumped with ⟨other, otherMem, rfl⟩
    rcases exists_original reported opened collected placed mem with
      ⟨original, originalMem, own, restoredShares, targetShares⟩
    rcases exists_original reported opened collected placed otherMem with
      ⟨original', originalMem', own', restoredShares', targetShares'⟩
    have originals : restored.Shares original.fd original'.fd ↔
        target.Shares original.fd original'.fd := by
      rcases eq_or_ne original original' with rfl | different
      · have restoredSelf := restoredShares.trans restoredShares.symm
        have targetSelf := targetShares.trans targetShares.symm
        exact ⟨fun _ => targetSelf, fun _ => restoredSelf⟩
      · have notRestored := placed.separate original originalMem original' originalMem' own own'
          (fd_ne_of_inOrder inOrder originalMem originalMem' different)
        have notTarget : ¬target.Shares original.fd original'.fd := by
          rcases exists_split_of_ne originalMem originalMem' different with
            ⟨before, after, split, earlier⟩ | ⟨before, after, split, earlier⟩
          · exact not_shares_of_own reported opened collected split earlier own own'
          · intro shares
            exact not_shares_of_own reported opened collected split earlier own' own shares.symm
        exact ⟨fun shares => absurd shares notRestored, fun shares => absurd shares notTarget⟩
    constructor
    · intro shares
      have both := (restoredShares.trans shares).trans restoredShares'.symm
      exact (targetShares.symm.trans (originals.mp both)).trans targetShares'
    · intro shares
      have both := (targetShares.trans shares).trans targetShares'.symm
      exact (restoredShares.symm.trans (originals.mpr both)).trans restoredShares'

end

/-! ## The restored descriptors -/

/-- Where every single step of an injected call comes back after its instruction, and the files
of the target were opened by 64 bit processes, a restore that gets through its descriptors has put
those of the target in place. -/
theorem descriptors_restored {files : FdFiles} {target : DescriptorTable Int32 OpenFile}
    (reported : Reported files target) (distinct : files.NumbersDistinct) {memory : Allocations}
    {start : PathPool} {table : FdTable} (collects : collectFds files memory start = some table)
    {content exePath : Bytes} {forked opened started restored : Child} (isForked : Forked forked)
    (reopens : Reopens files forked.keepsPosition target)
    (opens : (openSnapshotFds table.fds table.pool.data).run.Exec (childWorld content Trapped)
      forked (some ()) opened)
    (execs : (execTraced exePath).Exec (childWorld content Trapped) opened () started)
    (stopped : started.phase = .stopped)
    (marks : (restoreFdFlags table.fds).run.Exec (childWorld content Trapped) started (some ())
      restored) :
    SameDescriptors files target restored.descriptors := by
  rcases fdTableCollected_of_collectFds collects with ⟨names, listed, collected⟩
  have inOrder := inOrder_of_collected distinct listed collected
  rcases (openSnapshotFds_spec inOrder isForked).exec opens rfl with ⟨openedForked, placed⟩
  rcases ((execTraced_spec openedForked).exec execs).2 stopped with ⟨held, descriptors⟩
  have kept :
      Placed forked.keepsPosition table.pool.data unmarked table.fds started.descriptors := by
    rw [descriptors]
    exact placed.exec inOrder
  have marked := (restoreFdFlags_spec (fun _ trapped => trapped) inOrder held kept).exec marks rfl
  exact sameDescriptors_of_placed reported distinct listed collected reopens marked.2

/-! ## A target with descriptors that share a file -/

def oneFile : OpenFile where
  path := ascii "/f"
  flags := 0o100000
  position := 5

/-- Descriptors 0, 3 and 5 lead to one open file, and 5 has the mark. -/
def sharedTable : DescriptorTable Int32 OpenFile :=
  (((DescriptorTable.empty oneFile).openAt 3 oneFile).duplicate 3 0).aim 3 5 true

theorem slots_sharedTable {fd : Int32} {slot : Slot} (here : sharedTable.slots fd = some slot) :
    (fd = 0 ∨ fd = 3 ∨ fd = 5) ∧ slot = ⟨0, fd = 5⟩ := by
  by_cases five : fd = 5
  · subst five
    exact ⟨.inr (.inr rfl), (Option.some.inj here).symm⟩
  rw [sharedTable, DescriptorTable.slots_aim_of_ne five] at here
  by_cases zero : fd = 0
  · subst zero
    exact ⟨.inl rfl, (Option.some.inj here).symm⟩
  rw [DescriptorTable.duplicate, DescriptorTable.slots_aim_of_ne zero] at here
  by_cases three : fd = 3
  · subst three
    exact ⟨.inr (.inl rfl), (Option.some.inj here).symm⟩
  · rw [DescriptorTable.slots_openAt_of_ne three] at here
    cases here

theorem file_sharedTable {fd : Int32} {file : OpenFile} (leadsTo : sharedTable.LeadsTo fd file) :
    file = oneFile := by
  rcases leadsTo with ⟨slot, here, rfl⟩
  rw [(slots_sharedTable here).2]
  rfl

theorem sharedDescriptors_reported : Reported sharedDescriptors sharedTable where
  real := by
    intro fd file leadsTo
    rw [file_sharedTable leadsTo]
    exact ⟨by decide, by decide, rfl, fun pathOnly => absurd rfl pathOnly⟩
  listed := by
    intro names opened fd
    cases opened
    have numbers : fdNumbers [ascii "5", ascii "0", ascii "3"] = [5, 0, 3] := rfl
    rw [numbers]
    constructor
    · intro mem
      simp only [List.mem_cons, List.not_mem_nil, or_false] at mem
      rcases mem with rfl | rfl | rfl <;> rfl
    · intro isOpen
      rcases Option.isSome_iff_exists.mp isOpen with ⟨slot, here⟩
      rcases (slots_sharedTable here).1 with rfl | rfl | rfl <;> decide
  link := by
    intro fd file leadsTo
    rw [file_sharedTable leadsTo]
    rfl
  state := by
    intro fd position flags state file mark leadsTo hasMark
    rcases hasMark with ⟨slot, here, rfl⟩
    rw [file_sharedTable leadsTo]
    rcases slots_sharedTable here with ⟨rfl | rfl | rfl, rfl⟩
    all_goals
      cases (show readFdState sharedDescriptors _ = some (5, _) from rfl).symm.trans state
      exact ⟨rfl, rfl⟩
  kcmp := by
    intro first second firstOpen secondOpen
    rcases Option.isSome_iff_exists.mp firstOpen with ⟨slot, here⟩
    rcases Option.isSome_iff_exists.mp secondOpen with ⟨other, there⟩
    refine ⟨0, rfl, fun _ => ⟨slot, other, here, there, ?_⟩, fun _ => rfl⟩
    rw [(slots_sharedTable here).2, (slots_sharedTable there).2]

theorem sharedDescriptors_reopens : Reopens sharedDescriptors (fun _ => true) sharedTable := by
  intro fd _ file leadsTo
  rw [file_sharedTable leadsTo]
  exact ⟨fun _ => rfl, rfl⟩

set_option maxRecDepth 8000 in
/-- The entries are put in place, and the mark is where the single step came to its end. -/
theorem sharedEntries_run (stepped : StepStatus) : ∃ opened started restored : Child,
    (openSnapshotFds sampleFds.fds sampleFds.pool.data).run.evaluate
        (obligingKernel ⟨[], none, true, stepped⟩) forkedEngine = some (some (), opened) ∧
      (execTraced (ascii "/a")).evaluate (obligingKernel ⟨[], none, true, stepped⟩) opened =
        some ((), started) ∧ started.phase = .stopped ∧
      (restoreFdFlags sampleFds.fds).run.evaluate (obligingKernel ⟨[], none, true, stepped⟩)
        started = some (some (), restored) ∧
      restored.descriptors.slots 5 = some ⟨0, stepped = .trapped⟩ := by
  cases stepped with
  | trapped => exact ⟨_, _, _, rfl, rfl, rfl, rfl, rfl⟩
  | interrupted => exact ⟨_, _, _, rfl, rfl, rfl, rfl, rfl⟩

/-- The descriptors of the target are restored under a kernel that takes every single step to
its end. -/
theorem descriptors_restored_shared : ∃ restored : Child,
    SameDescriptors sharedDescriptors sharedTable restored.descriptors := by
  have relied := fun before request =>
    (@obligingKernel_relied ⟨[], none, true, .trapped⟩ rfl rfl before request).2.1
  rcases sharedEntries_run .trapped with
    ⟨opened, started, restored, opens, execs, stopped, marks, _⟩
  exact ⟨restored, descriptors_restored sharedDescriptors_reported
    sharedDescriptors_honest.distinct collectFds_shared ⟨rfl, rfl⟩ sharedDescriptors_reopens
    (exec_of_obligingKernel relied opens) (exec_of_obligingKernel relied execs) stopped
    (exec_of_obligingKernel relied marks)⟩

/-- A signal that is there before the single step leaves the mark out, and nobody notices. -/
theorem not_descriptors_restored : ¬∀ (files : FdFiles)
    (target : DescriptorTable Int32 OpenFile) (memory : Allocations) (start : PathPool)
    (table : FdTable) (content exePath : Bytes) (forked opened started restored : Child),
    Reported files target → files.Honest → collectFds files memory start = some table →
      Forked forked → Reopens files forked.keepsPosition target →
      (openSnapshotFds table.fds table.pool.data).run.Exec (childWorld content fun _ => True)
        forked (some ()) opened →
      (execTraced exePath).Exec (childWorld content fun _ => True) opened () started →
      started.phase = .stopped →
      (restoreFdFlags table.fds).run.Exec (childWorld content fun _ => True) started (some ())
        restored →
      SameDescriptors files target restored.descriptors := by
  intro always
  rcases sharedEntries_run .interrupted with
    ⟨opened, started, restored, opens, execs, stopped, marks, unmarked⟩
  have same := always _ _ _ _ _ [] (ascii "/a") forkedEngine opened started restored
    sharedDescriptors_reported sharedDescriptors_honest collectFds_shared ⟨rfl, rfl⟩
    sharedDescriptors_reopens (exec_of_obligingKernel (fun _ _ => trivial) opens)
    (exec_of_obligingKernel (fun _ _ => trivial) execs) stopped
    (exec_of_obligingKernel (fun _ _ => trivial) marks)
  have hasMark : sharedTable.HasMark 5 true := ⟨⟨0, true⟩, rfl, rfl⟩
  rcases same.marks 5 ⟨rfl, rfl⟩ true hasMark with ⟨slot, here, mark⟩
  rw [unmarked] at here
  cases here
  cases mark

end Ksnap
