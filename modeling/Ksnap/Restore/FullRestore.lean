import Ksnap.Restore.AddressSpace

/-!
# Everything restored

What a program that was let go has of its snapshot: the descriptors with their marks, the
kernel mappings with the content they had when the program was exec'ed, every area with its
own protection and payload, and the registers. The areas have all of it in the end where no
two of them share a page. The kernel mappings have it where they share none with an area, and
where no opcode is planted in them.
-/

namespace Ksnap

open Foundation Foundation.Program

/-- Everything that the snapshot has of the program, next to the child as its exec has left it. -/
structure FullyRestored (keeps : Bytes → Bool) (content : Bytes) (snapshot : Snapshot)
    (execed restored : Child × List Region) : Prop where
  descriptors : Placed keeps snapshot.pool hasCloexec snapshot.fds restored.1.descriptors
  kernelMaps : MapsMoved snapshot.header execed restored
  pages : ∀ vma ∈ snapshot.vmas, ∀ address, Within vma.startAddress vma.size.toNat address →
    pageAt restored.1.calls address = some ⟨mmapCall vma, vma.prot⟩
  payloads : ∀ vma ∈ snapshot.vmas, ∀ index < vma.size.toNat,
    some (restored.1.memory (vma.startAddress + UInt64.ofNat index)) =
      content[vma.dataOffset.toNat + index]?
  regs : restored.1.regs = snapshot.header.regs
  xstate : restored.1.xstate = some snapshot.xstate

section

variable {keeps : Bytes → Bool} {content : Bytes} {snapshot : Snapshot}
  {before middle after : Child × List Region}

/-! ## The kernel mappings, to the end of the restore -/

/-- What is moved is found where it was, also when only the marks were set before. -/
theorem MapsMoved.of_onlyMarks {header : DumpHeader} (moved : MapsMoved header middle after)
    (marks : OnlyMarks before.1 middle.1) (layout : middle.2 = before.2) :
    MapsMoved header before after := by
  intro entry mem
  rcases moved entry mem with ⟨home, atHome, inPlace, contents⟩
  rw [layout] at atHome
  rw [marks.memory] at contents
  exact ⟨home, atHome, inPlace, contents⟩

/-- What was moved stays, as long as its place does and nothing is written there. -/
theorem MapsMoved.kept {header : DumpHeader} (moved : MapsMoved header before middle)
    (among : Among (header.countedKernelMaps.map (wantedRegion header)) after.2)
    (memory : ∀ entry ∈ header.countedKernelMaps, ∀ address,
      (wantedRegion header entry).Holds address →
        after.1.memory address = middle.1.memory address) :
    MapsMoved header before after := by
  intro entry mem
  rcases moved entry mem with ⟨home, atHome, _, contents⟩
  refine ⟨home, atHome, among _ (List.mem_map_of_mem mem), ?_⟩
  intro index inside
  have small : entry.1.size.toNat ≤ 2 ^ 64 := entry.1.size.toNat_lt.le
  have held : (wantedRegion header entry).Holds (entry.1.startAddress + UInt64.ofNat index) :=
    within_add _ small inside
  exact (memory entry mem _ held).trans (contents index inside)

theorem MapsMoved.among {header : DumpHeader} (moved : MapsMoved header before after) :
    Among (header.countedKernelMaps.map (wantedRegion header)) after.2 := by
  intro region mem
  rcases List.mem_map.mp mem with ⟨entry, entryMem, rfl⟩
  rcases moved entry entryMem with ⟨_, _, inPlace, _⟩
  exact inPlace

/-- No area has a page in common with where a kernel mapping is wanted. -/
theorem PagesApart.offPages (pagesApart : PagesApart snapshot) {vma : VmaDescriptor}
    (mem : vma ∈ snapshot.vmas) :
    OffPages (snapshot.header.countedKernelMaps.map (wantedRegion snapshot.header)) vma := by
  intro region regionMem address held
  rcases List.mem_map.mp regionMem with ⟨entry, entryMem, rfl⟩
  exact pagesApart.between vma mem entry entryMem address held

/-- No area is mapped over a kernel mapping. -/
theorem PagesApart.uncovered (pagesApart : PagesApart snapshot) {entry : KernelMap × ℕ}
    (entryMem : entry ∈ snapshot.header.countedKernelMaps) {address : UInt64}
    (held : (wantedRegion snapshot.header entry).Holds address) :
    ∀ vma ∈ snapshot.vmas, ¬Within vma.startAddress vma.size.toNat address := by
  intro vma mem within
  exact pagesApart.between vma mem entry entryMem address held
    (VmaDescriptor.within_pages within)

/-- The kernel mappings are moved, and the areas are mapped beside them. -/
theorem rebuildMemory_movesMaps (pagesApart : PagesApart snapshot) (held : Held before.1)
    (space : SpaceSound snapshot.header before.2)
    (site : SiteApart snapshot.header before.2 before.1.regs.rip) :
    (rebuildMemory snapshot).run.Ensures (extendedWorld content Controlled addressSpace)
      (fun _ => True) (fun outcome after => outcome.isSome →
        Held after.1 ∧ MapsMoved snapshot.header before after) before := by
  have trapped : ∀ event, Controlled event → Trapped event := fun _ controlled => controlled.2.1
  unfold rebuildMemory
  refine ensures_bind_success (ensures_beside
    (restoreFdFlags_onlyMarks controlled_undisturbed held)
    (restoreFdFlags_keepsLayout trapped before.2 snapshot.fds before rfl)) ?_
  rintro _ marked ⟨marks, layout⟩
  have spaceMarked : SpaceSound snapshot.header marked.2 := layout ▸ space
  have siteMarked : SiteApart snapshot.header marked.2 marked.1.regs.rip := by
    rw [layout, marks.regs]
    exact site
  refine ensures_bind_success (ensures_beside
    (restoreKernelMaps_spec controlled_undisturbed marks.held)
    (restoreKernelMaps_addressSpace trapped pagesApart.kernelMaps spaceMarked siteMarked)) ?_
  rintro _ moved ⟨⟨continues, _⟩, maps⟩
  have mapsMoved := maps.of_onlyMarks marks layout
  refine (ensures_beside (restoreVmas_spec controlled_undisturbed continues.held)
    (keepsLayout_forM (fun vma mem => restoreVma_keepsLayout trapped (pagesApart.offPages mem))
      moved mapsMoved.among)).mono ?_
  intro outcome after makes success
  rcases makes success with ⟨made, among⟩
  refine ⟨made.continues.held, mapsMoved.kept among ?_⟩
  intro entry mem address holds
  exact made.outside address (pagesApart.uncovered mem holds)

/-- The protections leave the kernel mappings where they are. -/
theorem restoreMemory_movesMaps (pagesApart : PagesApart snapshot) (held : Held before.1)
    (space : SpaceSound snapshot.header before.2)
    (site : SiteApart snapshot.header before.2 before.1.regs.rip) :
    (restoreMemory snapshot).run.Ensures (extendedWorld content Controlled addressSpace)
      (fun _ => True) (fun outcome after => outcome.isSome →
        MapsMoved snapshot.header before after) before := by
  have trapped : ∀ event, Controlled event → Trapped event := fun _ controlled => controlled.2.1
  unfold restoreMemory
  refine ensures_checked_bind (by simp) (fun _ _ _ => trivial) ?_
  rintro isOpen opened ⟨⟨sameChild, _⟩, sameLayout⟩ _
  obtain rfl : opened = before := Prod.ext sameChild sameLayout
  rw [ensures_lift_bind]
  refine (rebuildMemory_movesMaps pagesApart held space site).mono ?_
  intro rebuilt middle moves
  rw [ensures_ask_bind]
  rintro _ closed ⟨⟨sameChild, _⟩, sameLayout⟩
  obtain rfl : closed = middle := Prod.ext sameChild sameLayout
  refine ⟨trivial, ?_⟩
  rw [ensures_require_bind]
  refine ⟨?_, by simp⟩
  intro success
  rcases moves success with ⟨heldMoved, mapsMoved⟩
  refine (ensures_beside (restoreProtections_spec controlled_undisturbed heldMoved)
    (restoreProtections_keepsLayout trapped (fun vma mem => pagesApart.offPages mem) closed
      mapsMoved.among)).mono ?_
  intro outcome after protects done
  rcases protects done with ⟨⟨_, unchanged, _⟩, among⟩
  exact mapsMoved.kept among fun _ _ _ _ => congrFun unchanged.memory _

/-- Setting the registers moves nothing. -/
theorem restoreState_movesMaps (pagesApart : PagesApart snapshot) (held : Held before.1)
    (space : SpaceSound snapshot.header before.2)
    (site : SiteApart snapshot.header before.2 before.1.regs.rip) :
    (restoreState snapshot).run.Ensures (extendedWorld content Controlled addressSpace)
      (fun _ => True) (fun outcome after => outcome.isSome →
        MapsMoved snapshot.header before after) before := by
  unfold restoreState
  refine ensures_bind_success (restoreMemory_movesMaps pagesApart held space site) ?_
  intro _ rebuilt moved
  refine ensures_checked_bind (by simp) (fun _ _ _ => trivial) ?_
  rintro isSet ⟨loaded, layout⟩ ⟨⟨loads, _⟩, sameLayout⟩ success
  cases success
  obtain rfl : layout = rebuilt.2 := sameLayout
  obtain rfl : loaded = { rebuilt.1 with regs := snapshot.header.regs } := loads
  rw [ensures_ask_bind]
  rintro isSet ⟨final, layout⟩ ⟨⟨sets, _⟩, sameLayout⟩
  refine ⟨trivial, ?_⟩
  rw [ensures_require]
  refine ⟨?_, by simp⟩
  intro success _
  subst success
  obtain rfl : layout = rebuilt.2 := sameLayout
  obtain rfl : final = { rebuilt.1 with
    regs := snapshot.header.regs
    xstate := some snapshot.xstate } := sets
  exact moved

/-! ## What a restore that is through has restored -/

/-- Where every step was through, the areas have what they were given. -/
theorem Restored.fully (restored : Restored keeps content snapshot after.1)
    (pagesApart : PagesApart snapshot) (moved : MapsMoved snapshot.header before after) :
    FullyRestored keeps content snapshot before after where
  descriptors := restored.descriptors
  kernelMaps := moved
  pages := fun _ mem _ within =>
    pageAt_rebuilt restored.memory pagesApart mem (VmaDescriptor.within_pages within)
  payloads := by
    apply restored.memory.payloads.of_apart
    have areas := pagesApart.areas
    rw [List.pairwise_map] at areas ⊢
    exact areas.imp apart_range_of_pages
  regs := restored.regs
  xstate := restored.xstate

theorem restoreState_fully (inOrder : EachAfter FollowsInOrder snapshot.fds)
    (pagesApart : PagesApart snapshot) (held : Held before.1)
    (placed : Placed keeps snapshot.pool unmarked snapshot.fds before.1.descriptors)
    (space : SpaceSound snapshot.header before.2)
    (site : SiteApart snapshot.header before.2 before.1.regs.rip) :
    (restoreState snapshot).run.Ensures (extendedWorld content Controlled addressSpace)
      (fun met => Held met.1) (fun outcome after => outcome.isSome →
        FullyRestored keeps content snapshot before after) before := by
  have onChild := @restoreState_spec _ content _ _ inOrder held placed
  have restores := @ensures_extended content Controlled addressSpace _ _ _ _ before onChild
  refine (restores.and (restoreState_movesMaps pagesApart held space site)).mono ?_
  rintro outcome after ⟨restored, moved⟩ success
  exact (restored success).fully pagesApart (moved success)

end

/-! ## The spawn -/

/-- The calls of the child before its exec, and the exec. -/
def Forking : RestoreCall → Prop
  | .closeRange | .dup2 _ _ | .openFile _ _ | .lseek _ _ | .close _ | .personality | .traceMe
  | .execv _ | .exit => True
  | _ => False

theorem seekOpened_forking (entry : FdDescriptor) (opened : Int32) :
    (seekOpened entry opened).run.OnlyCalls Forking := by
  unfold seekOpened
  split
  · refine .attempt_bind (onlyCalls_ask trivial) fun seeks => ?_
    cases seeks with
    | true => exact trivial
    | false => exact .attempt_bind (onlyCalls_ask trivial) fun _ => trivial
  · trivial

theorem moveOpened_forking (entry : FdDescriptor) (opened : Int32) :
    (moveOpened entry opened).run.OnlyCalls Forking := by
  unfold moveOpened
  split
  · refine .attempt_bind (onlyCalls_ask trivial) fun moved => ?_
    exact .attempt_bind (onlyCalls_ask trivial) fun _ => onlyCalls_require
  · trivial

theorem openSnapshotFds_forking (fds : List FdDescriptor) (pool : Bytes) :
    (openSnapshotFds fds pool).run.OnlyCalls Forking := by
  unfold openSnapshotFds
  refine .attempt_bind (onlyCalls_ask trivial) fun closed => ?_
  refine .attempt_bind onlyCalls_require fun _ => onlyCalls_forM fun entry => ?_
  unfold openSnapshotFd
  split
  · exact .attempt_bind (onlyCalls_ask trivial) fun _ => onlyCalls_require
  · refine .attempt_bind (onlyCalls_ask trivial) fun opened => ?_
    refine .attempt_bind onlyCalls_give fun opened => ?_
    exact .attempt_bind (seekOpened_forking entry opened) fun _ => moveOpened_forking entry opened

theorem spawnTracedChild_forking (exePath : Bytes) (fds : List FdDescriptor) (pool : Bytes) :
    (spawnTracedChild exePath fds pool).OnlyCalls Forking := by
  refine .bind (openSnapshotFds_forking fds pool) fun opened => ?_
  split
  · refine .bind (onlyCalls_perform.mpr trivial) fun _ => ?_
    refine .bind (onlyCalls_perform.mpr trivial) fun _ => ?_
    refine .bind (onlyCalls_perform.mpr trivial) fun execed => ?_
    cases execed with
    | true => exact trivial
    | false => exact onlyCalls_perform.mpr trivial
  · exact onlyCalls_perform.mpr trivial

/-- Before its exec the child stays where it is, unless it is gone. -/
theorem forking_stays {content : Bytes} {before after : Child} {event : RestoreEvent}
    (forking : Forking event.request) (notExec : ∀ path, event ≠ ⟨.execv path, true⟩)
    (takes : ChildStep content before event after) :
    (after.phase = before.phase ∧ after.regs = before.regs) ∨ after.phase = .gone := by
  rcases event with ⟨request, reply⟩
  cases request with
  | closeRange | traceMe => cases reply <;> obtain rfl := takes <;> exact .inl ⟨rfl, rfl⟩
  | close fd | personality => obtain rfl := takes; exact .inl ⟨rfl, rfl⟩
  | exit => obtain rfl := takes; exact .inr rfl
  | dup2 old new =>
      cases reply with
      | false => obtain rfl := takes; exact .inl ⟨rfl, rfl⟩
      | true => obtain ⟨_, rfl⟩ := takes; exact .inl ⟨rfl, rfl⟩
  | openFile path flags =>
      cases reply with
      | none => obtain rfl := takes; exact .inl ⟨rfl, rfl⟩
      | some fd => obtain ⟨_, rfl⟩ := takes; exact .inl ⟨rfl, rfl⟩
  | lseek fd position =>
      cases reply with
      | false => obtain rfl := takes; exact .inl ⟨rfl, rfl⟩
      | true => obtain ⟨_, _, rfl⟩ := takes; exact .inl ⟨rfl, rfl⟩
  | execv path =>
      cases reply with
      | false => obtain rfl := takes; exact .inl ⟨rfl, rfl⟩
      | true => exact absurd rfl (notExec path)
  | _ => exact forking.elim

/-! ## The whole run -/

/-- The exec leaves the child with its rip apart from the kernel mappings of the snapshot, and from
where they are wanted. -/
def SiteClear (outcome : Except ReadError Snapshot) : RestoreEvent → Child × List Region → Prop
  | ⟨.execv _, true⟩, after =>
      ∀ snapshot, outcome = .ok snapshot → SiteApart snapshot.header after.2 after.1.regs.rip
  | _, _ => True

/-- The world of a restore with the mappings that the program of the snapshot has from its exec
on, in which only some events can happen, and only with some outcomes. -/
abbrev spaceWorld (content : Bytes) (rely : RestoreEvent → Prop)
    (clear : RestoreEvent → Child × List Region → Prop) : Environment RestoreInterface where
  State := Child × List Region
  step := fun before request reply after =>
    (extendedWorld content rely addressSpace).step before request reply after ∧
      clear ⟨request, reply⟩ after

section

variable {content : Bytes} {rely : RestoreEvent → Prop}
  {clear : RestoreEvent → Child × List Region → Prop} {snapshot : Snapshot}
  {start : Child × List Region}

/-- The child was spawned, and what is met after that has everything of the snapshot. -/
def RestoredAlong (content : Bytes) (rely : RestoreEvent → Prop)
    (clear : RestoreEvent → Child × List Region → Prop) (snapshot : Snapshot)
    (start met : Child × List Region) : Prop :=
  ∃ execed, (spawnTracedChild snapshot.header.exeString snapshot.fds snapshot.pool).Exec
      (spaceWorld content rely clear) start () execed ∧
    (restoreChild snapshot).Reaches (spaceWorld content rely clear) execed met ∧
      FullyRestored start.1.keepsPosition content snapshot execed met

/-- The program of the snapshot runs freely only with everything restored. On every other run it
was never exec'ed, or it is killed before it ran. -/
structure OnlyReleased (faults : ReaderFaults) (file : RegularFile) (rely : RestoreEvent → Prop)
    (clear : RestoreEvent → Child × List Region → Prop) (start : Child × List Region) : Prop where
  freely : ∀ met, (restorer faults file).Reaches (spaceWorld file.bytes rely clear) start met →
    met.1.ranOwn = true → ∃ snapshot, readOutcome faults file = .ok snapshot ∧
      RestoredAlong file.bytes rely clear snapshot start met
  settled : ∀ result final,
    (restorer faults file).Exec (spaceWorld file.bytes rely clear) start result final →
      (∃ snapshot, readOutcome faults file = .ok snapshot ∧
        RestoredAlong file.bytes rely clear snapshot start final) ∨
      ((final.1.phase = .engine ∨ final.1.phase = .gone) ∧ final.1.ranOwn = false)

/-- What holds with the mappings of the child holds where less can happen. -/
theorem ensures_spaceWorld {α : Type} {program : Program RestoreInterface α}
    {always : Child × List Region → Prop} {post : α → Child × List Region → Prop}
    (ensures : program.Ensures (extendedWorld content rely addressSpace) always post start) :
    program.Ensures (spaceWorld content rely clear) always post start := by
  have allowed : ∀ state request reply final,
      (spaceWorld content rely clear).step state request reply final →
        (extendedWorld content rely addressSpace).step state request reply final :=
    fun _ _ _ _ step => step.1
  exact @Ensures.simulate _ _ (spaceWorld content rely clear) start
    (extendedWorld content rely addressSpace) id allowed program always post ensures

/-- The mappings are those of the program, and where it waits, its rip is apart from them. -/
theorem spawnTracedChild_siteApart (exePath : Bytes) (fds : List FdDescriptor) (pool : Bytes)
    {outcome : Except ReadError Snapshot} (read : outcome = .ok snapshot)
    (engine : start.1.phase = .engine) :
    (spawnTracedChild exePath fds pool).Ensures (spaceWorld content rely (SiteClear outcome))
      (fun _ => True) (fun _ spawned => spawned.2 = start.2 ∧ (spawned.1.phase = .stopped →
        SiteApart snapshot.header spawned.2 spawned.1.regs.rip)) start := by
  have keeps : (spawnTracedChild exePath fds pool).Ensures
      (spaceWorld content rely (SiteClear outcome))
      (fun met => met.2 = start.2 ∧ (met.1.phase = .stopped →
        SiteApart snapshot.header met.2 met.1.regs.rip))
      (fun _ spawned => spawned.2 = start.2 ∧ (spawned.1.phase = .stopped →
        SiteApart snapshot.header spawned.2 spawned.1.regs.rip)) start := by
    refine (spawnTracedChild_forking exePath fds pool).ensures ?_ ?_
    · rintro before request reply ⟨after, layout⟩ forking ⟨sameLayout, apart⟩
        ⟨⟨⟨takes, _⟩, beside⟩, clear⟩
      have notStep : request ≠ RestoreCall.waitStep := by
        rintro rfl
        exact forking
      obtain rfl : layout = before.2 := addressSpace_step_eq beside notStep
      refine ⟨sameLayout, fun stopped => ?_⟩
      by_cases isExec : ∃ path, (⟨request, reply⟩ : RestoreEvent) = ⟨.execv path, true⟩
      · rcases isExec with ⟨path, isExec⟩
        rw [isExec] at clear
        exact clear snapshot read
      · have notExec : ∀ path, (⟨request, reply⟩ : RestoreEvent) ≠ ⟨.execv path, true⟩ :=
          fun path same => isExec ⟨path, same⟩
        rcases forking_stays forking notExec takes with ⟨phase, regs⟩ | gone
        · rw [regs]
          exact apart (phase ▸ stopped)
        · rw [stopped] at gone
          cases gone
    · refine ⟨rfl, fun stopped => ?_⟩
      rw [engine] at stopped
      cases stopped
  exact keeps.weaken fun _ _ => trivial

/-- It is restored whether it runs or waits. -/
theorem FullyRestored.withPhase {keeps : Bytes → Bool} {execed restored : Child × List Region}
    (fully : FullyRestored keeps content snapshot execed restored) (phase : Phase)
    (ranOwn : Bool) :
    FullyRestored keeps content snapshot execed
      ({ restored.1 with phase := phase, ranOwn := ranOwn }, restored.2) where
  descriptors := fully.descriptors
  kernelMaps := fully.kernelMaps
  pages := fully.pages
  payloads := fully.payloads
  regs := fully.regs
  xstate := fully.xstate

theorem fullyRestored_lasting {keeps : Bytes → Bool} {execed : Child × List Region} :
    Lasting (spaceWorld content Controlled clear)
      (FullyRestored keeps content snapshot execed) where
  detached := by
    rintro before detached ⟨released, layout⟩ ⟨⟨⟨step, _⟩, sameLayout⟩, _⟩ restored
    obtain rfl : layout = before.2 := sameLayout
    cases detached with
    | false =>
        obtain rfl : released = before.1 := step
        exact restored
    | true =>
        obtain rfl : released = { before.1 with phase := .free, ranOwn := true } := step
        exact restored.withPhase .free true
  ended := by
    rintro before _ ⟨ended, layout⟩ ⟨⟨⟨step, _⟩, sameLayout⟩, _⟩ restored
    obtain rfl : layout = before.2 := sameLayout
    obtain rfl : ended = { before.1 with
      phase := if before.1.phase = .stopped then .stopped else .gone } := step
    exact restored.withPhase _ before.1.ranOwn

/-- From the spawned child on, only one that is fully restored is let go. -/
theorem restoreChild_fully (inOrder : EachAfter FollowsInOrder snapshot.fds)
    (pagesApart : PagesApart snapshot) {keeps : Bytes → Bool} {spawned : Child × List Region}
    (isSpawned : Spawned keeps snapshot spawned.1)
    (space : SpaceSound snapshot.header spawned.2)
    (site : spawned.1.phase = .stopped →
      SiteApart snapshot.header spawned.2 spawned.1.regs.rip) :
    (restoreChild snapshot).Ensures (spaceWorld content Controlled clear)
      (OnlyWhole Prod.fst (FullyRestored keeps content snapshot spawned))
      (fun _ => Settled Prod.fst (FullyRestored keeps content snapshot spawned)) spawned := by
  have views : Views content (spaceWorld content Controlled clear) Prod.fst :=
    fun _ _ _ _ step => step.1.1
  refine restoreChild_settles views fullyRestored_lasting isSpawned.back ?_
  rintro ⟨waited, layout⟩ ⟨⟨⟨⟨isStopped, unchanged⟩, _⟩, sameLayout⟩, _⟩
  obtain rfl : layout = spawned.2 := sameLayout
  obtain rfl : waited = spawned.1 := unchanged
  rcases isSpawned.stopped isStopped with ⟨held, placed⟩
  exact ⟨held, ensures_spaceWorld
    (restoreState_fully inOrder pagesApart held placed space (site isStopped))⟩

end

/-- Where the child is traced, the injections are undisturbed and hit none of the kernel mappings,
and the snapshot has pages of their own for all that it restores, the program runs freely only
with everything restored. Otherwise it was never exec'ed, or it is killed before it ran. -/
theorem restorer_releases {faults : ReaderFaults} {file : RegularFile} {child : Child}
    {layout : List Region} (forked : Forked child)
    (suits : ∀ snapshot, readOutcome faults file = .ok snapshot →
      PagesApart snapshot ∧ SpaceSound snapshot.header layout) :
    OnlyReleased faults file Controlled (SiteClear (readOutcome faults file)) (child, layout) := by
  have both := @restorer_settles
    (spaceWorld file.bytes Controlled (SiteClear (readOutcome faults file))) Prod.fst
    (child, layout) faults file (fun snapshot => RestoredAlong file.bytes Controlled
      (SiteClear (readOutcome faults file)) snapshot (child, layout)) forked ?_
  · exact ⟨both.1, both.2⟩
  intro snapshot read
  rcases suits snapshot read with ⟨pagesApart, space⟩
  have inOrder := inOrder_of_accepted (accepted_of_readOutcome read)
  refine restoreRead_settles ?_ forked.2 ?_
  · rintro reply ⟨started, startedLayout⟩ ⟨⟨⟨step, _⟩, sameLayout⟩, _⟩
    refine Prod.ext ?_ sameLayout
    cases reply <;> exact step
  · have spawns : (spawnTracedChild snapshot.header.exeString snapshot.fds snapshot.pool).Ensures
        (spaceWorld file.bytes Controlled (SiteClear (readOutcome faults file)))
        (fun met => met.1.ranOwn = false)
        (fun _ spawned => Spawned child.keepsPosition snapshot spawned.1) (child, layout) :=
      ensures_spaceWorld (ensures_extended (spawnTracedChild_spec inOrder forked))
    refine ((spawns.and (spawnTracedChild_siteApart _ _ _ read forked.1)).with_run.weaken
      fun _ met => met.1).mono ?_
    rintro _ spawned ⟨⟨isSpawned, sameLayout, site⟩, run⟩
    have spaceSpawned : SpaceSound snapshot.header spawned.2 := sameLayout ▸ space
    have releases := (restoreChild_fully inOrder pagesApart isSpawned spaceSpawned site).with_run
    refine (releases.weaken ?_).mono ?_
    · rintro met ⟨whole, reached⟩ ran
      exact ⟨spawned, run, reached, whole ran⟩
    · rintro _ final ⟨settled, along⟩
      exact settled.imp_left fun whole => ⟨spawned, run, along.reaches, whole⟩

/-! ## The sample -/

theorem controlled_spaceKernel {replies : KernelReplies} (traced : replies.traced = true)
    (stepped : replies.stepped = .trapped) (before : Child × List Region)
    (request : RestoreCall) :
    Controlled ⟨request, (spaceKernel sampleSpace replies before request).1⟩ := by
  refine ⟨?_, trapped_spaceKernel stepped before request, ?_⟩
  · cases request with
    | traceMe => exact traced
    | _ => trivial
  · cases request with
    | putBack address word => rfl
    | _ => trivial

/-- A kernel with the mappings of the sample keeps to the world of a restore. -/
theorem spaceKernel_spaceStep {replies : KernelReplies} {content : Bytes}
    (holds : replies.content = content) {rely : RestoreEvent → Prop}
    {clear : RestoreEvent → Child × List Region → Prop}
    (relied : ∀ before request,
      rely ⟨request, (spaceKernel sampleSpace replies before request).1⟩)
    (clears : ∀ before request, clear ⟨request, (spaceKernel sampleSpace replies before request).1⟩
      (spaceKernel sampleSpace replies before request).2)
    (before : Child × List Region) (request : RestoreCall) :
    (spaceWorld content rely clear).step before request
      (spaceKernel sampleSpace replies before request).1
      (spaceKernel sampleSpace replies before request).2 := by
  subst holds
  rcases spaceKernel_step relied before request with ⟨onChild, beside⟩
  refine ⟨⟨onChild, ?_⟩, clears before request⟩
  cases request with
  | waitStep =>
      refine ⟨beside, ?_⟩
      unfold spaceKernel
      dsimp only
      split
      · intro isTrapped
        cases isTrapped
      · rename_i after _ steps
        intro _
        have kept := (spaceStep_spec steps).2.2
        constructor
        · intro isFcntl
          refine kept ?_
          rw [isFcntl]
          decide
        · intro isMapping region mem _
          rw [kept (by rcases isMapping with same | same <;> rw [same] <;> decide)]
          exact mem
      · intro isTrapped
        cases isTrapped
  | readMaps =>
      generalize (spaceKernel sampleSpace replies before .readMaps).1 = reply at beside ⊢
      cases reply <;> exact beside
  | _ => exact beside

/-- What evaluates under the kernel is a run of the world. -/
theorem exec_of_spaceKernel {α : Type} {replies : KernelReplies} {content : Bytes}
    (holds : replies.content = content) {rely : RestoreEvent → Prop}
    {clear : RestoreEvent → Child × List Region → Prop}
    (relied : ∀ before request,
      rely ⟨request, (spaceKernel sampleSpace replies before request).1⟩)
    (clears : ∀ before request, clear ⟨request, (spaceKernel sampleSpace replies before request).1⟩
      (spaceKernel sampleSpace replies before request).2)
    {program : Program RestoreInterface α} {before after : Child × List Region} {result : α}
    (evaluated : program.evaluate (spaceKernel sampleSpace replies) before =
      some (result, after)) :
    program.Exec (spaceWorld content rely clear) before result after :=
  @exec_of_evaluate _ _ (spaceWorld content rely clear) before (spaceKernel sampleSpace replies)
    (spaceKernel_spaceStep holds relied clears) program result after evaluated

/-- The exec is at the entry of the program. -/
theorem siteClear_spaceKernel {replies : KernelReplies} (before : Child × List Region)
    (request : RestoreCall) : SiteClear (readOutcome .none sampleSnapshot)
      ⟨request, (spaceKernel sampleSpace replies before request).1⟩
      (spaceKernel sampleSpace replies before request).2 := by
  cases request with
  | execv path =>
      unfold spaceKernel
      dsimp only
      split
      · rename_i isHome
        intro snapshot read
        rw [readOutcome_sample] at read
        cases read
        exact isHome.1 ▸ isHome.2 ▸ siteApart_sample
      · trivial
  | _ => trivial

/-- Everything of the sample is on pages of its own. -/
theorem pagesApart_sample : PagesApart sampleParts.snapshot where
  kernelMaps := mapsSound_sample.mapsApart
  areas := by
    have pages : sampleParts.snapshot.vmas.map VmaDescriptor.pages =
        [(0x1000, 0x1000), (0x3000, 0x1000)] := by
      decide +kernel
    have apart : (⟨[], 0x1000, 0x1000⟩ : Region).Apart ⟨[], 0x3000, 0x1000⟩ :=
      Region.apart_of_below (by decide) (by decide)
    rw [pages]
    exact List.pairwise_pair.mpr fun address inFirst inSecond => apart address ⟨inFirst, inSecond⟩
  between := by
    have below : ∀ vma ∈ sampleParts.snapshot.vmas,
        ∀ entry ∈ sampleParts.header.countedKernelMaps,
          vma.startAddress.toNat + roundToPages vma.size.toNat ≤ entry.1.startAddress.toNat ∧
            entry.1.startAddress.toNat + entry.1.size.toNat ≤ 2 ^ 64 := by
      decide +kernel
    intro vma vmaMem entry entryMem address held within
    rcases below vma vmaMem entry entryMem with ⟨before, noWrap⟩
    have there := (within_iff_of_noWrap noWrap).mp held
    have here := (within_iff_of_noWrap (by omega)).mp within
    omega

def sampleReplies (traced : Bool) : KernelReplies :=
  ⟨sampleSnapshot.bytes, none, traced, .trapped⟩

theorem content_sampleReplies (traced : Bool) :
    (sampleReplies traced).content = sampleSnapshot.bytes := rfl

set_option maxRecDepth 30000 in
/-- The sample is let go with everything restored. -/
theorem restorer_releases_sample : ∃ final : Child × List Region, final.1.ranOwn = true ∧
    ∃ snapshot, readOutcome .none sampleSnapshot = .ok snapshot ∧
      RestoredAlong sampleSnapshot.bytes Controlled (SiteClear (readOutcome .none sampleSnapshot))
        snapshot (sampleEngine, sampleSpace.home) final := by
  have evaluates : ((restoreRead sampleParts.snapshot).evaluate
      (spaceKernel sampleSpace (sampleReplies true)) (sampleEngine, sampleSpace.home)).map
        (fun ends => (ends.1, ends.2.1.ranOwn)) = some (true, true) := by
    decide +kernel
  rcases Option.map_eq_some_iff.mp evaluates with ⟨⟨result, final⟩, evaluated, ends⟩
  rw [Prod.mk.injEq] at ends
  rcases ends with ⟨_, ran⟩
  have reached := (exec_of_spaceKernel (content_sampleReplies true) (controlled_spaceKernel rfl rfl)
    siteClear_spaceKernel evaluated).reaches
  rw [← restorer_of_read readOutcome_sample] at reached
  have suits : ∀ snapshot, readOutcome .none sampleSnapshot = .ok snapshot →
      PagesApart snapshot ∧ SpaceSound snapshot.header sampleSpace.home := by
    intro snapshot read
    rw [readOutcome_sample] at read
    cases read
    exact ⟨pagesApart_sample, spaceSound_sample⟩
  have forked : Forked sampleEngine := ⟨rfl, rfl⟩
  exact ⟨final, ran, (restorer_releases forked suits).freely final reached ran⟩

set_option maxRecDepth 30000 in
/-- A child that could not be traced runs the program from its start, with nothing of the
snapshot. -/
theorem not_restorer_releases : ¬∀ (faults : ReaderFaults) (file : RegularFile) (child : Child)
    (layout : List Region), Forked child →
      OnlyReleased faults file (fun _ => True) (fun _ _ => True) (child, layout) := by
  intro always
  have evaluates : ((restoreRead sampleParts.snapshot).evaluate
      (spaceKernel sampleSpace (sampleReplies false)) (sampleEngine, sampleSpace.home)).map
        (fun ends => (ends.2.1.ranOwn, ends.2.1.xstate)) = some (true, none) := by
    decide +kernel
  rcases Option.map_eq_some_iff.mp evaluates with ⟨⟨result, final⟩, evaluated, ends⟩
  rw [Prod.mk.injEq] at ends
  rcases ends with ⟨ran, untouched⟩
  have reached := (@exec_of_spaceKernel _ _ _ (content_sampleReplies false) (fun _ => True)
    (fun _ _ => True) (fun _ _ => trivial) (fun _ _ => trivial) _ _ _ _ evaluated).reaches
  rw [← restorer_of_read readOutcome_sample] at reached
  have released := always .none sampleSnapshot sampleEngine sampleSpace.home ⟨rfl, rfl⟩
  rcases released.freely final reached ran with ⟨_, _, _, _, _, restored⟩
  have xstate := restored.xstate
  rw [untouched] at xstate
  cases xstate

end Ksnap
