import Ksnap.Restore.Obliging
import Ksnap.Restore.Release
import Ksnap.Snapshot.FdTable

/-!
# Descriptors reopened over those of the engine

The child starts with whatever the engine inherited, and an open takes the lowest number
that is free, which may be one of the standard descriptors. The table of the whole loop is
known round by round, so that what each round leaves alone is known as well: no round
touches a standard descriptor or its open file, and none of the reopened ones shares it.

A descriptor that was opened with `O_PATH` has no offset, and the one in its entry is
ignored. A device that takes every seek and keeps no position is at 0 as well.
-/

namespace Ksnap

open Foundation Foundation.Program

/-- A number of one of the standard descriptors. -/
def Standard (fd : Int32) : Prop := fd ≤ 2

/-- Above the standard descriptors, which are left alone, exactly the entries are in place. -/
structure Reopened (keeps : Bytes → Bool) (pool : Bytes) (fds : List FdDescriptor)
    (before after : DescriptorTable Int32 OpenFile) : Prop where
  standard : DescriptorTable.Unchanged Standard before after
  placed : Placed keeps pool unmarked fds after
  apart : ∀ fd, Standard fd → ∀ entry ∈ fds, ¬after.Shares fd entry.fd

section

variable {keeps : Bytes → Bool} {pool : Bytes} {before : List FdDescriptor}
  {entry : FdDescriptor}
  {engine table : DescriptorTable Int32 OpenFile}

theorem FollowsInOrder.notStandard (follows : FollowsInOrder before entry) :
    ¬Standard entry.fd :=
  Int32.not_le.mpr follows.aboveStdio

/-! ## One round -/

theorem placeEntry_slots {fd : Int32} (different : fd ≠ entry.fd) :
    (placeEntry keeps pool table entry).slots fd = table.slots fd := by
  unfold placeEntry
  split
  · exact DescriptorTable.slots_openAt_of_ne different
  · exact DescriptorTable.slots_aim_of_ne different

theorem unchanged_placeEntry (unchanged : DescriptorTable.Unchanged Standard engine table)
    (follows : FollowsInOrder before entry) :
    DescriptorTable.Unchanged Standard engine (placeEntry keeps pool table entry) := by
  unfold placeEntry
  split
  · exact unchanged.openAt follows.notStandard
  · exact unchanged.aim follows.notStandard

/-- A new open file is shared with nobody, and a copy with those its original is shared with. -/
theorem Reopened.place (reopened : Reopened keeps pool before engine table)
    (follows : FollowsInOrder before entry) :
    Reopened keeps pool (before ++ [entry]) engine (placeEntry keeps pool table entry) := by
  have placed := reopened.placed.place follows
  refine ⟨unchanged_placeEntry reopened.standard follows, placed, ?_⟩
  intro fd standard other mem shares
  have notEntry : fd ≠ entry.fd := fun same => follows.notStandard (same ▸ standard)
  have apartBefore : ∀ earlier ∈ before,
      ¬(placeEntry keeps pool table entry).Shares fd earlier.fd := by
    intro earlier earlierMem
    rw [DescriptorTable.shares_congr (placeEntry_slots notEntry)
      (placeEntry_slots (follows.ne earlierMem))]
    exact reopened.apart fd standard earlier earlierMem
  rcases List.mem_append.mp mem with earlier | last
  · exact apartBefore other earlier shares
  · cases List.mem_singleton.mp last
    by_cases own : entry.dupOf = -1
    · rw [placeEntry, if_pos own] at shares
      exact DescriptorTable.not_shares_openAt notEntry shares
    · rcases follows.copyOf own with ⟨original, originalMem, number⟩
      have copies := placed.copies entry mem own
      rw [← number] at copies
      exact apartBefore original originalMem (shares.trans copies.symm)

/-! ## The whole loop -/

theorem reopened_placeAll {fds : List FdDescriptor} (inOrder : EachAfter FollowsInOrder fds) :
    Reopened keeps pool fds engine (placeAll keeps pool engine fds) := by
  induction fds using List.reverseRecOn with
  | nil =>
      refine ⟨?_, placed_placeAll inOrder, by simp⟩
      apply DescriptorTable.unchanged_closeAll
      intro fd _ standard
      exact decide_eq_false (Int32.not_lt.mpr standard)
  | append_singleton before entry ih =>
      rcases eachAfter_concat.mp inOrder with ⟨earlier, follows⟩
      rw [placeAll_concat]
      exact (ih earlier).place follows

end

theorem inOrder_of_readFdTable {faults : ReaderFaults} {file : RegularFile} {header : DumpHeader}
    {fds : List FdDescriptor} {pool : Bytes}
    (reads : (readFdTable faults file header).outcome = .ok (fds, pool)) :
    EachAfter FollowsInOrder fds := by
  rcases Logged.outcome_eq_ok_iff.mp reads with ⟨final, yields⟩
  exact inOrder_of_fdTableAccepted (fdTableAccepted_of_yields yields)

/-- Whatever descriptors the engine has, the child that gets through the loop has its
standard ones and those of the table. -/
theorem snapshotFds_reopened {faults : ReaderFaults} {file : RegularFile} {header : DumpHeader}
    {fds : List FdDescriptor} {pool : Bytes}
    (reads : (readFdTable faults file header).outcome = .ok (fds, pool)) {content : Bytes}
    {rely : RestoreEvent → Prop} {engine opened : Child} (forked : Forked engine)
    (opens : (openSnapshotFds fds pool).run.Exec (childWorld content rely) engine (some ())
      opened) :
    Reopened engine.keepsPosition pool fds engine.descriptors opened.descriptors := by
  have inOrder := inOrder_of_readFdTable reads
  rcases (openSnapshotFds_places inOrder forked).exec opens rfl with ⟨_, descriptors, _⟩
  rw [descriptors]
  exact reopened_placeAll inOrder

/-! ## Descriptors of one path -/

/-- A file with nothing but these descriptors, all of them on `/f`. -/
def fdFile (fds : List FdDescriptor) (few : fds.length < 4) : RegularFile where
  bytes := fdCodec.encodeAll fds ++ ascii "/f" ++ [0]
  size_lt := by
    simp [fdCodec.length_encodeAll, ascii]
    omega

def fdFileHeader (fds : List FdDescriptor) : DumpHeader :=
  { (smallestParts 1).header with
    fdCount := .ofNat fds.length
    fdTableOffset := 0
    pathPoolOffset := .ofNat (32 * fds.length)
    pathPoolSize := 3 }

/-- A copy, and a copy of this copy. -/
def copiedFds : List FdDescriptor :=
  [⟨3, -1, 0, 0, 2, 0, 5⟩, ⟨5, 3, 0, 0, 2, 0, 0⟩, ⟨6, 5, 0, 0, 2, 0, 0⟩]

theorem readFdTable_copied :
    (readFdTable .none (fdFile copiedFds (by decide)) (fdFileHeader copiedFds)).outcome =
      .ok (copiedFds, ascii "/f" ++ [0]) := by decide +kernel

/-- A child with nothing open, which gets through the loop. -/
theorem openSnapshotFds_runs {fds : List FdDescriptor}
    (passes : ((openSnapshotFds fds (ascii "/f" ++ [0])).run.evaluate
      (obligingKernel ⟨[], none, true, .trapped⟩) forkedEngine).map Prod.fst = some (some ())) :
    ∃ opened, (openSnapshotFds fds (ascii "/f" ++ [0])).run.Exec (childWorld [] fun _ => True)
      forkedEngine (some ()) opened := by
  rcases Option.map_eq_some_iff.mp passes with ⟨⟨outcome, opened⟩, evaluates, success⟩
  cases success
  exact ⟨opened, exec_of_obligingKernel (fun _ _ => trivial) evaluates⟩

theorem snapshotFds_reopened_copied : ∃ opened : Child,
    Reopened (fun _ => true) (ascii "/f" ++ [0]) copiedFds forkedEngine.descriptors
      opened.descriptors := by
  rcases @openSnapshotFds_runs copiedFds (by decide +kernel) with ⟨opened, opens⟩
  exact ⟨opened, snapshotFds_reopened readFdTable_copied ⟨rfl, rfl⟩ opens⟩

/-- An entry that was opened with `O_PATH`, with an offset all the same. -/
def pathOnlyFd : FdDescriptor := ⟨3, -1, oPath, 0, 2, 0, 5⟩

theorem readFdTable_pathOnly :
    (readFdTable .none (fdFile [pathOnlyFd] (by decide)) (fdFileHeader [pathOnlyFd])).outcome =
      .ok ([pathOnlyFd], ascii "/f" ++ [0]) := by decide +kernel

/-- The offset of such an entry is ignored. -/
theorem not_snapshotFds_at_position : ¬∀ (faults : ReaderFaults) (file : RegularFile)
    (header : DumpHeader) (fds : List FdDescriptor) (pool content : Bytes)
    (engine opened : Child), (readFdTable faults file header).outcome = .ok (fds, pool) →
      Forked engine →
      (openSnapshotFds fds pool).run.Exec (childWorld content fun _ => True) engine (some ())
        opened →
      ∀ entry ∈ fds, entry.dupOf = -1 → ∃ file, opened.descriptors.LeadsTo entry.fd file ∧
        file.path = poolString pool entry.pathOffset ∧ file.position = entry.position := by
  intro always
  rcases @openSnapshotFds_runs [pathOnlyFd] (by decide +kernel) with ⟨opened, opens⟩
  rcases always _ _ _ _ _ _ _ opened readFdTable_pathOnly ⟨rfl, rfl⟩ opens pathOnlyFd
    List.mem_cons_self rfl with ⟨file, leadsTo, _, position⟩
  have inOrder := inOrder_of_readFdTable readFdTable_pathOnly
  rcases (openSnapshotFds_spec inOrder ⟨rfl, rfl⟩).exec opens rfl with ⟨_, placed⟩
  have same := leadsTo.unique (placed.own pathOnlyFd List.mem_cons_self rfl)
  rw [same] at position
  exact absurd position (by decide)

end Ksnap
