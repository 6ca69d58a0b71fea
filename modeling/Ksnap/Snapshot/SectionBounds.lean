import Ksnap.Snapshot.Written

/-!
# Sections inside the file

The reader bounds every section by the size of the file, with sums that wrap
around at 64 bits. For the xstate and for the vma table a sum that wrapped is
refused later all the same, by the seek to an offset that is negative as a `long`.
Nothing seeks to a payload before the restore, so there the wrap slips through,
and the payloads are inside exactly when none of their sums wraps.
-/

namespace Ksnap

open Foundation

/-- Every section of the snapshot lies inside the file, in plain numbers. -/
structure SectionsInside (file : RegularFile) (snapshot : Snapshot) : Prop where
  xstate : snapshot.header.xstateOffset.toNat + snapshot.header.xstateSize.toNat ≤
    file.bytes.length
  vmaTable : snapshot.header.vmaTableOffset.toNat + 48 * snapshot.header.vmaCount.toNat ≤
    file.bytes.length
  payloads : ∀ vma ∈ snapshot.vmas, vma.dataOffset.toNat + vma.size.toNat ≤ file.bytes.length

/-- The vma table as the file stores it. -/
def storedVmas (file : RegularFile) : List VmaDescriptor :=
  let header := headerCodec.decode file.bytes
  vmaCodec.decodeAll header.vmaCount.toNat
    (slice file.bytes header.vmaTableOffset.toNat (header.vmaCount.toNat * 48))

theorem Accepted.vmas_eq_stored {file : RegularFile} {snapshot : Snapshot}
    (accepted : Accepted file snapshot) : snapshot.vmas = storedVmas file := by
  rcases accepted.vmaTable with ⟨raw, read, vmas⟩
  rcases readAt_eq_some_iff.mp read with ⟨_, _, _, rfl⟩
  rw [vmas, storedVmas, accepted.header]
  rfl

theorem Accepted.xstate_inside {file : RegularFile} {snapshot : Snapshot}
    (accepted : Accepted file snapshot) :
    snapshot.header.xstateOffset.toNat + snapshot.header.xstateSize.toNat ≤
      file.bytes.length :=
  (readAt_eq_some_iff.mp accepted.xstate).2.2.1

theorem Accepted.vmaTable_inside {file : RegularFile} {snapshot : Snapshot}
    (accepted : Accepted file snapshot) :
    snapshot.header.vmaTableOffset.toNat + 48 * snapshot.header.vmaCount.toNat ≤
      file.bytes.length := by
  rcases accepted.vmaTable with ⟨_, read, _⟩
  have inside := (readAt_eq_some_iff.mp read).2.2.1
  omega

/-- A payload that passed the check is inside unless the sum wrapped around. -/
theorem VmaAccepted.inside_iff {file : RegularFile} {vma : VmaDescriptor}
    (accepted : VmaAccepted file vma) :
    vma.dataOffset.toNat + vma.size.toNat ≤ file.bytes.length ↔
      vma.dataOffset.toNat + vma.size.toNat < 2 ^ 64 := by
  have size := file.size_lt
  have checked := accepted.payload
  rw [UInt64.le_iff_toNat_le, UInt64.toNat_add, file.size_toNat] at checked
  constructor
  · omega
  · intro small
    rwa [Nat.mod_eq_of_lt small] at checked

/-- The sections of an accepted snapshot lie inside the file if and only if no entry of its
vma table has a payload whose end wraps around. -/
theorem sectionsInside_iff {faults : ReaderFaults} {file : RegularFile} {snapshot : Snapshot}
    (read : readOutcome faults file = .ok snapshot) :
    SectionsInside file snapshot ↔
      ∀ vma ∈ storedVmas file, vma.dataOffset.toNat + vma.size.toNat < 2 ^ 64 := by
  have accepted := accepted_of_readOutcome read
  rw [← accepted.vmas_eq_stored]
  constructor
  · intro inside vma mem
    exact (accepted.vmas vma mem).inside_iff.mp (inside.payloads vma mem)
  · intro small
    exact {
      xstate := accepted.xstate_inside
      vmaTable := accepted.vmaTable_inside
      payloads := fun vma mem => (accepted.vmas vma mem).inside_iff.mpr (small vma mem) }

/-! ## A payload past the end -/

/-- A snapshot of one mapping, with an xstate of the least size and nothing else. -/
def smallestParts (size : UInt64) : SnapshotParts where
  regs := UserRegs.ofWords (.replicate 27 0)
  xstate := List.replicate 576 0
  exePath := ascii "/a"
  vmas := [⟨0x1000, size, 0, 0, protRead, mapPrivate, 0, 0⟩]
  fds := []
  pool := []
  kernelMaps := []

theorem smallestParts_sound {size : UInt64} (nonempty : size ≠ 0) (small : size < 4096) :
    (smallestParts size).Sound where
  vmas_ne_nil := List.cons_ne_nil _ _
  vmas_lt := Nat.one_lt_two_pow (by decide)
  vma_nonempty := fun _ mem => List.mem_singleton.mp mem ▸ nonempty
  vma_inside := by
    intro vma mem
    rcases List.mem_singleton.mp mem with rfl
    have bound := UInt64.lt_iff_toNat_lt.mp small
    have page : (4096 : UInt64).toNat = 4096 := rfl
    simp only [page] at bound ⊢
    omega
  vma_prot := by
    intro vma mem
    have known : protRead &&& ~~~protAll = 0 := by decide
    exact List.mem_singleton.mp mem ▸ known
  fds_lt := Nat.two_pow_pos 32
  pool_lt := Nat.two_pow_pos 32
  kernelMaps_le := Nat.zero_le 4
  exePath_ne_nil := List.cons_ne_nil _ _
  exePath_lt := (by decide : (ascii "/a").length < pathMax)
  xstate_ge := List.length_replicate.ge
  xstate_lt := List.length_replicate.trans_lt (by decide)

/-- The file of such a snapshot, with the vma table given on its own. -/
def smallestFile (size : UInt64) (vmas : List VmaDescriptor) (payload : Bytes)
    (small : vmas.length < 4 ∧ payload.length < 4) : RegularFile where
  bytes := snapshotBytes (smallestParts size).header vmas [] [] (List.replicate 576 0) payload
  size_lt := by
    simp only [length_snapshotBytes, List.length_nil, List.length_replicate]
    omega

/-- The file is accepted as soon as the one entry of its table passes. -/
theorem readOutcome_smallestFile {size : UInt64} {vma : VmaDescriptor} {payload : Bytes}
    {small : [vma].length < 4 ∧ payload.length < 4} (nonempty : size ≠ 0) (short : size < 4096)
    (accepted : VmaAccepted (smallestFile size [vma] payload small) vma) :
    readOutcome .none (smallestFile size [vma] payload small) =
      .ok (laidOutSnapshot (smallestParts size).header [vma] [] []
        (List.replicate 576 0)) := by
  have sound := smallestParts_sound nonempty short
  have laidOut := laidOut_of_parts sound
  have header : LaidOut (smallestParts size).header [vma] [] [] (List.replicate 576 0) := {
    laidOut with }
  refine readOutcome_of_accepted (accepted_of_laidOut rfl header (headerSound_of_parts sound)
    (terminateExePath_header sound.exePath_lt) ?_ ?_)
  · simpa using accepted
  · intro some_
    exact absurd rfl some_

/-- Two bytes of payload at the last offset there is: the end of it wraps around to 1. -/
def wrappingVma : VmaDescriptor :=
  ⟨0x1000, 2, 0, 0xffffffffffffffff, protRead, mapPrivate, 0, 0⟩

/-- A file with such an entry is accepted, although its payload is nowhere in the file. -/
theorem not_sectionsInside_of_accepted :
    ¬∀ (faults : ReaderFaults) (file : RegularFile) (snapshot : Snapshot),
      readOutcome faults file = .ok snapshot → SectionsInside file snapshot := by
  intro always
  have accepted : VmaAccepted (smallestFile 2 [wrappingVma] [] (by decide)) wrappingVma := by
    constructor
    · decide
    · rw [UInt64.le_iff_toNat_le, RegularFile.size_toNat, smallestFile, length_snapshotBytes]
      exact Nat.le_trans (by decide : _ ≤ 4592) (by omega)
  have inside := always _ _ _ (readOutcome_smallestFile (by decide) (by decide) accepted)
  have past := inside.payloads wrappingVma List.mem_cons_self
  have size := (smallestFile 2 [wrappingVma] [] (by decide)).size_lt
  have offset : wrappingVma.dataOffset.toNat = 2 ^ 64 - 1 := rfl
  omega

/-- One byte of payload at the end of the file. -/
def smallestVma : VmaDescriptor := ⟨0x1000, 1, 0, 5216, protRead, mapPrivate, 0, 0⟩

def smallestSnapshot : RegularFile := smallestFile 1 [smallestVma] [7] (by decide)

def smallestRead : Snapshot :=
  laidOutSnapshot (smallestParts 1).header [smallestVma] [] [] (List.replicate 576 0)

theorem readOutcome_smallestSnapshot :
    readOutcome .none smallestSnapshot = .ok smallestRead := by
  have accepted : VmaAccepted smallestSnapshot smallestVma := by
    constructor
    · decide
    · rw [UInt64.le_iff_toNat_le, RegularFile.size_toNat, smallestSnapshot, smallestFile,
        length_snapshotBytes, List.length_replicate]
      decide
  exact readOutcome_smallestFile (by decide) (by decide) accepted

/-- The sections of the smallest snapshot are inside its file. -/
theorem sectionsInside_smallestFile :
    ∃ snapshot, readOutcome .none smallestSnapshot = .ok snapshot ∧
      storedVmas smallestSnapshot = [smallestVma] ∧ (SectionsInside smallestSnapshot snapshot ↔
        ∀ vma ∈ storedVmas smallestSnapshot, vma.dataOffset.toNat + vma.size.toNat < 2 ^ 64) := by
  have stored := (accepted_of_readOutcome readOutcome_smallestSnapshot).vmas_eq_stored
  exact ⟨smallestRead, readOutcome_smallestSnapshot, stored.symm,
    sectionsInside_iff readOutcome_smallestSnapshot⟩

end Ksnap
