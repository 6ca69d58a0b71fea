import Ksnap.Engine.WriteSnapshot
import Ksnap.Snapshot.Layout

/-!
# Written snapshots

The header and the vma table that `write_snapshot` computes lay out the file it
writes: each section starts where the one before it ends, and the payloads fill the
rest of the file, the last one up to its very end.
-/

namespace Ksnap

open Foundation

/-- What the collectors make sure of, whatever the target is. -/
structure SnapshotParts.Sound (parts : SnapshotParts) : Prop where
  vmas_ne_nil : parts.vmas ≠ []
  vmas_lt : parts.vmas.length < 2 ^ 32
  vma_nonempty : ∀ vma ∈ parts.vmas, vma.size ≠ 0
  vma_inside : ∀ vma ∈ parts.vmas, vma.startAddress.toNat + vma.size.toNat < 2 ^ 64
  vma_prot : ∀ vma ∈ parts.vmas, vma.prot &&& ~~~protAll = 0
  fds_lt : parts.fds.length < 2 ^ 32
  pool_lt : parts.pool.length < 2 ^ 32
  kernelMaps_le : parts.kernelMaps.length ≤ maxKernelMaps
  exePath_ne_nil : parts.exePath ≠ []
  exePath_lt : parts.exePath.length < pathMax
  xstate_ge : xstateMinSize.toNat ≤ parts.xstate.length
  xstate_lt : parts.xstate.length < xstateMaxSize.toNat

/-- The bytes of all payloads together. -/
def payloadSize (vmas : List VmaDescriptor) : ℕ :=
  (vmas.map fun vma => vma.size.toNat).sum

@[simp]
theorem payloadSize_cons (vma : VmaDescriptor) (vmas : List VmaDescriptor) :
    payloadSize (vma :: vmas) = vma.size.toNat + payloadSize vmas := rfl

/-- The file that is written for some parts, given all payloads in table order. -/
def SnapshotParts.fileBytes (parts : SnapshotParts) (payload : Bytes) : Bytes :=
  snapshotBytes parts.header parts.vmaTable parts.fds parts.pool parts.xstate payload

/-! ## Offsets of the payloads -/

@[simp]
theorem length_assignDataOffsets (offset : UInt64) (vmas : List VmaDescriptor) :
    (assignDataOffsets offset vmas).length = vmas.length := by
  induction vmas generalizing offset with
  | nil => rfl
  | cons vma vmas ih => simp [assignDataOffsets, ih]

/-- Only the offsets are new in the table. -/
theorem exists_of_mem_assignDataOffsets {offset : UInt64} {vmas : List VmaDescriptor}
    {placed : VmaDescriptor} (mem : placed ∈ assignDataOffsets offset vmas) :
    ∃ vma ∈ vmas, placed = { vma with dataOffset := placed.dataOffset } := by
  induction vmas generalizing offset with
  | nil => cases mem
  | cons vma vmas ih =>
      rcases List.mem_cons.mp mem with rfl | later
      · exact ⟨vma, List.mem_cons_self, rfl⟩
      · rcases ih later with ⟨original, originalMem, same⟩
        exact ⟨original, List.mem_cons_of_mem _ originalMem, same⟩

theorem toNat_add_size {offset size : UInt64} {rest : ℕ}
    (small : offset.toNat + (size.toNat + rest) < 2 ^ 64) :
    (offset + size).toNat = offset.toNat + size.toNat := by
  rw [UInt64.toNat_add]
  exact Nat.mod_eq_of_lt (by omega)

theorem payload_end_le {offset : UInt64} {vmas : List VmaDescriptor}
    (small : offset.toNat + payloadSize vmas < 2 ^ 64) {placed : VmaDescriptor}
    (mem : placed ∈ assignDataOffsets offset vmas) :
    placed.dataOffset.toNat + placed.size.toNat ≤ offset.toNat + payloadSize vmas := by
  induction vmas generalizing offset with
  | nil => cases mem
  | cons vma vmas ih =>
      rw [payloadSize_cons] at small ⊢
      rcases List.mem_cons.mp mem with rfl | later
      · change offset.toNat + vma.size.toNat ≤ _
        omega
      · have next := toNat_add_size small
        have within := ih (by omega) later
        omega

/-- The last payload ends where all of them end. -/
theorem exists_payload_end_eq {offset : UInt64} {vmas : List VmaDescriptor} (nonempty : vmas ≠ [])
    (small : offset.toNat + payloadSize vmas < 2 ^ 64) :
    ∃ placed ∈ assignDataOffsets offset vmas,
      placed.dataOffset.toNat + placed.size.toNat = offset.toNat + payloadSize vmas := by
  induction vmas generalizing offset with
  | nil => exact absurd rfl nonempty
  | cons vma vmas ih =>
      rw [payloadSize_cons] at small ⊢
      by_cases last : vmas = []
      · subst last
        exact ⟨{ vma with dataOffset := offset }, List.mem_cons_self, rfl⟩
      · have next := toNat_add_size small
        rcases @ih (offset + vma.size) last (by omega) with ⟨placed, placedMem, ends⟩
        exact ⟨placed, List.mem_cons_of_mem _ placedMem, by omega⟩

/-! ## The header -/

@[simp]
theorem copyOver_toList {α : Type} {count : ℕ} {filler : α} {items : List α}
    (fits : items.length ≤ count) :
    (copyOver count filler items).toList =
      items ++ List.replicate (count - items.length) filler := by
  simp [copyOver, List.Vector.toList, List.take_of_length_le fits]

theorem terminateExePath_header {parts : SnapshotParts} (short : parts.exePath.length < pathMax) :
    terminateExePath parts.header = parts.header := by
  have length : (UInt32.ofNat parts.exePath.length).toNat = parts.exePath.length := by
    rw [UInt32.toNat_ofNat']
    exact Nat.mod_eq_of_lt (by simp only [pathMax] at short; omega)
  have room : pathMax - parts.exePath.length = (pathMax - parts.exePath.length - 1) + 1 := by
    omega
  have same : parts.header.exePath.toList.set parts.header.exePathLen.toNat 0 =
      parts.header.exePath.toList := by
    simp only [SnapshotParts.header, copyOver_toList short.le, length]
    rw [room, List.replicate_succ, List.set_append_right _ _ le_rfl]
    simp
  simp only [terminateExePath, same]
  rfl

section

variable {parts : SnapshotParts} (sound : parts.Sound)

include sound

theorem headerSound_of_parts : HeaderSound parts.header := by
  have exePathShort := sound.exePath_lt
  have xstateGe := sound.xstate_ge
  have xstateLt := sound.xstate_lt
  have maps := sound.kernelMaps_le
  have vmaCount := sound.vmas_lt
  have vmaPositive := List.length_pos_of_ne_nil sound.vmas_ne_nil
  have exePathPositive := List.length_pos_of_ne_nil sound.exePath_ne_nil
  simp only [pathMax, xstateMinSize, xstateMaxSize, maxKernelMaps] at *
  exact {
    magic := rfl
    version := rfl
    vmaCount := by
      rw [ne_eq, ← UInt32.toNat_inj]
      simp only [SnapshotParts.header, UInt32.toNat_ofNat', UInt32.toNat_zero]
      omega
    kernelMapCount := by
      simp only [SnapshotParts.header, UInt32.toNat_ofNat', maxKernelMaps]
      omega
    exePathLen_ne := by
      rw [ne_eq, ← UInt32.toNat_inj]
      simp only [SnapshotParts.header, UInt32.toNat_ofNat', UInt32.toNat_zero]
      omega
    exePathLen_lt := by
      simp only [SnapshotParts.header, UInt32.toNat_ofNat', pathMax]
      omega
    xstateSize_ge := by
      rw [UInt32.le_iff_toNat_le]
      simp only [SnapshotParts.header, UInt32.toNat_ofNat', xstateMinSize]
      have : (65536 : UInt32).toNat = 65536 := rfl
      omega
    xstateSize_lt := by
      rw [UInt32.lt_iff_toNat_lt]
      simp only [SnapshotParts.header, UInt32.toNat_ofNat', xstateMaxSize]
      have : (65536 : UInt32).toNat = 65536 := rfl
      omega }

theorem laidOut_of_parts :
    LaidOut parts.header parts.vmaTable parts.fds parts.pool parts.xstate := by
  have vmas := sound.vmas_lt
  have fds := sound.fds_lt
  have pool := sound.pool_lt
  have xstate := sound.xstate_lt
  have maxSize : xstateMaxSize.toNat = 65536 := rfl
  have wide : (48 : UInt64).toNat = 48 := rfl
  have narrow : (32 : UInt64).toNat = 32 := rfl
  have table : parts.vmaTableOffset.toNat = 4592 := rfl
  have fdTable : parts.fdTableOffset.toNat = 4592 + parts.vmas.length * 48 := by
    simp only [SnapshotParts.fdTableOffset, UInt64.toNat_add, UInt64.toNat_mul,
      UInt64.toNat_ofNat', table, wide]
    omega
  have pathPool : parts.pathPoolOffset.toNat =
      4592 + parts.vmas.length * 48 + parts.fds.length * 32 := by
    simp only [SnapshotParts.pathPoolOffset, UInt64.toNat_add, UInt64.toNat_mul,
      UInt64.toNat_ofNat', fdTable, narrow]
    omega
  have xstateStart : parts.xstateOffset.toNat =
      4592 + parts.vmas.length * 48 + parts.fds.length * 32 + parts.pool.length := by
    simp only [SnapshotParts.xstateOffset, UInt64.toNat_add, UInt64.toNat_ofNat', pathPool]
    omega
  have data : parts.dataOffset.toNat =
      4592 + parts.vmas.length * 48 + parts.fds.length * 32 + parts.pool.length +
        parts.xstate.length := by
    simp only [SnapshotParts.dataOffset, UInt64.toNat_add, UInt64.toNat_ofNat', xstateStart]
    omega
  have length : parts.vmaTable.length = parts.vmas.length := length_assignDataOffsets _ _
  rw [← length] at fdTable pathPool xstateStart data vmas
  exact {
    vmaCount := by
      simp only [SnapshotParts.header, UInt32.toNat_ofNat']
      omega
    vmaTableOffset := table
    fdCount := by
      simp only [SnapshotParts.header, UInt32.toNat_ofNat']
      omega
    fdTableOffset := fdTable
    pathPoolOffset := pathPool
    pathPoolSize := by
      simp only [SnapshotParts.header, UInt64.toNat_ofNat']
      omega
    xstateOffset := xstateStart
    xstateSize := by
      simp only [SnapshotParts.header, UInt32.toNat_ofNat']
      omega
    dataOffset := data }

theorem toNat_dataOffset : parts.dataOffset.toNat =
    4592 + parts.vmaTable.length * 48 + parts.fds.length * 32 + parts.pool.length +
      parts.xstate.length :=
  (laidOut_of_parts sound).dataOffset

/-! ## The file -/

variable {payload : Bytes} (whole : payload.length = payloadSize parts.vmas)

include whole

/-- The file ends with the last payload. -/
theorem length_fileBytes :
    (parts.fileBytes payload).length = parts.dataOffset.toNat + payloadSize parts.vmas := by
  rw [SnapshotParts.fileBytes, length_snapshotBytes, whole, toNat_dataOffset sound]

variable {file : RegularFile} (bytes : file.bytes = parts.fileBytes payload)

include bytes

theorem payloads_small : parts.dataOffset.toNat + payloadSize parts.vmas < 2 ^ 63 := by
  rw [← length_fileBytes sound whole, ← bytes]
  exact file.size_lt

theorem vmaAccepted_of_parts {placed : VmaDescriptor} (mem : placed ∈ parts.vmaTable) :
    VmaAccepted file placed := by
  have small := payloads_small sound whole bytes
  have within := payload_end_le (by omega) mem
  rcases exists_of_mem_assignDataOffsets mem with ⟨vma, vmaMem, same⟩
  constructor
  · rw [same]
    exact sound.vma_prot vma vmaMem
  · rw [UInt64.le_iff_toNat_le, UInt64.toNat_add, file.size_toNat, bytes,
      length_fileBytes sound whole]
    omega

end

end Ksnap
