import Ksnap.Snapshot.Accepted

/-!
# The layout of a snapshot file

A file that holds its sections one after the other, at the offsets its header
names. Every section is read back as it was written, so such a file is accepted as
soon as the contents of its header and its tables pass.
-/

namespace Ksnap

open Foundation

/-- The sections of a snapshot file in their order. -/
def snapshotBytes (header : DumpHeader) (vmas : List VmaDescriptor) (fds : List FdDescriptor)
    (pool xstate payload : Bytes) : Bytes :=
  headerCodec.encode header ++ (vmaCodec.encodeAll vmas ++
    (fdCodec.encodeAll fds ++ (pool ++ (xstate ++ payload))))

/-- The header names the place and the size of every section. -/
structure LaidOut (header : DumpHeader) (vmas : List VmaDescriptor) (fds : List FdDescriptor)
    (pool xstate : Bytes) : Prop where
  vmaCount : header.vmaCount.toNat = vmas.length
  vmaTableOffset : header.vmaTableOffset.toNat = 4592
  fdCount : header.fdCount.toNat = fds.length
  fdTableOffset : header.fdTableOffset.toNat = 4592 + vmas.length * 48
  pathPoolOffset : header.pathPoolOffset.toNat = 4592 + vmas.length * 48 + fds.length * 32
  pathPoolSize : header.pathPoolSize.toNat = pool.length
  xstateOffset : header.xstateOffset.toNat =
    4592 + vmas.length * 48 + fds.length * 32 + pool.length
  xstateSize : header.xstateSize.toNat = xstate.length
  dataOffset : header.dataOffset.toNat =
    4592 + vmas.length * 48 + fds.length * 32 + pool.length + xstate.length

section

variable {file : RegularFile} {header : DumpHeader} {vmas : List VmaDescriptor}
  {fds : List FdDescriptor} {pool xstate payload : Bytes}

@[simp]
theorem length_snapshotBytes :
    (snapshotBytes header vmas fds pool xstate payload).length =
      4592 + vmas.length * 48 + fds.length * 32 + pool.length + xstate.length +
        payload.length := by
  simp only [snapshotBytes, List.length_append, Codec.length_encode, headerCodec_width,
    Codec.length_encodeAll, vmaCodec_width, fdCodec_width]
  omega

/-! ## Reading the sections back -/

theorem decode_header : headerCodec.decode (snapshotBytes header vmas fds pool xstate payload) =
    header :=
  Codec.decode_encode _ _ _

/-- A section that the file holds at an offset is read from there. -/
theorem readAt_of_split {before middle after : Bytes} {offset : UInt64} {count : ℕ}
    (bytes : file.bytes = before ++ (middle ++ after)) (start : before.length = offset.toNat)
    (length : middle.length = count) :
    readAt file offset count false = some middle := by
  have size := file.size_lt
  have whole := congrArg List.length bytes
  simp only [List.length_append] at whole
  refine readAt_eq_some_iff.mpr ⟨rfl, by omega, by omega, ?_⟩
  rw [bytes, slice_append_append start length]

variable (bytes : file.bytes = snapshotBytes header vmas fds pool xstate payload)
  (laidOut : LaidOut header vmas fds pool xstate)

include bytes laidOut

theorem readAt_vmaTable :
    readAt file header.vmaTableOffset (header.vmaCount.toNat * 48) false =
      some (vmaCodec.encodeAll vmas) := by
  refine readAt_of_split bytes ?_ ?_
  · simp [laidOut.vmaTableOffset]
  · simp [laidOut.vmaCount]

theorem readAt_fdTable :
    readAt file header.fdTableOffset (header.fdCount.toNat * 32) false =
      some (fdCodec.encodeAll fds) := by
  have split : file.bytes = (headerCodec.encode header ++ vmaCodec.encodeAll vmas) ++
      (fdCodec.encodeAll fds ++ (pool ++ (xstate ++ payload))) := by
    simp [bytes, snapshotBytes]
  refine readAt_of_split split ?_ ?_
  · simp [laidOut.fdTableOffset]
  · simp [laidOut.fdCount]

theorem readAt_pool :
    readAt file header.pathPoolOffset header.pathPoolSize.toNat false = some pool := by
  have split : file.bytes =
      (headerCodec.encode header ++ (vmaCodec.encodeAll vmas ++ fdCodec.encodeAll fds)) ++
        (pool ++ (xstate ++ payload)) := by
    simp [bytes, snapshotBytes]
  refine readAt_of_split split ?_ ?_
  · simp [laidOut.pathPoolOffset]
    omega
  · simp [laidOut.pathPoolSize]

theorem readAt_xstate :
    readAt file header.xstateOffset header.xstateSize.toNat false = some xstate := by
  have split : file.bytes =
      (headerCodec.encode header ++ (vmaCodec.encodeAll vmas ++
        (fdCodec.encodeAll fds ++ pool))) ++ (xstate ++ payload) := by
    simp [bytes, snapshotBytes]
  refine readAt_of_split split ?_ ?_
  · simp [laidOut.xstateOffset]
    omega
  · simp [laidOut.xstateSize]

/-! ## Acceptance -/

theorem headerAccepted_of_laidOut (sound : HeaderSound header) : HeaderAccepted file header := by
  have whole := file.size_lt
  have sizeNat := file.size_toNat
  have length := congrArg List.length bytes
  rw [length_snapshotBytes] at length
  refine ⟨sound, ?_, ?_, ?_⟩
  · have offset := laidOut.xstateOffset
    have size := laidOut.xstateSize
    rw [UInt64.le_iff_toNat_le, UInt64.toNat_add, UInt32.toNat_toUInt64]
    omega
  · have offset := laidOut.vmaTableOffset
    have count := laidOut.vmaCount
    have size := vmaTableSize_toNat header
    rw [UInt64.le_iff_toNat_le, UInt64.toNat_add]
    omega
  · have offset := laidOut.dataOffset
    rw [UInt64.le_iff_toNat_le]
    omega

theorem fdTableRead_of_laidOut (poolNonempty : pool ≠ [])
    (entries : EntriesAccepted header pool [] fds) : FdTableRead file header fds pool := by
  have whole := file.size_lt
  have sizeNat := file.size_toNat
  have length := congrArg List.length bytes
  rw [length_snapshotBytes] at length
  have count := laidOut.fdCount
  have tableOffset := laidOut.fdTableOffset
  have poolOffset := laidOut.pathPoolOffset
  have poolSize := laidOut.pathPoolSize
  have tableSize := fdTableSize_toNat header
  exact {
    tableFits := by
      simp only [fitsInFile, Bool.and_eq_true, decide_eq_true_eq, UInt64.le_iff_toNat_le]
      rw [UInt64.toNat_sub_of_le _ _ (by rw [UInt64.le_iff_toNat_le]; omega)]
      omega
    poolFits := by
      simp only [fitsInFile, Bool.and_eq_true, decide_eq_true_eq, UInt64.le_iff_toNat_le]
      rw [UInt64.toNat_sub_of_le _ _ (by rw [UInt64.le_iff_toNat_le]; omega)]
      omega
    poolNonempty := by
      intro none_
      rw [none_] at poolSize
      exact poolNonempty (List.eq_nil_of_length_eq_zero poolSize.symm)
    table := by
      refine ⟨_, readAt_fdTable bytes laidOut, ?_⟩
      have read := fdCodec.decodeAll_encodeAll fds []
      rw [List.append_nil] at read
      rw [count, read]
    poolRead := readAt_pool bytes laidOut
    entries := entries }

/-- The snapshot that a file with this layout is read as. Without descriptors the pool is
not read. -/
def laidOutSnapshot (header : DumpHeader) (vmas : List VmaDescriptor) (fds : List FdDescriptor)
    (pool xstate : Bytes) : Snapshot where
  header := header
  vmas := vmas
  xstate := xstate
  fds := fds
  pool := if fds = [] then [] else pool

omit bytes laidOut in
theorem fdCount_eq_zero_iff (laidOut : LaidOut header vmas fds pool xstate) :
    header.fdCount = 0 ↔ fds = [] := by
  rw [← UInt32.toNat_inj, laidOut.fdCount]
  exact List.length_eq_zero_iff

theorem accepted_of_laidOut (sound : HeaderSound header)
    (terminated : terminateExePath header = header)
    (vmasAccepted : ∀ vma ∈ vmas, VmaAccepted file vma)
    (fdsAccepted : fds ≠ [] → pool ≠ [] ∧ EntriesAccepted header pool [] fds) :
    Accepted file (laidOutSnapshot header vmas fds pool xstate) := by
  have decoded : headerCodec.decode file.bytes = header := by
    rw [bytes]
    exact decode_header
  have length := congrArg List.length bytes
  rw [length_snapshotBytes] at length
  exact {
    headerFits := by
      rw [headerCodec_width]
      omega
    header := by
      rw [decoded, terminated]
      rfl
    headerAccepted := by
      rw [decoded]
      exact headerAccepted_of_laidOut bytes laidOut sound
    vmaTable := by
      have read := vmaCodec.decodeAll_encodeAll vmas []
      rw [List.append_nil, ← laidOut.vmaCount] at read
      exact ⟨_, readAt_vmaTable bytes laidOut, read.symm⟩
    vmas := vmasAccepted
    xstate := readAt_xstate bytes laidOut
    fdTable := by
      by_cases empty : fds = []
      · have none_ : (laidOutSnapshot header vmas fds pool xstate).pool = [] := if_pos empty
        exact .inl ⟨(fdCount_eq_zero_iff laidOut).mpr empty, empty, none_⟩
      · rcases fdsAccepted empty with ⟨poolNonempty, entries⟩
        refine .inr ⟨fun none_ => empty ((fdCount_eq_zero_iff laidOut).mp none_), ?_⟩
        have accepted := fdTableRead_of_laidOut bytes laidOut poolNonempty entries
        simpa only [laidOutSnapshot, if_neg empty] using accepted }

end

end Ksnap
