import Ksnap.Snapshot.Written

/-!
# Truncated snapshots

A file that was cut short is refused wherever the cut is. If the header or the vma
table did not survive it, they cannot be read. If they did, they are those of the
whole file, and the last payload of the table ends where the whole file did.
-/

namespace Ksnap

open Foundation

theorem slice_take {raw : Bytes} {length offset count : ℕ} (inside : offset + count ≤ length) :
    slice (raw.take length) offset count = slice raw offset count := by
  simp only [slice, List.drop_take, List.take_take]
  congr 1
  omega

variable {parts : SnapshotParts} {payload : Bytes} {complete file : RegularFile}
  {snapshot : Snapshot}

/-- The header of a file that was cut short behind it. -/
theorem decode_header_of_cut (bytes : complete.bytes = parts.fileBytes payload)
    (cut : file.bytes <+: complete.bytes) (headerFits : headerCodec.width ≤ file.bytes.length) :
    headerCodec.decode file.bytes = parts.header := by
  have start : headerCodec.encode parts.header <+: complete.bytes := by
    rw [bytes]
    exact List.prefix_append _ _
  have short : (headerCodec.encode parts.header).length ≤ file.bytes.length := by
    rw [Codec.length_encode]
    exact headerFits
  rcases List.prefix_of_prefix_length_le start cut short with ⟨rest, split⟩
  rw [← split, Codec.decode_encode]

/-- The vma table of a file that was cut short behind it. -/
theorem Accepted.vmas_of_cut (sound : parts.Sound)
    (bytes : complete.bytes = parts.fileBytes payload) (cut : file.bytes <+: complete.bytes)
    (accepted : Accepted file snapshot) : snapshot.vmas = parts.vmaTable := by
  have header : snapshot.header = parts.header := by
    rw [accepted.header, decode_header_of_cut bytes cut accepted.headerFits,
      terminateExePath_header sound.exePath_lt]
  rcases accepted.vmaTable with ⟨raw, read, vmas⟩
  rw [header] at read vmas
  have laidOut := laidOut_of_parts sound
  have whole := readAt_vmaTable bytes laidOut
  rcases readAt_eq_some_iff.mp read with ⟨_, _, inside, rfl⟩
  rcases readAt_eq_some_iff.mp whole with ⟨_, _, _, table⟩
  rw [List.prefix_iff_eq_take.mp cut, slice_take inside, ← table, laidOut.vmaCount] at vmas
  have decoded := vmaCodec.decodeAll_encodeAll parts.vmaTable []
  rw [List.append_nil] at decoded
  rw [vmas, decoded]

/-- A snapshot that was cut short anywhere is refused, whatever else goes wrong. -/
theorem readOutcome_ne_ok_of_truncated (sound : parts.Sound)
    (whole : payload.length = payloadSize parts.vmas)
    (bytes : complete.bytes = parts.fileBytes payload) (cut : file.bytes <+: complete.bytes)
    (short : file.bytes.length < complete.bytes.length) (faults : ReaderFaults) :
    readOutcome faults file ≠ .ok snapshot := by
  intro read
  have accepted := accepted_of_readOutcome read
  have small := payloads_small sound whole bytes
  have length := length_fileBytes sound whole
  rw [← bytes] at length
  obtain ⟨last, lastMem, ends⟩ :=
    exists_payload_end_eq sound.vmas_ne_nil (small.trans (by decide))
  have checked : VmaAccepted file last := by
    apply accepted.vmas
    rw [accepted.vmas_of_cut sound bytes cut]
    exact lastMem
  -- the sum cannot have wrapped around, since the complete file is that long
  have inside := checked.payload
  rw [UInt64.le_iff_toNat_le, UInt64.toNat_add, file.size_toNat] at inside
  omega

end Ksnap
