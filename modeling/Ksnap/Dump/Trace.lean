import Ksnap.Engine.Dump
import Ksnap.Snapshot.Written

/-!
# What the calls of a dump add up to

The record of the calls a dump makes, whatever their replies are. A snapshot that
was written with OK went through complete writes only, and together they make up
the whole file: the header, the tables, the pool, the xstate and, for each mapping,
a payload of just its size whose every byte was read at its address.
-/

namespace Ksnap

open Foundation Foundation.Program

abbrev DumpEvent : Type := Event DumpInterface

abbrev DumpTrace : Type := List DumpEvent

/-! ## The bytes handed over -/

/-- The bytes that the snapshot stream took since it was opened. -/
def handOver (written : Bytes) : DumpEvent → Bytes
  | ⟨.createSnapshot, true⟩ => []
  | ⟨.write bytes, true⟩ => written ++ bytes
  | _ => written

def writtenBytes (trace : DumpTrace) : Bytes :=
  trace.foldl handOver []

theorem writtenBytes_concat (trace : DumpTrace) (event : DumpEvent) :
    writtenBytes (trace ++ [event]) = handOver (writtenBytes trace) event := by
  simp [writtenBytes]

/-- Every write took all of its bytes. -/
def AllWritten (trace : DumpTrace) : Prop :=
  ∀ bytes, ⟨.write bytes, false⟩ ∉ trace

/-- The byte was read from the memory of the target at this address. -/
def ReadAt (trace : DumpTrace) (address : ℕ) (byte : UInt8) : Prop :=
  ∃ start count bytes fits index, ⟨.readMemory start count, .chunk bytes fits⟩ ∈ trace ∧
    bytes[index]? = some byte ∧ address = start.toNat + index

/-- The bytes were read from the memory of the target, from this address on. -/
def ReadFrom (trace : DumpTrace) (address : ℕ) (bytes : Bytes) : Prop :=
  ∀ index byte, bytes[index]? = some byte → ReadAt trace (address + index) byte

/-- From one record to a longer one, the stream took these bytes and refused none. -/
structure Wrote (trace final : DumpTrace) (bytes : Bytes) : Prop where
  extends_ : trace <+: final
  written : writtenBytes final = writtenBytes trace ++ bytes
  all : AllWritten trace → AllWritten final

theorem Wrote.refl (trace : DumpTrace) : Wrote trace trace [] :=
  ⟨List.prefix_rfl, by simp, id⟩

theorem Wrote.trans {trace middle final : DumpTrace} {bytes more : Bytes}
    (first : Wrote trace middle bytes) (second : Wrote middle final more) :
    Wrote trace final (bytes ++ more) where
  extends_ := first.extends_.trans second.extends_
  written := by rw [second.written, first.written, List.append_assoc]
  all := fun before => second.all (first.all before)

/-- A complete write. -/
theorem Wrote.write (trace : DumpTrace) (bytes : Bytes) :
    Wrote trace (trace ++ [⟨.write bytes, true⟩]) bytes where
  extends_ := List.prefix_append _ _
  written := writtenBytes_concat trace _
  all := by
    intro before other mem
    rcases List.mem_append.mp mem with earlier | last
    · exact before other earlier
    · cases List.mem_singleton.mp last

/-- A call that is neither a write nor the opening of the stream. -/
theorem Wrote.other {trace : DumpTrace} {event : DumpEvent}
    (quiet : ∀ written, handOver written event = written)
    (noWrite : ∀ bytes, event ≠ ⟨.write bytes, false⟩) :
    Wrote trace (trace ++ [event]) [] where
  extends_ := List.prefix_append _ _
  written := by rw [writtenBytes_concat, quiet, List.append_nil]
  all := by
    intro before bytes mem
    rcases List.mem_append.mp mem with earlier | last
    · exact before bytes earlier
    · exact noWrite bytes (List.mem_singleton.mp last).symm

theorem Wrote.read (trace : DumpTrace) (address : UInt64) (count : ℕ) (reply : MemoryRead count) :
    Wrote trace (trace ++ [⟨.readMemory address count, reply⟩]) [] :=
  Wrote.other (fun _ => rfl) fun _ => by simp

theorem Wrote.tell (trace : DumpTrace) (reply : Option ℕ) :
    Wrote trace (trace ++ [⟨.tell, reply⟩]) [] :=
  Wrote.other (fun _ => rfl) fun _ => by simp

theorem ReadAt.mono {trace final : DumpTrace} {address : ℕ} {byte : UInt8}
    (read : ReadAt trace address byte) (longer : trace <+: final) : ReadAt final address byte := by
  rcases read with ⟨start, count, bytes, fits, index, mem, at_, address_eq⟩
  exact ⟨start, count, bytes, fits, index, longer.subset mem, at_, address_eq⟩

theorem ReadFrom.mono {trace final : DumpTrace} {address : ℕ} {bytes : Bytes}
    (read : ReadFrom trace address bytes) (longer : trace <+: final) :
    ReadFrom final address bytes :=
  fun index byte at_ => (read index byte at_).mono longer

theorem ReadFrom.chunk (trace : DumpTrace) (start : UInt64) (bytes : Bytes) {count : ℕ}
    (fits : bytes.length ≤ count) :
    ReadFrom (trace ++ [⟨.readMemory start count, .chunk bytes fits⟩]) start.toNat bytes :=
  fun index _ at_ => ⟨start, count, bytes, fits, index, by simp, at_, rfl⟩

theorem ReadFrom.append {trace : DumpTrace} {address : ℕ} {bytes more : Bytes}
    (first : ReadFrom trace address bytes)
    (second : ReadFrom trace (address + bytes.length) more) :
    ReadFrom trace address (bytes ++ more) := by
  intro index byte at_
  rcases Nat.lt_or_ge index bytes.length with inside | past
  · rw [List.getElem?_append_left inside] at at_
    exact first index byte at_
  · rw [List.getElem?_append_right past] at at_
    have read := second (index - bytes.length) byte at_
    rwa [show address + bytes.length + (index - bytes.length) = address + index by omega] at read

/-! ## One payload -/

/-- What the loop over a payload leaves: the rest of the payload was read and written. -/
def PayloadWritten (vma : VmaDescriptor) (currSend : UInt64) (trace final : DumpTrace) : Prop :=
  ∃ payload, Wrote trace final payload ∧
    payload.length = vma.size.toNat - currSend.toNat ∧
      ReadFrom final (vma.startAddress.toNat + currSend.toNat) payload

/-- A chunk ends inside the payload, and its end does not wrap around. -/
theorem toNat_chunk_end {vma : VmaDescriptor} {currSend : UInt64} {bytes : Bytes}
    (more : currSend.toNat < vma.size.toNat)
    (fits : bytes.length ≤ (roundSize (vma.size - currSend)).toNat) :
    (currSend + UInt64.ofNat bytes.length).toNat = currSend.toNat + bytes.length ∧
      currSend.toNat + bytes.length ≤ vma.size.toNat := by
  have left := UInt64.toNat_sub_of_le vma.size currSend (UInt64.le_iff_toNat_le.mpr more.le)
  have bound := vma.size.toNat_lt
  have short : (roundSize (vma.size - currSend)).toNat ≤ (vma.size - currSend).toNat := by
    unfold roundSize
    split
    · rename_i long
      exact (UInt64.lt_iff_toNat_lt.mp long).le
    · exact le_rfl
  rw [UInt64.toNat_add, UInt64.toNat_ofNat']
  omega

theorem writeVmaPayload_spec {vma : VmaDescriptor}
    (inside : vma.startAddress.toNat + vma.size.toNat < 2 ^ 64) (rounds : ℕ) (currSend : UInt64)
    (sent : currSend.toNat ≤ vma.size.toNat) (trace : DumpTrace) :
    (writeVmaPayload vma rounds currSend).run.Ensures (recording DumpInterface) (fun _ => True)
      (fun outcome final => outcome.isSome → PayloadWritten vma currSend trace final) trace := by
  induction rounds generalizing currSend trace with
  | zero => trivial
  | succ rounds ih =>
      simp only [writeVmaPayload]
      split
      · rename_i more
        rw [UInt64.lt_iff_toNat_lt] at more
        rw [ensures_ask_bind]
        rintro reply _ rfl
        refine ⟨trivial, ?_⟩
        have read := Wrote.read trace (vma.startAddress + currSend)
          (roundSize (vma.size - currSend)).toNat reply
        cases reply with
        | interrupted =>
            refine (ih currSend sent _).mono fun outcome final payload succeeds => ?_
            rcases payload succeeds with ⟨bytes, wrote, length, from_⟩
            exact ⟨bytes, read.trans wrote, length, from_⟩
        | failed => simp
        | chunk bytes fits =>
            rw [ensures_require_bind]
            refine ⟨fun _ => ?_, by simp⟩
            rw [ensures_ask_bind]
            rintro taken _ rfl
            refine ⟨trivial, ?_⟩
            rw [ensures_require_bind]
            refine ⟨?_, by simp⟩
            rintro rfl
            have wroteChunk := read.trans (Wrote.write _ bytes)
            rcases toNat_chunk_end more fits with ⟨next, within⟩
            refine (ih _ (by omega) _).mono fun outcome final payload succeeds => ?_
            rcases payload succeeds with ⟨later, wrote, length, from_⟩
            refine ⟨bytes ++ later, wroteChunk.trans wrote, ?_, ?_⟩
            · simp only [List.length_append, length]
              omega
            · have address : (vma.startAddress + currSend).toNat =
                  vma.startAddress.toNat + currSend.toNat := by
                rw [UInt64.toNat_add]
                exact Nat.mod_eq_of_lt (by omega)
              have chunk := ReadFrom.chunk trace (vma.startAddress + currSend) bytes fits
              rw [address] at chunk
              refine (chunk.mono ((List.prefix_append _ _).trans wrote.extends_)).append ?_
              rw [next, ← Nat.add_assoc] at from_
              exact from_
      · rename_i done_
        rw [UInt64.lt_iff_toNat_lt] at done_
        rw [ensures_attempt_pure]
        intro _
        refine ⟨[], Wrote.refl trace, ?_, ?_⟩
        · simp only [List.length_nil]
          omega
        · intro index byte at_
          simp at at_

/-! ## The whole file -/

/-- Each payload has the size of its mapping and was read from it. -/
def PayloadsRead (trace : DumpTrace) (vmas : List VmaDescriptor) (payloads : List Bytes) : Prop :=
  List.Forall₂ (fun vma payload => payload.length = vma.size.toNat ∧
    ReadFrom trace vma.startAddress.toNat payload) vmas payloads

theorem PayloadsRead.mono {trace final : DumpTrace} {vmas : List VmaDescriptor}
    {payloads : List Bytes} (read : PayloadsRead trace vmas payloads) (longer : trace <+: final) :
    PayloadsRead final vmas payloads :=
  read.imp fun _ _ payload => ⟨payload.1, payload.2.mono longer⟩

theorem PayloadsRead.length {trace : DumpTrace} {vmas : List VmaDescriptor}
    {payloads : List Bytes} (read : PayloadsRead trace vmas payloads) :
    payloads.flatten.length = payloadSize vmas := by
  induction read with
  | nil => rfl
  | cons payload _ ih => simp [payload.1, ih]

/-- The offsets in the file do not matter to what is read. -/
theorem payloadsRead_assignDataOffsets {trace : DumpTrace} {offset : UInt64}
    {vmas : List VmaDescriptor} {payloads : List Bytes}
    (read : PayloadsRead trace (assignDataOffsets offset vmas) payloads) :
    PayloadsRead trace vmas payloads := by
  induction vmas generalizing offset payloads with
  | nil => exact read
  | cons vma vmas ih =>
      cases read with
      | cons payload later => exact .cons payload (ih later)

/-- A write that has to be complete, in front of the rest of an attempt. -/
theorem ensures_write_bind {α : Type} {bytes : Bytes} {rest : Unit → Attempt DumpInterface α}
    {post : Option α → DumpTrace → Prop} {trace : DumpTrace}
    (refused : post none (trace ++ [⟨.write bytes, false⟩]))
    (complete : (rest ()).run.Ensures (recording DumpInterface) (fun _ => True) post
      (trace ++ [⟨.write bytes, true⟩])) :
    ((DumpCall.write bytes).ask >>= fun taken => require taken >>= rest).run.Ensures
      (recording DumpInterface) (fun _ => True) post trace := by
  rw [ensures_ask_bind]
  rintro taken _ rfl
  refine ⟨trivial, ?_⟩
  rw [ensures_require_bind]
  cases taken with
  | true => exact ⟨fun _ => complete, by simp⟩
  | false => exact ⟨by simp, fun _ => refused⟩

theorem writeSection_spec (bytes : Bytes) (trace : DumpTrace) :
    (writeSection bytes).run.Ensures (recording DumpInterface) (fun _ => True)
      (fun outcome final => outcome.isSome → Wrote trace final bytes) trace := by
  unfold writeSection
  split
  · rename_i empty
    rw [List.isEmpty_iff.mp empty]
    exact fun _ => Wrote.refl trace
  · rw [ensures_ask_bind]
    rintro taken _ rfl
    refine ⟨trivial, ?_⟩
    rw [ensures_require]
    refine ⟨?_, by simp⟩
    rintro rfl _
    exact Wrote.write trace bytes

theorem writeSections_spec {parts : SnapshotParts} (sound : parts.Sound) (rounds : ℕ)
    (trace : DumpTrace) :
    (writeSections rounds parts).run.Ensures (recording DumpInterface) (fun _ => True)
      (fun outcome final => outcome.isSome → ∃ payloads,
        Wrote trace final (parts.fileBytes payloads.flatten) ∧
          PayloadsRead final parts.vmas payloads) trace := by
  have inside : ∀ vma ∈ parts.vmaTable, vma.startAddress.toNat + vma.size.toNat < 2 ^ 64 := by
    intro vma mem
    rcases exists_of_mem_assignDataOffsets mem with ⟨original, originalMem, same⟩
    rw [same]
    exact sound.vma_inside original originalMem
  unfold writeSections
  refine ensures_write_bind (by simp) (ensures_write_bind (by simp) ?_)
  have wroteTable := (Wrote.write trace (headerCodec.encode parts.header)).trans
    (Wrote.write _ (vmaCodec.encodeAll parts.vmaTable))
  refine ensures_bind_success (writeSection_spec _ _) fun _ afterFds wroteFds => ?_
  refine ensures_bind_success (writeSection_spec _ _) fun _ afterPool wrotePool => ?_
  refine ensures_write_bind (by simp) ?_
  have wroteXstate := (wroteTable.trans (wroteFds.trans wrotePool)).trans
    (Wrote.write _ parts.xstate)
  rw [ensures_ask_bind]
  rintro position _ rfl
  refine ⟨trivial, ?_⟩
  rw [ensures_require_bind]
  refine ⟨fun _ => ?_, by simp⟩
  have told := wroteXstate.trans (Wrote.tell _ position)
  refine ensures_forM (fun before state => ∃ payloads,
    Wrote (afterPool ++ [⟨.write parts.xstate, true⟩] ++ [⟨.tell, position⟩]) state
      payloads.flatten ∧ PayloadsRead state before payloads) ?_ ?_ ?_
  · exact ⟨[], Wrote.refl _, .nil⟩
  · rintro before vma after middle split ⟨payloads, wrote, read⟩
    have spec := writeVmaPayload_spec (inside vma (by simp [split])) rounds 0 (Nat.zero_le _) middle
    refine spec.mono fun outcome final payload => ?_
    cases outcome with
    | none => simp
    | some _ =>
        rcases payload rfl with ⟨bytes, wroteBytes, length, from_⟩
        refine ⟨payloads ++ [bytes], ?_, ?_⟩
        · simpa using wrote.trans wroteBytes
        · exact List.rel_append (read.mono wroteBytes.extends_)
            (.cons ⟨by simpa using length, by simpa using from_⟩ .nil)
  · rintro final ⟨payloads, wrote, read⟩ _
    refine ⟨payloads, ?_, payloadsRead_assignDataOffsets read⟩
    simpa [SnapshotParts.fileBytes, snapshotBytes] using told.trans wrote

/-! ## A saved snapshot -/

/-- The record ends with the cleanup of a snapshot that was written in full: before it every
write was complete and they make up the file, and the cleanup got all of it to the disk. -/
def SnapshotSaved (parts : SnapshotParts) (trace : DumpTrace) : Prop :=
  ∃ body payloads,
    trace = body ++ [⟨.closeMemory, ()⟩, ⟨.flush, true⟩, ⟨.sync, true⟩, ⟨.closeSnapshot, true⟩] ∧
      ⟨.createSnapshot, true⟩ ∈ body ∧ AllWritten body ∧
        writtenBytes body = parts.fileBytes payloads.flatten ∧
          PayloadsRead body parts.vmas payloads

theorem writtenBytes_created (trace : DumpTrace) :
    writtenBytes (trace ++ [⟨.createSnapshot, true⟩]) = [] :=
  writtenBytes_concat trace _

/-- A call that is no write leaves every write complete. -/
theorem AllWritten.concat {trace : DumpTrace} (all : AllWritten trace) {event : DumpEvent}
    (noWrite : ∀ bytes, event ≠ ⟨.write bytes, false⟩) : AllWritten (trace ++ [event]) := by
  intro bytes mem
  rcases List.mem_append.mp mem with earlier | last
  · exact all bytes earlier
  · exact noWrite bytes (List.mem_singleton.mp last).symm

theorem flushToDisk_spec (written : Bool) (trace : DumpTrace) :
    (flushToDisk written).Ensures (recording DumpInterface) (fun _ => True)
      (fun synced final => synced = true → written = true ∧
        final = trace ++ [⟨.flush, true⟩, ⟨.sync, true⟩]) trace := by
  unfold flushToDisk
  cases written with
  | false => exact fun impossible => absurd impossible (by decide)
  | true =>
      rw [if_pos rfl, ensures_perform_bind]
      rintro flushed _ rfl
      refine ⟨trivial, ?_⟩
      cases flushed with
      | false => exact fun impossible => absurd impossible (by decide)
      | true =>
          rw [if_pos rfl, ensures_perform]
          rintro synced _ rfl
          refine ⟨trivial, ?_⟩
          rintro rfl
          exact ⟨rfl, by simp⟩

theorem closeSnapshot_spec (written : Bool) (trace : DumpTrace) :
    (closeSnapshot written).Ensures (recording DumpInterface) (fun _ => True)
      (fun saved final => saved = true → written = true ∧ final = trace ++
        [⟨.closeMemory, ()⟩, ⟨.flush, true⟩, ⟨.sync, true⟩, ⟨.closeSnapshot, true⟩]) trace := by
  unfold closeSnapshot
  rw [ensures_perform_bind]
  rintro _ _ rfl
  refine ⟨trivial, ?_⟩
  rw [ensures_bind]
  refine (flushToDisk_spec written _).mono fun synced flushed flush => ?_
  rw [ensures_perform_bind]
  rintro closed _ rfl
  refine ⟨trivial, fun saved => ?_⟩
  rcases Bool.and_eq_true_iff.mp saved with ⟨rfl, rfl⟩
  rcases flush rfl with ⟨wrote, rfl⟩
  exact ⟨wrote, by simp⟩

theorem writeSnapshot_spec {parts : SnapshotParts} (sound : parts.Sound) (rounds : ℕ)
    {trace : DumpTrace} (all : AllWritten trace) :
    (writeSnapshot rounds parts).Ensures (recording DumpInterface) (fun _ => True)
      (fun saved final => saved = true → SnapshotSaved parts final) trace := by
  unfold writeSnapshot
  rw [ensures_perform_bind]
  rintro memoryOpened _ rfl
  refine ⟨trivial, ?_⟩
  cases memoryOpened with
  | false => exact fun impossible => absurd impossible (by decide)
  | true =>
      rw [if_pos rfl, ensures_perform_bind]
      rintro created _ rfl
      refine ⟨trivial, ?_⟩
      cases created with
      | false =>
          rw [if_neg (by decide), ensures_perform_bind]
          rintro _ _ rfl
          exact ⟨trivial, fun impossible => absurd impossible (by decide)⟩
      | true =>
          rw [if_pos rfl, ensures_bind]
          have allCreated : AllWritten
              (trace ++ [⟨.openMemory, true⟩] ++ [⟨.createSnapshot, true⟩]) :=
            (all.concat fun _ => by simp).concat fun _ => by simp
          refine (writeSections_spec sound rounds _).mono fun outcome body sections => ?_
          refine (closeSnapshot_spec outcome.isSome body).mono fun saved final closed => ?_
          intro success
          rcases closed success with ⟨complete, rfl⟩
          rcases sections complete with ⟨payloads, wrote, read⟩
          have created : ⟨.createSnapshot, true⟩ ∈ body := wrote.extends_.subset (by simp)
          refine ⟨body, payloads, rfl, created, wrote.all allCreated, ?_, read⟩
          rw [wrote.written, writtenBytes_created, List.nil_append]

end Ksnap
