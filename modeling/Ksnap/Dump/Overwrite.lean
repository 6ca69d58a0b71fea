import Ksnap.Dump.Image

/-!
# Dumping over an older snapshot

The snapshot is written in place: opening it truncates what was there. A dump that
ends with ERROR before that leaves an older snapshot alone. One that ends with ERROR
after that leaves a beginning of the image of its target, however far it got.
-/

namespace Ksnap

open Foundation Foundation.Program

variable {target : Target} {link : Bytes} {parts : SnapshotParts}

/-- The stream is open and took just these bytes; the disk has some beginning of them. -/
def Streaming (taken : Bytes) (file : SnapshotFile) : Prop :=
  file.opened = true ∧ file.taken = taken ∧ ∃ left, file.disk = some left ∧ left <+: file.taken

/-- The stream is open and took a beginning of some bytes. -/
def PartlyTaken (whole : Bytes) (file : SnapshotFile) : Prop :=
  ∃ taken, Streaming taken file ∧ taken <+: whole

/-- The file of these parts, with the memory of the target behind them. -/
def Target.fileBytes (target : Target) (parts : SnapshotParts) : Bytes :=
  parts.fileBytes (parts.vmas.flatMap target.payload)

/-! ## Single calls -/

theorem Streaming.write {taken bytes : Bytes} {complete : Bool} {before after : SnapshotFile}
    (streaming : Streaming taken before) (step : FileStep before ⟨.write bytes, complete⟩ after) :
    ∃ part, Streaming (taken ++ part) after ∧ part <+: bytes ∧
      (complete = true → part = bytes) := by
  rcases streaming with ⟨isOpen, rfl, _⟩
  rw [FileStep, if_pos isOpen] at step
  rcases step with ⟨count, left, whole, behind, rfl⟩
  refine ⟨bytes.take count, ⟨rfl, rfl, left, rfl, behind⟩, List.take_prefix count bytes, ?_⟩
  intro success
  rw [whole success, List.take_length]

/-- A call that writes nothing leaves what the stream took. -/
theorem Streaming.keep {taken : Bytes} {request : DumpCall} {reply : DumpReply request}
    {before after : SnapshotFile} (streaming : Streaming taken before)
    (noCreate : request ≠ .createSnapshot) (noWrite : ∀ bytes, request ≠ .write bytes)
    (step : FileStep before ⟨request, reply⟩ after) : Streaming taken after := by
  rcases id streaming with ⟨isOpen, rfl, _⟩
  cases request with
  | createSnapshot => exact absurd rfl noCreate
  | write bytes => exact absurd rfl (noWrite bytes)
  | flush =>
      rw [FileStep, if_pos isOpen] at step
      rcases step with ⟨left, _, behind, rfl⟩
      exact ⟨rfl, rfl, left, rfl, behind⟩
  | closeSnapshot =>
      rw [FileStep, if_pos isOpen] at step
      rcases step with ⟨left, _, behind, rfl⟩
      exact ⟨rfl, rfl, left, rfl, behind⟩
  | _ =>
      obtain rfl : after = before := step
      exact streaming

/-! ## Sections -/

theorem ensures_write_world {α : Type} {taken bytes : Bytes}
    {rest : Unit → Attempt DumpInterface α} {post : Option α → SnapshotFile → Prop}
    {file : SnapshotFile} (streaming : Streaming taken file)
    (refused : ∀ after, PartlyTaken (taken ++ bytes) after → post none after)
    (complete : ∀ after, Streaming (taken ++ bytes) after →
      (rest ()).run.Ensures (dumpWorld target) (fun _ => True) post after) :
    ((DumpCall.write bytes).ask >>= fun all => require all >>= rest).run.Ensures
      (dumpWorld target) (fun _ => True) post file := by
  rw [ensures_ask_bind]
  rintro all after ⟨_, step⟩
  rcases streaming.write step with ⟨part, streamingAfter, start, whole⟩
  refine ⟨trivial, ?_⟩
  rw [ensures_require_bind]
  constructor
  · intro success
    rw [whole success] at streamingAfter
    exact complete after streamingAfter
  · intro _
    exact refused after ⟨_, streamingAfter, (List.prefix_append_right_inj taken).mpr start⟩

theorem ensures_section_world {α : Type} {taken bytes : Bytes}
    {rest : Unit → Attempt DumpInterface α} {post : Option α → SnapshotFile → Prop}
    {file : SnapshotFile} (streaming : Streaming taken file)
    (refused : ∀ after, PartlyTaken (taken ++ bytes) after → post none after)
    (complete : ∀ after, Streaming (taken ++ bytes) after →
      (rest ()).run.Ensures (dumpWorld target) (fun _ => True) post after) :
    (writeSection bytes >>= rest).run.Ensures (dumpWorld target) (fun _ => True) post file := by
  unfold writeSection
  split
  · rename_i empty
    rw [List.isEmpty_iff.mp empty, List.append_nil] at complete
    rw [pure_bind]
    exact complete file streaming
  · rw [bind_assoc]
    exact ensures_write_world streaming refused complete

/-! ## Payloads -/

/-- A chunk that was read at the place that the loop has come to is the next piece of the
payload. -/
theorem take_payload_append {vma : VmaDescriptor} {sent : ℕ} {bytes : Bytes}
    (chunk : ∀ index byte, bytes[index]? = some byte →
      byte = target.memory (vma.startAddress.toNat + sent + index))
    (within : sent + bytes.length ≤ vma.size.toNat) :
    (target.payload vma).take sent ++ bytes = (target.payload vma).take (sent + bytes.length) := by
  rw [List.take_add]
  congr 1
  refine List.ext_getElem ?_ fun index inside _ => ?_
  · simp only [Target.payload, List.length_take, List.length_drop, List.length_map,
      List.length_range]
    omega
  · rw [chunk index _ (List.getElem?_eq_getElem inside)]
    simp [Target.payload, Nat.add_assoc]

theorem PartlyTaken.mono {part whole : Bytes} {file : SnapshotFile} (taken : PartlyTaken part file)
    (start : part <+: whole) : PartlyTaken whole file := by
  rcases taken with ⟨bytes, streaming, begins⟩
  exact ⟨bytes, streaming, begins.trans start⟩

theorem Streaming.partly {taken whole : Bytes} {file : SnapshotFile}
    (streaming : Streaming taken file) (start : taken <+: whole) : PartlyTaken whole file :=
  ⟨taken, streaming, start⟩

/-- The loop over a payload has written a beginning of it whenever it ends, and all of it where
it ends well. -/
theorem ensures_payload_world {taken : Bytes} {vma : VmaDescriptor}
    (inside : vma.startAddress.toNat + vma.size.toNat < 2 ^ 64) (rounds : ℕ) {currSend : UInt64}
    (sent : currSend.toNat ≤ vma.size.toNat) {file : SnapshotFile}
    (streaming : Streaming (taken ++ (target.payload vma).take currSend.toNat) file) :
    (writeVmaPayload vma rounds currSend).run.Ensures (dumpWorld target) (fun _ => True)
      (fun outcome after => PartlyTaken (taken ++ target.payload vma) after ∧
        (outcome.isSome → Streaming (taken ++ target.payload vma) after)) file := by
  have begins (count : ℕ) : taken ++ (target.payload vma).take count <+:
      taken ++ target.payload vma :=
    (List.prefix_append_right_inj taken).mpr (List.take_prefix count _)
  induction rounds generalizing currSend file with
  | zero => trivial
  | succ rounds ih =>
      simp only [writeVmaPayload]
      split
      · next more =>
        rw [UInt64.lt_iff_toNat_lt] at more
        rw [ensures_ask_bind]
        rintro reply _ ⟨truthful, rfl⟩
        refine ⟨trivial, ?_⟩
        cases reply with
        | interrupted => exact ih sent streaming
        | failed => exact ⟨streaming.partly (begins _), by simp⟩
        | chunk bytes fits =>
            rcases toNat_chunk_end more fits with ⟨next, within⟩
            have address : (vma.startAddress + currSend).toNat =
                vma.startAddress.toNat + currSend.toNat := by
              rw [UInt64.toNat_add]
              exact Nat.mod_eq_of_lt (by omega)
            rw [Truthful, address] at truthful
            have pieces := take_payload_append truthful within
            rw [ensures_require_bind]
            refine ⟨fun _ => ?_, fun _ => ⟨streaming.partly (begins _), by simp⟩⟩
            refine ensures_write_world streaming (fun after partly => ?_) fun after written => ?_
            · rw [List.append_assoc, pieces] at partly
              exact ⟨partly.mono (begins _), by simp⟩
            · rw [List.append_assoc, pieces, ← next] at written
              exact ih (next ▸ within) written
      · next done_ =>
        rw [UInt64.lt_iff_toNat_lt] at done_
        have length : (target.payload vma).length ≤ currSend.toNat := by
          simp only [Target.payload, List.length_map, List.length_range]
          omega
        rw [List.take_of_length_le length] at streaming
        exact ⟨streaming.partly List.prefix_rfl, fun _ => streaming⟩

/-- So have the loops over all payloads, one after another. -/
theorem ensures_payloads_world {taken : Bytes} {vmas : List VmaDescriptor}
    (inside : ∀ vma ∈ vmas, vma.startAddress.toNat + vma.size.toNat < 2 ^ 64) {rounds : ℕ}
    {file : SnapshotFile} (streaming : Streaming taken file) :
    (forM vmas fun vma => writeVmaPayload vma rounds 0).run.Ensures (dumpWorld target)
      (fun _ => True) (fun _ after => PartlyTaken (taken ++ vmas.flatMap target.payload) after)
      file := by
  induction vmas generalizing taken file with
  | nil => exact streaming.partly (List.prefix_append _ _)
  | cons vma vmas ih =>
      rw [List.forM_cons, ensures_attempt_bind, List.flatMap_cons]
      have first : Streaming (taken ++ (target.payload vma).take (0 : UInt64).toNat) file := by
        simpa using streaming
      refine (ensures_payload_world (inside vma List.mem_cons_self) rounds (Nat.zero_le _)
        first).mono fun outcome after written => ?_
      rw [← List.append_assoc]
      cases outcome with
      | none => exact written.1.mono (List.prefix_append _ _)
      | some _ =>
          exact ih (fun other mem => inside other (List.mem_cons_of_mem _ mem)) (written.2 rfl)

/-- The place in the file does not matter to what is in the payload. -/
theorem flatMap_payload_assignDataOffsets {offset : UInt64} {vmas : List VmaDescriptor} :
    (assignDataOffsets offset vmas).flatMap target.payload = vmas.flatMap target.payload := by
  induction vmas generalizing offset with
  | nil => rfl
  | cons vma vmas ih =>
      rw [assignDataOffsets, List.flatMap_cons, List.flatMap_cons, ih]
      rfl

/-- However far it gets, the stream has a beginning of the file. -/
theorem ensures_sections_world (sound : parts.Sound) (rounds : ℕ) {file : SnapshotFile}
    (streaming : Streaming [] file) :
    (writeSections rounds parts).run.Ensures (dumpWorld target) (fun _ => True)
      (fun _ after => PartlyTaken (target.fileBytes parts) after) file := by
  have inside : ∀ vma ∈ parts.vmaTable, vma.startAddress.toNat + vma.size.toNat < 2 ^ 64 := by
    intro vma mem
    rcases exists_of_mem_assignDataOffsets mem with ⟨original, originalMem, same⟩
    rw [same]
    exact sound.vma_inside original originalMem
  have begins : ∀ {sections after}, sections <+: target.fileBytes parts →
      PartlyTaken sections after → PartlyTaken (target.fileBytes parts) after :=
    fun start partly => partly.mono start
  unfold writeSections
  refine ensures_write_world streaming (fun _ => begins ?_) fun _ streaming => ?_
  · simp [Target.fileBytes, SnapshotParts.fileBytes, snapshotBytes]
  refine ensures_write_world streaming (fun _ => begins ?_) fun _ streaming => ?_
  · simp [Target.fileBytes, SnapshotParts.fileBytes, snapshotBytes]
  refine ensures_section_world streaming (fun _ => begins ?_) fun _ streaming => ?_
  · simp [Target.fileBytes, SnapshotParts.fileBytes, snapshotBytes]
  refine ensures_section_world streaming (fun _ => begins ?_) fun _ streaming => ?_
  · simp [Target.fileBytes, SnapshotParts.fileBytes, snapshotBytes]
  refine ensures_write_world streaming (fun _ => begins ?_) fun beforeTell streaming => ?_
  · simp [Target.fileBytes, SnapshotParts.fileBytes, snapshotBytes]
  rw [ensures_ask_bind]
  rintro position _ ⟨_, rfl⟩
  have payload : parts.vmaTable.flatMap target.payload = parts.vmas.flatMap target.payload :=
    flatMap_payload_assignDataOffsets
  have whole : [] ++ headerCodec.encode parts.header ++ vmaCodec.encodeAll parts.vmaTable ++
      fdCodec.encodeAll parts.fds ++ parts.pool ++ parts.xstate ++
        parts.vmaTable.flatMap target.payload = target.fileBytes parts := by
    simp [payload, Target.fileBytes, SnapshotParts.fileBytes, snapshotBytes]
  refine ⟨trivial, ?_⟩
  rw [ensures_require_bind]
  refine ⟨fun _ => ?_, fun _ => streaming.partly (whole ▸ List.prefix_append _ _)⟩
  rw [← whole]
  exact ensures_payloads_world inside streaming

/-! ## The dump -/

theorem ensures_cleanup_world {whole : Bytes} (written : Bool) {file : SnapshotFile}
    (partly : PartlyTaken whole file) :
    (closeSnapshot written).Ensures (dumpWorld target) (fun _ => True)
      (fun _ after => PartlyTaken whole after) file := by
  have keeps : (closeSnapshot written).Ensures (dumpWorld target) (PartlyTaken whole)
      (fun _ after => PartlyTaken whole after) file := by
    refine (onlyCalls_closeSnapshot written).ensures ?_ partly
    rintro before request reply after call ⟨taken, streaming, part⟩ ⟨_, step⟩
    have noCreate : request ≠ .createSnapshot := by
      rintro rfl
      exact call
    have noWrite : ∀ bytes, request ≠ .write bytes := by
      rintro bytes rfl
      exact call
    exact ⟨taken, streaming.keep noCreate noWrite step, part⟩
  exact keeps.weaken fun _ _ => trivial

theorem ensures_writeSnapshot_world (sound : parts.Sound) (rounds : ℕ) (disk : Option Bytes) :
    (writeSnapshot rounds parts).Ensures (dumpWorld target) (fun _ => True)
      (fun _ after => after = untouched disk ∨ PartlyTaken (target.fileBytes parts) after)
      (untouched disk) := by
  unfold writeSnapshot
  rw [ensures_perform_bind]
  rintro memoryOpened _ ⟨_, rfl⟩
  refine ⟨trivial, ?_⟩
  cases memoryOpened with
  | false => exact .inl rfl
  | true =>
      rw [if_pos rfl, ensures_perform_bind]
      rintro created after ⟨_, step⟩
      refine ⟨trivial, ?_⟩
      cases created with
      | false =>
          obtain rfl : after = untouched disk := step
          rw [if_neg (by decide), ensures_perform_bind]
          rintro _ _ ⟨_, rfl⟩
          exact ⟨trivial, .inl rfl⟩
      | true =>
          obtain rfl : after = ⟨true, [], some []⟩ := step
          rw [if_pos rfl, ensures_bind]
          refine (ensures_sections_world sound rounds ⟨rfl, rfl, [], rfl, List.prefix_rfl⟩).mono
            fun outcome written partly => ?_
          exact (ensures_cleanup_world outcome.isSome partly).mono fun _ _ kept => .inr kept

/-- The file at the end of a dump: not opened, or with a beginning of the image of the target,
of which everything was collected. -/
def LeftBehind (target : Target) (link : Bytes) (disk : Option Bytes) (file : SnapshotFile) :
    Prop :=
  file = untouched disk ∨
    Collected target.maps target.files (target.parts link) ∧ PartlyTaken (target.image link) file

theorem ensures_dumpSeized_world (memory : Allocations) (rounds : ℕ) (disk : Option Bytes) :
    (dumpSeized memory rounds).run.Ensures (linkedWorld target link) (fun _ => True)
      (fun _ after => LeftBehind target link disk after) (untouched disk) := by
  have unconcerned : (collectParts memory).run.OnlyCalls Unconcerned := by
    refine (onlyCalls_collectParts memory).mono fun request call => ?_
    cases request <;> trivial
  have same : (collectParts memory).run.Ensures (linkedWorld target link) (fun _ => True)
      (fun _ after => after = untouched disk) (untouched disk) :=
    ensures_of_exec fun _ _ run => (ensures_unconcerned unconcerned _).exec (exec_unlinked run)
  unfold dumpSeized
  rw [ensures_ask_bind]
  rintro interrupted _ ⟨⟨_, rfl⟩, -⟩
  refine ⟨trivial, ?_⟩
  rw [ensures_require_bind]
  refine ⟨fun _ => ?_, fun _ => .inl rfl⟩
  rw [ensures_ask_bind]
  rintro stopped _ ⟨⟨_, rfl⟩, -⟩
  refine ⟨trivial, ?_⟩
  rw [ensures_require_bind]
  refine ⟨fun _ => ?_, fun _ => .inl rfl⟩
  rw [ensures_attempt_bind]
  refine (same.and (ensures_collectParts_linked memory _)).mono ?_
  rintro outcome _ ⟨rfl, collects⟩
  cases outcome with
  | none => exact .inl rfl
  | some parts =>
      rcases collects parts rfl with ⟨-, rfl, collected⟩
      dsimp only
      rw [ensures_lift_bind]
      refine ensures_of_exec fun saved after run => ?_
      have writes := (ensures_writeSnapshot_world collected.sound rounds disk).exec
        (exec_unlinked run)
      have left : LeftBehind target link disk after :=
        writes.imp_right fun partly => ⟨collected, partly⟩
      rw [ensures_require]
      exact ⟨fun _ => left, fun _ => left⟩

theorem leftBehind_of_dump {config : DumpConfig} {memory : Allocations} {rounds : ℕ}
    {disk : Option Bytes} {result : Bool} {file : SnapshotFile}
    (run : (dump config memory rounds).Exec (linkedWorld target link) (untouched disk) result
      file) : LeftBehind target link disk file := by
  have spec : (dump config memory rounds).Ensures (linkedWorld target link) (fun _ => True)
      (fun _ after => LeftBehind target link disk after) (untouched disk) := by
    unfold dump
    split
    · exact .inl rfl
    · rw [ensures_perform_bind]
      rintro seized _ ⟨⟨_, rfl⟩, -⟩
      refine ⟨trivial, ?_⟩
      cases seized with
      | false => exact .inl rfl
      | true =>
          rw [if_pos rfl, ensures_bind]
          refine (ensures_dumpSeized_world memory rounds disk).mono fun outcome after left => ?_
          refine ensures_of_exec fun result final finishes => ?_
          obtain rfl : final = after := (captured_of_finishDump (exec_unlinked finishes)).2
          exact left
  exact spec.exec run

/-- A dump that returns ERROR without having opened the snapshot for writing leaves what was at
its path, byte for byte. Once it has opened it, the path holds a beginning of the new snapshot
of the target, its image, and nothing of the old one. -/
theorem dump_error_leaves {config : DumpConfig} {memory : Allocations} {rounds : ℕ}
    {old : Bytes} {file : SnapshotFile}
    (run : (dump config memory rounds).Exec (linkedWorld target link) (untouched (some old)) false
      file) :
    (file.opened = false → file.disk = some old) ∧
    (file.opened = true → Collected target.maps target.files (target.parts link) ∧
      ∃ left, file.disk = some left ∧ left <+: target.image link) := by
  rcases leftBehind_of_dump run with rfl | ⟨collected, taken, streaming, part⟩
  · exact ⟨fun _ => rfl, fun isOpen => absurd isOpen (by simp [untouched])⟩
  · rcases streaming with ⟨isOpen, rfl, left, onDisk, behind⟩
    refine ⟨fun notOpen => absurd isOpen (by simp [notOpen]), fun _ => ⟨collected, ?_⟩⟩
    exact ⟨left, onDisk, behind.trans part⟩

/-! ## A disk that is full -/

/-- Nothing fails but the writes, once there is no room left on the disk. -/
def fullDisk (target : Target) (link : Bytes) (position room : ℕ) (before : SnapshotFile) :
    (request : DumpCall) → DumpReply request × SnapshotFile
  | .write bytes =>
      let taken := before.taken ++ bytes.take (room - before.taken.length)
      (before.taken.length + bytes.length ≤ room,
        if before.opened then ⟨true, taken, some taken⟩ else before)
  | request => obliging target link position before request

theorem fullDisk_linked (position room : ℕ) (before : SnapshotFile) (request : DumpCall) :
    (linkedWorld target link).step before request
      (fullDisk target link position room before request).1
      (fullDisk target link position room before request).2 := by
  cases request with
  | write bytes =>
      refine ⟨⟨trivial, ?_⟩, trivial⟩
      simp only [FileStep, fullDisk]
      split
      · refine ⟨min (room - before.taken.length) bytes.length, _, ?_, List.prefix_rfl, ?_⟩
        · intro fits
          have := of_decide_eq_true fits
          omega
        · rw [List.take_eq_take_min]
      · rfl
  | _ => exact obliging_linked position before _

def plainConfig : DumpConfig := ⟨none, none, false⟩

set_option maxRecDepth 4000 in
/-- Where there is no room at all, the dump of one byte ends with ERROR, and its snapshot is
empty. -/
theorem fullDisk_run (old : Bytes) :
    (dump plainConfig .plenty 2).Exec (linkedWorld smallestTarget (ascii "/a"))
      (untouched (some old)) false ⟨true, [], some []⟩ :=
  exec_of_evaluate (fullDisk_linked 0 0) rfl

/-- What a dump that ends with ERROR leaves is not what was there, even when that was a
snapshot that can be restored. -/
theorem not_dump_error_keeps :
    ¬ ∀ (target : Target) (config : DumpConfig) (memory : Allocations) (rounds : ℕ)
      (old : RegularFile) (file : SnapshotFile),
      (∃ snapshot, readOutcome .none old = .ok snapshot) →
      (dump config memory rounds).Exec (dumpWorld target) (untouched (some old.bytes)) false file →
        file.disk = some old.bytes := by
  intro keeps
  have empty : some [] = some smallestSnapshot.bytes :=
    keeps smallestTarget plainConfig .plenty 2 smallestSnapshot _
      ⟨smallestRead, readOutcome_smallestSnapshot⟩
      (exec_unlinked (fullDisk_run smallestSnapshot.bytes))
  exact absurd (Option.some.inj empty) (List.cons_ne_nil _ _).symm

/-- The dump of the sample ends with ERROR where the disk has no room for the last bytes of its
memory. -/
theorem fullDisk_sample : ∃ file,
    (dump plainConfig .plenty 3).Exec (linkedWorld sampleTarget (ascii "/a"))
      (untouched (some [1, 2, 3])) false file ∧ file.opened = true ∧
        file.disk.map List.length = some 5340 := by
  have evaluates : ((writeSnapshot 3 sampleParts).evaluate
      (fullDisk sampleTarget (ascii "/a") 5337 5340) (untouched (some [1, 2, 3]))).map
        (fun ended => (ended.1, ended.2.opened, ended.2.disk.map List.length)) =
          some (false, true, some 5340) := by
    decide +kernel
  rcases Option.map_eq_some_iff.mp evaluates with ⟨⟨outcome, file⟩, evaluated, ended⟩
  simp only [Prod.mk.injEq] at ended
  rcases ended with ⟨rfl, isOpen, onDisk⟩
  exact ⟨file, dump_of_evaluate rfl rfl (fullDisk_linked 5337 5340) evaluated, isOpen, onDisk⟩

/-- It leaves a part of its memory there. -/
theorem dump_error_leaves_fullDisk : ∃ left, left.length = 5340 ∧
    Collected sampleTarget.maps sampleTarget.files (sampleTarget.parts (ascii "/a")) ∧
      left <+: sampleTarget.image (ascii "/a") := by
  rcases fullDisk_sample with ⟨file, run, isOpen, length⟩
  rcases (dump_error_leaves run).2 isOpen with ⟨collected, left, onDisk, begins⟩
  rw [onDisk] at length
  exact ⟨left, Option.some.inj length, collected, begins⟩

end Ksnap
