import Ksnap.Restore.Injection

/-!
# Mappings and their payloads

The copy loop of a mapping writes the payload of the snapshot over the new mapping, one
chunk after the other, and nothing else. Code that an injection patches is put back
before the next one, wherever it lies, so what an earlier mapping was given stays until
a later one replaces it.
-/

namespace Ksnap

open Foundation Foundation.Program

/-- Neither a single step that was interrupted nor code that was not put back. -/
def Undisturbed (event : RestoreEvent) : Prop :=
  Trapped event ∧ CodePutBack event

/-- What the child keeps while its address space is rebuilt. -/
structure Continues (before after : Child) : Prop where
  held : Held after
  descriptors : after.descriptors = before.descriptors
  calls : before.calls <+: after.calls
  shown : before.shown <+: after.shown

theorem Continues.refl {child : Child} (held : Held child) : Continues child child where
  held := held
  descriptors := rfl
  calls := List.prefix_rfl
  shown := List.prefix_rfl

theorem Continues.trans {first second third : Child} (continues : Continues first second)
    (more : Continues second third) : Continues first third where
  held := more.held
  descriptors := more.descriptors.trans continues.descriptors
  calls := continues.calls.trans more.calls
  shown := continues.shown.trans more.shown

/-- The system call was executed without an error. -/
def Executed (call : SystemCall) (calls : List (SystemCall × UInt64)) : Prop :=
  ∃ result, syscallFailed result = false ∧ (call, result) ∈ calls

theorem Executed.mono {call : SystemCall} {calls more : List (SystemCall × UInt64)}
    (executed : Executed call calls) (grows : calls <+: more) : Executed call more := by
  rcases executed with ⟨result, succeeds, mem⟩
  exact ⟨result, succeeds, grows.subset mem⟩

theorem Executed.cons {call : SystemCall} {calls : List (SystemCall × UInt64)}
    (executed : Executed call calls) (first : SystemCall × UInt64) :
    Executed call (first :: calls) := by
  rcases executed with ⟨result, succeeds, mem⟩
  exact ⟨result, succeeds, List.mem_cons_of_mem first mem⟩

/-- An injected call that leaves the descriptors alone was executed. -/
structure Ran (call : SystemCall) (before after : Child) : Prop where
  continues : Continues before after
  calls : ∃ result, syscallFailed result = false ∧ after.calls = before.calls ++ [(call, result)]
  memory : ∀ address, (∀ result, ¬call.Touches result address) →
    after.memory address = before.memory address

theorem Ran.executed {call : SystemCall} {before after : Child} (ran : Ran call before after) :
    Executed call after.calls := by
  rcases ran.calls with ⟨result, succeeds, calls⟩
  exact ⟨result, succeeds, calls ▸ List.mem_append_right _ List.mem_cons_self⟩

section

variable {content : Bytes} {rely : RestoreEvent → Prop} {vma : VmaDescriptor} {child : Child}

theorem inject_ran (undisturbed : ∀ event, rely event → Undisturbed event) (call : SystemCall)
    (notFcntl : call.number ≠ sysFcntl) (held : Held child) :
    (injectSucceeding call).run.Ensures (childWorld content rely) Held
      (fun outcome after => outcome.isSome → Ran call child after) child := by
  refine (injectSucceeding_spec (fun event relied => (undisturbed event relied).1) call
    held).mono ?_
  intro outcome after injects success
  rcases injects success with ⟨result, succeeds, injected⟩
  have descriptors : call.descriptors result child.descriptors = child.descriptors :=
    if_neg fun isFcntl => notFcntl isFcntl.1
  constructor
  · exact {
      held := injected.held
      descriptors := injected.descriptors.trans descriptors
      calls := injected.calls ▸ List.prefix_append _ _
      shown := injected.shown ▸ List.prefix_rfl }
  · exact ⟨result, succeeds, injected.calls⟩
  · intro address untouched
    exact injected.memory (fun event relied => (undisturbed event relied).2) address
      (untouched result)

/-! ## The copy loop -/

/-- The rest of the payload was copied, from a number of bytes on. -/
structure Copied (content : Bytes) (vma : VmaDescriptor) (copied : ℕ) (before after : Child) :
    Prop where
  continues : Continues before after
  calls : after.calls = before.calls
  outside : ∀ address, ¬Within vma.startAddress vma.size.toNat address →
    after.memory address = before.memory address
  earlier : ∀ index, index < copied → after.memory (vma.startAddress + UInt64.ofNat index) =
    before.memory (vma.startAddress + UInt64.ofNat index)
  payload : ∀ index, copied ≤ index → index < vma.size.toNat →
    some (after.memory (vma.startAddress + UInt64.ofNat index)) =
      content[vma.dataOffset.toNat + index]?

theorem payloadRound_le (left : UInt64) : (payloadRound left).toNat ≤ left.toNat := by
  unfold payloadRound
  split
  · rename_i more
    exact Nat.le_of_lt (UInt64.lt_iff_toNat_lt.mp more)
  · exact Nat.le_refl _

/-- One chunk in front of the rest. -/
theorem Copied.chunk {copied count : ℕ} {before middle after : Child} {bytes : Bytes}
    (fits : copied + count ≤ vma.size.toNat) (length : bytes.length = count)
    (read : ∀ index (inside : index < bytes.length),
      content[vma.dataOffset.toNat + (copied + index)]? = some bytes[index])
    (continues : Continues before middle) (calls : middle.calls = before.calls)
    (written : middle.memory =
      writeRange before.memory (vma.startAddress + UInt64.ofNat copied) bytes)
    (rest : Copied content vma (copied + count) middle after) :
    Copied content vma copied before after := by
  have sizeBelow := vma.size.toNat_lt
  constructor
  · exact continues.trans rest.continues
  · exact rest.calls.trans calls
  · intro address outside
    rw [rest.outside address outside, written]
    apply writeRange_of_not_within
    intro inChunk
    exact outside (inChunk.of_add (length ▸ fits) (Nat.le_of_lt sizeBelow))
  · intro index below
    rw [rest.earlier index (by omega), written]
    apply writeRange_of_not_within
    exact not_within_of_lt vma.startAddress (by omega) below
  · intro index above inside
    rcases Nat.lt_or_ge index (copied + count) with inChunk | later
    · rcases Nat.exists_eq_add_of_le above with ⟨offset, rfl⟩
      have offsetInside : offset < bytes.length := by omega
      rw [rest.earlier _ inChunk, written, read offset offsetInside]
      exact congrArg some (writeRange_add_add (by omega) offsetInside)
    · exact rest.payload index later inside

theorem copyPayload_spec {rounds : ℕ} {currRead : UInt64} (held : Held child)
    (le : currRead ≤ vma.size)
    (position : child.filePosition = vma.dataOffset.toNat + currRead.toNat) :
    (copyPayload vma rounds currRead).run.Ensures (childWorld content rely) Held
      (fun outcome after => outcome.isSome → Copied content vma currRead.toNat child after)
      child := by
  induction rounds generalizing currRead child with
  | zero => trivial
  | succ rounds ih =>
      rw [UInt64.le_iff_toNat_le] at le
      unfold copyPayload
      split
      · rename_i more
        rw [UInt64.lt_iff_toNat_lt] at more
        have left : (vma.size - currRead).toNat = vma.size.toNat - currRead.toNat :=
          UInt64.toNat_sub_of_le _ _ (UInt64.le_iff_toNat_le.mpr le)
        have chunk := payloadRound_le (vma.size - currRead)
        rw [left] at chunk
        have sizeBelow := vma.size.toNat_lt
        have next : (currRead + payloadRound (vma.size - currRead)).toNat =
            currRead.toNat + (payloadRound (vma.size - currRead)).toNat := by
          rw [UInt64.toNat_add]
          exact Nat.mod_eq_of_lt (by omega)
        refine ensures_given_bind (by simp) ?_ ?_
        · intro chunkRead read step
          cases chunkRead with
          | none =>
              rcases step.1 with ⟨position, moved⟩
              exact moved ▸ held
          | some bytes => exact step.1.2 ▸ held
        intro chunkRead read step bytes given
        cases given
        rcases step.1 with ⟨fromFile, moved⟩
        have heldRead : Held read := moved ▸ held
        refine ensures_checked_bind (by simp) ?_ ?_
        · intro complete written step
          rcases step.1 with ⟨count, _, writes⟩
          exact writes ▸ heldRead
        intro complete written step success
        cases success
        rcases step.1 with ⟨count, whole, writes⟩
        rw [whole rfl, List.take_length] at writes
        have continues : Continues child written := by
          rw [writes, moved]
          exact ⟨held, rfl, List.prefix_rfl, List.prefix_rfl⟩
        have memory : written.memory = writeRange child.memory
            (vma.startAddress + UInt64.ofNat currRead.toNat) bytes.toList := by
          rw [writes, moved, UInt64.ofNat_toNat]
        have fromContent : ∀ index (inside : index < bytes.toList.length),
            content[vma.dataOffset.toNat + (currRead.toNat + index)]? =
              some bytes.toList[index] := by
          intro index inside
          have here := fromFile ⟨index, by simpa using inside⟩
          rw [position, List.Vector.get_eq_get_toList, Nat.add_assoc] at here
          exact here
        refine (ih continues.held ?_ ?_).mono ?_
        · rw [UInt64.le_iff_toNat_le, next]
          omega
        · rw [writes, moved, next]
          simp only [position]
          omega
        · intro outcome after copies success
          have rest := copies success
          rw [next] at rest
          have calls : written.calls = child.calls := by rw [writes, moved]
          exact rest.chunk (by omega) bytes.toList_length fromContent continues calls memory
      · rename_i done
        rw [UInt64.lt_iff_toNat_lt] at done
        intro _
        refine ⟨.refl held, rfl, fun _ _ => rfl, fun _ _ => rfl, ?_⟩
        intro index above inside
        omega

/-! ## One mapping -/

/-- A mapping was made and filled. -/
structure Mapped (content : Bytes) (vma : VmaDescriptor) (before after : Child) : Prop where
  continues : Continues before after
  calls : ∃ result, syscallFailed result = false ∧
    after.calls = before.calls ++ [(mmapCall vma, result)]
  outside : ∀ address, ¬Within vma.startAddress vma.size.toNat address →
    after.memory address = before.memory address
  payload : ∀ index, index < vma.size.toNat →
    some (after.memory (vma.startAddress + UInt64.ofNat index)) =
      content[vma.dataOffset.toNat + index]?

theorem restoreVma_spec (undisturbed : ∀ event, rely event → Undisturbed event)
    (held : Held child) :
    (restoreVma vma).run.Ensures (childWorld content rely) Held
      (fun outcome after => outcome.isSome → Mapped content vma child after) child := by
  unfold restoreVma injectMmapSyscall
  have notFcntl : sysMmap ≠ sysFcntl := by decide
  have notMremap : sysMmap ≠ sysMremap := by decide
  refine ensures_bind_success (inject_ran undisturbed (mmapCall vma) notFcntl held) ?_
  intro _ made ran
  refine ensures_checked_bind (by simp) ?_ ?_
  · intro sought positioned step
    cases sought with
    | false => exact step.1 ▸ ran.continues.held
    | true => exact step.1 ▸ ran.continues.held
  intro sought positioned step success
  cases success
  have seeks : positioned = { made with filePosition := vma.dataOffset.toNat } := step.1
  have continues : Continues made positioned := by
    rw [seeks]
    exact ⟨ran.continues.held, rfl, List.prefix_rfl, List.prefix_rfl⟩
  refine (copyPayload_spec continues.held (UInt64.zero_le) ?_).mono ?_
  · rw [seeks]
    rfl
  · intro outcome after copies success
    have copied := copies success
    have sameMemory : positioned.memory = made.memory := by rw [seeks]
    constructor
    · exact (ran.continues.trans continues).trans copied.continues
    · rcases ran.calls with ⟨result, succeeds, calls⟩
      have sameCalls : positioned.calls = made.calls := by rw [seeks]
      exact ⟨result, succeeds, copied.calls.trans (sameCalls.trans calls)⟩
    · intro address outside
      rw [copied.outside address outside, sameMemory]
      apply ran.memory
      intro result touches
      rcases touches.2 with ⟨_, mapped⟩ | ⟨isMremap, _⟩
      · exact outside mapped
      · exact absurd isMremap notMremap
    · intro index inside
      exact copied.payload index (Nat.zero_le index) inside

end

end Ksnap
