import Ksnap.Dump.Trace
import Ksnap.Snapshot.RoundTrip

/-!
# The order of a dump

The target is killed only after its snapshot was saved, and a target that was seized
and is not killed is detached exactly once. Both are read off the record of a run:
between the seize and the label there is neither a kill nor a detach, and the label
makes one or the other its last resort.
-/

namespace Ksnap

open Foundation Foundation.Program

/-! ## Collecting -/

/-- The parts, and the calls they were collected by. -/
def PartsCollected (trace : DumpTrace) (parts : SnapshotParts) : Prop :=
  ∃ link maps files, Collected maps files parts ∧
    [⟨.getRegs, some parts.regs⟩, ⟨.getXstate, some parts.xstate⟩, ⟨.readExe, some link⟩,
      ⟨.readMaps, maps⟩, ⟨.readFds, files⟩] ⊆ trace

theorem PartsCollected.mono {trace final : DumpTrace} {parts : SnapshotParts}
    (collected : PartsCollected trace parts) (longer : trace <+: final) :
    PartsCollected final parts := by
  rcases collected with ⟨link, maps, files, tables, calls⟩
  exact ⟨link, maps, files, tables, fun _ mem => longer.subset (calls mem)⟩

theorem collectParts_spec (memory : Allocations) {trace : DumpTrace} (all : AllWritten trace) :
    (collectParts memory).run.Ensures (recording DumpInterface) (fun _ => True)
      (fun outcome final => ∀ parts, outcome = some parts →
        AllWritten final ∧ PartsCollected final parts) trace := by
  unfold collectParts
  rw [ensures_ask_bind]
  rintro regsReply _ rfl
  refine ⟨trivial, ?_⟩
  rw [ensures_give_bind]
  refine ⟨?_, by simp⟩
  rintro regs rfl
  rw [ensures_ask_bind]
  rintro allocated _ rfl
  refine ⟨trivial, ?_⟩
  rw [ensures_require_bind]
  refine ⟨?_, by simp⟩
  rintro rfl
  rw [ensures_ask_bind]
  rintro areaReply _ rfl
  refine ⟨trivial, ?_⟩
  rw [ensures_give_bind]
  refine ⟨?_, by simp⟩
  rintro area rfl
  rw [ensures_give_bind]
  refine ⟨fun xstate checkedXstate => ?_, by simp⟩
  rw [ensures_ask_bind]
  rintro linkReply _ rfl
  refine ⟨trivial, ?_⟩
  rw [ensures_give_bind]
  refine ⟨?_, by simp⟩
  rintro link rfl
  rw [ensures_give_bind]
  refine ⟨fun exePath checkedPath => ?_, by simp⟩
  rw [ensures_ask_bind]
  rintro maps _ rfl
  refine ⟨trivial, ?_⟩
  rw [ensures_give_bind]
  refine ⟨fun vmaTable collectsVmas => ?_, by simp⟩
  rw [ensures_ask_bind]
  rintro files _ rfl
  refine ⟨trivial, ?_⟩
  rw [ensures_give_bind]
  refine ⟨fun fdTable collectsFds => ?_, by simp⟩
  rw [ensures_attempt_pure]
  rintro parts ⟨⟩
  refine ⟨?_, link, maps, files, ⟨⟨area, checkedXstate⟩, ⟨link, checkedPath⟩, memory, vmaTable,
    fdTable, collectsVmas, collectsFds, rfl, rfl, rfl, rfl⟩, ?_⟩
  · intro bytes mem
    simp only [List.append_assoc, List.mem_append, List.mem_singleton] at mem
    simp at mem
    exact all bytes mem
  · simp [(checkXstate_eq_some_iff.mp checkedXstate).1]

/-! ## Between the seize and the label -/

/-- The calls that collect the parts. -/
def CollectingCall : DumpCall → Prop
  | .getRegs | .allocateXstate | .getXstate | .readExe | .readMaps | .readFds => True
  | _ => False

/-- The calls of a payload. -/
def PayloadCall : DumpCall → Prop
  | .readMemory _ _ | .write _ => True
  | _ => False

/-- The calls after the last byte of a snapshot. -/
def CleanupCall : DumpCall → Prop
  | .closeMemory | .flush | .sync | .closeSnapshot => True
  | _ => False

/-- The calls that neither take the target nor let go of it. -/
def Capturing : DumpCall → Prop
  | .seize | .kill | .reap | .detach => False
  | _ => True

theorem onlyCalls_collectParts (memory : Allocations) :
    (collectParts memory).run.OnlyCalls CollectingCall := by
  unfold collectParts
  refine (onlyCalls_ask trivial).attempt_bind fun _ => ?_
  refine onlyCalls_give.attempt_bind fun _ => ?_
  refine (onlyCalls_ask trivial).attempt_bind fun _ => ?_
  refine onlyCalls_require.attempt_bind fun _ => ?_
  refine (onlyCalls_ask trivial).attempt_bind fun _ => ?_
  refine onlyCalls_give.attempt_bind fun _ => ?_
  refine onlyCalls_give.attempt_bind fun _ => ?_
  refine (onlyCalls_ask trivial).attempt_bind fun _ => ?_
  refine onlyCalls_give.attempt_bind fun _ => ?_
  refine onlyCalls_give.attempt_bind fun _ => ?_
  refine (onlyCalls_ask trivial).attempt_bind fun _ => ?_
  refine onlyCalls_give.attempt_bind fun _ => ?_
  refine (onlyCalls_ask trivial).attempt_bind fun _ => ?_
  exact onlyCalls_give.attempt_bind fun _ => onlyCalls_pure

theorem onlyCalls_writeVmaPayload (vma : VmaDescriptor) (rounds : ℕ) (currSend : UInt64) :
    (writeVmaPayload vma rounds currSend).run.OnlyCalls PayloadCall := by
  induction rounds generalizing currSend with
  | zero => trivial
  | succ rounds ih =>
      simp only [writeVmaPayload]
      split
      · refine (onlyCalls_ask trivial).attempt_bind fun reply => ?_
        cases reply with
        | interrupted => exact ih currSend
        | failed => trivial
        | chunk bytes fits =>
            refine onlyCalls_require.attempt_bind fun _ => ?_
            refine (onlyCalls_ask trivial).attempt_bind fun _ => ?_
            exact onlyCalls_require.attempt_bind fun _ => ih _
      · trivial

theorem onlyCalls_writePayloads (vmas : List VmaDescriptor) (rounds : ℕ) :
    (forM vmas fun vma => writeVmaPayload vma rounds 0).run.OnlyCalls PayloadCall :=
  onlyCalls_forM fun vma => onlyCalls_writeVmaPayload vma rounds 0

theorem onlyCalls_writeSection (bytes : Bytes) :
    (writeSection bytes).run.OnlyCalls Capturing := by
  unfold writeSection
  split
  · trivial
  · exact (onlyCalls_ask trivial).attempt_bind fun _ => onlyCalls_require

theorem onlyCalls_writeSections (rounds : ℕ) (parts : SnapshotParts) :
    (writeSections rounds parts).run.OnlyCalls Capturing := by
  unfold writeSections
  refine (onlyCalls_ask trivial).attempt_bind fun _ => ?_
  refine onlyCalls_require.attempt_bind fun _ => ?_
  refine (onlyCalls_ask trivial).attempt_bind fun _ => ?_
  refine onlyCalls_require.attempt_bind fun _ => ?_
  refine (onlyCalls_writeSection _).attempt_bind fun _ => ?_
  refine (onlyCalls_writeSection _).attempt_bind fun _ => ?_
  refine (onlyCalls_ask trivial).attempt_bind fun _ => ?_
  refine onlyCalls_require.attempt_bind fun _ => ?_
  refine (onlyCalls_ask trivial).attempt_bind fun _ => ?_
  refine onlyCalls_require.attempt_bind fun _ => ?_
  refine (onlyCalls_writePayloads _ _).mono fun request call => ?_
  cases request <;> trivial

theorem onlyCalls_closeSnapshot (written : Bool) :
    (closeSnapshot written).OnlyCalls CleanupCall := by
  have flush : (flushToDisk written).OnlyCalls CleanupCall := by
    unfold flushToDisk
    split
    · refine (onlyCalls_perform.mpr trivial).bind fun flushed => ?_
      split
      · exact onlyCalls_perform.mpr trivial
      · exact onlyCalls_pure
    · exact onlyCalls_pure
  refine (onlyCalls_perform.mpr trivial).bind fun _ => ?_
  refine flush.bind fun _ => ?_
  exact (onlyCalls_perform.mpr trivial).bind fun _ => onlyCalls_pure

theorem onlyCalls_writeSnapshot (rounds : ℕ) (parts : SnapshotParts) :
    (writeSnapshot rounds parts).OnlyCalls Capturing := by
  unfold writeSnapshot
  refine (onlyCalls_perform.mpr trivial).bind fun memoryOpened => ?_
  split
  · refine (onlyCalls_perform.mpr trivial).bind fun created => ?_
    split
    · refine (onlyCalls_writeSections rounds parts).bind fun _ => ?_
      refine (onlyCalls_closeSnapshot _).mono fun request call => ?_
      cases request <;> trivial
    · exact (onlyCalls_perform.mpr trivial).bind fun _ => onlyCalls_pure
  · exact onlyCalls_pure

theorem onlyCalls_dumpSeized (memory : Allocations) (rounds : ℕ) :
    (dumpSeized memory rounds).run.OnlyCalls Capturing := by
  have collects : (collectParts memory).run.OnlyCalls Capturing := by
    refine (onlyCalls_collectParts memory).mono fun request call => ?_
    cases request <;> trivial
  unfold dumpSeized
  refine (onlyCalls_ask trivial).attempt_bind fun _ => ?_
  refine onlyCalls_require.attempt_bind fun _ => ?_
  refine (onlyCalls_ask trivial).attempt_bind fun _ => ?_
  refine onlyCalls_require.attempt_bind fun _ => ?_
  refine collects.attempt_bind fun parts => ?_
  have lifted : (OptionT.lift (writeSnapshot rounds parts)).run.OnlyCalls Capturing :=
    (onlyCalls_writeSnapshot rounds parts).bind fun _ => onlyCalls_pure
  exact lifted.attempt_bind fun _ => onlyCalls_require

/-- The record of a dump that has got past the seize and not yet to the label. -/
def CapturedOnly (trace : DumpTrace) : Prop :=
  ∃ new, trace = ⟨.seize, true⟩ :: new ∧ ∀ event ∈ new, Capturing event.request

theorem CapturedOnly.step {trace : DumpTrace} (captured : CapturedOnly trace)
    {request : DumpCall} (capturing : Capturing request) (reply : DumpReply request) :
    CapturedOnly (trace ++ [⟨request, reply⟩]) := by
  rcases captured with ⟨new, rfl, each⟩
  refine ⟨new ++ [⟨request, reply⟩], by simp, ?_⟩
  intro event mem
  rcases List.mem_append.mp mem with earlier | last
  · exact each event earlier
  · rw [List.mem_singleton.mp last]
    exact capturing

theorem dumpSeized_spec (memory : Allocations) (rounds : ℕ) {trace : DumpTrace}
    (all : AllWritten trace) :
    (dumpSeized memory rounds).run.Ensures (recording DumpInterface) (fun _ => True)
      (fun outcome final => outcome.isSome →
        ∃ parts, PartsCollected final parts ∧ SnapshotSaved parts final) trace := by
  unfold dumpSeized
  rw [ensures_ask_bind]
  rintro interrupted _ rfl
  refine ⟨trivial, ?_⟩
  rw [ensures_require_bind]
  refine ⟨fun _ => ?_, by simp⟩
  rw [ensures_ask_bind]
  rintro stopped _ rfl
  refine ⟨trivial, ?_⟩
  rw [ensures_require_bind]
  refine ⟨fun _ => ?_, by simp⟩
  rw [ensures_attempt_bind]
  have allStopped : AllWritten (trace ++ [⟨.interrupt, interrupted⟩] ++ [⟨.waitStop, stopped⟩]) :=
    (all.concat fun _ => by simp).concat fun _ => by simp
  refine (collectParts_spec memory allStopped).mono fun outcome middle collects => ?_
  cases outcome with
  | none => simp
  | some parts =>
      rcases collects parts rfl with ⟨allCollected, collected⟩
      have sound : parts.Sound := by
        rcases collected with ⟨_, _, _, tables, _⟩
        exact tables.sound
      dsimp only
      rw [ensures_lift_bind]
      have saves := (writeSnapshot_spec sound rounds allCollected).and
        (ensures_recording_grows _ middle)
      refine saves.mono fun saved final both => ?_
      rcases both with ⟨spec, longer⟩
      rw [ensures_require]
      exact ⟨fun success _ => ⟨parts, collected.mono longer, spec success⟩, by simp⟩

/-! ## The label -/

def isDetach : DumpEvent → Bool
  | ⟨.detach, _⟩ => true
  | _ => false

/-- What a kill is to come after: it was asked for, and the snapshot has just been saved. -/
def MayKill (config : DumpConfig) (before : DumpTrace) : Prop :=
  config.killAfterDump = true ∧ ∃ parts, PartsCollected before parts ∧ SnapshotSaved parts before

/-- Every kill in the record is one that may be. -/
def KillGuarded (config : DumpConfig) (trace : DumpTrace) : Prop :=
  EachAfter (fun before event => event.request = .kill → MayKill config before) trace

/-- A target that was seized is killed, or detached exactly once. -/
def LetGo (trace : DumpTrace) : Prop :=
  ⟨.seize, true⟩ ∈ trace → ⟨.kill, true⟩ ∉ trace → trace.countP isDetach = 1

theorem KillGuarded.concat {config : DumpConfig} {trace : DumpTrace}
    (guarded : KillGuarded config trace) (request : DumpCall) (reply : DumpReply request)
    (may : request = .kill → MayKill config trace) :
    KillGuarded config (trace ++ [⟨request, reply⟩]) :=
  eachAfter_concat.mpr ⟨guarded, may⟩

theorem CapturedOnly.killGuarded {trace : DumpTrace} (captured : CapturedOnly trace)
    (config : DumpConfig) : KillGuarded config trace := by
  rcases captured with ⟨new, rfl, each⟩
  have seized : KillGuarded config [⟨.seize, true⟩] :=
    eachAfter_concat.mpr ⟨eachAfter_nil, by simp⟩
  refine seized.append fun event mem before kill => ?_
  have capturing := each event mem
  rw [kill] at capturing
  exact capturing.elim

theorem CapturedOnly.noDetach {trace : DumpTrace} (captured : CapturedOnly trace) :
    trace.countP isDetach = 0 := by
  rcases captured with ⟨new, rfl, each⟩
  rw [List.countP_eq_zero]
  intro event mem
  rcases List.mem_cons.mp mem with rfl | later
  · simp [isDetach]
  · have capturing := each event later
    rcases event with ⟨request, reply⟩
    cases request with
    | detach => exact capturing.elim
    | _ => simp [isDetach]

theorem detachTarget_spec {config : DumpConfig} (result : Bool) {trace : DumpTrace}
    (guarded : KillGuarded config trace) (noDetach : trace.countP isDetach = 0) :
    (detachTarget result).Ensures (recording DumpInterface) (KillGuarded config)
      (fun _ final => LetGo final) trace := by
  unfold detachTarget
  rw [ensures_perform_bind]
  rintro detached _ rfl
  refine ⟨guarded.concat .detach detached (by simp), fun _ _ => ?_⟩
  simp [List.countP_append, noDetach, isDetach]

theorem finishDump_spec (config : DumpConfig) {captured : Bool} {trace : DumpTrace}
    (only : CapturedOnly trace)
    (saved : captured = true → ∃ parts, PartsCollected trace parts ∧ SnapshotSaved parts trace) :
    (finishDump config captured).Ensures (recording DumpInterface) (KillGuarded config)
      (fun _ final => LetGo final) trace := by
  have guarded := only.killGuarded config
  unfold finishDump
  split
  · rename_i both
    rcases Bool.and_eq_true_iff.mp both with ⟨success, asked⟩
    rw [ensures_perform_bind]
    rintro killed _ rfl
    have guardedKill : KillGuarded config (trace ++ [⟨.kill, killed⟩]) :=
      guarded.concat .kill killed fun _ => ⟨asked, saved success⟩
    refine ⟨guardedKill, ?_⟩
    cases killed with
    | true =>
        rw [if_pos rfl, ensures_perform_bind]
        rintro _ _ rfl
        exact ⟨guardedKill.concat .reap _ (by simp), fun _ notKilled => absurd (by simp) notKilled⟩
    | false =>
        refine detachTarget_spec false guardedKill ?_
        simp [List.countP_append, only.noDetach, isDetach]
  · exact detachTarget_spec captured guarded only.noDetach

/-- The calls of the label. -/
def LettingGo (request : DumpCall) : Prop :=
  request = .kill ∨ request = .reap ∨ request = .detach

theorem onlyCalls_finishDump (config : DumpConfig) (captured : Bool) :
    (finishDump config captured).OnlyCalls LettingGo := by
  have detach : ∀ result, (detachTarget result).OnlyCalls LettingGo := fun _ =>
    (onlyCalls_perform.mpr (by simp [LettingGo])).bind fun _ => onlyCalls_pure
  unfold finishDump
  split
  · refine (onlyCalls_perform.mpr (by simp [LettingGo])).bind fun killed => ?_
    split
    · exact (onlyCalls_perform.mpr (by simp [LettingGo])).bind fun _ => onlyCalls_pure
    · exact detach false
  · exact detach captured

/-- A dump that failed before the label fails. -/
theorem finishDump_captured (config : DumpConfig) (captured : Bool) (trace : DumpTrace) :
    (finishDump config captured).Ensures (recording DumpInterface) (fun _ => True)
      (fun result _ => result = true → captured = true) trace := by
  have detach : ∀ trace, (detachTarget captured).Ensures (recording DumpInterface)
      (fun _ => True) (fun result _ => result = true → captured = true) trace := by
    intro trace
    unfold detachTarget
    rw [ensures_perform_bind]
    rintro detached _ rfl
    exact ⟨trivial, fun both => (Bool.and_eq_true_iff.mp both).2⟩
  unfold finishDump
  split
  · rename_i both
    exact ensures_of_exec fun _ _ _ _ => (Bool.and_eq_true_iff.mp both).1
  · exact detach trace

/-- A dump that returns OK has saved its snapshot, and only let go of the target since. -/
theorem dump_saved {config : DumpConfig} {memory : Allocations} {rounds : ℕ} {trace : DumpTrace}
    (run : (dump config memory rounds).Exec (recording DumpInterface) [] true trace) :
    ∃ saved rest parts, trace = saved ++ rest ∧ (∀ event ∈ rest, LettingGo event.request) ∧
      PartsCollected saved parts ∧ SnapshotSaved parts saved := by
  have spec : (dump config memory rounds).Ensures (recording DumpInterface) (fun _ => True)
      (fun result trace => result = true → ∃ saved rest parts, trace = saved ++ rest ∧
        (∀ event ∈ rest, LettingGo event.request) ∧ PartsCollected saved parts ∧
          SnapshotSaved parts saved) [] := by
    unfold dump
    split
    · exact fun impossible => absurd impossible (by decide)
    · rw [ensures_perform_bind]
      rintro seized _ rfl
      refine ⟨trivial, ?_⟩
      cases seized with
      | false => exact fun impossible => absurd impossible (by decide)
      | true =>
          rw [if_pos rfl, ensures_bind]
          refine (dumpSeized_spec memory rounds (by simp [AllWritten])).mono
            fun outcome saved captured => ?_
          have finishes := ((onlyCalls_finishDump config outcome.isSome).ensures_record saved).and
            (finishDump_captured config outcome.isSome saved)
          refine finishes.mono ?_
          rintro result _ ⟨⟨rest, rfl, each⟩, success⟩ ok
          rcases captured (success ok) with ⟨parts, collected, complete⟩
          exact ⟨saved, rest, parts, rfl, each, collected, complete⟩
  exact spec.exec run rfl

/-- Whatever the steps of a dump come to: every kill along the run was asked for and comes
after the snapshot was written in full, flushed, synced and closed, and at the end a
target that was seized and not killed has been detached exactly once. -/
theorem dump_letsGo (config : DumpConfig) (memory : Allocations) (rounds : ℕ) :
    (∀ trace, (dump config memory rounds).Reaches (recording DumpInterface) [] trace →
      KillGuarded config trace) ∧
    (∀ result trace, (dump config memory rounds).Exec (recording DumpInterface) [] result trace →
      LetGo trace) := by
  have spec : (dump config memory rounds).Ensures (recording DumpInterface) (KillGuarded config)
      (fun _ final => LetGo final) [] := by
    unfold dump
    split
    · exact fun impossible => absurd impossible (by simp)
    · rw [ensures_perform_bind]
      rintro seized _ rfl
      cases seized with
      | false =>
          refine ⟨eachAfter_concat.mpr ⟨eachAfter_nil, by simp⟩, ?_⟩
          exact fun impossible => absurd impossible (by simp)
      | true =>
          have start : CapturedOnly [⟨.seize, true⟩] := ⟨[], rfl, by simp⟩
          refine ⟨start.killGuarded config, ?_⟩
          rw [if_pos rfl, ensures_bind]
          have keeps : (dumpSeized memory rounds).run.Ensures (recording DumpInterface)
              CapturedOnly (fun _ final => CapturedOnly final) [⟨.seize, true⟩] := by
            refine (onlyCalls_dumpSeized memory rounds).ensures ?_ start
            rintro state request reply _ capturing captured rfl
            exact captured.step capturing reply
          have captures := (keeps.weaken fun _ captured => captured.killGuarded config).and
            (dumpSeized_spec memory rounds (by simp [AllWritten]))
          refine captures.mono fun outcome final both => ?_
          exact finishDump_spec config both.1 both.2
  exact ⟨fun trace reached => spec.reaches eachAfter_nil reached,
    fun result trace run => spec.exec run⟩

end Ksnap
