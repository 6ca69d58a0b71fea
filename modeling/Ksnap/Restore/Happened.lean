import Ksnap.Restore.Extension
import Ksnap.Snapshot.SectionBounds

/-!
# Which injections happened

The wait for a single step also returns when another signal stops the child first. Nobody
looks at its status. The result register still holds the number of the call then, and a
small number is no error, so a call that was never executed passes for a success.

A run keeps a record of its single steps: which call was in the registers, and why the step
came back. The calls that were executed are those whose step came back from its trap.
-/

namespace Ksnap

open Foundation Foundation.Program

/-- The single steps that came back, each with the call in the registers. -/
abbrev StepRecord : Type := List (SystemCall × StepStatus)

/-- A record of the single steps. -/
abbrev stepRecord : Extension where
  State := StepRecord
  stepped := fun child status _ record next =>
    match status with
    | some status => next = record ++ [(SystemCall.ofRegs child.regs, status)]
    | none => next = record
  shows := fun _ _ => True

/-- A restore with such a record, where a single step can come back for any reason. -/
abbrev recordedWorld (content : Bytes) : Environment RestoreInterface :=
  extendedWorld content (fun _ => True) stepRecord

def AllTrapped (record : StepRecord) : Prop :=
  ∀ step ∈ record, step.2 = .trapped

/-- Each call that was asked for was executed once, in this order, without an error. -/
def AllHappened (before : Child) (record : StepRecord) (after : Child) : Prop :=
  ∃ executed, after.calls = before.calls ++ executed ∧
    executed.map Prod.fst = record.map Prod.fst ∧
      ∀ entry ∈ executed, syscallFailed entry.2 = false

/-- The calls that were executed are the ones whose steps were trapped. -/
structure Accounted (start : Child) (asked : List SystemCall) (record : StepRecord)
    (child : Child) : Prop where
  asked : record.map Prod.fst = asked
  executed : ∃ executed, child.calls = start.calls ++ executed ∧
    executed.map Prod.fst = (record.filter (·.2 = .trapped)).map Prod.fst ∧
      ∀ entry ∈ executed, syscallFailed entry.2 = false

theorem Accounted.nil (start : Child) : Accounted start [] [] start where
  asked := rfl
  executed := ⟨[], by simp⟩

/-- What was asked for has all happened exactly if every step was trapped. -/
theorem Accounted.happened_iff {start child : Child} {asked : List SystemCall}
    {record : StepRecord} (accounted : Accounted start asked record child) :
    AllHappened start record child ↔ AllTrapped record := by
  rcases accounted.executed with ⟨executed, calls, same, succeed⟩
  constructor
  · rintro ⟨other, otherCalls, otherSame, _⟩
    have sameCalls : other = executed :=
      List.append_cancel_left (otherCalls.symm.trans calls)
    rw [sameCalls, same] at otherSame
    have lengths := congrArg List.length otherSame
    rw [List.length_map, List.length_map] at lengths
    intro step mem
    simpa using List.length_filter_eq_length_iff.mp lengths step mem
  · intro trapped
    refine ⟨executed, calls, ?_, succeed⟩
    rw [same, List.filter_eq_self.mpr]
    intro step mem
    exact decide_eq_true (trapped step mem)

section

variable {content : Bytes} {call : SystemCall} {result : UInt64} {start executed : Child}
  {before after : Child × StepRecord} {status : StepStatus} {asked : List SystemCall}

theorem Injection.record
    (injection : Injection content (fun _ => True) stepRecord call result before executed status
      after) :
    after.2 = before.2 ++ [(call, status)] :=
  injection.effect

theorem Accounted.inject (accounted : Accounted start asked before.2 before.1)
    (succeeds : syscallFailed result = false)
    (injection : Injection content (fun _ => True) stepRecord call result before executed status
      after) :
    Accounted start (asked ++ [call]) after.2 after.1 := by
  rcases accounted.executed with ⟨done, calls, same, succeed⟩
  rw [injection.record]
  refine ⟨by rw [List.map_append, accounted.asked]; rfl, ?_⟩
  cases status with
  | trapped =>
      refine ⟨done ++ [(call, result)], ?_, by simp [same], ?_⟩
      · rw [injection.calls, calls, List.append_assoc]
      · intro entry mem
        rcases List.mem_append.mp mem with earlier | last
        · exact succeed entry earlier
        · cases List.mem_singleton.mp last
          exact succeeds
  | interrupted => exact ⟨done, injection.calls_interrupted.trans calls, by simp [same], succeed⟩

theorem injectSucceeding_accounted (accounted : Accounted start asked before.2 before.1) :
    (injectSucceeding call).run.Ensures (recordedWorld content) (fun _ => True)
      (fun outcome after => outcome.isSome → Accounted start (asked ++ [call]) after.2 after.1)
      before := by
  refine (@injectSucceeding_extended content _ stepRecord before call (fun _ => True) trivial
    fun _ _ _ _ => trivial).mono ?_
  intro outcome after injects success
  rcases injects success with ⟨result, executed, status, succeeds, injection⟩
  exact accounted.inject succeeds injection

/-! ## The loops -/

/-- A descriptor whose mark is given back. -/
def FdDescriptor.closesOnExec (entry : FdDescriptor) : Bool :=
  entry.flags &&& oCloexec ≠ 0

theorem restoreFdFlags_accounted (fds : List FdDescriptor) :
    (restoreFdFlags fds).run.Ensures (recordedWorld content) (fun _ => True)
      (fun outcome after => outcome.isSome →
        Accounted start ((fds.filter FdDescriptor.closesOnExec).map setCloexecCall) after.2
          after.1) (start, []) := by
  unfold restoreFdFlags
  refine ensures_forM (fun done (after : Child × StepRecord) =>
    Accounted start ((done.filter FdDescriptor.closesOnExec).map setCloexecCall) after.2 after.1)
    (.nil start) ?_ (fun final accounted _ => accounted)
  intro done entry rest middle split accounted
  unfold restoreFdFlag
  rw [List.filter_append, List.map_append]
  split
  · rename_i unmarked
    have skipped : [entry].filter FdDescriptor.closesOnExec = [] := by
      simp [FdDescriptor.closesOnExec, unmarked]
    rw [ensures_attempt_pure, skipped, List.map_nil, List.append_nil]
    exact accounted
  · rename_i marked
    have taken : [entry].filter FdDescriptor.closesOnExec = [entry] := by
      simp [FdDescriptor.closesOnExec, marked]
    rw [taken]
    refine (injectSucceeding_accounted accounted).mono ?_
    intro outcome after injects
    cases outcome with
    | none => simp
    | some _ => exact injects rfl

/-- A search in the maps of the child injects nothing. -/
theorem findChildMap_accounted {name : Bytes}
    (accounted : Accounted start asked before.2 before.1) :
    (findChildMap name).run.Ensures (recordedWorld content) (fun _ => True)
      (fun _ after => Accounted start asked after.2 after.1) before := by
  unfold findChildMap
  rw [ensures_ask_bind]
  rintro maps ⟨read, record⟩ ⟨⟨reads, _⟩, records⟩
  refine ⟨trivial, ?_⟩
  have readAccounted : Accounted start asked record read := by
    cases maps with
    | none =>
        obtain rfl : record = before.2 := records
        obtain rfl : read = before.1 := reads
        exact accounted
    | some text =>
        obtain rfl : record = before.2 := records.2
        obtain rfl : read = { before.1 with shown := before.1.shown ++ [text] } := reads
        exact ⟨accounted.asked, accounted.executed⟩
  split
  · trivial
  · exact readAccounted

theorem measureKernelMaps_accounted {header : DumpHeader} {maps : List (KernelMap × ℕ)}
    {hull : KernelMapHull} (accounted : Accounted start asked before.2 before.1) :
    (measureKernelMaps header maps hull).run.Ensures (recordedWorld content) (fun _ => True)
      (fun outcome after => outcome.isSome → Accounted start asked after.2 after.1) before := by
  induction maps generalizing hull before with
  | nil => exact fun _ => accounted
  | cons first rest ih =>
      rcases first with ⟨wanted, index⟩
      unfold measureKernelMaps
      rw [ensures_attempt_bind]
      refine (findChildMap_accounted accounted).mono ?_
      intro outcome found foundAccounted
      cases outcome with
      | none => simp
      | some range =>
          dsimp only
          rw [ensures_require_bind]
          exact ⟨fun _ => ih foundAccounted, by simp⟩

theorem moveKernelMap_accounted {header : DumpHeader} {wanted : KernelMap} {index : ℕ}
    (accounted : Accounted start asked before.2 before.1) :
    (moveKernelMap header wanted index).run.Ensures (recordedWorld content) (fun _ => True)
      (fun outcome after => outcome.isSome → ∃ asked, Accounted start asked after.2 after.1)
      before := by
  unfold moveKernelMap
  rw [ensures_attempt_bind]
  refine (findChildMap_accounted accounted).mono ?_
  intro outcome found foundAccounted
  cases outcome with
  | none => simp
  | some range =>
      dsimp only
      split
      · exact fun _ => ⟨asked, foundAccounted⟩
      · exact (injectSucceeding_accounted foundAccounted).mono
          fun outcome after injects success => ⟨_, injects success⟩

theorem restoreKernelMaps_accounted (header : DumpHeader) :
    (restoreKernelMaps header).run.Ensures (recordedWorld content) (fun _ => True)
      (fun outcome after => outcome.isSome → ∃ asked, Accounted start asked after.2 after.1)
      (start, []) := by
  have initially : ∃ asked, Accounted start asked [] start := ⟨[], .nil start⟩
  unfold restoreKernelMaps
  split
  · exact fun _ => initially
  · refine ensures_bind_success (measureKernelMaps_accounted (.nil start)) ?_
    intro hull measured accounted
    rw [ensures_require_bind]
    refine ⟨?_, by simp⟩
    intro apart
    refine ensures_forM (fun _ (after : Child × StepRecord) =>
      ∃ asked, Accounted start asked after.2 after.1) ⟨[], accounted⟩ ?_
      (fun final accounted _ => accounted)
    rintro done ⟨wanted, index⟩ rest middle split ⟨asked, accounted⟩
    refine (moveKernelMap_accounted accounted).mono ?_
    intro outcome after moves
    cases outcome with
    | none => simp
    | some _ => exact moves rfl

end

/-! ## Success and what happened -/

/-- A run of one of the functions that inject has executed what it reports as done exactly if
every single step came back from its trap. -/
theorem injections_happened_iff {content : Bytes} {before after : Child} {record : StepRecord} :
    (∀ call result, (injectSyscall call).run.Exec (recordedWorld content) (before, [])
        (some result) (after, record) →
      record.map Prod.fst = [call] ∧
        (after.calls = before.calls ++ [(call, result)] ↔ AllTrapped record)) ∧
    (∀ vma, (injectMmapSyscall vma).run.Exec (recordedWorld content) (before, []) (some ())
        (after, record) →
      record.map Prod.fst = [mmapCall vma] ∧
        (AllHappened before record after ↔ AllTrapped record)) ∧
    (∀ vma, (injectMprotectSyscall vma).run.Exec (recordedWorld content) (before, []) (some ())
        (after, record) →
      record.map Prod.fst = [mprotectCall vma] ∧
        (AllHappened before record after ↔ AllTrapped record)) ∧
    (∀ fds, (restoreFdFlags fds).run.Exec (recordedWorld content) (before, []) (some ())
        (after, record) →
      record.map Prod.fst = (fds.filter FdDescriptor.closesOnExec).map setCloexecCall ∧
        (AllHappened before record after ↔ AllTrapped record)) ∧
    (∀ header, (restoreKernelMaps header).run.Exec (recordedWorld content) (before, []) (some ())
        (after, record) →
      (AllHappened before record after ↔ AllTrapped record)) := by
  refine ⟨?_, ?_, ?_, ?_, ?_⟩
  · intro call result run
    have injects := @injectSyscall_extended content (fun _ => True) stepRecord (before, []) call
      (fun _ => True) trivial fun _ _ _ _ => trivial
    rcases injects.exec run result rfl with ⟨executed, status, injection⟩
    obtain rfl : record = [(call, status)] := injection.record
    refine ⟨rfl, ?_⟩
    cases status with
    | trapped => simpa [AllTrapped] using injection.calls
    | interrupted =>
        have calls : after.calls = before.calls := injection.calls_interrupted
        simp [AllTrapped, calls]
  · intro vma run
    have accounted := (injectSucceeding_accounted (.nil before)).exec run rfl
    exact ⟨accounted.asked, accounted.happened_iff⟩
  · intro vma run
    have accounted := (injectSucceeding_accounted (.nil before)).exec run rfl
    exact ⟨accounted.asked, accounted.happened_iff⟩
  · intro fds run
    have accounted := (restoreFdFlags_accounted fds).exec run rfl
    exact ⟨accounted.asked, accounted.happened_iff⟩
  · intro header run
    rcases (restoreKernelMaps_accounted header).exec run rfl with ⟨asked, accounted⟩
    exact accounted.happened_iff

/-- A kernel whose single steps all come back for one reason. -/
def stepKernel (status : StepStatus) :
    Child × StepRecord → (request : RestoreCall) → RestoreReply request × (Child × StepRecord) :=
  @extendedKernel stepRecord (fun _ => ⟨[], none, true, status⟩)
    fun child status record => record ++ [(SystemCall.ofRegs child.regs, status)]

theorem exec_of_stepKernel {α : Type} {status : StepStatus} {program : Program RestoreInterface α}
    {before after : Child × StepRecord} {result : α}
    (evaluated : program.evaluate (stepKernel status) before = some (result, after)) :
    program.Exec (recordedWorld []) before result after := by
  refine @exec_of_extendedKernel _ [] (fun _ => True) stepRecord
    (fun _ => ⟨[], none, true, status⟩) _ ?_ ?_ ?_ ?_ program before after result evaluated
  · exact fun _ => rfl
  · exact fun _ _ _ => trivial
  · exact fun _ _ => rfl
  · exact fun _ _ _ => trivial

/-- A mapping is made in one trapped step. -/
theorem injections_happened_mmap : ∃ after : Child,
    after.calls = [(mmapCall smallestVma, 0x1000)] := by
  have evaluates : ∃ after, (injectSyscall (mmapCall smallestVma)).run.evaluate
      (stepKernel .trapped) (heldEngine, []) =
        some (some 0x1000, after, [(mmapCall smallestVma, .trapped)]) :=
    ⟨_, rfl⟩
  rcases evaluates with ⟨after, evaluated⟩
  refine ⟨after, (injections_happened_iff.1 _ _ (exec_of_stepKernel evaluated)).2.mpr ?_⟩
  simp [AllTrapped]

/-- A mapping that was never made passes for a success when the step is interrupted. -/
theorem not_injections_happened :
    ¬∀ (content : Bytes) (before after : Child) (record : StepRecord) (call : SystemCall)
      (result : UInt64), (injectSyscall call).run.Exec (recordedWorld content) (before, [])
        (some result) (after, record) → after.calls = before.calls ++ [(call, result)] := by
  intro always
  have evaluates : ∃ (after : Child) (record : StepRecord),
      (injectSyscall (mmapCall smallestVma)).run.evaluate (stepKernel .interrupted)
        (heldEngine, []) = some (some sysMmap, after, record) ∧
        after.calls = [] :=
    ⟨_, _, rfl, rfl⟩
  rcases evaluates with ⟨after, record, evaluated, nothing⟩
  have executed := always _ _ _ _ _ _ (exec_of_stepKernel evaluated)
  rw [nothing] at executed
  cases executed

end Ksnap
