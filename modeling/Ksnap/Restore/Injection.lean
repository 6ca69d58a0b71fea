import Ksnap.Restore.Kernel

/-!
# Injected system calls

Where every single step comes back after its instruction, an injection that has a result
has executed the system call once, with its arguments, and the registers are as before.
Where the code is put back as well, so is every cell that the call itself does not
replace, those at the injection site included.
-/

namespace Ksnap

open Foundation Foundation.Program

variable {content : Bytes} {rely : RestoreEvent → Prop}

/-- The child waits for the engine, and has not run on its own. -/
def Held (child : Child) : Prop :=
  child.phase = .stopped ∧ child.ranOwn = false

/-- What an injection does that comes back with a result. The memory is only safe where the
code is put back. -/
structure Injected (rely : RestoreEvent → Prop) (call : SystemCall) (result : UInt64)
    (before after : Child) : Prop where
  held : Held after
  regs : after.regs = before.regs
  xstate : after.xstate = before.xstate
  memory : (∀ event, rely event → CodePutBack event) →
    ∀ address, ¬call.Touches result address → after.memory address = before.memory address
  descriptors : after.descriptors = call.descriptors result before.descriptors
  calls : after.calls = before.calls ++ [(call, result)]
  shown : after.shown = before.shown

/-! ## The planted code -/

theorem toNat_plantSyscall (originalCode : UInt64) :
    (plantSyscall originalCode).toNat % 2 ^ 16 = 0x050f := by
  have mask : (0xffffffffffff0000 : UInt64).toNat % 2 ^ 16 = 0 := rfl
  have opcode : (0x050f : UInt64).toNat % 2 ^ 16 = 0x050f := rfl
  rw [plantSyscall, UInt64.toNat_or, UInt64.toNat_and, Nat.or_mod_two_pow, Nat.and_mod_two_pow,
    mask, opcode, Nat.and_zero, Nat.zero_or]

/-- Once the word is planted, the code at its address is a syscall opcode. -/
theorem writeWord_plantSyscall (memory : Memory UInt8) (address originalCode : UInt64) :
    writeWord memory address (plantSyscall originalCode) address = 0x0f ∧
      writeWord memory address (plantSyscall originalCode) (address + 1) = 0x05 := by
  have low := toNat_plantSyscall originalCode
  have length := length_wordBytes (plantSyscall originalCode)
  have first := @writeRange_add _ memory address (wordBytes (plantSyscall originalCode)) 0
    (by decide) (by omega)
  have second := @writeRange_add _ memory address (wordBytes (plantSyscall originalCode)) 1
    (by decide) (by omega)
  have start : address + UInt64.ofNat 0 = address := UInt64.add_zero address
  rw [start] at first
  refine ⟨first.trans ?_, second.trans ?_⟩
  · simp only [wordBytes, littleEndian, List.getElem_cons_zero]
    rw [← UInt8.toNat_inj, UInt8.toNat_ofNat']
    have opcode : (0x0f : UInt8).toNat = 0x0f := rfl
    omega
  · simp only [wordBytes, littleEndian, List.getElem_cons_succ, List.getElem_cons_zero]
    rw [← UInt8.toNat_inj, UInt8.toNat_ofNat']
    have opcode : (0x05 : UInt8).toNat = 0x05 := rfl
    omega

/-! ## The injection -/

/-- The memory after the code was put back. -/
theorem memory_putBack {call : SystemCall} {result site : UInt64}
    {before planted executed : Memory UInt8}
    (plants : planted = writeWord before site (plantSyscall (readWord before site)))
    (executes : ∀ address, ¬call.Touches result address → executed address = planted address)
    {address : UInt64} (untouched : ¬call.Touches result address) :
    writeWord executed site (readWord before site) address = before address := by
  rw [writeWord_readWord]
  split
  · rfl
  · rename_i outside
    rw [executes address untouched, plants]
    exact writeWord_of_not_within outside

/-- Every call of an injection leaves the child waiting. The single step does because there is
a syscall opcode to step over. -/
theorem Held.steps {before after : Child} (held : Held before) (atSyscall : before.AtSyscall)
    (steps : before.Steps after) : Held after ∧ before.Executes after := by
  rw [Child.Steps, if_pos atSyscall] at steps
  rcases id steps with ⟨_, _, _, _, _, rfl⟩
  exact ⟨held, steps⟩

theorem injectSyscall_spec (trapped : ∀ event, rely event → Trapped event) (call : SystemCall)
    {before : Child} (held : Held before) :
    (injectSyscall call).run.Ensures (childWorld content rely) Held
      (fun outcome after => ∀ result, outcome = some result →
        Injected rely call result before after) before := by
  have fails : ∀ after : Child, ∀ result, (none : Option UInt64) = some result →
      Injected rely call result before after := by
    intro after result impossible
    cases impossible
  unfold injectSyscall
  refine ensures_given_bind fails ?_ ?_
  · intro regsRead read step
    cases regsRead with
    | none => exact step.1 ▸ held
    | some saved => exact step.1.2 ▸ held
  intro regsRead read step saved given
  cases given
  rcases step with ⟨⟨savedRegs, unchanged⟩, _⟩
  subst savedRegs
  rw [unchanged]
  refine ensures_checked_bind fails ?_ ?_
  · intro regsSet loaded step
    cases regsSet with
    | false => exact step.1 ▸ held
    | true => exact step.1 ▸ held
  intro regsSet loaded step success
  cases success
  have loads : loaded = { before with regs := call.load before.regs } := step.1
  have heldLoaded : Held loaded := loads ▸ held
  refine ensures_given_bind fails ?_ ?_
  · intro wordRead peeked step
    cases wordRead with
    | none => exact step.1 ▸ heldLoaded
    | some originalCode => exact step.1.2 ▸ heldLoaded
  intro wordRead peeked step originalCode given
  cases given
  rcases step with ⟨⟨code, unchanged⟩, _⟩
  rw [unchanged]
  refine ensures_checked_bind fails ?_ ?_
  · intro wordPoked planted step
    cases wordPoked with
    | false => exact step.1 ▸ heldLoaded
    | true => exact step.1 ▸ heldLoaded
  intro wordPoked planted step success
  cases success
  have plants : planted = { loaded with
    memory := writeWord loaded.memory before.regs.rip (plantSyscall originalCode) } := step.1
  have heldPlanted : Held planted := plants ▸ heldLoaded
  have atSyscall : planted.AtSyscall := by
    rw [plants, loads]
    exact writeWord_plantSyscall _ _ _
  refine ensures_checked_bind fails ?_ ?_
  · intro stepped going step
    exact step.1 ▸ heldPlanted
  intro stepped going step success
  rcases step with ⟨unchanged, _⟩
  rw [(unchanged : going = planted)]
  refine ensures_checked_bind fails ?_ ?_
  · intro status executed step
    cases status with
    | none =>
        rcases step.1 with same | steps
        · exact same ▸ heldPlanted
        · exact (heldPlanted.steps atSyscall steps).1
    | some status =>
        cases status with
        | trapped => exact (heldPlanted.steps atSyscall step.1).1
        | interrupted => exact (trapped _ step.2).elim
  intro status executed step isSome
  have executes : Held executed ∧ planted.Executes executed := by
    cases status with
    | none => cases isSome
    | some status =>
        cases status with
        | trapped => exact heldPlanted.steps atSyscall step.1
        | interrupted => exact (trapped _ step.2).elim
  rcases executes with ⟨heldExecuted, result, memory, regs, returned, untouched, executes⟩
  refine ensures_given_bind fails ?_ ?_
  · intro regsRead read step
    cases regsRead with
    | none => exact step.1 ▸ heldExecuted
    | some after => exact step.1.2 ▸ heldExecuted
  intro regsRead read step after given
  cases given
  rcases step with ⟨⟨afterRegs, unchanged⟩, _⟩
  subst afterRegs
  rw [unchanged, ensures_ask_bind]
  intro written restored putsBack
  have restoredEq : ∃ memory', restored = { executed with memory := memory' } ∧
      (written = true → memory' = writeWord executed.memory before.regs.rip originalCode) := by
    cases written with
    | false => exact ⟨executed.memory, putsBack.1, by simp⟩
    | true => exact ⟨_, putsBack.1, fun _ => rfl⟩
  rcases restoredEq with ⟨memory', restoredEq, writtenBack⟩
  have heldRestored : Held restored := restoredEq ▸ heldExecuted
  refine ⟨heldRestored, ?_⟩
  refine ensures_checked_bind fails ?_ ?_
  · intro regsSet final step
    cases regsSet with
    | false => exact step.1 ▸ heldRestored
    | true => exact step.1 ▸ heldRestored
  intro regsSet final step success value isResult
  cases success
  cases isResult
  have setsBack : final = { restored with regs := before.regs } := step.1
  have relied := putsBack.2
  subst setsBack restoredEq executes plants loads returned code
  exact {
    held := heldRestored
    regs := rfl
    xstate := rfl
    memory := by
      intro codeBack address untouchedHere
      rw [writtenBack (codeBack _ relied)]
      exact memory_putBack rfl untouched untouchedHere
    descriptors := rfl
    calls := rfl
    shown := rfl }

/-- An injection that succeeds has executed its call, which did not fail. -/
theorem injectSucceeding_spec (trapped : ∀ event, rely event → Trapped event)
    (call : SystemCall) {before : Child} (held : Held before) :
    (injectSucceeding call).run.Ensures (childWorld content rely) Held
      (fun outcome after => outcome.isSome → ∃ result, syscallFailed result = false ∧
        Injected rely call result before after) before := by
  unfold injectSucceeding
  rw [ensures_attempt_bind]
  refine (injectSyscall_spec trapped call held).mono ?_
  intro outcome after injected
  cases outcome with
  | none => simp
  | some result =>
      dsimp only
      rw [ensures_require]
      refine ⟨?_, by simp⟩
      intro succeeds _
      refine ⟨result, ?_, injected result rfl⟩
      simpa using succeeds

end Ksnap
