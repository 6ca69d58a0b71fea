import Ksnap.Restore.Kernel

/-!
# A kernel that obliges

A kernel that can be run: it does what it is asked, and leaves two replies open that the
engine does not look at, whether the child is traced and why a single step comes back.
What evaluates under it is a run of the world of a restore.
-/

namespace Ksnap

open Foundation Foundation.Program

/-- What the kernel answers where nothing else decides it. -/
structure KernelReplies where
  content : Bytes
  maps : Option Bytes
  traced : Bool
  stepped : StepStatus

/-- The lowest number that is free, out of those a process may have. -/
def lowestFree (table : DescriptorTable Int32 OpenFile) : Option Int32 :=
  ((List.range 1024).find? fun number => (table.slots (Int32.ofNat number)).isNone).map Int32.ofNat

theorem lowestFree_spec {table : DescriptorTable Int32 OpenFile} {fd : Int32}
    (found : lowestFree table = some fd) : table.LowestFree 0 fd := by
  rcases Option.map_eq_some_iff.mp found with ⟨number, search, rfl⟩
  rcases List.find?_range_eq_some.mp search with ⟨free, mem, lower⟩
  have small : number < 1024 := List.mem_range.mp mem
  have toInt : (Int32.ofNat number).toInt = number := Int32.toInt_ofNat_of_lt (by omega)
  refine ⟨?_, by simpa using free, ?_⟩
  · rw [Int32.le_iff_toInt_le, toInt]
    exact Int.natCast_nonneg number
  · intro other nonneg below
    rw [Int32.le_iff_toInt_le] at nonneg
    rw [Int32.lt_iff_toInt_lt, toInt] at below
    have zero : (0 : Int32).toInt = 0 := rfl
    have index : Int32.ofNat other.toInt.toNat = other := by
      rw [← Int32.toInt_inj, Int32.toInt_ofNat_of_lt (by omega)]
      omega
    have taken := lower other.toInt.toNat (by omega)
    rw [index] at taken
    simpa [Option.isSome_iff_ne_none] using taken

/-- A mapping is made where it is asked for. -/
def SystemCall.result (call : SystemCall) : UInt64 :=
  if call.number = sysMmap then call.arg1 else 0

/-- The memory after a system call: a new anonymous mapping is all zeros. -/
def SystemCall.memory (call : SystemCall) (before : Memory UInt8) : Memory UInt8 :=
  fun address =>
    if syscallFailed call.result = false ∧ call.number = sysMmap ∧
        Within call.arg1 call.arg2.toNat address then 0
    else before address

/-- The system call in the registers is executed, without an error. -/
def Child.execute (before : Child) : Child :=
  let call := SystemCall.ofRegs before.regs
  { before with
    memory := call.memory before.memory
    regs := { before.regs with rax := call.result }
    descriptors := call.descriptors call.result before.descriptors
    calls := before.calls ++ [(call, call.result)] }

/-- One instruction is executed. -/
def Child.stepOver (before : Child) : Child :=
  if before.AtSyscall then before.execute else { before with ranOwn := true }

/-- What the kernel does with a call of the restore. -/
def obligingKernel (replies : KernelReplies) (before : Child) :
    (request : RestoreCall) → RestoreReply request × Child
  | .fork | .openMemory | .singleStep => (true, before)
  | .closeRange =>
      (true, { before with descriptors := before.descriptors.closeAll fun fd _ => 2 < fd })
  | .dup2 old new =>
      if (before.descriptors.slots old).isSome then
        (true, { before with
          descriptors :=
            if old = new then before.descriptors else before.descriptors.duplicate old new })
      else (false, before)
  | .openFile path flags =>
      match lowestFree before.descriptors with
      | none => (none, before)
      | some fd =>
          (some fd, { before with
            descriptors := before.descriptors.openAt fd ⟨path, keptFlags flags, 0⟩ })
  | .lseek fd position =>
      match before.descriptors.slots fd with
      | none => (false, before)
      | some slot =>
          (true, { before with
            descriptors := before.descriptors.modify slot.file fun file =>
              { file with position := if before.keepsPosition file.path then position else 0 } })
  | .close fd => ((), { before with descriptors := before.descriptors.closeOne fd })
  | .personality | .closeMemory => ((), before)
  | .traceMe => (replies.traced, { before with traced := replies.traced })
  | .execv _ =>
      (true, { before with
        phase := if before.traced then .stopped else .free
        ranOwn := !before.traced
        descriptors := before.descriptors.exec })
  | .exit | .kill => ((), { before with phase := .gone })
  | .waitChild =>
      if before.phase = .stopped then (.stopped, before)
      else (.exited, { before with phase := .gone })
  | .getRegs => (some before.regs, before)
  | .setRegs regs => (true, { before with regs := regs })
  | .peek address => (some (readWord before.memory address), before)
  | .poke address word | .putBack address word =>
      (true, { before with memory := writeWord before.memory address word })
  | .waitStep =>
      (some replies.stepped,
        match replies.stepped with
        | .trapped => before.stepOver
        | .interrupted => before)
  | .readMaps =>
      (replies.maps,
        match replies.maps with
        | none => before
        | some text => { before with shown := before.shown ++ [text] })
  | .seek offset => (true, { before with filePosition := offset.toNat })
  | .readPayload count =>
      if enough : count ≤ (replies.content.drop before.filePosition).length then
        (some ⟨(replies.content.drop before.filePosition).take count, by simpa using enough⟩,
          { before with filePosition := before.filePosition + count })
      else (none, before)
  | .writeMemory address bytes =>
      (true, { before with memory := writeRange before.memory address bytes })
  | .setXstate xstate => (true, { before with xstate := some xstate })
  | .detach => (true, { before with phase := .free, ranOwn := true })
  | .waitEnd =>
      ((), { before with phase := if before.phase = .stopped then .stopped else .gone })

/-! ## The kernel keeps to the world -/

theorem executes_execute (child : Child) : child.Executes child.execute := by
  refine ⟨child.execute.regs.rax, child.execute.memory, child.execute.regs, rfl, ?_, rfl⟩
  intro address untouched
  apply if_neg
  intro mapped
  exact untouched ⟨mapped.1, .inl mapped.2⟩

theorem steps_stepOver (child : Child) : child.Steps child.stepOver := by
  unfold Child.Steps Child.stepOver
  split
  · exact executes_execute child
  · rfl

/-- Everything that the kernel does is a step of the world. -/
theorem obligingKernel_step (replies : KernelReplies) (before : Child) (request : RestoreCall) :
    ChildStep replies.content before ⟨request, (obligingKernel replies before request).1⟩
      (obligingKernel replies before request).2 := by
  cases request with
  | dup2 old new =>
      unfold obligingKernel
      dsimp only [ChildStep]
      split
      · rename_i open_
        exact ⟨open_, rfl⟩
      · rfl
  | openFile path flags =>
      unfold obligingKernel
      dsimp only [ChildStep]
      split
      · rfl
      · rename_i fd found
        exact ⟨lowestFree_spec found, rfl⟩
  | lseek fd position =>
      unfold obligingKernel
      dsimp only [ChildStep]
      split
      · rfl
      · rename_i slot here
        exact ⟨slot, here, rfl⟩
  | execv path =>
      refine ⟨before.memory, before.regs, ?_⟩
      rfl
  | waitChild =>
      unfold obligingKernel
      dsimp only [ChildStep]
      split
      · rename_i stopped
        exact ⟨stopped, rfl⟩
      · rename_i running
        exact ⟨running, rfl⟩
  | getRegs => exact ⟨rfl, rfl⟩
  | peek address => exact ⟨rfl, rfl⟩
  | waitStep =>
      unfold obligingKernel
      dsimp only [ChildStep]
      cases replies.stepped with
      | trapped => exact steps_stepOver before
      | interrupted => rfl
  | readMaps =>
      unfold obligingKernel
      dsimp only [ChildStep]
      cases replies.maps with
      | none => rfl
      | some text => rfl
  | readPayload count =>
      unfold obligingKernel
      dsimp only [ChildStep]
      split
      · rename_i enough
        refine ⟨?_, rfl⟩
        intro index
        have inside :
            (index : ℕ) < ((replies.content.drop before.filePosition).take count).length := by
          rw [List.length_take, Nat.min_eq_left enough]
          exact index.isLt
        rw [← List.getElem?_drop, ← List.getElem?_take_of_lt index.isLt,
          List.getElem?_eq_getElem inside]
        rfl
      · exact ⟨_, rfl⟩
  | writeMemory address bytes =>
      refine ⟨bytes.length, fun _ => rfl, ?_⟩
      rw [List.take_length]
      rfl
  | _ => rfl

/-- The kernel that steps as it is asked is one the engine can take for granted. -/
theorem obligingKernel_relied {replies : KernelReplies} (traced : replies.traced = true)
    (stepped : replies.stepped = .trapped) (before : Child) (request : RestoreCall) :
    let event : RestoreEvent := ⟨request, (obligingKernel replies before request).1⟩
    Traced event ∧ Trapped event ∧ CodePutBack event := by
  cases request with
  | traceMe => exact ⟨traced, trivial, trivial⟩
  | waitStep =>
      refine ⟨trivial, ?_, trivial⟩
      unfold obligingKernel
      rw [stepped]
      trivial
  | putBack address word => exact ⟨trivial, trivial, rfl⟩
  | _ => exact ⟨trivial, trivial, trivial⟩

/-- What evaluates under the kernel is a run of the world. -/
theorem exec_of_obligingKernel {α : Type} {replies : KernelReplies} {rely : RestoreEvent → Prop}
    (relied : ∀ before request, rely ⟨request, (obligingKernel replies before request).1⟩)
    {program : Program RestoreInterface α} {before after : Child} {result : α}
    (evaluated : program.evaluate (obligingKernel replies) before = some (result, after)) :
    program.Exec (childWorld replies.content rely) before result after :=
  @exec_of_evaluate _ _ (childWorld replies.content rely) before (obligingKernel replies)
    (fun state request => ⟨obligingKernel_step replies state request, relied state request⟩)
    program result after evaluated

/-- The engine after its fork, with nothing open. -/
def forkedEngine : Child where
  phase := .engine
  ranOwn := false
  traced := false
  descriptors := .empty ⟨[], 0, 0⟩
  memory := fun _ => 0
  regs := .ofWords (.replicate 27 0)
  xstate := none
  calls := []
  shown := []
  filePosition := 0
  keepsPosition := fun _ => true

/-- The engine after its exec. -/
def heldEngine : Child :=
  { forkedEngine with phase := .stopped }

/-- The engine, whose exec leaves this rip. -/
def sampleEngine : Child :=
  { forkedEngine with regs := { forkedEngine.regs with rip := 0x1004 } }

def sampleChild : Child :=
  { sampleEngine with phase := .stopped }

end Ksnap
