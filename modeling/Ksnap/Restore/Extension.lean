import Ksnap.Restore.Injection
import Ksnap.Restore.Obliging

/-!
# Injections and the rest of the kernel

The world of a restore knows of a system call which cells it touches and no more. Where
more of the kernel matters, such as the mappings and their protections, the world is
extended by a state of its own, which changes when a single step comes back and shows in
the maps of the child.

`injectSyscall_extended` is the rule for an injection in any such world. It follows the
child through the step: what was planted, what was executed, and what was put back.
-/

namespace Ksnap

open Foundation Foundation.Program

/-- Something more of the kernel, next to a child. -/
structure Extension where
  State : Type
  /-- What changes when the wait for a single step returns. -/
  stepped : Child → Option StepStatus → Child → State → State → Prop
  /-- The texts that the maps of the child can show. -/
  shows : State → Bytes → Prop

/-- What a call does to the extension. -/
def Extension.Step (extension : Extension) (child : Child) (state : extension.State) :
    RestoreEvent → Child → extension.State → Prop
  | ⟨.waitStep, status⟩, after, next => extension.stepped child status after state next
  | ⟨.readMaps, some text⟩, _, next => extension.shows state text ∧ next = state
  | _, _, next => next = state

/-- The world of a restore with an extension, in which only some events can happen. -/
abbrev extendedWorld (content : Bytes) (rely : RestoreEvent → Prop) (extension : Extension) :
    Environment RestoreInterface where
  State := Child × extension.State
  step := fun before request reply after =>
    (ChildStep content before.1 ⟨request, reply⟩ after.1 ∧ rely ⟨request, reply⟩) ∧
      extension.Step before.1 before.2 ⟨request, reply⟩ after.1 after.2

/-- What holds in the world of the child holds with an extension as well. -/
theorem ensures_extended {content : Bytes} {rely : RestoreEvent → Prop} {extension : Extension}
    {α : Type} {program : Program RestoreInterface α} {always : Child → Prop}
    {post : α → Child → Prop} {before : Child × extension.State}
    (ensures : program.Ensures (childWorld content rely) always post before.1) :
    program.Ensures (extendedWorld content rely extension)
      (fun met : Child × extension.State => always met.1)
      (fun result (after : Child × extension.State) => post result after.1) before := by
  have views : ∀ state request reply final,
      (extendedWorld content rely extension).step state request reply final →
        (childWorld content rely).step state.1 request reply final.1 :=
    fun _ _ _ _ step => step.1
  exact @Ensures.simulate _ _ (extendedWorld content rely extension) before
    (childWorld content rely) Prod.fst views program always post ensures

/-- What an attempt does to the child, and what it does next to it. -/
theorem ensures_beside {content : Bytes} {rely : RestoreEvent → Prop} {extension : Extension}
    {α : Type} {attempt : Attempt RestoreInterface α} {always : Child → Prop}
    {holds : Child → Prop} {kept : Child × extension.State → Prop}
    {before : Child × extension.State}
    (onChild : attempt.run.Ensures (childWorld content rely) always
      (fun outcome after => outcome.isSome → holds after) before.1)
    (beside : attempt.run.Ensures (extendedWorld content rely extension) (fun _ => True)
      (fun outcome after => outcome.isSome → kept after) before) :
    attempt.run.Ensures (extendedWorld content rely extension) (fun _ => True)
      (fun outcome after => outcome.isSome → holds after.1 ∧ kept after) before := by
  have lifted := (ensures_extended onChild).weaken fun _ _ => trivial
  refine (lifted.and beside).mono ?_
  rintro outcome after ⟨here, there⟩ success
  exact ⟨here success, there success⟩

/-! ## One injection -/

/-- The child with a system call in its registers and the opcode at its rip. -/
def Child.plant (child : Child) (call : SystemCall) : Child :=
  { child with
    regs := call.load child.regs
    memory := writeWord child.memory child.regs.rip
      (plantSyscall (readWord child.memory child.regs.rip)) }

theorem Child.plant_atSyscall (child : Child) (call : SystemCall) :
    (child.plant call).AtSyscall :=
  writeWord_plantSyscall _ _ _

/-- The child after an injection, whose code was put back or not. -/
def Child.putBack (before executed : Child) (written : Bool) : Child :=
  { executed with
    regs := before.regs
    memory :=
      if written then
        writeWord executed.memory before.regs.rip (readWord before.memory before.regs.rip)
      else executed.memory }

/-- An injection that comes back with a result. -/
structure Injection (content : Bytes) (rely : RestoreEvent → Prop) (extension : Extension)
    (call : SystemCall) (result : UInt64) (before : Child × extension.State) (executed : Child)
    (status : StepStatus) (after : Child × extension.State) : Prop where
  steps : TracerStep content (before.1.plant call) ⟨.waitStep, some status⟩ executed
  relied : rely ⟨.waitStep, some status⟩
  effect : extension.stepped (before.1.plant call) (some status) executed before.2 after.2
  result : executed.regs.rax = result
  restored : ∃ site word written, rely ⟨.putBack site word, written⟩ ∧
    after.1 = before.1.putBack executed written

section

variable {content : Bytes} {rely : RestoreEvent → Prop} {extension : Extension}
  {call : SystemCall} {result : UInt64} {before after : Child × extension.State}
  {executed : Child}

/-- After the trap the system call was executed. -/
theorem Injection.executes
    (injection : Injection content rely extension call result before executed .trapped after) :
    (before.1.plant call).Executes executed := by
  have steps : (before.1.plant call).Steps executed := injection.steps
  rwa [Child.Steps, if_pos (before.1.plant_atSyscall call)] at steps

/-- After another signal nothing was executed. -/
theorem Injection.unchanged
    (injection : Injection content rely extension call result before executed .interrupted
      after) :
    executed = before.1.plant call :=
  injection.steps

theorem Injection.regs {status : StepStatus}
    (injection : Injection content rely extension call result before executed status after) :
    after.1.regs = before.1.regs := by
  rcases injection.restored with ⟨site, word, written, _, restored⟩
  rw [restored]
  rfl

theorem Injection.calls
    (injection : Injection content rely extension call result before executed .trapped after) :
    after.1.calls = before.1.calls ++ [(call, result)] := by
  rcases injection.executes with ⟨_, memory, regs, returned, _, executes⟩
  rcases injection.restored with ⟨site, word, written, _, restored⟩
  have isResult := injection.result
  rw [executes] at isResult
  rw [restored, executes, ← isResult, returned]
  rfl

theorem Injection.calls_interrupted
    (injection : Injection content rely extension call result before executed .interrupted
      after) :
    after.1.calls = before.1.calls := by
  rcases injection.restored with ⟨site, word, written, _, restored⟩
  rw [restored, injection.unchanged]
  rfl

/-- The rule for an injection in an extended world. The invariant only speaks of the extension,
which changes once at most. -/
theorem injectSyscall_extended (call : SystemCall) {always : extension.State → Prop}
    (initially : always before.2)
    (stepped : ∀ status executed state, extension.stepped (before.1.plant call) status executed
      before.2 state → always state) :
    (injectSyscall call).run.Ensures (extendedWorld content rely extension)
      (fun state => always state.2)
      (fun outcome after => ∀ result, outcome = some result → ∃ executed status,
        Injection content rely extension call result before executed status after) before := by
  have fails : ∀ after : Child × extension.State, ∀ result, (none : Option UInt64) = some result →
      ∃ executed status,
        Injection content rely extension call result before executed status after := by
    intro after result impossible
    cases impossible
  rcases before with ⟨before, start⟩
  unfold injectSyscall
  refine ensures_given_bind fails ?_ ?_
  · intro regsRead read step
    cases regsRead <;> exact step.2 ▸ initially
  rintro regsRead ⟨read, readState⟩ step saved given
  cases given
  rcases step with ⟨⟨⟨savedRegs, unchanged⟩, _⟩, same⟩
  obtain rfl : readState = start := same
  obtain rfl : read = before := unchanged
  obtain rfl : saved = read.regs := savedRegs
  refine ensures_checked_bind fails ?_ ?_
  · intro regsSet loaded step
    cases regsSet <;> exact step.2 ▸ initially
  rintro regsSet ⟨loaded, loadedState⟩ step success
  cases success
  obtain rfl : loadedState = readState := step.2
  obtain rfl : loaded = { read with regs := call.load read.regs } := step.1.1
  refine ensures_given_bind fails ?_ ?_
  · intro wordRead peeked step
    cases wordRead <;> exact step.2 ▸ initially
  rintro wordRead ⟨peeked, peekedState⟩ step originalCode given
  cases given
  rcases step with ⟨⟨⟨code, unchanged⟩, _⟩, same⟩
  obtain rfl : peekedState = loadedState := same
  obtain rfl : peeked = { read with regs := call.load read.regs } := unchanged
  obtain rfl : originalCode = readWord read.memory read.regs.rip := code
  refine ensures_checked_bind fails ?_ ?_
  · intro wordPoked planted step
    cases wordPoked <;> exact step.2 ▸ initially
  rintro wordPoked ⟨planted, plantedState⟩ step success
  cases success
  obtain rfl : plantedState = peekedState := step.2
  obtain rfl : planted = read.plant call := step.1.1
  refine ensures_checked_bind fails ?_ ?_
  · intro isStepped going step
    cases isStepped <;> exact step.2 ▸ initially
  rintro isStepped ⟨going, goingState⟩ step success
  obtain rfl : goingState = plantedState := step.2
  obtain rfl : going = read.plant call := step.1.1
  refine ensures_checked_bind fails ?_ ?_
  · intro status executed step
    exact stepped status executed.1 executed.2 step.2
  rintro status ⟨executed, executedState⟩ step isSome
  cases status with
  | none => cases isSome
  | some status =>
      have always' := stepped _ _ _ step.2
      rcases step with ⟨⟨steps, relied⟩, effect⟩
      refine ensures_given_bind fails ?_ ?_
      · intro regsRead read step
        cases regsRead <;> exact step.2 ▸ always'
      rintro regsRead ⟨afterRead, afterState⟩ step after given
      cases given
      rcases step with ⟨⟨⟨afterRegs, unchanged⟩, _⟩, same⟩
      obtain rfl : afterState = executedState := same
      obtain rfl : afterRead = executed := unchanged
      rw [ensures_ask_bind]
      rintro written ⟨restored, restoredState⟩ ⟨⟨putsBack, reliedBack⟩, same⟩
      obtain rfl : restoredState = afterState := by
        cases written <;> exact same
      refine ⟨always', ?_⟩
      refine ensures_checked_bind fails ?_ ?_
      · intro regsSet final step
        cases regsSet <;> exact step.2 ▸ always'
      rintro regsSet ⟨final, finalState⟩ step success value isResult
      cases success
      cases isResult
      obtain rfl : finalState = restoredState := step.2
      refine ⟨afterRead, status, steps, relied, effect, afterRegs ▸ rfl, _, _, written,
        reliedBack, ?_⟩
      obtain rfl : final = { restored with regs := read.regs } := step.1.1
      cases written with
      | false =>
          obtain rfl : restored = afterRead := putsBack
          rfl
      | true =>
          obtain rfl : restored = { afterRead with
            memory := writeWord afterRead.memory read.regs.rip
              (readWord read.memory read.regs.rip) } := putsBack
          rfl

/-- An injection that has to succeed. -/
theorem injectSucceeding_extended (call : SystemCall) {always : extension.State → Prop}
    (initially : always before.2)
    (stepped : ∀ status executed state, extension.stepped (before.1.plant call) status executed
      before.2 state → always state) :
    (injectSucceeding call).run.Ensures (extendedWorld content rely extension)
      (fun state => always state.2)
      (fun outcome after => outcome.isSome → ∃ result executed status,
        syscallFailed result = false ∧
          Injection content rely extension call result before executed status after) before := by
  unfold injectSucceeding
  rw [ensures_attempt_bind]
  refine (injectSyscall_extended call initially stepped).mono ?_
  intro outcome after injected
  cases outcome with
  | none => simp
  | some result =>
      dsimp only
      rw [ensures_require]
      refine ⟨?_, by simp⟩
      intro succeeds _
      rcases injected result rfl with ⟨executed, status, injection⟩
      exact ⟨result, executed, status, by simpa using succeeds, injection⟩

end

/-! ## A kernel that obliges, with an extension -/

/-- The kernel that does what it is asked, with a function for the extension. -/
def extendedKernel {extension : Extension} (replies : extension.State → KernelReplies)
    (advance : Child → StepStatus → extension.State → extension.State)
    (before : Child × extension.State) (request : RestoreCall) :
    RestoreReply request × (Child × extension.State) :=
  let answer := obligingKernel (replies before.2) before.1 request
  (answer.1, answer.2,
    match request with
    | .waitStep => advance before.1 (replies before.2).stepped before.2
    | _ => before.2)

/-- What evaluates under the kernel is a run of the extended world. -/
theorem exec_of_extendedKernel {α : Type} {content : Bytes} {rely : RestoreEvent → Prop}
    {extension : Extension} {replies : extension.State → KernelReplies}
    {advance : Child → StepStatus → extension.State → extension.State}
    (sameContent : ∀ state, (replies state).content = content)
    (relied : ∀ before state request,
      rely ⟨request, (obligingKernel (replies state) before request).1⟩)
    (advances : ∀ child state, extension.stepped child (some (replies state).stepped)
      (obligingKernel (replies state) child .waitStep).2 state
      (advance child (replies state).stepped state))
    (shows : ∀ state text, (replies state).maps = some text → extension.shows state text)
    {program : Program RestoreInterface α} {before after : Child × extension.State} {result : α}
    (evaluated : program.evaluate (extendedKernel replies advance) before = some (result, after)) :
    program.Exec (extendedWorld content rely extension) before result after := by
  refine @exec_of_evaluate _ _ (extendedWorld content rely extension) before
    (extendedKernel replies advance) ?_ program result after evaluated
  rintro ⟨child, state⟩ request
  have step := obligingKernel_step (replies state) child request
  rw [sameContent] at step
  refine ⟨⟨step, relied child state request⟩, ?_⟩
  cases request with
  | waitStep => exact advances child state
  | readMaps =>
      have shown := shows state
      unfold extendedKernel obligingKernel
      dsimp only
      generalize (replies state).maps = maps at shown
      cases maps with
      | none => exact (rfl : state = state)
      | some text => exact ⟨shown text rfl, rfl⟩
  | _ => exact (rfl : state = state)

end Ksnap
