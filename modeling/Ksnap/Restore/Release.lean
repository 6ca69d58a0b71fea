import Ksnap.Restore.Descriptors
import Ksnap.Restore.Rebuild
import Ksnap.Snapshot.SectionBounds

/-!
# Letting the child go

Whatever fails in a restore, in the child before its exec or in the engine after it, the
program of the snapshot only runs freely once `restore_state` was through. On all other runs
it was never exec'ed, or it is killed where it stopped. Three replies decide this and are
never looked at: that the child is traced, that a single step came to its end, and that
the code was put back.

What `restore_state` leaves is a parameter here, and so is the world: it is seen as the world
of the child, and may have more of the kernel in it.
-/

namespace Ksnap

open Foundation Foundation.Program

/-- The child is traced, and nothing disturbs the injections. -/
def Controlled (event : RestoreEvent) : Prop :=
  Traced event ∧ Undisturbed event

/-- Every step of a restore was through, on a system where these files keep a position. -/
structure Restored (keeps : Bytes → Bool) (content : Bytes) (snapshot : Snapshot)
    (child : Child) : Prop where
  descriptors : Placed keeps snapshot.pool hasCloexec snapshot.fds child.descriptors
  memory : Rebuilt content snapshot child
  regs : child.regs = snapshot.header.regs
  xstate : child.xstate = some snapshot.xstate

/-- It is restored whether it runs or waits. -/
theorem Restored.withPhase {keeps : Bytes → Bool} {content : Bytes} {snapshot : Snapshot}
    {child : Child} (restored : Restored keeps content snapshot child) (phase : Phase)
    (ranOwn : Bool) :
    Restored keeps content snapshot { child with phase := phase, ranOwn := ranOwn } where
  descriptors := restored.descriptors
  memory := {
    sizes := restored.memory.sizes
    inPlace := restored.memory.inPlace
    payloads := restored.memory.payloads
    calls := restored.memory.calls }
  regs := restored.regs
  xstate := restored.xstate

/-! ## The table of an accepted snapshot -/

theorem inOrder_of_entriesAccepted {header : DumpHeader} {pool : Bytes}
    {before entries : List FdDescriptor} (settled : EachAfter FollowsInOrder before)
    (accepted : EntriesAccepted header pool before entries) :
    EachAfter FollowsInOrder (before ++ entries) := by
  induction entries generalizing before with
  | nil => simpa using settled
  | cons entry entries ih =>
      rcases accepted with ⟨here, later⟩
      have follows : FollowsInOrder before entry := by
        refine ⟨here.aboveStdio, ?_, ?_⟩
        · intro other mem
          rcases List.eq_nil_or_concat before with rfl | ⟨init, last, rfl⟩
          · cases mem
          · have below := here.ascending last (by simp)
            rw [List.concat_eq_append] at mem settled
            rcases List.mem_append.mp mem with earlier | isLast
            · exact Int32.lt_trans ((settled init last [] rfl).above other earlier) below
            · cases List.mem_singleton.mp isLast
              exact below
        · intro isCopy
          rcases here.dupOf with own | found
          · exact absurd own isCopy
          · rcases Option.isSome_iff_exists.mp found with ⟨other, search⟩
            rcases searchBetween_sound search with ⟨mem, equal⟩
            exact ⟨other, mem, compareFdNumber_eq_iff.mp equal⟩
      have next := ih (eachAfter_concat.mpr ⟨settled, follows⟩) later
      simpa using next

theorem inOrder_of_fdTableAccepted {file : RegularFile} {header : DumpHeader}
    {fds : List FdDescriptor} {pool : Bytes} (accepted : FdTableAccepted file header fds pool) :
    EachAfter FollowsInOrder fds := by
  rcases accepted with ⟨_, none_, _⟩ | ⟨_, read⟩
  · rw [none_]
    exact eachAfter_nil
  · have inOrder := inOrder_of_entriesAccepted eachAfter_nil read.entries
    rwa [List.nil_append] at inOrder

theorem inOrder_of_accepted {file : RegularFile} {snapshot : Snapshot}
    (accepted : Accepted file snapshot) : EachAfter FollowsInOrder snapshot.fds :=
  inOrder_of_fdTableAccepted accepted.fdTable

/-! ## What is restored -/

section

variable {keeps : Bytes → Bool} {content : Bytes} {snapshot : Snapshot} {child : Child}

theorem controlled_undisturbed : ∀ event, Controlled event → Undisturbed event :=
  fun _ controlled => controlled.2

theorem restoreState_spec (inOrder : EachAfter FollowsInOrder snapshot.fds) (held : Held child)
    (placed : Placed keeps snapshot.pool unmarked snapshot.fds child.descriptors) :
    (restoreState snapshot).run.Ensures (childWorld content Controlled) Held
      (fun outcome after => outcome.isSome → Restored keeps content snapshot after) child := by
  have trapped : ∀ event, Controlled event → Trapped event := fun _ controlled => controlled.2.1
  unfold restoreState
  refine ensures_bind_success (restoreMemory_spec controlled_undisturbed held
    (restoreFdFlags_spec trapped inOrder held placed)) ?_
  intro _ rebuilt holds
  rcases holds with ⟨heldRebuilt, descriptors, memory⟩
  refine ensures_checked_bind (by simp) ?_ ?_
  · intro regsSet after step
    cases regsSet with
    | false => exact step.1 ▸ heldRebuilt
    | true => exact step.1 ▸ heldRebuilt
  intro regsSet loaded step success
  cases success
  have loads : loaded = { rebuilt with regs := snapshot.header.regs } := step.1
  have heldLoaded : Held loaded := loads ▸ heldRebuilt
  rw [ensures_ask_bind]
  intro xstateSet final step
  have finalHeld : Held final := by
    cases xstateSet with
    | false =>
        rcases step.1 with ⟨xstate, sets⟩
        exact sets ▸ heldLoaded
    | true => exact step.1 ▸ heldLoaded
  refine ⟨finalHeld, ?_⟩
  rw [ensures_require]
  refine ⟨?_, by simp⟩
  intro success _
  subst success
  have sets : final = { loaded with xstate := some snapshot.xstate } := step.1
  subst sets loads
  exact ⟨descriptors, ⟨memory.sizes, memory.inPlace, memory.payloads, memory.calls⟩, rfl, rfl⟩

/-- What the engine finds when it waits for the child. -/
structure Spawned (keeps : Bytes → Bool) (snapshot : Snapshot) (child : Child) : Prop where
  back : child.ranOwn = false
  stopped : child.phase = .stopped →
    Held child ∧ Placed keeps snapshot.pool unmarked snapshot.fds child.descriptors

theorem spawnTracedChild_spec (inOrder : EachAfter FollowsInOrder snapshot.fds) {exePath : Bytes}
    (forked : Forked child) :
    (spawnTracedChild exePath snapshot.fds snapshot.pool).Ensures (childWorld content Controlled)
      (fun met => met.ranOwn = false) (fun _ after => Spawned child.keepsPosition snapshot after)
      child := by
  have traced : ∀ event, Controlled event → Traced event := fun _ controlled => controlled.1
  unfold spawnTracedChild
  rw [ensures_bind]
  have opens :=
    (@openSnapshotFds_spec content snapshot.pool Controlled _ inOrder _ forked).with_always forked
  refine (opens.weaken fun met forkedMet => forkedMet.2).mono ?_
  intro outcome opened holds
  rcases holds with ⟨openedForked, whenDone⟩
  cases outcome with
  | none =>
      rw [if_neg (by decide), ensures_perform]
      intro _ gone step
      have exits : gone = { opened with phase := .gone } := step.1
      have back : gone.ranOwn = false := exits ▸ openedForked.2
      refine ⟨back, back, ?_⟩
      intro stopped
      rw [exits] at stopped
      cases stopped
  | some _ =>
      rw [if_pos (by rfl)]
      have placed := (whenDone rfl).2
      refine ((execTraced_spec openedForked).weaken fun met back => back traced).mono ?_
      intro _ after execs
      refine ⟨execs.1 traced, ?_⟩
      intro stopped
      rcases execs.2 stopped with ⟨held, descriptors⟩
      refine ⟨held, ?_⟩
      rw [descriptors]
      exact placed.exec inOrder

end

/-! ## Released or killed -/

section

variable {content : Bytes} {snapshot : Snapshot} {env : Environment RestoreInterface}
  {view : env.State → Child} {whole : env.State → Prop} {state : env.State}

/-- The child as the world has it takes the steps of a controlled restore. -/
def Views (content : Bytes) (env : Environment RestoreInterface) (view : env.State → Child) :
    Prop :=
  ∀ before request reply after, env.step before request reply after →
    (childWorld content Controlled).step (view before) request reply (view after)

/-- What holds of a child that waits still holds when it was let go. -/
structure Lasting (env : Environment RestoreInterface) (whole : env.State → Prop) : Prop where
  detached : ∀ before reply after, env.step before .detach reply after → whole before → whole after
  ended : ∀ before reply after, env.step before .waitEnd reply after → whole before → whole after

/-- The child has run on its own only when it was whole. -/
def OnlyWhole (view : env.State → Child) (whole : env.State → Prop) (state : env.State) : Prop :=
  (view state).ranOwn = true → whole state

/-- What a restore leaves: a child that is whole, or a dead one that never ran. -/
def Settled (view : env.State → Child) (whole : env.State → Prop) (state : env.State) : Prop :=
  whole state ∨ ((view state).phase = .gone ∧ (view state).ranOwn = false)

theorem OnlyWhole.of_back (back : (view state).ranOwn = false) : OnlyWhole view whole state := by
  intro ran
  rw [back] at ran
  cases ran

/-- A child that is killed never runs. -/
theorem kill_spec {child : Child} (back : child.ranOwn = false) : (do
      RestoreCall.kill.perform
      RestoreCall.waitEnd.perform
      return false : Program RestoreInterface Bool).Ensures (childWorld content Controlled)
        (fun met => met.ranOwn = false)
        (fun _ after => after.phase = .gone ∧ after.ranOwn = false) child := by
  rw [ensures_perform_bind]
  intro _ killed step
  have kills : killed = { child with phase := .gone } := step.1
  have killedBack : killed.ranOwn = false := kills ▸ back
  refine ⟨killedBack, ?_⟩
  rw [ensures_perform_bind]
  intro _ ended step
  have ends : ended = { killed with phase := .gone } := by
    rw [(step.1 : ended = _), kills]
    rfl
  have endedBack : ended.ranOwn = false := ends ▸ killedBack
  refine ⟨endedBack, ?_, endedBack⟩
  rw [ends]

theorem kill_settles (views : Views content env view) (back : (view state).ranOwn = false) : (do
      RestoreCall.kill.perform
      RestoreCall.waitEnd.perform
      return false : Program RestoreInterface Bool).Ensures env (OnlyWhole view whole)
        (fun _ => Settled view whole) state := by
  have kills := (@kill_spec content (view state) back).simulate (childWorld content Controlled)
    view views
  exact (kills.weaken fun _ => .of_back).mono fun _ _ killed => .inr killed

/-- A stopped child is let go when it is whole, and killed otherwise. -/
theorem restoreStopped_settles (views : Views content env view) (lasting : Lasting env whole)
    (held : Held (view state))
    (restores : (restoreState snapshot).run.Ensures env (fun met => Held (view met))
      (fun outcome after => outcome.isSome → whole after) state) :
    (restoreStopped snapshot).Ensures env (OnlyWhole view whole) (fun _ => Settled view whole)
      state := by
  unfold restoreStopped
  rw [ensures_bind]
  refine ((restores.with_always held).weaken fun met heldMet => .of_back heldMet.2).mono ?_
  intro outcome restored holds
  rcases holds with ⟨heldRestored, whenDone⟩
  cases outcome with
  | none =>
      rw [if_neg (by decide)]
      exact kill_settles views heldRestored.2
  | some _ =>
      rw [if_pos (by rfl), ensures_perform_bind]
      intro detached released step
      have releases := lasting.detached _ _ _ step (whenDone rfl)
      refine ⟨fun _ => releases, ?_⟩
      rw [ensures_perform_bind]
      intro _ ended step
      have ends := lasting.ended _ _ _ step releases
      exact ⟨fun _ => ends, .inl ends⟩

/-- The parent lets a child go that is whole. All others never run. -/
theorem restoreChild_settles (views : Views content env view) (lasting : Lasting env whole)
    (back : (view state).ranOwn = false)
    (restores : ∀ waited, env.step state .waitChild .stopped waited → Held (view waited) ∧
      (restoreState snapshot).run.Ensures env (fun met => Held (view met))
        (fun outcome after => outcome.isSome → whole after) waited) :
    (restoreChild snapshot).Ensures env (OnlyWhole view whole) (fun _ => Settled view whole)
      state := by
  unfold restoreChild
  rw [ensures_perform_bind]
  intro status waited step
  have waits := (views _ _ _ _ step).1
  have dead : view waited = { view state with phase := .gone } →
      OnlyWhole view whole waited ∧ Settled view whole waited := by
    intro ends
    have backWaited : (view waited).ranOwn = false := ends ▸ back
    exact ⟨.of_back backWaited, .inr ⟨by rw [ends], backWaited⟩⟩
  cases status with
  | stopped =>
      rcases restores waited step with ⟨held, ensures⟩
      exact ⟨.of_back held.2, restoreStopped_settles views lasting held ensures⟩
  | exited => exact dead waits.2
  | signaled => exact dead waits.2
  | other =>
      have same : view waited = view state := waits
      have backWaited : (view waited).ranOwn = false := same ▸ back
      exact ⟨.of_back backWaited, kill_settles views backWaited⟩

/-! ## The whole restore -/

/-- What follows when the snapshot was read. -/
def restoreRead (snapshot : Snapshot) : Program RestoreInterface Bool := do
  if ← RestoreCall.fork.perform then
    spawnTracedChild snapshot.header.exeString snapshot.fds snapshot.pool
    restoreChild snapshot
  else return false

theorem restorer_of_read {faults : ReaderFaults} {file : RegularFile}
    (read : readOutcome faults file = .ok snapshot) :
    restorer faults file = restoreRead snapshot := by
  rw [restorer, read]
  rfl

/-- From the spawn of the child on, to the whole restore of a snapshot. -/
theorem restoreRead_settles
    (forks : ∀ reply started, env.step state .fork reply started → started = state)
    (back : (view state).ranOwn = false)
    (spawns : (spawnTracedChild snapshot.header.exeString snapshot.fds snapshot.pool).Ensures env
      (fun met => (view met).ranOwn = false)
      (fun _ spawned => (restoreChild snapshot).Ensures env (OnlyWhole view whole)
        (fun _ => Settled view whole) spawned) state) :
    (restoreRead snapshot).Ensures env (OnlyWhole view whole)
      (fun _ after => Settled view whole after ∨ after = state) state := by
  unfold restoreRead
  rw [ensures_perform_bind]
  intro success started step
  rw [forks success started step]
  refine ⟨.of_back back, ?_⟩
  cases success with
  | false =>
      rw [if_neg (by decide)]
      exact .inr rfl
  | true =>
      rw [if_pos rfl, ensures_bind]
      refine (spawns.weaken fun _ => .of_back).mono ?_
      intro _ spawned ensures
      exact ensures.mono fun _ _ settled => .inl settled

/-- A restore of any file. Without a snapshot there is no child. -/
theorem restorer_settles {faults : ReaderFaults} {file : RegularFile}
    {restored : Snapshot → env.State → Prop} (forked : Forked (view state))
    (settles : ∀ snapshot, readOutcome faults file = .ok snapshot →
      (restoreRead snapshot).Ensures env (OnlyWhole view (restored snapshot))
        (fun _ after => Settled view (restored snapshot) after ∨ after = state) state) :
    (∀ met, (restorer faults file).Reaches env state met → (view met).ranOwn = true →
      ∃ snapshot, readOutcome faults file = .ok snapshot ∧ restored snapshot met) ∧
    ∀ result final, (restorer faults file).Exec env state result final →
      (∃ snapshot, readOutcome faults file = .ok snapshot ∧ restored snapshot final) ∨
        (((view final).phase = .engine ∨ (view final).phase = .gone) ∧
          (view final).ranOwn = false) := by
  cases read : readOutcome faults file with
  | error error =>
      rw [restorer, read]
      constructor
      · intro met reached ran
        rw [(reached : met = state), forked.2] at ran
        cases ran
      · intro result final run
        rw [run.2]
        exact .inr ⟨.inl forked.1, forked.2⟩
  | ok snapshot =>
      have ensures := settles snapshot read
      rw [restorer_of_read read]
      constructor
      · intro met reached ran
        exact ⟨snapshot, rfl, ensures.reaches (.of_back forked.2) reached ran⟩
      · intro result final run
        rcases ensures.exec run with (whole | dead) | same
        · exact .inl ⟨snapshot, rfl, whole⟩
        · exact .inr ⟨.inr dead.1, dead.2⟩
        · rw [same]
          exact .inr ⟨.inl forked.1, forked.2⟩

end

/-! ## The world of the child alone -/

theorem restored_lasting {keeps : Bytes → Bool} {content : Bytes} {snapshot : Snapshot} :
    Lasting (childWorld content Controlled) (Restored keeps content snapshot) where
  detached := by
    intro before detached released step restored
    cases detached with
    | false =>
        rw [(step.1 : released = before)]
        exact restored
    | true =>
        rw [(step.1 : released = { before with phase := .free, ranOwn := true })]
        exact restored.withPhase .free true
  ended := by
    intro before _ ended step restored
    rw [(step.1 : ended = _)]
    exact restored.withPhase _ before.ranOwn

/-- Where the child is traced and the injections are undisturbed, it runs freely only when every
step was through. Otherwise it was never exec'ed, or it is killed before it ran. -/
theorem restorer_restores {faults : ReaderFaults} {file : RegularFile} {child : Child}
    (forked : Forked child) :
    (∀ met, (restorer faults file).Reaches (childWorld file.bytes Controlled) child met →
      met.ranOwn = true → ∃ snapshot, readOutcome faults file = .ok snapshot ∧
        Restored child.keepsPosition file.bytes snapshot met) ∧
    ∀ result final,
      (restorer faults file).Exec (childWorld file.bytes Controlled) child result final →
        (∃ snapshot, readOutcome faults file = .ok snapshot ∧
          Restored child.keepsPosition file.bytes snapshot final) ∨
        ((final.phase = .engine ∨ final.phase = .gone) ∧ final.ranOwn = false) := by
  have views : Views file.bytes (childWorld file.bytes Controlled) id := fun _ _ _ _ step => step
  refine @restorer_settles (childWorld file.bytes Controlled) id child faults file
    (Restored child.keepsPosition file.bytes) forked ?_
  intro snapshot read
  have inOrder := inOrder_of_accepted (accepted_of_readOutcome read)
  refine restoreRead_settles ?_ forked.2 ?_
  · intro reply started step
    cases reply with
    | false => exact step.1
    | true => exact step.1
  · refine (spawnTracedChild_spec inOrder forked).mono ?_
    intro _ spawned isSpawned
    refine restoreChild_settles views restored_lasting isSpawned.back ?_
    intro waited step
    rcases step.1 with ⟨isStopped, unchanged⟩
    rw [(unchanged : waited = spawned)]
    rcases isSpawned.stopped isStopped with ⟨held, placed⟩
    exact ⟨held, restoreState_spec inOrder held placed⟩

end Ksnap
