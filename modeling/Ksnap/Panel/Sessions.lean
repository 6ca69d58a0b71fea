import Ksnap.Panel.Engine
import Mathlib.Data.Set.Basic

/-!
# One engine at a time

Requests that start, stop and look at restore sessions run on threads of their own.
They share the session lock, `_session` and the engines that were started, which end
whenever they do. Under the lock only its owner starts an engine or changes `_session`,
and this is all the argument needs: whenever the lock is free, `_session` is the engine
started last and every other one has ended.
-/

namespace Ksnap.Panel

open Foundation

variable {ι : Type}

/-- What the requests share: the lock, `_session`, the engines in the order they were
started, and those that run. -/
structure SessionState (ι : Type) where
  owner : Option ι
  session : Option RestoreSession
  started : List EngineProcess
  running : Set EngineProcess

/-- What a call of one thread does. `Popen` gives a new object, or fails. An engine that
`poll` or `wait` shows as ended has ended, but one that has ended need not show yet. -/
def sessionStep (i : ι) (state : SessionState ι) :
    (request : PanelCall) → request.Reply → SessionState ι → Prop
  | .acquireSession, _, after => state.owner = none ∧ after = { state with owner := some i }
  | .releaseSession, _, after => after = { state with owner := none }
  | .readSession, current, after => current = state.session ∧ after = state
  | .writeSession session, _, after => after = { state with session := some session }
  | .popen _, .ok process, after =>
      (∀ old ∈ state.started, old.object ≠ process.object) ∧
        after = { state with
          started := state.started ++ [process]
          running := insert process state.running }
  | .poll process, returncode, after =>
      (returncode ≠ none → process ∉ state.running) ∧ after = state
  | .waitFor process, .ok _, after => process ∉ state.running ∧ after = state
  | _, _, after => after = state

/-- The threads that share sessions. On its own an engine ends. -/
abbrev sessionSystem (ι : Type) : System PanelInterface ι where
  State := SessionState ι
  step := sessionStep
  drift := fun state after =>
    ∃ process ∈ state.running, after = { state with running := state.running \ {process} }

/-- The requests about restore sessions. -/
inductive SessionRequest : Type where
  | restore (name : Json) (directory : Option Text)
  | stop
  | session

/-- The thread that answers a request. -/
def SessionRequest.serve (config : Config) : SessionRequest → Program PanelInterface Unit
  | .restore name directory => do let _ ← (Panel.restore config name directory).run
  | .stop => do let _ ← Panel.stop.run
  | .session => do let _ ← Panel.session.run

/-- The panel before any of the requests has begun. -/
def sessionStart (config : Config) (requests : ι → SessionRequest) :
    Pool (sessionSystem ι) Unit where
  shared := { owner := none, session := none, started := [], running := ∅ }
  thread := fun i => (requests i).serve config

/-! ## The discipline -/

/-- `_session` is the engine started last, and no other one runs. -/
structure SessionState.Settled (state : SessionState ι) : Prop where
  session : state.session.map (·.process) = state.started.getLast?
  running : ∀ process ∈ state.running, state.started.getLast? = some process

/-- At most one engine runs. -/
def SessionState.Exclusive (state : SessionState ι) : Prop :=
  ∀ first ∈ state.running, ∀ second ∈ state.running, first = second

theorem SessionState.Settled.exclusive {state : SessionState ι} (settled : state.Settled) :
    state.Exclusive := by
  intro first firstMem second secondMem
  have same := (settled.running first firstMem).symm.trans (settled.running second secondMem)
  exact Option.some_inj.mp same

/-- The owner of the lock can rely on `_session` and on the list of engines, and that
engines do nothing but end. Nobody else takes or returns its lock. -/
def sessionDiscipline (ι : Type) : Discipline (sessionSystem ι) where
  always := fun state => state.Exclusive ∧ (state.owner = none → state.Settled)
  rely := fun i before now =>
    (before.owner = some i ↔ now.owner = some i) ∧
      (before.owner = some i → now.session = before.session ∧ now.started = before.started ∧
        now.running ⊆ before.running)
  refl := fun i state => ⟨Iff.rfl, fun _ => ⟨rfl, rfl, subset_rfl⟩⟩
  trans := by
    intro i first second third one two
    refine ⟨one.1.trans two.1, ?_⟩
    intro owned
    rcases one.2 owned with ⟨session, started, running⟩
    rcases two.2 (one.1.mp owned) with ⟨session', started', running'⟩
    exact ⟨session'.trans session, started'.trans started, running'.trans running⟩

/-- No condition on the run. -/
abbrev anyCall : (sessionSystem ι).Condition := fun _ _ _ _ => True

variable {i : ι} {now after : SessionState ι}

theorem guaranteed_unchanged (always : (sessionDiscipline ι).always now) :
    (sessionDiscipline ι).Guaranteed i now now :=
  ⟨always, fun j _ => (sessionDiscipline ι).refl j now⟩

/-- The owner may do as it likes, while at most one engine runs. -/
theorem guaranteed_owned (owned : now.owner = some i) (owns : after.owner = some i)
    (exclusive : after.Exclusive) : (sessionDiscipline ι).Guaranteed i now after := by
  refine ⟨⟨exclusive, ?_⟩, ?_⟩
  · intro free
    rw [owns] at free
    cases free
  · intro j other
    have notOwned : now.owner ≠ some j := by
      rw [owned]
      simpa using Ne.symm other
    have notOwns : after.owner ≠ some j := by
      rw [owns]
      simpa using Ne.symm other
    exact ⟨iff_of_false notOwned notOwns, fun owned => absurd owned notOwned⟩

theorem guaranteed_acquire (always : (sessionDiscipline ι).always now)
    (free : now.owner = none) :
    (sessionDiscipline ι).Guaranteed i now { now with owner := some i } := by
  refine ⟨⟨always.1, ?_⟩, ?_⟩
  · intro free
    cases free
  · intro j other
    have notOwned : now.owner ≠ some j := by simp [free]
    have notOwns : some i ≠ some j := by simpa using Ne.symm other
    exact ⟨iff_of_false notOwned notOwns, fun owned => absurd owned notOwned⟩

theorem guaranteed_release (owned : now.owner = some i) (settled : now.Settled) :
    (sessionDiscipline ι).Guaranteed i now { now with owner := none } := by
  refine ⟨⟨settled.exclusive, fun _ => ⟨settled.session, settled.running⟩⟩, ?_⟩
  intro j other
  have notOwned : now.owner ≠ some j := by
    rw [owned]
    simpa using Ne.symm other
  exact ⟨iff_of_false notOwned (by simp), fun owned => absurd owned notOwned⟩

theorem unnoticed_exit {process : EngineProcess} (always : (sessionDiscipline ι).always now) :
    (sessionDiscipline ι).Unnoticed now { now with running := now.running \ {process} } := by
  have fewer : now.running \ {process} ⊆ now.running := Set.sdiff_subset
  refine ⟨⟨?_, ?_⟩, ?_⟩
  · intro first firstMem second secondMem
    exact always.1 first (fewer firstMem) second (fewer secondMem)
  · intro free
    have settled := always.2 free
    exact ⟨settled.session, fun other mem => settled.running other (fewer mem)⟩
  · intro j
    exact ⟨Iff.rfl, fun _ => ⟨rfl, rfl, fewer⟩⟩

/-! ## What a thread knows -/

/-- The thread does not own the lock. -/
def Outside (i : ι) (state : SessionState ι) : Prop :=
  state.owner ≠ some i

/-- The thread owns the lock, and everything is settled. -/
structure Inside (i : ι) (state : SessionState ι) : Prop where
  owned : state.owner = some i
  settled : state.Settled

/-- The thread owns the lock, and no engine runs. -/
structure Idle (i : ι) (state : SessionState ι) : Prop extends Inside i state where
  idle : state.running = ∅

/-- The thread owns the lock and has started the last engine. -/
structure Spawned (i : ι) (process : EngineProcess) (state : SessionState ι) : Prop where
  owned : state.owner = some i
  last : state.started.getLast? = some process
  running : state.running ⊆ {process}

theorem stable_outside : Stable (sessionDiscipline ι) i (Outside i) := by
  intro before now outside relied
  exact fun owned => outside (relied.1.mpr owned)

theorem SessionState.Settled.later (settled : now.Settled) (session : after.session = now.session)
    (started : after.started = now.started) (fewer : after.running ⊆ now.running) :
    after.Settled := by
  refine ⟨?_, ?_⟩
  · rw [session, started]
    exact settled.session
  · intro process mem
    rw [started]
    exact settled.running process (fewer mem)

theorem stable_inside : Stable (sessionDiscipline ι) i (Inside i) := by
  intro before now inside relied
  rcases relied.2 inside.owned with ⟨session, started, fewer⟩
  exact ⟨relied.1.mp inside.owned, inside.settled.later session started fewer⟩

theorem stable_idle : Stable (sessionDiscipline ι) i (Idle i) := by
  intro before now idle relied
  rcases relied.2 idle.owned with ⟨_, _, fewer⟩
  rw [idle.idle] at fewer
  exact ⟨stable_inside before now idle.toInside relied, Set.subset_empty_iff.mp fewer⟩

theorem stable_spawned {process : EngineProcess} :
    Stable (sessionDiscipline ι) i (Spawned i process) := by
  intro before now spawned relied
  rcases relied.2 spawned.owned with ⟨_, started, fewer⟩
  refine ⟨relied.1.mp spawned.owned, ?_, fewer.trans spawned.running⟩
  rw [started]
  exact spawned.last

/-! ## Quiet calls -/

/-- The calls that change nothing of what the requests share. -/
def Quiet : PanelCall → Prop
  | .acquireSession => False
  | .releaseSession => False
  | .writeSession _ => False
  | .popen _ => False
  | _ => True

theorem eq_of_quiet {request : PanelCall} {reply : request.Reply} (quiet : Quiet request)
    (taken : sessionStep i now request reply after) : after = now := by
  cases request with
  | acquireSession => exact quiet.elim
  | releaseSession => exact quiet.elim
  | writeSession session => exact quiet.elim
  | popen command => exact quiet.elim
  | readSession => exact taken.2
  | poll process => exact taken.2
  | waitFor process =>
      cases reply with
      | ok code => exact taken.2
      | error raised => exact taken
  | _ => exact taken

theorem carries_quiet {α : Type} {known raises : SessionState ι → Prop} {body : Request α}
    (quiet : body.run.OnlyCalls Quiet) (stable : Stable (sessionDiscipline ι) i known)
    (implied : ∀ state, known state → raises state) :
    Carries (sessionDiscipline ι) anyCall i known body (fun _ => known) raises := by
  refine (carries_of_onlyCalls quiet stable ?_).weaken (fun _ holds => holds)
    (fun _ _ holds => holds) implied
  intro now request reply after quiet known always taken
  rw [eq_of_quiet quiet taken]
  exact ⟨guaranteed_unchanged always, known⟩

theorem quiet_running (session : RestoreSession) : (running session).run.OnlyCalls Quiet := by
  apply OnlyCalls.raising_bind (PanelCall.onlyCalls_ask trivial)
  intro returncode
  exact trivial

theorem quiet_describe (session : RestoreSession) : (describe session).run.OnlyCalls Quiet := by
  apply OnlyCalls.raising_bind (PanelCall.onlyCalls_ask trivial)
  intro finished
  apply OnlyCalls.raising_bind (quiet_running session)
  intro running
  apply OnlyCalls.raising_bind (PanelCall.onlyCalls_ask trivial)
  intro returncode
  exact trivial

theorem quiet_stopProcess (process : EngineProcess) :
    (stopProcess process).run.OnlyCalls Quiet := by
  apply OnlyCalls.catching
  · apply OnlyCalls.raising_bind (PanelCall.onlyCalls_attempt trivial)
    intro signalled
    apply OnlyCalls.raising_bind (PanelCall.onlyCalls_attempt trivial)
    intro code
    exact trivial
  · intro error
    split
    · exact PanelCall.onlyCalls_attempt trivial
    · exact trivial

/-! ## The requests -/

/-- A body that needs the lock and leaves everything settled. -/
theorem carries_withSessionLock {α : Type} {body : Request α}
    (carries : Carries (sessionDiscipline ι) anyCall i (Inside i) body (fun _ => Inside i)
      (Inside i)) :
    Carries (sessionDiscipline ι) anyCall i (Outside i) (withSessionLock body)
      (fun _ => Outside i) (Outside i) := by
  have leaves : Carries (sessionDiscipline ι) anyCall i (Inside i)
      (PanelCall.releaseSession.ask id) (fun _ => Outside i) (Outside i) := by
    apply carries_attempt _ _ stable_inside (fun _ => stable_outside) stable_outside
    intro now reply after inside always taken _
    cases taken
    exact ⟨guaranteed_release inside.owned inside.settled, by simp [Outside]⟩
  apply Carries.bracket ?_ carries (fun _ => leaves) leaves (fun _ => stable_outside)
    stable_outside
  apply carries_attempt _ _ stable_outside (fun _ => stable_inside) stable_outside
  intro now reply after outside always taken _
  rcases taken with ⟨free, rfl⟩
  have settled := always.2 free
  exact ⟨guaranteed_acquire always free, rfl, settled.session, settled.running⟩

theorem stable_current {session : Option RestoreSession} :
    Stable (sessionDiscipline ι) i fun state => Inside i state ∧ state.session = session := by
  intro before now holds relied
  rcases relied.2 holds.1.owned with ⟨same, _, _⟩
  exact ⟨stable_inside before now holds.1 relied, same.trans holds.2⟩

theorem stable_shown {shown : Prop} :
    Stable (sessionDiscipline ι) i fun state => Inside i state ∧ (shown → Idle i state) := by
  intro before now holds relied
  refine ⟨stable_inside before now holds.1 relied, ?_⟩
  intro ended
  exact stable_idle before now (holds.2 ended) relied

/-- Under the lock, no engine runs when the one of `_session` has ended. -/
theorem idle_of_ended {session : RestoreSession} (inside : Inside i now)
    (current : now.session = some session) (ended : session.process ∉ now.running) :
    Idle i now := by
  refine ⟨inside, ?_⟩
  have last := inside.settled.session
  rw [current, Option.map_some] at last
  rw [Set.eq_empty_iff_forall_notMem]
  intro process mem
  have same := last.trans (inside.settled.running process mem)
  exact ended ((Option.some_inj.mp same) ▸ mem)

theorem idle_of_none (inside : Inside i now) (current : now.session = none) : Idle i now := by
  refine ⟨inside, ?_⟩
  have last := inside.settled.session
  rw [current, Option.map_none] at last
  rw [Set.eq_empty_iff_forall_notMem]
  intro process mem
  have found := inside.settled.running process mem
  rw [← last] at found
  cases found

/-- Under the lock, `poll` of the session's engine tells whether any engine runs. -/
theorem carries_running {session : RestoreSession} :
    Carries (sessionDiscipline ι) anyCall i
      (fun state => Inside i state ∧ state.session = some session) (running session)
      (fun running state => Inside i state ∧ (running = false → Idle i state)) (Inside i) := by
  have polls : Carries (sessionDiscipline ι) anyCall i
      (fun state => Inside i state ∧ state.session = some session)
      ((PanelCall.poll session.process).ask id : Request (Option ℤ))
      (fun returncode state => Inside i state ∧ (returncode.isNone = false → Idle i state))
      (Inside i) := by
    apply carries_attempt _ _ stable_current (fun _ => stable_shown) stable_inside
    intro now returncode after holds always taken _
    rcases taken with ⟨ended, rfl⟩
    refine ⟨guaranteed_unchanged always, holds.1, ?_⟩
    intro shown
    apply idle_of_ended holds.1 holds.2
    apply ended
    intro none
    rw [none] at shown
    cases shown
  rw [running]
  apply polls.bind
  intro returncode
  exact carries_pure stable_shown fun _ holds => holds

theorem carries_refuseRunning {session : Option RestoreSession} :
    Carries (sessionDiscipline ι) anyCall i
      (fun state => Inside i state ∧ state.session = session) (refuseRunning session)
      (fun _ => Idle i) (Inside i) := by
  cases session with
  | none =>
      apply carries_pure
      · exact stable_idle
      · intro state holds
        exact idle_of_none holds.1 holds.2
  | some session =>
      apply carries_running.bind
      intro running
      apply carries_require stable_idle stable_inside
      · intro notRunning state holds
        exact holds.2 (by simpa using notRunning)
      · intro _ state holds
        exact holds.1

theorem carries_spawnEngine {config : Config} {engine name directory : Text} :
    Carries (sessionDiscipline ι) anyCall i (Idle i) (spawnEngine config engine name directory)
      (fun process => Spawned i process) (Inside i) := by
  apply Carries.catching (Inside i)
  · apply carries_attempt _ _ stable_idle (fun _ => stable_spawned) stable_inside
    intro now reply after idle always taken _
    cases reply with
    | error raised =>
        cases taken
        exact ⟨guaranteed_unchanged always, idle.toInside⟩
    | ok process =>
        rcases taken with ⟨_, rfl⟩
        have alone : insert process now.running = {process} := by
          rw [idle.idle]
          exact LawfulSingleton.insert_empty_eq process
        refine ⟨guaranteed_owned idle.owned idle.owned ?_, idle.owned, ?_, ?_⟩
        · intro first firstMem second secondMem
          change first ∈ insert process now.running at firstMem
          change second ∈ insert process now.running at secondMem
          rw [alone] at firstMem secondMem
          exact firstMem.trans secondMem.symm
        · exact List.getLast?_concat
        · exact alone.subset
  · intro error _
    exact carries_throw stable_inside fun _ caught => caught
  · exact fun _ caught => caught

/-- The new session is written down, which settles everything again. -/
theorem carries_writeSession (session : RestoreSession) :
    Carries (sessionDiscipline ι) anyCall i (Spawned i session.process)
      ((PanelCall.writeSession session).ask id : Request Unit) (fun _ => Inside i)
      (Inside i) := by
  apply carries_attempt _ _ stable_spawned (fun _ => stable_inside) stable_inside
  intro now reply after spawned always taken _
  cases taken
  refine ⟨guaranteed_owned spawned.owned spawned.owned always.1, spawned.owned, ?_, ?_⟩
  · exact spawned.last.symm
  · intro process mem
    rw [Set.mem_singleton_iff.mp (spawned.running mem)]
    exact spawned.last

theorem carries_startSession {config : Config} {name directory : Text} :
    Carries (sessionDiscipline ι) anyCall i (Inside i) (startSession config name directory)
      (fun _ => Inside i) (Inside i) := by
  have reads : Carries (sessionDiscipline ι) anyCall i (Inside i)
      (PanelCall.readSession.ask id : Request (Option RestoreSession))
      (fun current state => Inside i state ∧ state.session = current) (Inside i) := by
    apply carries_attempt _ _ stable_inside (fun _ => stable_current) stable_inside
    intro now current after inside always taken _
    rcases taken with ⟨rfl, rfl⟩
    exact ⟨guaranteed_unchanged always, inside, rfl⟩
  apply reads.bind
  intro current
  apply carries_refuseRunning.bind
  intro _
  apply (carries_quiet (onlyCalls_binary (fun _ => trivial) fun _ => trivial) stable_idle
    fun _ idle => idle.toInside).bind
  intro engine
  apply (carries_quiet (onlyCalls_log trivial) stable_idle fun _ idle => idle.toInside).bind
  intro _
  apply carries_spawnEngine.bind
  intro process
  -- the clock cannot raise, so no engine is left that no session knows
  have reads : Carries (sessionDiscipline ι) anyCall i (Spawned i process)
      (PanelCall.now.ask id : Request Text) (fun _ => Spawned i process) (Inside i) := by
    apply carries_attempt _ _ stable_spawned (fun _ => stable_spawned) stable_inside
    intro now reply after spawned always taken _
    cases taken
    exact ⟨guaranteed_unchanged always, spawned⟩
  apply reads.bind
  intro startedAt
  dsimp only
  apply (carries_writeSession ⟨name, process, startedAt⟩).bind
  intro _
  have streams : ((PanelCall.startStream ⟨name, process, startedAt⟩).attempt id :
      Request Unit).run.OnlyCalls Quiet := PanelCall.onlyCalls_attempt trivial
  apply (carries_quiet streams stable_inside fun _ inside => inside).bind
  intro _
  exact carries_quiet (quiet_describe _) stable_inside fun _ inside => inside

theorem carries_restore {config : Config} {name : Json} {directory : Option Text} :
    Carries (sessionDiscipline ι) anyCall i (Outside i) (restore config name directory)
      (fun _ => Outside i) (Outside i) := by
  apply (carries_quiet onlyCalls_liftExcept stable_outside fun _ outside => outside).bind
  intro name
  have quiet : (directory.elim (snapshotDir config) pure).run.OnlyCalls Quiet := by
    cases directory with
    | none =>
        apply OnlyCalls.raising_bind (PanelCall.onlyCalls_attempt trivial)
        intro made
        exact trivial
    | some directory => exact trivial
  apply (carries_quiet quiet stable_outside fun _ outside => outside).bind
  intro directory
  apply (carries_quiet (onlyCalls_resolve fun _ => trivial) stable_outside
    fun _ outside => outside).bind
  intro path
  have looks : ((PanelCall.isFile path).attempt id : Request Bool).run.OnlyCalls Quiet :=
    PanelCall.onlyCalls_attempt trivial
  apply (carries_quiet looks stable_outside fun _ outside => outside).bind
  intro present
  apply (carries_quiet onlyCalls_raising_require stable_outside fun _ outside => outside).bind
  intro _
  exact carries_withSessionLock carries_startSession

theorem carries_stop : Carries (sessionDiscipline ι) anyCall i (Outside i) stop
    (fun _ => Outside i) (Outside i) := by
  have reads : (PanelCall.readSession.ask id : Request (Option RestoreSession)).run.OnlyCalls
      Quiet := PanelCall.onlyCalls_ask trivial
  apply (carries_withSessionLock (carries_quiet reads stable_inside fun _ inside => inside)).bind
  intro current
  apply carries_quiet ?_ stable_outside fun _ outside => outside
  cases current with
  | none => exact trivial
  | some session =>
      apply OnlyCalls.raising_bind (quiet_running session)
      intro running
      apply OnlyCalls.raising_bind onlyCalls_raising_require
      intro _
      apply OnlyCalls.raising_bind (onlyCalls_log trivial)
      intro _
      apply OnlyCalls.raising_bind (quiet_stopProcess session.process)
      intro _
      exact quiet_describe session

theorem carries_session : Carries (sessionDiscipline ι) anyCall i (Outside i) session
    (fun _ => Outside i) (Outside i) := by
  apply carries_withSessionLock
  apply carries_quiet ?_ stable_inside fun _ inside => inside
  apply OnlyCalls.raising_bind (PanelCall.onlyCalls_ask trivial)
  intro current
  cases current with
  | none => exact trivial
  | some session =>
      apply OnlyCalls.raising_bind (quiet_describe session)
      intro _
      exact trivial

/-- Every request keeps to the discipline. -/
theorem keeps_serve {config : Config} {request : SessionRequest} {state : SessionState ι}
    (outside : Outside i state) :
    Keeps (sessionDiscipline ι) anyCall i (request.serve config) (fun _ _ => True) state := by
  cases request with
  | restore name directory =>
      rw [SessionRequest.serve, keeps_bind]
      exact (carries_restore state outside).mono fun _ _ _ _ _ => trivial
  | stop =>
      rw [SessionRequest.serve, keeps_bind]
      exact (carries_stop state outside).mono fun _ _ _ _ _ => trivial
  | session =>
      rw [SessionRequest.serve, keeps_bind]
      exact (carries_session state outside).mono fun _ _ _ _ _ => trivial

/-- However restore, stop and session requests interleave, engines exit and starts fail, at
most one engine runs, and while the lock is free `_session` is the one started last. -/
theorem one_engine_running [DecidableEq ι] (config : Config) (requests : ι → SessionRequest)
    {pool : Pool (sessionSystem ι) Unit}
    (reaches : Pool.Reaches anyCall (sessionStart config requests) pool) :
    (∀ first ∈ pool.shared.running, ∀ second ∈ pool.shared.running, first = second) ∧
      (pool.shared.owner = none →
        pool.shared.session.map (·.process) = pool.shared.started.getLast?) := by
  have drifts : ∀ before now, (sessionDiscipline ι).always before →
      (sessionSystem ι).drift before now → (sessionDiscipline ι).Unnoticed before now := by
    intro before now always drifted
    rcases drifted with ⟨process, _, rfl⟩
    exact unnoticed_exit always
  have initially : (sessionDiscipline ι).always (sessionStart config requests).shared := by
    refine ⟨?_, fun _ => ⟨rfl, ?_⟩⟩
    · intro first mem
      cases mem
    · intro process mem
      cases mem
  have keeps : ∀ i, Keeps (sessionDiscipline ι) anyCall i
      ((sessionStart config requests).thread i) (fun _ _ => True)
      (sessionStart config requests).shared := by
    intro i
    apply keeps_serve
    simp [Outside, sessionStart]
  have always := (Pool.reaches_keeps drifts initially keeps reaches).1
  exact ⟨always.1, fun free => (always.2 free).session⟩

/-- Answers under which every request goes well and the engines keep running. -/
def obligingAnswer {ι : Type} (i : ι) (state : SessionState ι) :
    (request : PanelCall) → Option (request.Reply × SessionState ι)
  | .expandUser path => some (.ok path, state)
  | .resolve path => some (.ok path, state)
  | .isFile _ => some (.ok true, state)
  | .isExecutable _ => some (true, state)
  | .popen _ =>
      let process : EngineProcess := ⟨state.started.length, state.started.length + 100⟩
      if ∀ old ∈ state.started, old.object ≠ process.object then
        some (.ok process, { state with
          started := state.started ++ [process]
          running := insert process state.running })
      else none
  | .poll _ => some (none, state)
  | .startStream _ => some (.ok (), state)
  | .readEnd _ => some (⟨none, none⟩, state)
  | .acquireSession =>
      match state.owner with
      | none => some ((), { state with owner := some i })
      | some _ => none
  | .releaseSession => some ((), { state with owner := none })
  | .readSession => some (state.session, state)
  | .writeSession session => some ((), { state with session := some session })
  | .now => some ([], state)
  | .log _ _ _ => some ((), state)
  | _ => none

theorem obligingAnswer_allowed {ι : Type} (i : ι) (state : SessionState ι) (request : PanelCall)
    (reply : request.Reply) (after : SessionState ι)
    (answered : obligingAnswer i state request = some (reply, after)) :
    sessionStep i state request reply after ∧ True := by
  refine ⟨?_, trivial⟩
  cases request with
  | popen command =>
      simp only [obligingAnswer] at answered
      split at answered
      · next fresh =>
          cases answered
          exact ⟨fresh, rfl⟩
      · cases answered
  | acquireSession =>
      simp only [obligingAnswer] at answered
      split at answered
      · next free =>
          cases answered
          exact ⟨free, rfl⟩
      · cases answered
  | poll process =>
      cases answered
      exact ⟨fun ended => absurd rfl ended, rfl⟩
  | readSession =>
      cases answered
      exact ⟨rfl, rfl⟩
  | _ => cases answered <;> rfl

/-- Two requests to restore one snapshot. -/
def twoRestores : Bool → SessionRequest :=
  fun _ => .restore (.string (text "a")) (some (text "/d"))

set_option maxRecDepth 8000 in
theorem one_engine_running_twoRestores : ∃ pool : Pool (sessionSystem Bool) Unit,
    pool.shared.started.length = 1 ∧
      (∀ first ∈ pool.shared.running, ∀ second ∈ pool.shared.running, first = second) ∧
      (pool.shared.owner = none →
        pool.shared.session.map (·.process) = pool.shared.started.getLast?) := by
  have scheduled : Pool.schedule obligingAnswer
      (List.replicate 16 false ++ List.replicate 7 true)
      (sessionStart exampleConfig twoRestores) = some _ := rfl
  exact ⟨_, rfl, one_engine_running exampleConfig twoRestores
    (Pool.reaches_of_schedule obligingAnswer_allowed scheduled)⟩

end Ksnap.Panel
