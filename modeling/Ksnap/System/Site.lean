import Ksnap.System.RoundTrip
import Ksnap.System.Table

/-!
# What requests share

Requests are answered on threads of their own, and the engines that they start are at work while
others are under way. Here is what they do to the machine one thing at a time, what each request
asks for, and the discipline that keeps it confined to that.
-/

namespace Ksnap

open Foundation Foundation.Program Raising Panel

/-! ## Engines at work -/

/-- What an engine does, one thing at a time: one with a dump to make writes at its own place,
whatever it writes, and kills its target if it is to. One with a restore to make forks a child, and
may kill a child that it has forked. -/
inductive Machine.Works {machine : Machine} (argv : List Bytes) :
    machine.Deeds → machine.Deeds → Prop
  | writes {pid : Int32} {config : DumpConfig} {path : Bytes} {before : machine.Deeds}
      {files : machine.Files} {content : Option Bytes} (job : main argv = .dumps pid config)
      (built : buildSnapshotPath config.fileName config.outputDir = some path)
      (written : Machine.Writes before.files files (machine.leads path) content) :
      Works argv before { before with files := files }
  | kills {pid : Int32} {config : DumpConfig} {before : machine.Deeds}
      (job : main argv = .dumps pid config) (asked : config.killAfterDump = true) :
      Works argv before { before with killed := before.killed ++ [pid] }
  | forks {fileName outputDir : Option Bytes} {before : machine.Deeds} {child : Int32}
      (job : main argv = .restores fileName outputDir) :
      Works argv before { before with forked := before.forked ++ [(argv, child)] }
  | killsChild {fileName outputDir : Option Bytes} {before : machine.Deeds} {child : Int32}
      (job : main argv = .restores fileName outputDir) (own : (argv, child) ∈ before.forked) :
      Works argv before { before with killed := before.killed ++ [child] }

section Works

variable {config : DumpConfig}

/-- A dump that is not to kill does not try to. -/
theorem onlyCalls_dump (memory : Allocations) (rounds : ℕ) :
    (dump config memory rounds).OnlyCalls fun request : DumpCall =>
      request = .kill → config.killAfterDump = true := by
  rw [dump]
  split
  · trivial
  · refine OnlyCalls.bind (onlyCalls_perform.mpr DumpCall.noConfusion) fun seized => ?_
    cases seized with
    | false => trivial
    | true =>
        refine OnlyCalls.bind ((onlyCalls_dumpSeized memory rounds).mono ?_) fun captured => ?_
        · rintro request capturing rfl
          exact capturing.elim
        · have detaches : ∀ result, (detachTarget result).OnlyCalls fun request : DumpCall =>
              request = .kill → config.killAfterDump = true := fun result =>
            OnlyCalls.bind (onlyCalls_perform.mpr DumpCall.noConfusion) fun _ => trivial
          rw [finishDump]
          split
          · next both =>
            have asked := (Bool.and_eq_true_iff.mp both).2
            refine OnlyCalls.bind (onlyCalls_perform.mpr fun _ => asked) fun killed => ?_
            cases killed with
            | false => exact detaches false
            | true =>
                exact OnlyCalls.bind (onlyCalls_perform.mpr DumpCall.noConfusion) fun _ => trivial
          · exact detaches _

theorem asked_of_killed {memory : Allocations} {rounds : ℕ} {env : Environment DumpInterface}
    {start : env.State} {trace : DumpTrace} {met : env.State}
    (reached : (dump config memory rounds).Reaches (tracing env) ([], start) (trace, met))
    (killed : 0 < trace.countP isKill) : config.killAfterDump = true := by
  have keeps : ∀ (state : (tracing env).State) (request : DumpCall) (reply : DumpReply request)
      (final : (tracing env).State), (request = .kill → config.killAfterDump = true) →
      (0 < state.1.countP isKill → config.killAfterDump = true) →
      (tracing env).step state request reply final →
      (0 < final.1.countP isKill → config.killAfterDump = true) := by
    intro state request reply final allowed before taken counted
    by_cases isKill : request = .kill
    · exact allowed isKill
    · rw [taken.1, countP_isKill_concat isKill] at counted
      exact before counted
  have none_ : 0 < ([] : DumpTrace).countP isKill → config.killAfterDump = true := by simp
  have ensured : (dump config memory rounds).Ensures (tracing env)
      (fun state => 0 < state.1.countP isKill → config.killAfterDump = true)
      (fun _ final => 0 < final.1.countP isKill → config.killAfterDump = true) ([], start) :=
    (onlyCalls_dump memory rounds).ensures keeps none_
  exact ensured.reaches none_ reached killed

/-- A restore kills no child but one that it has forked. -/
theorem forked_of_killed {faults : ReaderFaults} {file : RegularFile}
    {env : Environment RestoreInterface} {start : env.State} {trace : List RestoreEvent}
    {met : env.State} (reached : (restorer faults file).Reaches (tracing env) ([], start)
      (trace, met)) (killed : 0 < trace.countP isChildKill) : 0 < trace.countP isFork := by
  have ensured : (restorer faults file).Ensures (tracing env)
      (fun state => 0 < state.1.countP isChildKill → 0 < state.1.countP isFork)
      (fun _ _ => True) ([], start) := by
    rw [restorer]
    cases readOutcome faults file with
    | error failure => trivial
    | ok snapshot =>
        change (restoreRead snapshot).Ensures _ _ _ _
        rw [restoreRead, ensures_perform_bind]
        rintro forked ⟨_, started⟩ ⟨rfl, step⟩
        refine ⟨fun impossible => absurd impossible (by simp [isChildKill]), ?_⟩
        cases forked with
        | false => trivial
        | true =>
            -- from here on a child has been forked
            have keeps : ∀ (state : (tracing env).State) (request : RestoreCall)
                (reply : RestoreReply request) (final : (tracing env).State),
                0 < state.1.countP isFork → (tracing env).step state request reply final →
                0 < final.1.countP isFork := by
              intro state request reply final before taken
              rw [taken.1, List.countP_append]
              omega
            rw [if_pos rfl]
            refine ((ensures_invariant keeps _ ?_).mono fun _ _ _ => trivial).weaken
              fun _ holds _ => holds
            simp [isFork]
  have none_ : 0 < ([] : List RestoreEvent).countP isChildKill →
      0 < ([] : List RestoreEvent).countP isFork := id
  exact ensured.reaches none_ reached killed

variable {machine : Machine} {argv : List Bytes}

/-- An engine that may kill a process may try so again. -/
theorem works_killed {number : Int32} (before : machine.Deeds) (count : ℕ)
    (kills : 0 < count → ∀ killed, Machine.Works argv { before with killed := killed }
      { before with killed := killed ++ [number] }) :
    Relation.ReflTransGen (Machine.Works argv) before
      { before with killed := before.killed ++ List.replicate count number } := by
  induction count with
  | zero =>
      rw [List.replicate_zero, List.append_nil]
  | succ count ih =>
      have works := kills (Nat.succ_pos count)
      rw [List.replicate_succ', ← List.append_assoc]
      exact (ih fun _ => works).tail (works _)

theorem works_forked {fileName outputDir : Option Bytes}
    (job : main argv = .restores fileName outputDir) (child : Int32) (before : machine.Deeds)
    (count : ℕ) : Relation.ReflTransGen (Machine.Works argv) before
      { before with forked := before.forked ++ List.replicate count (argv, child) } := by
  induction count with
  | zero =>
      rw [List.replicate_zero, List.append_nil]
  | succ count ih =>
      rw [List.replicate_succ', ← List.append_assoc]
      exact ih.tail (.forks job)

/-- The work of a dump. -/
theorem works_dumped {pid : Int32} {path : Bytes} {content : Option Bytes}
    (job : main argv = .dumps pid config)
    (built : buildSnapshotPath config.fileName config.outputDir = some path)
    {before : machine.Deeds} {files : machine.Files}
    (writes : Machine.Writes before.files files (machine.leads path) content) (count : ℕ)
    (asked : 0 < count → config.killAfterDump = true) :
    Relation.ReflTransGen (Machine.Works argv) before { before with
      files := files
      killed := before.killed ++ List.replicate count pid } :=
  (works_killed { before with files := files } count fun some_ _ => .kills job (asked some_)).head
    (.writes job built writes)

/-- The work of a restore. -/
theorem works_restored {fileName outputDir : Option Bytes}
    (job : main argv = .restores fileName outputDir) (before : machine.State) (child : Int32)
    {trace : List RestoreEvent}
    (forked : 0 < trace.countP isChildKill → 0 < trace.countP isFork) :
    Relation.ReflTransGen (Machine.Works argv) before.toDeeds
      (before.restored argv child trace).toDeeds := by
  refine (works_forked job child before.toDeeds (trace.countP isFork)).trans ?_
  refine works_killed _ _ fun killed _ => .killsChild job ?_
  apply List.mem_append_right
  rw [List.mem_replicate]
  exact ⟨(forked killed).ne', rfl⟩

/-- All that a run of `main` does, up to any moment of it, is such work. -/
theorem works_of_mainReaches {before after : machine.State}
    (reached : Machine.MainReaches argv before after) :
    Relation.ReflTransGen (Machine.Works argv) before.toDeeds after.toDeeds := by
  rw [Machine.MainReaches] at reached
  split at reached
  · next pid config job =>
    rw [Machine.DumpReaches] at reached
    split at reached
    · rw [reached]
    · next path built =>
      rcases reached with ⟨memory, rounds, target, link, trace, file, files, met, writes, rfl⟩
      exact works_dumped job built writes _ (asked_of_killed met)
  · next fileName outputDir job =>
    rw [Machine.RestoreReaches] at reached
    split at reached
    · rw [reached]
    · rcases reached with rfl | ⟨faults, file, start, child, trace, met, -, -, reached, rfl⟩
      · exact .refl
      · exact works_restored job before child (forked_of_killed reached)
  · rw [reached]

theorem works_of_mainRuns {before after : machine.State} {completed : Completed Bytes}
    (runs : Machine.MainRuns argv before completed after) :
    Relation.ReflTransGen (Machine.Works argv) before.toDeeds after.toDeeds := by
  rw [Machine.MainRuns] at runs
  split at runs
  · rw [runs.2]
  · next pid config job =>
    rw [Machine.Dumps] at runs
    split at runs
    · rw [runs.2]
    · next path built =>
      rcases runs with ⟨memory, rounds, target, link, success, trace, file, files, run, -, -,
        writes, rfl⟩
      exact works_dumped job built writes _ (asked_of_killed run.reaches)
  · next fileName outputDir job =>
    rw [Machine.Restores] at runs
    split at runs
    · rw [runs.2]
    · rcases runs with ⟨-, rfl⟩ | ⟨faults, file, start, child, success, trace, met, -, -, run, -,
        rfl⟩
      · exact .refl
      · exact works_restored job before child (forked_of_killed run.reaches)
  · rw [runs.2]

end Works

/-! ## What requests share -/

/-- What the engines do, the commands that were started, `_session`, the engines that were started
to stay, and those of them whose process group was signalled. -/
structure Site (machine : Machine) extends machine.Deeds where
  commands : List EngineCommand
  session : Option RestoreSession
  started : List EngineProcess
  signalled : List EngineProcess

/-- The path can be looked up, and leads where the other one leads. -/
structure Machine.Resolves (machine : Machine) (path resolved : Text) : Prop where
  encodes : ∃ raw, fsEncode path = some raw
  alike : machine.Alike path resolved

/-- What a call of one thread does, where `home` is `expanduser`. A command is only started, and the
engine is at work from then on. -/
def siteStep {machine : Machine} (home : Text → Text) (now : Site machine) :
    (request : PanelCall) → request.Reply → Site machine → Prop
  | .run command, _, after => after = { now with commands := now.commands ++ [command] }
  | .popen command, .ok process, after => after = { now with
      commands := now.commands ++ [command]
      started := now.started ++ [process] }
  | .unlink path, .ok _, after => ∃ raw files, fsEncode path = some raw ∧
      Machine.Writes now.files files (machine.leads raw) none ∧ after = { now with files := files }
  | .createTemporary, reply, after => ∃ files,
      Machine.RegistryStep now.files .createTemporary reply files ∧
      after = { now with files := files }
  | .writeTemporary number stored, reply, after => ∃ files,
      Machine.RegistryStep now.files (.writeTemporary number stored) reply files ∧
      after = { now with files := files }
  | .replaceRegistry number, reply, after => ∃ files,
      Machine.RegistryStep now.files (.replaceRegistry number) reply files ∧
      after = { now with files := files }
  | .expandUser path, .ok expanded, after => expanded = home path ∧ after = now
  | .resolve path, .ok resolved, after => machine.Resolves path resolved ∧ after = now
  | .readSession, current, after => current = now.session ∧ after = now
  | .writeSession session, _, after => after = { now with session := some session }
  | .signalGroup process _, _, after =>
      after = { now with signalled := now.signalled ++ [process] }
  | _, _, after => after = now

/-- The threads of the panel, over the machine with its engines. -/
abbrev siteSystem (machine : Machine) (home : Text → Text) (ι : Type) :
    System PanelInterface ι where
  State := Site machine
  step := fun _ => siteStep home
  drift := fun now after => ∃ command ∈ now.commands, ∃ argv, command.request.argv = some argv ∧
    ∃ deeds, Machine.Works argv now.toDeeds deeds ∧ after = { now with toDeeds := deeds }

/-- The panel before any of the requests has begun. -/
def siteStart {machine : Machine} {ι : Type} (home : Text → Text) (config : Config)
    (settings : Settings) (lower : Text → Text) (requests : ι → PanelRequest)
    (files : machine.Files) : Pool (siteSystem machine home ι) Unit where
  shared := ⟨⟨files, [], []⟩, [], none, [], []⟩
  thread := fun i => (requests i).serve config settings lower

section Engines

variable {machine : Machine} {home : Text → Text} {ι α : Type} [DecidableEq ι]
  {meets : (siteSystem machine home ι).Condition} {pool : Pool (siteSystem machine home ι) α}
  {command : EngineCommand} {argv : List Bytes} {started : List (EngineProcess × List Bytes)}
  {after : machine.State}

theorem reaches_of_works (mem : command ∈ pool.shared.commands)
    (passes : command.request.argv = some argv) {done : machine.Deeds}
    (works : Relation.ReflTransGen (Machine.Works argv) pool.shared.toDeeds done) :
    Pool.Reaches meets pool { pool with shared := { pool.shared with toDeeds := done } } := by
  induction works with
  | refl => exact .refl
  | @tail middle last _ work ih =>
      exact ih.tail (.drift ⟨command, mem, argv, passes, last, work, rfl⟩)

/-- An engine that was started may run to its end while the threads wait. -/
theorem reaches_of_mainRuns {completed : Completed Bytes} (mem : command ∈ pool.shared.commands)
    (passes : command.request.argv = some argv)
    (runs : Machine.MainRuns argv ⟨pool.shared.toDeeds, started⟩ completed after) :
    Pool.Reaches meets pool
      { pool with shared := { pool.shared with toDeeds := after.toDeeds } } :=
  reaches_of_works mem passes (works_of_mainRuns runs)

/-- Or it comes as far as to any moment of its run. -/
theorem reaches_of_mainReaches (mem : command ∈ pool.shared.commands)
    (passes : command.request.argv = some argv)
    (reached : Machine.MainReaches argv ⟨pool.shared.toDeeds, started⟩ after) :
    Pool.Reaches meets pool
      { pool with shared := { pool.shared with toDeeds := after.toDeeds } } :=
  reaches_of_works mem passes (works_of_mainReaches reached)

end Engines

/-! ## What requests ask for -/

/-- The place of the snapshot with a folder and a name. -/
def Machine.IsPlace (machine : Machine) (folder n : Text) (place : machine.Place) : Prop :=
  ∃ raw rawName, fsEncode folder = some raw ∧ fsEncode n = some rawName ∧
    place = machine.snapshotPlace raw rawName

/-- The folder that a body gives. -/
def givenFolder : Json → Option Text
  | .string given => if given = [] then none else some (strip given)
  | _ => none

/-- What a body asks a dump for. -/
structure AsksDump (settings : Settings) (body : Text) (pid : ℤ) (n : Text) (kill : Bool)
    (directory : Option Text) : Prop where
  large : 1 < pid
  notOwn : pid ≠ settings.ownPid
  payload : ∃ payload number given folder, payloadOf settings.depth body = .ok payload ∧
    field "pid" .null payload = .ok number ∧ pidOf number = .ok pid ∧
    killOf payload = .ok kill ∧
    field "name" .null payload = .ok given ∧ Panel.validateName (dumpName pid given) = .ok n ∧
    field "directory" .null payload = .ok folder ∧ directory = givenFolder folder

/-- The folder of a dump. -/
def dumpsInto (home : Text → Text) (config : Config) : Option Text → Text
  | some path => home path
  | none => config.snapshotDir

/-- The folder of a deletion. -/
def deletesFrom (home : Text → Text) (config : Config) : Option Text → Text
  | some (first :: rest) => home (first :: rest)
  | _ => home config.snapshotDir

/-- The request is about the snapshot in this place, which it writes or deletes. -/
def Touches {machine : Machine} (home : Text → Text) (config : Config) (settings : Settings) :
    PanelRequest → machine.Place → Prop
  | .dump body, place => ∃ pid n kill directory, AsksDump settings body pid n kill directory ∧
      machine.IsPlace (dumpsInto home config directory) n place
  | .deleteSnapshot name directory, place => ∃ n, Panel.validateName (.string name) = .ok n ∧
      machine.IsPlace (deletesFrom home config directory) n place
  | _, _ => False

/-- The request is to kill the process. -/
def Kills (settings : Settings) : PanelRequest → ℤ → Prop
  | .dump body, pid => ∃ n directory, AsksDump settings body pid n true directory
  | _, _ => False

/-- A body asks for the snapshot of this name to be restored. -/
def AsksRestore (settings : Settings) (body n : Text) : Prop :=
  ∃ payload given, payloadOf settings.depth body = .ok payload ∧
    field "name" .null payload = .ok given ∧ Panel.validateName given = .ok n

/-- The request is to restore a snapshot, by an engine with these arguments. -/
def Restores (settings : Settings) : PanelRequest → List Bytes → Prop
  | .restore body, argv => ∃ folder n, AsksRestore settings body n ∧
      (EngineRequest.restore folder n).argv = some argv
  | _, _ => False

/-- The request has the engine run for this. -/
def HasRun (machine : Machine) (home : Text → Text) (config : Config) (settings : Settings) :
    PanelRequest → EngineRequest → Prop
  | .dump body, .dump pid folder n kill => ∃ directory,
      AsksDump settings body pid n kill directory ∧
        match directory with
        | some path => machine.Resolves (home path) folder
        | none => folder = config.snapshotDir
  | .restore body, .restore _ n => AsksRestore settings body n
  | _, .check _ => True
  | _, _ => False

/-! ## The discipline -/

/-- What is so at every moment, of what was there at the start and what was requested. -/
structure Site.Confined {machine : Machine} {ι : Type} (home : Text → Text) (config : Config)
    (settings : Settings) (requests : ι → PanelRequest) (start : machine.Files)
    (site : Site machine) : Prop where
  commands : ∀ command ∈ site.commands,
    ∃ i, HasRun machine home config settings (requests i) command.request
  files : ∀ place, site.files place ≠ start place →
    machine.Own place ∨ ∃ i, Touches home config settings (requests i) place
  killed : ∀ number ∈ site.killed, (∃ i, Kills settings (requests i) number.toInt) ∨
    ∃ argv, (argv, number) ∈ site.forked
  forked : ∀ argv number, (argv, number) ∈ site.forked →
    ∃ i, Restores settings (requests i) argv
  session : ∀ session, site.session = some session → session.process ∈ site.started
  signalled : ∀ process ∈ site.signalled, process ∈ site.started

section Discipline

variable {machine : Machine} {ι : Type} {home : Text → Text} {config : Config}
  {settings : Settings} {requests : ι → PanelRequest} {start : machine.Files}

/-- The threads may rely on it that what was started has been started. -/
def siteDiscipline (home : Text → Text) (config : Config) (settings : Settings)
    (requests : ι → PanelRequest) (start : machine.Files) :
    Discipline (siteSystem machine home ι) where
  always := Site.Confined home config settings requests start
  rely := fun _ before now => before.started ⊆ now.started
  refl := fun _ _ => List.Subset.refl _
  trans := fun _ _ _ _ one two => List.Subset.trans one two

/-- No condition on the run. -/
abbrev anyAnswer : (siteSystem machine home ι).Condition := fun _ _ _ _ => True

/-- From the precondition the request leaves everything confined, and ends with the
postcondition where it succeeds. -/
abbrev Serves (home : Text → Text) (config : Config) (settings : Settings)
    (requests : ι → PanelRequest) (start : machine.Files) (i : ι) {α : Type}
    (pre : Site machine → Prop) (body : Request α) (holds : α → Site machine → Prop) : Prop :=
  Carries (siteDiscipline home config settings requests start) anyAnswer i pre body holds
    fun _ => True

variable {i : ι} {now after : Site machine}

theorem stable_fact (fact : Prop) :
    Stable (siteDiscipline home config settings requests start) i fun _ => fact :=
  fun _ _ holds _ => holds

theorem stable_started (process : EngineProcess) :
    Stable (siteDiscipline home config settings requests start) i
      fun site => process ∈ site.started :=
  fun _ _ mem relied => relied mem

/-! ### Calls -/

/-- A thread may do what keeps everything confined, as long as it forgets no engine. -/
theorem guaranteed_confined (always : after.Confined home config settings requests start)
    (more : now.started ⊆ after.started) :
    (siteDiscipline home config settings requests start).Guaranteed i now after :=
  ⟨always, fun _ _ => more⟩

theorem Site.Confined.concat {command : EngineCommand}
    (confined : now.Confined home config settings requests start)
    (own : HasRun machine home config settings (requests i) command.request) :
    ({ now with commands := now.commands ++ [command] } : Site machine).Confined home config
      settings requests start :=
  { confined with
    commands := List.forall_mem_append.mpr
      ⟨confined.commands, List.forall_mem_singleton.mpr ⟨i, own⟩⟩ }

/-- The panel may write to its own files. -/
theorem Site.Confined.own {files : machine.Files}
    (confined : now.Confined home config settings requests start)
    (others : ∀ place, ¬machine.Own place → files place = now.files place) :
    ({ now with files := files } : Site machine).Confined home config settings requests start :=
  { confined with
    files := fun place changed => by
      by_cases isOwn : machine.Own place
      · exact .inl isOwn
      · exact confined.files place (others place isOwn ▸ changed) }

theorem hasRun_check {request : PanelRequest} (pid : Option ℤ) :
    HasRun machine home config settings request (.check pid) := by
  cases request <;> trivial

/-- A call that changes nothing but the panel's own files may start an engine, which only looks. -/
theorem cases_of_modest {request : PanelCall} {reply : request.Reply}
    (modest : Machine.Modest request) (taken : siteStep home now request reply after) :
    (∃ files : machine.Files, (∀ place, ¬machine.Own place → files place = now.files place) ∧
      after = { now with files := files }) ∨
    ∃ command pid, command.request = .check pid ∧
      after = { now with commands := now.commands ++ [command] } := by
  have same : after = now → ∃ files : machine.Files,
      (∀ place, ¬machine.Own place → files place = now.files place) ∧
        after = { now with files := files } := fun same => ⟨now.files, fun _ _ => rfl, same⟩
  cases request with
  | popen | unlink | writeSession | signalGroup => exact modest.elim
  | run command =>
      rcases modest with ⟨pid, isCheck⟩
      exact .inr ⟨command, pid, isCheck, taken⟩
  | createTemporary | writeTemporary | replaceRegistry =>
      rcases taken with ⟨files, step, same⟩
      exact .inl ⟨files, fun place => Machine.same_of_registryStep step, same⟩
  | expandUser path =>
      cases reply with
      | ok expanded => exact .inl (same taken.2)
      | error raised => exact .inl (same taken)
  | resolve path =>
      cases reply with
      | ok resolved => exact .inl (same taken.2)
      | error raised => exact .inl (same taken)
  | readSession => exact .inl (same taken.2)
  | _ => exact .inl (same taken)

theorem guaranteed_modest {request : PanelCall} {reply : request.Reply}
    (modest : Machine.Modest request)
    (confined : now.Confined home config settings requests start)
    (taken : siteStep home now request reply after) :
    (siteDiscipline home config settings requests start).Guaranteed i now after := by
  rcases cases_of_modest modest taken with ⟨files, others, rfl⟩ | ⟨command, pid, isCheck, rfl⟩
  · exact guaranteed_confined (confined.own others) (List.Subset.refl _)
  · have own : HasRun machine home config settings (requests i) command.request := by
      rw [isCheck]
      exact hasRun_check pid
    exact guaranteed_confined (confined.concat own) (List.Subset.refl _)

section Rules

variable {α : Type} {known : Site machine → Prop} {body : Request α}

/-- What a request learns may be used in the rest of it. -/
theorem serves_fact {fact : Prop} {holds : α → Site machine → Prop}
    (serves : fact → Serves home config settings requests start i (fun _ => True) body holds) :
    Serves home config settings requests start i (fun _ => fact) body holds :=
  fun state fact => serves fact state trivial

/-- A part of a request that changes nothing but the panel's own files. -/
theorem serves_modest (modest : body.run.OnlyCalls Machine.Modest)
    (stable : Stable (siteDiscipline home config settings requests start) i known) :
    Serves home config settings requests start i known body (fun _ => known) := by
  refine (carries_of_onlyCalls modest stable ?_).weaken (fun _ holds => holds)
    (fun _ _ holds => holds) fun _ _ => trivial
  intro now request reply after modest known confined taken
  have guaranteed : (siteDiscipline home config settings requests start).Guaranteed i now after :=
    guaranteed_modest modest confined taken
  refine ⟨guaranteed, stable now after known ?_⟩
  rcases cases_of_modest modest taken with ⟨files, -, rfl⟩ | ⟨command, pid, -, rfl⟩
  · exact List.Subset.refl _
  · exact List.Subset.refl _

theorem serves_looking (looking : Machine.Looking body)
    (stable : Stable (siteDiscipline home config settings requests start) i known) :
    Serves home config settings requests start i known body (fun _ => known) :=
  serves_modest (Machine.modest_of_looking looking) stable

theorem serves_pure {value : α} {holds : α → Prop} (isSo : holds value) :
    Serves home config settings requests start i known (pure value)
      (fun result _ => holds result) :=
  carries_pure (stable_fact _) fun _ _ => isSo

theorem serves_throw {raised : PythonError} {holds : α → Site machine → Prop} :
    Serves home config settings requests start i known (throw raised) holds :=
  carries_throw (stable_fact True) fun _ _ => trivial

/-- A call whose reply says something that stays so. -/
theorem serves_attempt {request : PanelCall} {value : request.Reply → Except PythonError α}
    {holds : α → Prop} (bystander : Machine.Bystander request)
    (means : ∀ (now after : Site machine) reply result, siteStep home now request reply after →
      value reply = .ok result → holds result) :
    Serves home config settings requests start i (fun _ => True) (request.attempt value)
      (fun result _ => holds result) := by
  apply carries_attempt _ _ (stable_fact True) (fun result => stable_fact _) (stable_fact True)
  intro now reply after _ confined taken _
  refine ⟨guaranteed_modest (Machine.modest_of_bystander bystander) confined taken, ?_⟩
  cases returned : value reply with
  | ok result => exact means now after reply result taken returned
  | error raised => trivial

/-- A part of a request in front of the rest, with what it leaves. -/
theorem serves_after {β : Type} {pre : Site machine → Prop} (middle : α → Site machine → Prop)
    {rest : α → Request β} {holds : β → Site machine → Prop}
    (first : Serves home config settings requests start i pre body middle)
    (serves : ∀ value, Serves home config settings requests start i (middle value) (rest value)
      holds) :
    Serves home config settings requests start i pre (body >>= rest) holds :=
  first.bind serves

/-- A part of a request that only looks, in front of the rest. -/
theorem serves_look {β : Type} {rest : α → Request β} {holds : β → Site machine → Prop}
    (looking : Machine.Looking body)
    (stable : Stable (siteDiscipline home config settings requests start) i known)
    (serves : ∀ value, Serves home config settings requests start i known (rest value) holds) :
    Serves home config settings requests start i known (body >>= rest) holds :=
  (serves_looking looking stable).bind serves

theorem serves_lift {β : Type} {plain : Except PythonError α} {rest : α → Request β}
    {holds : β → Site machine → Prop}
    (serves : ∀ value, plain = .ok value →
      Serves home config settings requests start i (fun _ => True) (rest value) holds) :
    Serves home config settings requests start i (fun _ => True) (liftExcept plain >>= rest)
      holds := by
  cases plain with
  | ok value => exact serves value rfl
  | error raised => exact serves_throw

theorem serves_require {β : Type} {condition : Bool} {raised : PythonError}
    {rest : Unit → Request β} {holds : β → Site machine → Prop}
    (serves : condition = true →
      Serves home config settings requests start i (fun _ => True) (rest ()) holds) :
    Serves home config settings requests start i (fun _ => True)
      (Raising.require condition raised >>= rest) holds := by
  cases condition with
  | true => exact serves rfl
  | false => exact serves_throw

end Rules

end Discipline

end Ksnap
