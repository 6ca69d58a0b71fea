import Ksnap.Foundation.Folders
import Ksnap.Foundation.Unchanged
import Ksnap.Panel.Bodies

/-!
# Dumps that are refused

A request for a dump can fail at each of its steps before the engine's Dump is started. The
panel asks the engine before anything is written, and still it creates folders on the way: the
one in the body before the engine is asked, and the default store before the Dump is started. So a
request that fails leaves the files and the registry as they were exactly if there is nothing
missing that it could create.
-/

namespace Ksnap.Panel

open Foundation Raising Program

/-! ## The files of a request -/

/-- The names on the way to an absolute path, the innermost first. -/
def pathNames (path : Text) : List Text :=
  ((path.splitOn 47).filter (· ≠ [])).reverse

/-- The exception of `mkdir`. -/
def raisedBy : MakeError OsFailure → PythonError
  | .fileExists => .osError .other (text "File exists")
  | .fileNotFound => .osError .fileNotFound (text "No such file or directory")
  | .notADirectory => .osError .other (text "Not a directory")
  | .nameTooLong => .osError .other (text "File name too long")
  | .refused failure => .osError failure.kind failure.reason

/-- The file tree, and what the registry holds where there is one. -/
structure StoredFiles where
  folders : FileTree Text
  registry : Option Bytes

/-- What a request for a dump meets and does not change itself: where paths lead, the
processes, the engine with what comes of each Check, and what the system has against a path.
Nobody else changes the files meanwhile. -/
structure DumpWorld where
  tree : Tree
  processIsDir : ℤ → Except PythonError Bool
  isFile : Text → Except PythonError Bool
  isExecutable : Text → Bool
  check : EngineCommand → Except PythonError (Completed Bytes)
  tooLong : List Text → Bool
  hides : List Text → Option OsFailure
  refuses : List Text → Option OsFailure
  longer : ∀ name parent, tooLong parent = true → tooLong (name :: parent) = true

def DumpWorld.rules (world : DumpWorld) : FolderRules Text OsFailure where
  tooLong := world.tooLong
  hides := world.hides
  refuses := world.refuses
  isFileNotFound := fun failure => failure.kind = .fileNotFound
  longer := world.longer

/-- The folder can be created, or one on the way to it. -/
def DumpWorld.CanMake (world : DumpWorld) (before : StoredFiles) (path : Text) : Prop :=
  Foundation.CanMake world.rules before.folders (pathNames path)

/-- `path.mkdir(parents=True, exist_ok=True)` -/
def DumpWorld.makeDirs (world : DumpWorld) (before : StoredFiles) (path : Text) :
    Except PythonError Unit × StoredFiles :=
  match Foundation.makeDirs world.rules before.folders (pathNames path) with
  | (folders, none) => (.ok (), { before with folders })
  | (folders, some failure) => (.error (raisedBy failure), { before with folders })

/-- The process of a Dump was started, whatever came of it. -/
def startsDump : (request : PanelCall) → request.Reply → Bool
  | .run ⟨_, _, .dump _ _ _ _⟩, .ok _ => true
  | .run ⟨_, _, .dump _ _ _ _⟩, .error raised => raised = .timeoutExpired
  | _, _ => false

/-- The calls of a request for a dump. A Check changes no files, and neither does a Dump that
is not started. One that is may change anything. -/
def DumpWorld.Step (world : DumpWorld) (before : StoredFiles) :
    (request : PanelCall) → request.Reply → StoredFiles → Prop
  | .expandUser path, reply, after => reply = world.tree.expandUser path ∧ after = before
  | .resolve path, reply, after => reply = world.tree.resolve path ∧ after = before
  | .processIsDir pid, reply, after => reply = world.processIsDir pid ∧ after = before
  | .isFile path, reply, after => reply = world.isFile path ∧ after = before
  | .isExecutable path, reply, after => reply = world.isExecutable path ∧ after = before
  | .isDir path, reply, after =>
      (∀ present, reply = .ok present →
        present = isThere world.rules before.folders (pathNames path)) ∧ after = before
  | .makeDirs path, reply, after => (reply, after) = world.makeDirs before path
  | .run ⟨usesSudo, binary, .check pid⟩, reply, after =>
      reply = world.check ⟨usesSudo, binary, .check pid⟩ ∧ after = before
  | .run ⟨usesSudo, binary, .dump pid directory name kill⟩, reply, after =>
      startsDump (.run ⟨usesSudo, binary, .dump pid directory name kill⟩) reply = false →
        after = before
  | .log _ _ _, _, after => after = before
  | _, _, _ => True

/-- The requests whose Dump is not started. -/
abbrev DumpWorld.notStarted (world : DumpWorld) : Environment PanelInterface where
  State := StoredFiles
  step := fun before request reply after =>
    startsDump request reply = false ∧ world.Step before request reply after

/-! ## When nothing is created -/

/-- The body is a request for a dump of a process that is there. -/
structure DumpAsked (world : DumpWorld) (settings : Settings) (body : Text) (payload : Json)
    (pid : ℤ) : Prop where
  parsed : payloadOf settings.depth body = .ok payload
  isPid : ∃ given, field "pid" .null payload = .ok given ∧ pidOf given = .ok pid
  above : 1 < pid
  other : pid ≠ settings.ownPid
  present : world.processIsDir pid = .ok true
  kill : ∃ kill, killOf payload = .ok kill

/-- The path is absolute and short enough, and leads to the folder. -/
structure LeadsTo (tree : Tree) (path folder : Text) : Prop where
  nonempty : strip path ≠ []
  noNul : 0 ∉ strip path
  absolute : ∃ expanded, tree.expandUser (strip path) = .ok expanded ∧ isAbsolute expanded = true
  normalized : tree.normalize (strip path) = .ok folder
  short : folder.length ≤ maxLength

/-- The engine is asked about the process, and takes it. -/
structure CheckPasses (world : DumpWorld) (config : Config) (settings : Settings) (pid : ℤ) :
    Prop where
  isFile : world.isFile config.engineBinary = .ok true
  isExecutable : world.isExecutable config.engineBinary = true
  verdict : ∃ completed reports verdict,
    world.check (command config config.engineBinary (.check (some pid))) = .ok completed ∧
      (completed.returncode = 0 ∨ completed.returncode = checkExitBlocked) ∧
      checkOutcome settings.depth completed = .ok reports ∧
      gate settings.maxSnapshotMb pid reports = .ok verdict

/-- The folder in the body cannot be created. Where the body names none, the same goes for the
default store, unless the Check or the name keeps the request from it. -/
def KeepsFolders (world : DumpWorld) (config : Config) (settings : Settings)
    (before : StoredFiles) (payload : Json) (pid : ℤ) (directory : Json) : Prop :=
  if truthy directory then
    ∀ path folder, directory = .string path → LeadsTo world.tree path folder →
      ¬ world.CanMake before folder
  else
    CheckPasses world config settings pid →
      ∀ given name, field "name" .null payload = .ok given →
        validateName (dumpName pid given) = .ok name →
          ¬ world.CanMake before config.snapshotDir

/-- A request that gets to its folder has nothing to create there. -/
def NothingToCreate (world : DumpWorld) (config : Config) (settings : Settings) (body : Text)
    (before : StoredFiles) : Prop :=
  ∀ payload pid directory, DumpAsked world settings body payload pid →
    field "directory" .null payload = .ok directory →
      KeepsFolders world config settings before payload pid directory

/-! ## The calls in front of a Dump -/

/-- The calls that change no files as long as no Dump is started. -/
def KeepsFiles : PanelCall → Prop
  | .expandUser _ => True
  | .resolve _ => True
  | .processIsDir _ => True
  | .isFile _ => True
  | .isExecutable _ => True
  | .isDir _ => True
  | .run ⟨_, _, .check _⟩ => True
  | .run ⟨_, _, .dump _ _ _ _⟩ => True
  | .log _ _ _ => True
  | _ => False

section Leaves

variable {world : DumpWorld} {config : Config}

theorem eq_of_keepsFiles {before after : StoredFiles} {request : PanelCall}
    {reply : request.Reply} (keeps : KeepsFiles request)
    (taken : world.notStarted.step before request reply after) : after = before := by
  rcases taken with ⟨idle, step⟩
  cases request with
  | run command =>
      rcases command with ⟨usesSudo, binary, order⟩
      cases order with
      | check pid => exact step.2
      | dump pid directory name kill => exact step idle
      | restore directory name => exact keeps.elim
  | log message level source => exact step
  | expandUser path => exact step.2
  | resolve path => exact step.2
  | processIsDir pid => exact step.2
  | isFile path => exact step.2
  | isExecutable path => exact step.2
  | isDir path => exact step.2
  | _ => exact keeps.elim

theorem leaves_of_keepsFiles {α : Type} {body : Request α}
    (keeps : body.run.OnlyCalls KeepsFiles) : Leaves world.notStarted body :=
  leaves_of_onlyCalls keeps fun _ _ _ _ allowed taken => eq_of_keepsFiles allowed taken

theorem keepsFiles_log (message source : Text) (level : Level) :
    (log message level source).run.OnlyCalls KeepsFiles :=
  onlyCalls_log trivial

theorem keepsFiles_binary : (binary config).run.OnlyCalls KeepsFiles :=
  onlyCalls_binary (fun _ => trivial) fun _ => trivial

theorem keepsFiles_runEngine {command : EngineCommand} (keeps : KeepsFiles (.run command))
    (timedOut : Text) : (runEngine command timedOut).run.OnlyCalls KeepsFiles := by
  apply OnlyCalls.catching
  · apply OnlyCalls.raising_bind (PanelCall.onlyCalls_attempt keeps)
    intro completed
    apply OnlyCalls.raising_bind onlyCalls_liftExcept
    intro stdout
    apply OnlyCalls.raising_bind onlyCalls_liftExcept
    intro stderr
    exact onlyCalls_raising_pure
  · intro raised
    split
    · exact onlyCalls_raising_throw
    · exact onlyCalls_raising_throw

theorem keepsFiles_readLine (depth : ℕ) (reports : List (ℤ × Json)) (line : Text) :
    (readLine depth reports line).run.OnlyCalls KeepsFiles := by
  rw [readLine]
  split
  · exact onlyCalls_raising_pure
  · apply OnlyCalls.catching
    · apply OnlyCalls.raising_bind onlyCalls_liftExcept
      intro entry
      exact onlyCalls_raising_pure
    · intro raised
      apply OnlyCalls.raising_bind (keepsFiles_log _ _ _)
      intro _
      exact onlyCalls_raising_pure

theorem keepsFiles_check (depth : ℕ) (timeout : Text) (pid : Option ℤ) :
    (check config depth timeout pid).run.OnlyCalls KeepsFiles := by
  apply OnlyCalls.raising_bind keepsFiles_binary
  intro engine
  apply OnlyCalls.raising_bind (keepsFiles_runEngine (by trivial) _)
  intro completed
  apply OnlyCalls.raising_bind
  · rw [refuseUnanswered]
    split
    · exact onlyCalls_raising_pure
    · apply OnlyCalls.raising_bind (keepsFiles_log _ _ _)
      intro _
      exact onlyCalls_raising_throw
  · intro _
    exact onlyCalls_foldlM fun reports line => keepsFiles_readLine depth reports line

theorem leaves_requireDumpable (depth : ℕ) (timeout : Text) (maxSnapshotMb pid : ℤ) :
    Leaves world.notStarted (requireDumpable config depth timeout maxSnapshotMb pid) := by
  apply leaves_of_keepsFiles
  rw [requireDumpable_eq]
  apply OnlyCalls.raising_bind (keepsFiles_check depth timeout (some pid))
  intro reports
  exact onlyCalls_liftExcept

/-- An engine whose process never ends well never answers. -/
theorem endsIn_runEngine {env : Environment PanelInterface} {command : EngineCommand}
    {timedOut : Text}
    (fails : EndsIn env ((PanelCall.run command).attempt id : Request (Completed Bytes))
      (fun _ => False) fun _ => True) :
    EndsIn env (runEngine command timedOut) (fun _ => False) fun _ => True := by
  apply EndsIn.catching
  · apply fails.bind
    intro completed never
    exact never.elim
  · intro raised _
    split
    · exact endsIn_throw trivial
    · exact endsIn_throw trivial

/-- A Dump that is not started raises. -/
theorem not_returns_runEngine {usesSudo kill : Bool} {binary directory name timedOut : Text}
    {pid : ℤ} {before after : StoredFiles} {completed : Completed Text} :
    ¬ (runEngine ⟨usesSudo, binary, .dump pid directory name kill⟩ timedOut).run.Exec
      world.notStarted before (.ok completed) after := by
  have fails : EndsIn world.notStarted
      ((PanelCall.run ⟨usesSudo, binary, .dump pid directory name kill⟩).attempt id :
        Request (Completed Bytes)) (fun _ => False) fun _ => True := by
    intro state reply middle taken
    refine ⟨trivial, ?_⟩
    cases reply with
    | ok completed => cases taken.1
    | error raised => trivial
  exact (endsIn_runEngine fails before).exec

/-- What a dump does behind its folder. -/
theorem leaves_runDump (directory name timedOut : Text) (pid : ℤ) (kill : Bool)
    (message : Text) :
    Leaves world.notStarted (do
      let engine ← binary config
      log message .info (text "dump")
      let completed ← runEngine (command config engine (.dump pid directory name kill)) timedOut
      finishDump config name directory completed) := by
  apply (leaves_of_keepsFiles keepsFiles_binary).bind
  intro engine
  apply (leaves_of_keepsFiles (keepsFiles_log _ _ _)).bind
  intro _
  apply (leaves_of_keepsFiles (keepsFiles_runEngine (by trivial) _)).bind_of_raises
  exact fun _ _ _ => not_returns_runEngine

end Leaves

/-! ## The gate -/

section Gate

variable {world : DumpWorld} {config : Config} {settings : Settings} {before : StoredFiles}

theorem looks_request {α : Type} {request : PanelCall}
    {value : request.Reply → Except PythonError α} (given : request.Reply)
    (answered : ∀ reply after, world.notStarted.step before request reply after →
      reply = given ∧ after = before) :
    Looks world.notStarted before (request.attempt value) (value given) := by
  apply looks_attempt
  intro reply after taken
  rcases answered reply after taken with ⟨rfl, same⟩
  exact ⟨rfl, same⟩

/-- `_binary` looks at the file, and then at whether it can be run. -/
theorem present_of_binary {engine : Text} {after : StoredFiles}
    (ran : (binary config).run.Exec world.notStarted before (.ok engine) after) :
    config.engineBinary = engine ∧
      world.isFile config.engineBinary = .ok true ∧
      world.isExecutable config.engineBinary = true := by
  have isFile : Looks world.notStarted before
      ((PanelCall.isFile config.engineBinary).attempt id : Request Bool)
      (world.isFile config.engineBinary) :=
    looks_request _ fun _ _ taken => taken.2
  have isExecutable : Looks world.notStarted before
      ((PanelCall.isExecutable config.engineBinary).ask id : Request Bool)
      (.ok (world.isExecutable config.engineBinary)) :=
    looks_request _ fun _ _ taken => taken.2
  rcases exec_raising_bind.mp ran with ⟨executable, middle, isUsable, later⟩ | ⟨_, _, raises⟩
  · cases executable with
    | false => cases later.1
    | true =>
        have found : config.engineBinary = engine := (Except.ok.inj later.1).symm
        rcases exec_raising_bind.mp isUsable with ⟨present, first, looked, asked⟩ | ⟨_, _, raises⟩
        · rcases isFile _ first looked with ⟨isPresent, rfl⟩
          cases present with
          | false => cases asked.1
          | true =>
              refine ⟨found, isPresent.symm, ?_⟩
              exact (Except.ok.inj (isExecutable _ _ asked).1).symm
        · cases raises
  · cases raises

theorem yields_notStarted {α : Type} {request : PanelCall}
    {value : request.Reply → Except PythonError α} (given : request.Reply)
    (answered : ∀ state reply after, world.notStarted.step state request reply after ↔
      reply = given ∧ after = state) :
    Yields world.notStarted (request.attempt value) (value given) := by
  apply yields_attempt
  · intro state
    exact ⟨given, state, (answered state given state).mpr ⟨rfl, rfl⟩⟩
  · intro state reply after taken
    rw [((answered state reply after).mp taken).1]

/-- The engine as it is when a Check ends like this. -/
theorem engineEnds_notStarted {pid : Option ℤ} {completed : Completed Bytes}
    (isFile : world.isFile config.engineBinary = .ok true)
    (isExecutable : world.isExecutable config.engineBinary = true)
    (ends : world.check (command config config.engineBinary (.check pid)) = .ok completed) :
    EngineEnds world.notStarted config (command config config.engineBinary (.check pid))
      completed where
  isFile := by
    rw [← isFile]
    exact yields_notStarted _ fun _ _ _ => and_iff_right rfl
  isExecutable := by
    rw [← isExecutable]
    exact yields_notStarted _ fun _ _ _ => and_iff_right rfl
  run := by
    rw [← ends]
    exact yields_notStarted _ fun _ _ _ => and_iff_right rfl
  log := by
    intro message level source
    have reply : (PanelCall.log message level source).Reply := ()
    exact yields_notStarted reply fun _ _ _ => by
      constructor
      · exact fun taken => ⟨rfl, taken.2⟩
      · exact fun taken => ⟨rfl, taken.2⟩

/-- A run of the engine that returns is one whose process has ended. -/
theorem ends_of_runEngine {pid : Option ℤ} {timedOut : Text} {completed : Completed Text}
    {after : StoredFiles}
    (ran : (runEngine (command config config.engineBinary (.check pid)) timedOut).run.Exec
      world.notStarted before (.ok completed) after) :
    ∃ ended, world.check (command config config.engineBinary (.check pid)) = .ok ended := by
  cases checked : world.check (command config config.engineBinary (.check pid)) with
  | ok ended => exact ⟨ended, rfl⟩
  | error raised =>
      have fails : EndsIn world.notStarted
          ((PanelCall.run (command config config.engineBinary (.check pid))).attempt id :
            Request (Completed Bytes)) (fun _ => False) fun _ => True := by
        intro state reply middle taken
        have same : reply = .error raised := taken.2.1.trans checked
        subst same
        exact ⟨trivial, trivial⟩
      exact ((endsIn_runEngine fails before).exec ran).elim

/-- An exit that is no answer raises. -/
theorem answered_of_refuseUnanswered {completed : Completed Text} {after : StoredFiles}
    (ran : (refuseUnanswered config completed).run.Exec world.notStarted before (.ok ()) after) :
    completed.returncode = 0 ∨ completed.returncode = checkExitBlocked := by
  by_contra other
  rw [refuseUnanswered, if_neg other] at ran
  rcases exec_raising_bind.mp ran with ⟨_, _, _, raises⟩ | ⟨_, _, raises⟩
  · cases raises.1
  · cases raises

/-- The code of an engine's run is the one its process ended with. -/
theorem returncode_of_runEngine {pid : Option ℤ} {timedOut : Text} {ended : Completed Bytes}
    {completed : Completed Text} {after : StoredFiles}
    (ends : EngineEnds world.notStarted config (command config config.engineBinary (.check pid))
      ended)
    (ran : (runEngine (command config config.engineBinary (.check pid)) timedOut).run.Exec
      world.notStarted before (.ok completed) after) :
    completed.returncode = ended.returncode := by
  have only := (ends.runEngine timedOut).only before _ after ran
  split at only
  · cases only
    rfl
  · cases only

theorem checkPasses_of_exec {pid : ℤ} {verdict : Verdict} {after : StoredFiles}
    (ran : (requireDumpable config settings.depth settings.checkTimeout settings.maxSnapshotMb
      pid).run.Exec world.notStarted before (.ok verdict) after) :
    CheckPasses world config settings pid := by
  rw [requireDumpable_eq] at ran
  rcases exec_raising_bind.mp ran with ⟨reports, middle, checked, judged⟩ | ⟨_, _, raises⟩
  · have passes : gate settings.maxSnapshotMb pid reports = .ok verdict :=
      (looks_liftExcept _ _ judged).1.symm
    have whole := checked
    rw [check] at checked
    rcases exec_raising_bind.mp checked with ⟨engine, first, found, behind⟩ | ⟨_, _, raises⟩
    · rcases present_of_binary found with ⟨rfl, isFile, isExecutable⟩
      rcases exec_raising_bind.mp behind with ⟨completed, second, ranEngine, later⟩ | ⟨_, _, raises⟩
      · rcases ends_of_runEngine ranEngine with ⟨ended, ends⟩
        have engineEnds := engineEnds_notStarted isFile isExecutable ends
        rcases exec_raising_bind.mp later with ⟨_, third, accepted, _⟩ | ⟨_, _, raises⟩
        · have answered := answered_of_refuseUnanswered accepted
          rw [returncode_of_runEngine engineEnds ranEngine] at answered
          have outcome := (engineEnds.check _ _ answered).only _ _ _ whole
          exact ⟨isFile, isExecutable, ended, reports, verdict, ends, answered, outcome.symm,
            passes⟩
        · cases raises
      · cases raises
    · cases raises
  · cases raises

/-- Where the Check passes, the gate is open. -/
theorem CheckPasses.opens {pid : ℤ} (passes : CheckPasses world config settings pid)
    {raised : PythonError} {after : StoredFiles} :
    ¬ (requireDumpable config settings.depth settings.checkTimeout settings.maxSnapshotMb
      pid).run.Exec world.notStarted before (.error raised) after := by
  rcases passes.verdict with ⟨ended, reports, verdict, ends, answered, outcome, opens⟩
  have yields := (engineEnds_notStarted passes.isFile passes.isExecutable ends).check
    settings.depth settings.checkTimeout answered
  rw [outcome] at yields
  have judges : Yields world.notStarted (liftExcept (gate settings.maxSnapshotMb pid reports) :
      Request Verdict) (.ok verdict) := by
    rw [opens]
    exact Yields.of_liftExcept
  intro ran
  rw [requireDumpable_eq] at ran
  cases (yields.bind_ok judges).only before _ after ran

end Gate

/-! ## The folder -/

section Folder

variable {world : DumpWorld} {config : Config} {settings : Settings} {before : StoredFiles}

theorem DumpWorld.makeDirs_snd (path : Text) :
    (world.makeDirs before path).2 =
      { before with
        folders := (Foundation.makeDirs world.rules before.folders (pathNames path)).1 } := by
  rw [DumpWorld.makeDirs]
  split
  · next folders same => rw [same]
  · next folders failure same => rw [same]

theorem unchangedIff_makeDirs (path : Text) :
    UnchangedIff world.notStarted before ((PanelCall.makeDirs path).attempt id : Request Unit)
      (¬ world.CanMake before path) := by
  rintro outcome after ⟨reply, middle, ⟨-, taken⟩, -, rfl⟩
  have created : after = (world.makeDirs before path).2 := congrArg Prod.snd taken
  rw [created, DumpWorld.makeDirs_snd, DumpWorld.CanMake, ← makeDirs_eq_iff]
  constructor
  · exact congrArg StoredFiles.folders
  · intro same
    rw [same]

theorem looks_normalize (path : Text) :
    Looks world.notStarted before (normalize path) (world.tree.normalize path) := by
  have expands : Looks world.notStarted before
      ((PanelCall.expandUser path).attempt id : Request Text) (world.tree.expandUser path) :=
    looks_request _ fun _ _ taken => taken.2
  have resolves : ∀ expanded, Looks world.notStarted before
      ((PanelCall.resolve expanded).attempt id : Request Text) (world.tree.resolve expanded) :=
    fun expanded => looks_request _ fun _ _ taken => taken.2
  rw [Tree.normalize_eq_bind]
  exact expands.bind resolves

/-- A folder that was given. -/
theorem unchangedIff_validateFolder {β : Type} {path : Text} {rest : Text → Request β}
    (leaves : ∀ directory, Leaves world.notStarted (rest directory)) :
    UnchangedIff world.notStarted before (validateFolder path >>= rest)
      (∀ folder, LeadsTo world.tree path folder → ¬ world.CanMake before folder) := by
  have expands : Looks world.notStarted before
      ((PanelCall.expandUser (strip path)).attempt id : Request Text)
      (world.tree.expandUser (strip path)) :=
    looks_request _ fun _ _ taken => taken.2
  have makes : ∀ directory, UnchangedIff world.notStarted before
      (catching ((PanelCall.makeDirs directory).attempt id) PythonError.isOsError (fun error =>
          throw (.valueError (text "cannot create " ++ directory ++ text ": " ++ error.reason))) >>=
        fun _ => (PanelCall.isDir directory).attempt id >>= fun present =>
          require present (.valueError (directory ++ text " is not a folder")) >>= fun _ =>
            pure directory >>= rest)
      (¬ world.CanMake before directory) := by
    intro directory
    apply UnchangedIff.bind_leaves
    · apply (unchangedIff_makeDirs directory).catching
      exact fun _ => leaves_of_keepsFiles onlyCalls_raising_throw
    · intro _
      apply (leaves_of_keepsFiles (PanelCall.onlyCalls_attempt (by trivial))).bind
      intro present
      apply (leaves_of_keepsFiles onlyCalls_raising_require).bind
      intro _
      exact leaves directory
  rw [validateFolder]
  simp only [bind_assoc]
  refine (unchangedIff_require_bind (unchangedIff_require_bind (expands.unchangedIff_bind
    fun expanded => unchangedIff_require_bind ((looks_normalize _).unchangedIff_bind
      fun directory => unchangedIff_require_bind (makes directory))))).congr ?_
  simp only [decide_eq_true_eq]
  constructor
  · rintro each folder leads
    rcases leads.absolute with ⟨expanded, isExpanded, absolute⟩
    exact each leads.nonempty leads.noNul expanded isExpanded absolute folder leads.normalized
      leads.short
  · intro each nonempty noNul expanded isExpanded absolute folder normalized short
    exact each folder ⟨nonempty, noNul, ⟨expanded, isExpanded, absolute⟩, normalized, short⟩

end Folder

/-! ## The request -/

section Request

variable {world : DumpWorld} {config : Config} {settings : Settings} {before : StoredFiles}

theorem leaves_dump {timeout directory : Text} {pid : ℤ} {name : Json} {kill : Bool} :
    Leaves world.notStarted (dump config timeout pid name kill (some directory)) := by
  apply (leaves_of_keepsFiles onlyCalls_liftExcept).bind
  intro name
  exact leaves_runDump directory name _ pid kill _

/-- A dump into the default store. -/
theorem unchangedIff_dump {timeout : Text} {pid : ℤ} {name : Json} {kill : Bool} :
    UnchangedIff world.notStarted before (dump config timeout pid name kill none)
      (∀ valid, validateName name = .ok valid → ¬ world.CanMake before config.snapshotDir) := by
  apply looks_liftExcept.unchangedIff_bind
  intro valid
  apply UnchangedIff.bind_leaves
  · apply (unchangedIff_makeDirs config.snapshotDir).bind_leaves
    intro _
    exact leaves_of_keepsFiles onlyCalls_raising_pure
  · intro directory
    exact leaves_runDump directory valid _ pid kill _

theorem looks_caveats (pid : ℤ) (verdict : Verdict) :
    Looks world.notStarted before
      ((Json.strings (verdict.describe (some .risky))).forM fun caveat =>
        log (text "pid " ++ decimal pid ++ text ": " ++ caveat) .info (text "eligibility"))
      (.ok ()) := by
  apply looks_forM
  intro caveat
  apply looks_attempt
  intro reply after taken
  exact ⟨rfl, taken.2⟩

/-- With a folder of its own, the rest of a request creates nothing. -/
theorem leaves_serveOrder {payload : Json} {pid : ℤ} {kill : Bool} {directory : Text} :
    Leaves world.notStarted
      (serveOrder config settings payload ⟨pid, kill, some directory⟩) := by
  apply (leaves_requireDumpable _ _ _ _).bind
  intro verdict
  apply (leaves_of_keepsFiles onlyCalls_liftExcept).bind
  intro given
  refine Leaves.bind ?_ fun _ => ?_
  · intro state outcome after ran
    exact (looks_caveats pid verdict outcome after ran).2
  · apply leaves_dump.bind
    intro report
    exact leaves_of_keepsFiles onlyCalls_raising_pure

/-- Without one, the default store is created behind the Check and the name. -/
theorem unchangedIff_serveOrder {payload : Json} {pid : ℤ} {kill : Bool} :
    UnchangedIff world.notStarted before
      (serveOrder config settings payload ⟨pid, kill, none⟩)
      (CheckPasses world config settings pid →
        ∀ given name, field "name" .null payload = .ok given →
          validateName (dumpName pid given) = .ok name →
            ¬ world.CanMake before config.snapshotDir) := by
  have dumps : ∀ given, UnchangedIff world.notStarted before
      (dump config settings.dumpTimeout pid (dumpName pid given) kill none >>= fun report =>
        pure (report, kill))
      (∀ name, validateName (dumpName pid given) = .ok name →
        ¬ world.CanMake before config.snapshotDir) := by
    intro given
    apply unchangedIff_dump.bind_leaves
    intro report
    exact leaves_of_keepsFiles onlyCalls_raising_pure
  rw [serveOrder]
  apply (leaves_requireDumpable _ _ _ _).unchangedIff_bind
  · intro passes raised after
    exact passes.opens
  · intro verdict after
    exact checkPasses_of_exec
  · intro verdict
    refine (looks_liftExcept.unchangedIff_bind fun given =>
      (looks_caveats pid verdict).unchangedIff_bind fun _ => dumps given).congr ?_
    constructor
    · exact fun each given name isGiven => each given isGiven () rfl name
    · exact fun each given isGiven _ _ name => each given name isGiven

theorem unchangedIff_folder {payload directory : Json} {pid : ℤ} {kill : Bool} :
    UnchangedIff world.notStarted before
      (dumpFolder (if truthy directory then some directory else none) >>= fun folder =>
        serveOrder config settings payload ⟨pid, kill, folder⟩)
      (KeepsFolders world config settings before payload pid directory) := by
  rw [KeepsFolders]
  by_cases named : truthy directory = true
  · rw [if_pos named, if_pos named, dumpFolder]
    simp only [bind_assoc, pure_bind]
    cases directory with
    | string path =>
        refine (unchangedIff_validateFolder fun _ => leaves_serveOrder).congr ?_
        constructor
        · rintro each _ folder ⟨⟩
          exact each folder
        · exact fun each folder => each path folder rfl
    | _ =>
        refine Leaves.unchangedIff (leaves_of_keepsFiles onlyCalls_raising_throw) ?_
        intro path folder same
        cases same
  · rw [if_neg named, if_neg named, dumpFolder, pure_bind]
    exact unchangedIff_serveOrder

theorem unchangedIff_validatePid {β : Type} {ownPid : ℤ} {value : Json} {rest : ℤ → Request β}
    {condition : ℤ → Prop}
    (later : ∀ pid, UnchangedIff world.notStarted before (rest pid) (condition pid)) :
    UnchangedIff world.notStarted before (validatePid ownPid value >>= rest)
      (∀ pid, pidOf value = .ok pid → 1 < pid → pid ≠ ownPid →
        world.processIsDir pid = .ok true → condition pid) := by
  have exists_ : ∀ pid, Looks world.notStarted before
      ((PanelCall.processIsDir pid).attempt id : Request Bool) (world.processIsDir pid) :=
    fun pid => looks_request _ fun _ _ taken => taken.2
  rw [validatePid]
  simp only [bind_assoc, pure_bind]
  refine (looks_liftExcept.unchangedIff_bind fun pid => unchangedIff_require_bind
    (unchangedIff_require_bind ((exists_ pid).unchangedIff_bind fun present =>
      unchangedIff_require_bind (later pid)))).congr ?_
  simp only [decide_eq_true_eq]
  constructor
  · exact fun each pid isPid above other present => each pid isPid above other true present rfl
  · rintro each pid isPid above other present found rfl
    exact each pid isPid above other found

/-- What decides whether a request for a dump leaves the files as they were. -/
theorem unchangedIff_postDump {body : Text} :
    UnchangedIff world.notStarted before (postDump config settings body)
      (NothingToCreate world config settings body before) := by
  rw [postDump]
  simp only [readOrder, bind_assoc, pure_bind]
  refine (looks_liftExcept.unchangedIff_bind fun payload => looks_liftExcept.unchangedIff_bind
    fun given => unchangedIff_validatePid fun pid => looks_liftExcept.unchangedIff_bind
      fun kill => looks_liftExcept.unchangedIff_bind fun directory =>
        unchangedIff_folder).congr ?_
  constructor
  · intro each payload pid directory asked isDirectory
    rcases asked.isPid with ⟨given, isGiven, isPid⟩
    rcases asked.kill with ⟨kill, isKill⟩
    exact each payload asked.parsed given isGiven pid isPid asked.above asked.other asked.present
      kill isKill directory isDirectory
  · intro each payload parsed given isGiven pid isPid above other present kill isKill directory
    exact each payload pid directory
      ⟨parsed, ⟨given, isGiven, isPid⟩, above, other, present, ⟨kill, isKill⟩⟩

end Request

/-- A request for a dump that fails before the Dump is started leaves the files and the
registry as they were exactly if it has nothing to create. -/
theorem unchanged_iff_nothingToCreate (world : DumpWorld) (config : Config) (settings : Settings)
    (body : Text) {before after : StoredFiles} {raised : PythonError}
    (ran : (postDump config settings body).run.Exec world.notStarted before (.error raised)
      after) :
    after = before ↔ NothingToCreate world config settings body before :=
  unchangedIff_postDump _ after ran

/-! ## Runs -/

/-- The answers in a world, as far as the engine is not needed. -/
def DumpWorld.answer (world : DumpWorld) (before : StoredFiles) :
    (request : PanelCall) → Option (request.Reply × StoredFiles)
  | .expandUser path => some (world.tree.expandUser path, before)
  | .resolve path => some (world.tree.resolve path, before)
  | .processIsDir pid => some (world.processIsDir pid, before)
  | .isFile path => some (world.isFile path, before)
  | .isExecutable path => some (world.isExecutable path, before)
  | .isDir path => some (.ok (isThere world.rules before.folders (pathNames path)), before)
  | .makeDirs path => some (world.makeDirs before path)
  | _ => none

theorem step_of_answer {world : DumpWorld} {before after : StoredFiles} {request : PanelCall}
    {reply : request.Reply} (answered : world.answer before request = some (reply, after)) :
    world.notStarted.step before request reply after := by
  cases request with
  | makeDirs path => exact ⟨rfl, (Option.some.inj answered).symm⟩
  | expandUser path =>
      cases answered
      exact ⟨rfl, rfl, rfl⟩
  | resolve path =>
      cases answered
      exact ⟨rfl, rfl, rfl⟩
  | processIsDir pid =>
      cases answered
      exact ⟨rfl, rfl, rfl⟩
  | isFile path =>
      cases answered
      exact ⟨rfl, rfl, rfl⟩
  | isExecutable path =>
      cases answered
      exact ⟨rfl, rfl, rfl⟩
  | isDir path =>
      cases answered
      refine ⟨rfl, ?_, rfl⟩
      rintro present ⟨⟩
      rfl
  | _ => cases answered

/-- Every process is there, every folder can be created, and the engine has not been built. -/
def withoutEngine : DumpWorld where
  tree := plainTree
  processIsDir := fun _ => .ok true
  isFile := fun _ => .ok false
  isExecutable := fun _ => false
  check := fun _ => .error (.osError .fileNotFound [])
  tooLong := fun _ => false
  hides := fun _ => none
  refuses := fun _ => none
  longer := fun _ _ => id

/-- Folders below the root, and no registry. -/
def onlyFolders (names : List Text) : StoredFiles where
  folders := fun path => if path ∈ names.map fun name => [name] then some .folder else none
  registry := none

def intoNewFolder : Text :=
  text "\x7b\"pid\": 7, \"directory\": \"/new\"\x7d"

/-- A folder that is there stays the only one when the engine cannot be asked. -/
theorem unchanged_iff_nothingToCreate_existing :
    NothingToCreate withoutEngine exampleConfig exampleSettings intoNewFolder
      (onlyFolders [text "new"]) := by
  have followed : (postDump exampleConfig exampleSettings intoNewFolder).run.follow
      withoutEngine.answer (onlyFolders [text "new"]) =
        some (.error _, onlyFolders [text "new"]) := rfl
  exact (unchanged_iff_nothingToCreate withoutEngine exampleConfig exampleSettings intoNewFolder
    (exec_of_follow (fun _ _ _ _ => step_of_answer) followed)).mp rfl

/-- A folder that is missing is created before the engine turns out to be missing. -/
theorem not_unchanged : ¬ ∀ (world : DumpWorld) (config : Config) (settings : Settings)
    (body : Text) (before after : StoredFiles) (raised : PythonError),
    (postDump config settings body).run.Exec world.notStarted before (.error raised) after →
      after = before := by
  intro claimed
  have followed : (postDump exampleConfig exampleSettings intoNewFolder).run.follow
      withoutEngine.answer (onlyFolders []) = some (.error _, _) := rfl
  have same := claimed withoutEngine exampleConfig exampleSettings intoNewFolder (onlyFolders [])
    _ _ (exec_of_follow (fun _ _ _ _ => step_of_answer) followed)
  have created := congrFun (congrArg StoredFiles.folders same) [text "new"]
  exact absurd created (by decide)

end Ksnap.Panel
