import Ksnap.Panel.Directories
import Ksnap.Panel.Snapshot

/-!
# Running the engine

`engine.py`: a dump is one run of the engine, followed by the bookkeeping of what it
wrote, and a restore is a session that outlives its request.
-/

namespace Ksnap.Panel

open Foundation Raising

variable (config : Config)

/-- `binary.is_file() and os.access(binary, os.X_OK)` -/
def usable (binary : Text) : Request Bool := do
  let present ← (PanelCall.isFile binary).attempt id
  if present then (PanelCall.isExecutable binary).ask id else return false

/-- `_binary` -/
def binary : Request Text := do
  let executable ← usable config.engineBinary
  require executable (.engineError (text "engine binary not found at " ++ config.engineBinary ++
    text " - run 'make' in Ksnap-engine"))
  return config.engineBinary

theorem onlyCalls_binary {config : Config} {allowed : PanelCall → Prop}
    (isFiles : ∀ path, allowed (.isFile path))
    (areExecutable : ∀ path, allowed (.isExecutable path)) :
    (binary config).run.OnlyCalls allowed := by
  apply OnlyCalls.raising_bind
  · apply OnlyCalls.raising_bind (PanelCall.onlyCalls_attempt (isFiles _))
    intro present
    split
    · exact PanelCall.onlyCalls_ask (areExecutable _)
    · exact onlyCalls_raising_pure
  · intro executable
    apply OnlyCalls.raising_bind onlyCalls_raising_require
    intro found
    exact onlyCalls_raising_pure

/-- `_command([_binary(), …])` -/
def command (binary : Text) (request : EngineRequest) : EngineCommand where
  usesSudo := config.usesSudo
  binary := binary
  request := request

/-- `_snapshot_dir` -/
def snapshotDir : Request Text := do
  (PanelCall.makeDirs config.snapshotDir).attempt id
  return config.snapshotDir

/-- `part in value` -/
def contains (value part : Text) : Bool :=
  value.tails.any part.isPrefixOf

/-- `_FAILURES` -/
def failures : List (Text × Text) :=
  [(text "no dumpable mapping found",
      text "the process has no memory the engine can copy, it may have exited mid dump"),
    (text "exe path is empty",
      text ("the executable of the process cannot be resolved, kernel threads cannot be " ++
        "snapshotted")),
    (text "unexpected end of memory",
      text "the memory of the process changed or became unreadable while it was being copied"),
    (text "kernel mismatch",
      text "the snapshot was taken on a different kernel, its vdso no longer fits"),
    (text "has no [vdso]",
      text ("the restored process lacks a mapping the snapshot needs, dump and restore must run " ++
        "on the same kernel")),
    (text "two step move would be needed",
      text "the vdso of the new process overlaps the address the snapshot needs"),
    (text "Operation not permitted",
      text ("ptrace was refused, the engine needs root and the process must not be traced " ++
        "already")),
    (text "No such process", text "the process exited before the engine could attach")]

/-- `_explain_failure` -/
def explainFailure (returncode : ℤ) (output : Text) : Text :=
  if config.usesSudo && contains output (text "password is required") then
    text ("sudo asked for a password. Add a NOPASSWD rule for the engine (see " ++
      "Ksnap-backend/docs/README.md) or run the API as root with KSNAP_SUDO=0.")
  else
    match failures.find? fun failure => contains output failure.1 with
    | some failure => failure.2
    | none => text "engine exited with code " ++ decimal returncode

/-- The captured output as text: `text=True` decodes it and unifies its newlines. -/
def decodeOutput (raw : Bytes) : Except PythonError Text :=
  match decodeStrict raw with
  | some decoded => .ok (universalNewlines decoded)
  | none => .error .unicodeDecodeError

/-- `subprocess.run(…, capture_output=True, text=True)` and the handlers around it, where
`timedOut` is the message for a run that took too long. -/
def runEngine (command : EngineCommand) (timedOut : Text) : Request (Completed Text) :=
  catching
    (do
      let completed ← (PanelCall.run command).attempt id
      let stdout ← liftExcept (decodeOutput completed.stdout)
      let stderr ← liftExcept (decodeOutput completed.stderr)
      return { returncode := completed.returncode, stdout, stderr })
    (fun error => error.isOsError || error = .timeoutExpired)
    fun error =>
      if error = .timeoutExpired then throw (.engineError timedOut)
      else throw (.engineError (text "cannot start the engine: " ++ error.reason))

/-! ## Dump -/

/-- What `dump` returns: the header it read back, with the folder put in. -/
structure DumpReport where
  snapshot : SnapshotView
  directory : Text

/-- The exit of `dump` for a run that failed. -/
def refuseFailure (completed : Completed Text) (output : Text) : Request Unit :=
  if completed.returncode = 0 then return ()
  else do
    let message := explainFailure config completed.returncode output
    log (text "Dump failed: " ++ message) .error (text "dump")
    throw (.engineError message)

/-- The part of `dump` behind the engine's run. -/
def finishDump (name directory : Text) (completed : Completed Text) : Request DumpReport := do
  let output := strip (completed.stdout ++ completed.stderr)
  onlyIf (output ≠ [])
    (log output (if completed.returncode = 0 then .info else .error) (text "engine"))
  refuseFailure config completed output
  log (text "Snapshot " ++ name ++ text " written to " ++ directory) .success (text "dump")
  let remembered ← remember config directory
  onlyIf (!remembered)
    (log (directory ++ text " could not be remembered, its snapshots will not be listed") .error
      (text "dump"))
  let path ← resolve directory (.string name)
  let header ← readHeader path
  return { snapshot := header, directory := directory }

/-- `dump`. The timeout is a number of seconds, as `"%.0f"` prints it. -/
def dump (timeout : Text) (pid : ℤ) (name : Json) (kill : Bool) (directory : Option Text) :
    Request DumpReport := do
  let name ← liftExcept (validateName name)
  let directory ← directory.elim (snapshotDir config) pure
  let engine ← binary config
  log (text "Dump of pid " ++ decimal pid ++ text " into " ++ name ++
    if kill then text ", the process ends with it" else []) .info (text "dump")
  let completed ← runEngine (command config engine (.dump pid directory name kill))
    (text "dump timed out after " ++ timeout ++ text "s")
  finishDump config name directory completed

/-! ## Restore sessions -/

/-- `RestoreSession.running` -/
def running (session : RestoreSession) : Request Bool := do
  let returncode : Option ℤ ← (PanelCall.poll session.process).ask id
  return returncode.isNone

/-- `RestoreSession.describe` -/
structure SessionView where
  snapshot : Text
  enginePid : ℕ
  startedAt : Text
  finishedAt : Option Text
  running : Bool
  returncode : Option ℤ

def describe (session : RestoreSession) : Request SessionView := do
  let finished : SessionEnd ← (PanelCall.readEnd session).ask id
  let running ← running session
  let returncode : SessionEnd ← (PanelCall.readEnd session).ask id
  return {
    snapshot := session.name
    enginePid := session.process.pid
    startedAt := session.startedAt
    finishedAt := finished.finishedAt
    running := running
    returncode := returncode.returncode }

/-- `with _session_lock: body` -/
def withSessionLock {α : Type} (body : Request α) : Request α :=
  bracket (PanelCall.acquireSession.ask id) (PanelCall.releaseSession.ask id) body

/-- The check that no session is running, on what `_session` is. -/
def refuseRunning : Option RestoreSession → Request Unit
  | some session => do
      let running ← running session
      require (!running) (.engineError (text "a restored process is already running (snapshot " ++
        session.name ++ text "), stop it first"))
  | none => return ()

/-- `Popen` of a restore, with its handler. -/
def spawnEngine (engine name directory : Text) : Request EngineProcess :=
  catching
    ((PanelCall.popen (command config engine (.restore directory name))).attempt id)
    PythonError.isOsError
    fun error => throw (.engineError (text "cannot start the engine: " ++ error.reason))

/-- The body of `restore` under the session lock. -/
def startSession (name directory : Text) : Request SessionView := do
  let current : Option RestoreSession ← PanelCall.readSession.ask id
  refuseRunning current
  let engine ← binary config
  log (text "Restore of " ++ name) .info (text "restore")
  let process ← spawnEngine config engine name directory
  let startedAt : Text ← PanelCall.now.ask id
  let session : RestoreSession := { name, process, startedAt }
  (PanelCall.writeSession session).ask id
  (PanelCall.startStream session).attempt id
  describe session

/-- `restore` -/
def restore (name : Json) (directory : Option Text) : Request SessionView := do
  let name ← liftExcept (validateName name)
  let directory ← directory.elim (snapshotDir config) pure
  let path ← resolve directory (.string name)
  let present ← (PanelCall.isFile path).attempt id
  require present (.engineError (text "snapshot " ++ name ++ text " does not exist"))
  withSessionLock (startSession config name directory)

/-- The exception of `stop` when there is nothing to stop. -/
def nothingRunning : PythonError := .engineError (text "no restored process is running")

/-- The exceptions that `stop` handles. -/
def stopHandles : PythonError → Bool
  | .timeoutExpired => true
  | .osError .processLookup _ => true
  | .osError .permission _ => true
  | _ => false

/-- The signals of `stop` and the wait between them, with the handlers. -/
def stopProcess (process : EngineProcess) : Request Unit :=
  catching
    (do
      (PanelCall.signalGroup process .terminate).attempt id
      let _ : ℤ ← (PanelCall.waitFor process).attempt id)
    stopHandles
    fun error =>
      if error = .timeoutExpired then (PanelCall.signalGroup process .kill).attempt id
      else throw (.engineError (text "cannot stop the restored process: " ++ error.reason))

/-- `stop` -/
def stop : Request SessionView := do
  let current : Option RestoreSession ← withSessionLock (PanelCall.readSession.ask id)
  match current with
  | none => throw nothingRunning
  | some session =>
      let running ← running session
      require running nothingRunning
      log (text "Stopping the restored process") .info (text "restore")
      stopProcess session.process
      describe session

/-- `session` -/
def session : Request (Option SessionView) :=
  withSessionLock do
    let current : Option RestoreSession ← PanelCall.readSession.ask id
    match current with
    | some session => return some (← describe session)
    | none => return none

end Ksnap.Panel
