import Ksnap.Panel.App
import Ksnap.Panel.Processes
import Ksnap.Panel.Snapshots

/-!
# The requests

`app.py` answers out of the modules below it. Here are the handlers that take no body, and all
of them together. The process table asks the engine once for all its rows.
-/

namespace Ksnap.Panel

open Foundation Raising

/-! ## The process table -/

/-- A process with its `eligibility`. -/
structure JudgedRow where
  process : ProcessRow
  eligibility : Verdict

/-- The reports of one call of the engine, or the message of its `EngineError`. -/
def checkAll (config : Config) (settings : Settings) :
    Request (Except Text (List (ℤ × Json))) :=
  catching
    (do
      let reports ← check config settings.depth settings.checkTimeout none
      return .ok reports)
    (fun error => match error with | .engineError _ => true | _ => false)
    fun error => match error with
      | .engineError message => return .error message
      | _ => throw error

/-- A round of the loop in `verdicts_for`. -/
def judgeRow (maxSnapshotMb : ℤ) (reports : List (ℤ × Json)) (process : ProcessRow) :
    Except PythonError JudgedRow := do
  let verdict ← verdictFromReport maxSnapshotMb ((reports.lookup process.pid).getD .null)
  return ⟨process, verdict⟩

/-- `verdicts_for` -/
def verdictsFor (config : Config) (settings : Settings) (found : List ProcessRow) :
    Request (List JudgedRow) := do
  match ← checkAll config settings with
  | .error message => return found.map fun process => ⟨process, unavailable message⟩
  | .ok reports => liftExcept (found.mapM (judgeRow settings.maxSnapshotMb reports))

/-- The `counts` of the table. -/
structure LevelCounts where
  ok : ℕ
  risky : ℕ
  blocked : ℕ
  unknown : ℕ

/-- `counts[level] += 1` -/
def LevelCounts.add (counts : LevelCounts) : VerdictLevel → LevelCounts
  | .ok => { counts with ok := counts.ok + 1 }
  | .risky => { counts with risky := counts.risky + 1 }
  | .blocked => { counts with blocked := counts.blocked + 1 }
  | .unknown => { counts with unknown := counts.unknown + 1 }

/-- `count_levels` -/
def countLevels (found : List JudgedRow) : LevelCounts :=
  found.foldl (fun counts row => counts.add row.eligibility.level) ⟨0, 0, 0, 0⟩

/-- The answer to `GET /api/processes`. -/
structure ProcessesView where
  processes : List JudgedRow
  counts : LevelCounts
  kernelThreads : ℕ

/-- `include_all` -/
def includesAll (lower : Text → Text) (given : Option Text) : Bool :=
  lower (given.getD []) ∈ [text "1", text "true", text "yes"]

/-- `GET /api/processes`, with its arguments `all` and `query`. -/
def getProcesses (config : Config) (settings : Settings) (lower : Text → Text)
    (given query : Option Text) : Request ProcessesView := do
  let list ← listProcesses lower query
  let found ← verdictsFor config settings list.found
  return {
    processes := found.filter fun row =>
      includesAll lower given || row.eligibility.level ≠ .blocked
    counts := countLevels found
    kernelThreads := list.kernelThreads }

/-! ## Snapshots -/

/-- The answer to `GET /api/snapshots`. -/
structure SnapshotsView where
  snapshots : List SnapshotRow
  directory : Text
  directories : List Text

/-- `GET /api/snapshots`. The default store is always among the folders. -/
def getSnapshots (config : Config) : Request SnapshotsView := do
  let folders ← known config
  let rows ← folders.mapM listSnapshots
  let snapshots := rows.flatten.insertionSort fun first second => second.sortKey ≤ first.sortKey
  match folders with
  | default :: _ => return { snapshots, directory := default, directories := folders }
  | [] => throw .indexError

/-- The folder argument of a request, which may be missing. -/
def folderArgument : Option Text → Json
  | some path => .string path
  | none => .null

/-- `DELETE /api/snapshots/<name>`, with its argument `directory`. -/
def deleteSnapshot (config : Config) (name : Text) (directory : Option Text) :
    Request (Text × Text) := do
  let folder ← requireKnown config (folderArgument directory)
  delete folder (.string name)
  log (text "Snapshot " ++ name ++ text " deleted from " ++ folder) .info (text "api")
  return (name, folder)

/-! ## The status -/

/-- The answer to `GET /api/status`. -/
structure StatusView where
  engineBinary : Text
  enginePresent : Bool
  snapshotDir : Text
  usesSudo : Bool
  root : Bool
  restore : Option SessionView

/-- `GET /api/status`, of a panel that runs as root or not. -/
def getStatus (config : Config) (root : Bool) : Request StatusView := do
  let enginePresent ← usable config.engineBinary
  let restore ← session
  return {
    engineBinary := config.engineBinary
    enginePresent
    snapshotDir := config.snapshotDir
    usesSudo := config.usesSudo
    root
    restore }

/-! ## All of them -/

/-- The requests that are answered with more than the console. -/
inductive PanelRequest : Type where
  | status (root : Bool)
  | processes (all query : Option Text)
  | snapshots
  | deleteSnapshot (name : Text) (directory : Option Text)
  | dump (body : Text)
  | restore (body : Text)
  | stopRestore

/-- The thread that answers a request. -/
def PanelRequest.serve (config : Config) (settings : Settings) (lower : Text → Text) :
    PanelRequest → Program PanelInterface Unit
  | .status root => do let _ ← (getStatus config root).run
  | .processes all query => do let _ ← (getProcesses config settings lower all query).run
  | .snapshots => do let _ ← (getSnapshots config).run
  | .deleteSnapshot name directory => do let _ ← (Panel.deleteSnapshot config name directory).run
  | .dump body => do let _ ← (postDump config settings body).run
  | .restore body => do let _ ← (postRestore config settings body).run
  | .stopRestore => do let _ ← stop.run

end Ksnap.Panel
