import Ksnap.Panel.Containment
import Ksnap.Panel.Eligibility

/-!
# The bodies of dump and restore

`app.py` takes the JSON value of a body apart before the engine sees anything of it. Some
exceptions have a handler that makes an error body of them, and every other one is a
failure of the panel.
-/

namespace Ksnap.Panel

open Foundation Raising

/-- What is fixed while the panel runs: how deep the interpreter lets `json` go, `os.getpid()`,
and the configuration of the engine's runs. -/
structure Settings where
  depth : ℕ
  ownPid : ℤ
  checkTimeout : Text
  dumpTimeout : Text
  maxSnapshotMb : ℤ

/-- The exceptions with an error handler. -/
def hasHandler : PythonError → Bool
  | .processError _ => true
  | .snapshotError _ => true
  | .valueError _ => true
  | .unicodeDecodeError => true
  | .engineError _ => true
  | .osError .fileNotFound _ => true
  | _ => false

/-! ## Pids -/

/-- `int(value)` in `validate_pid`, with its handler. -/
def pidOf (value : Json) : Except PythonError ℤ :=
  rescue (fun error => error = .typeError || error.isValueError)
    (fun _ => .error (.processError (text "pid must be a number"))) (toInt value)

/-- `validate_pid` -/
def validatePid (ownPid : ℤ) (value : Json) : Request ℤ := do
  let pid ← liftExcept (pidOf value)
  require (1 < pid) (.processError (text "pid " ++ decimal pid ++ text " cannot be snapshotted"))
  require (pid ≠ ownPid) (.processError (text "the API cannot snapshot itself"))
  let present ← (PanelCall.processIsDir pid).attempt id
  require present (.processError (text "process " ++ decimal pid ++ text " does not exist"))
  return pid

/-! ## Bodies -/

/-- `request.get_json(silent=True) or {}`, where a body that is no JSON counts as none. -/
def payloadOf (depth : ℕ) (body : Text) : Except PythonError Json := do
  let value ← rescue PythonError.isValueError (fun _ => .ok .null) (jsonLoads depth body)
  return if truthy value then value else .dict []

/-- `payload.get(name, default)` -/
def field (name : String) (default payload : Json) : Except PythonError Json := do
  let given ← get name payload
  return given.getD default

/-- `kill`, which has to be a boolean. -/
def killOf (payload : Json) : Except PythonError Bool := do
  let kill ← field "kill" (.boolean false) payload
  match kill with
  | .boolean kill => .ok kill
  | _ => .error (.valueError (text "'kill' must be true or false"))

/-- What a dump is asked for. -/
structure DumpOrder where
  pid : ℤ
  kill : Bool
  folder : Option Text

/-- The part of the handler of `/api/dump` before the engine is asked. -/
def readOrder (ownPid : ℤ) (payload : Json) : Request DumpOrder := do
  let given ← liftExcept (field "pid" .null payload)
  let pid ← validatePid ownPid given
  let kill ← liftExcept (killOf payload)
  let directory ← liftExcept (field "directory" .null payload)
  let folder ← dumpFolder (if truthy directory then some directory else none)
  return { pid, kill, folder }

/-- The name of a dump, one with the pid where none is given. -/
def dumpName (pid : ℤ) (given : Json) : Json :=
  if truthy given then given else .string (text "pid-" ++ decimal pid ++ text ".ksnap")

/-- The handler of `/api/dump` behind that. The caveats are texts of the panel itself. -/
def serveOrder (config : Config) (settings : Settings) (payload : Json) (order : DumpOrder) :
    Request (DumpReport × Bool) := do
  let verdict ← requireDumpable config settings.depth settings.checkTimeout settings.maxSnapshotMb
    order.pid
  let given ← liftExcept (field "name" .null payload)
  (Json.strings (verdict.describe (some .risky))).forM fun caveat =>
    log (text "pid " ++ decimal order.pid ++ text ": " ++ caveat) .info (text "eligibility")
  let report ← dump config settings.dumpTimeout order.pid (dumpName order.pid given) order.kill
    order.folder
  return (report, order.kill)

/-- `POST /api/dump` -/
def postDump (config : Config) (settings : Settings) (body : Text) :
    Request (DumpReport × Bool) := do
  let payload ← liftExcept (payloadOf settings.depth body)
  let order ← readOrder settings.ownPid payload
  serveOrder config settings payload order

/-- The part of the handler of `/api/restore` before the engine is asked. -/
def readRestore (config : Config) (payload : Json) : Request (Json × Text) := do
  let name ← liftExcept (field "name" .null payload)
  require (truthy name) (.valueError (text "snapshot name is required"))
  let directory ← liftExcept (field "directory" .null payload)
  let folder ← requireKnown config directory
  return (name, folder)

/-- `POST /api/restore` -/
def postRestore (config : Config) (settings : Settings) (body : Text) : Request SessionView := do
  let payload ← liftExcept (payloadOf settings.depth body)
  let (name, folder) ← readRestore config payload
  restore config name (some folder)

end Ksnap.Panel
