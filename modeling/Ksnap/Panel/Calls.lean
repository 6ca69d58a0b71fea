import Ksnap.Foundation.Json
import Ksnap.Foundation.Raising

/-!
# What the panel asks of the system

The backend of the panel is Python. Its modules read and write the file system, run
the engine, write to the console and share the session lock with other requests. These
are the calls they make, with the exceptions a call can answer with. Paths are texts
in the form `str` gives them.
-/

namespace Ksnap.Panel

open Foundation

/-! ## Exceptions -/

/-- The subclasses of `OSError` that the panel tells apart. -/
inductive OsErrorKind : Type where
  | fileNotFound
  | processLookup
  | permission
  | other
  deriving DecidableEq

/-- The exceptions a request can meet, with their messages where one reads them. -/
inductive PythonError : Type where
  | valueError (message : Text)
  | unicodeDecodeError
  | keyError
  | typeError
  | attributeError
  | indexError
  | osError (kind : OsErrorKind) (reason : Text)
  | overflowError
  | recursionError
  | runtimeError (message : Text)
  | structError
  | timeoutExpired
  | engineError (message : Text)
  | snapshotError (message : Text)
  | processError (message : Text)
  deriving DecidableEq

def PythonError.isOsError : PythonError → Bool
  | .osError _ _ => true
  | _ => false

def PythonError.isValueError : PythonError → Bool
  | .valueError _ => true
  | .unicodeDecodeError => true
  | _ => false

/-- `str(error)` of an operating system error, and its `strerror`. -/
def PythonError.reason : PythonError → Text
  | .osError _ reason => reason
  | _ => []

/-- An exception of the operating system. -/
structure OsFailure where
  kind : OsErrorKind
  reason : Text

/-- What a call comes to that only the operating system can fail. -/
def orRaise {α : Type} : Except OsFailure α → Except PythonError α
  | .ok value => .ok value
  | .error failure => .error (.osError failure.kind failure.reason)

/-- The decimal digits of a number, `"%d"`. -/
def decimal (number : ℤ) : Text :=
  text (toString number)

/-- What the panel has the engine do. -/
inductive EngineRequest : Type where
  | check (pid : Option ℤ)
  | dump (pid : ℤ) (directory name : Text) (kill : Bool)
  | restore (directory name : Text)
  deriving DecidableEq

/-- The arguments behind the engine's own name. -/
def EngineRequest.arguments : EngineRequest → List Text
  | .check none => [text "-m", text "Check"]
  | .check (some pid) => [text "-m", text "Check", text "-p", decimal pid]
  | .dump pid directory name kill =>
      [text "-m", text "Dump", text "-p", decimal pid, text "-d", directory, text "-n", name] ++
        if kill then [text "-k"] else []
  | .restore directory name =>
      [text "-m", text "Restore", text "-d", directory, text "-n", name]

/-- `SUDO` -/
def sudoPath : Text := text "/usr/bin/sudo"

/-- A request with the engine's binary, behind `sudo -n` where the panel is not root. -/
structure EngineCommand where
  usesSudo : Bool
  binary : Text
  request : EngineRequest
  deriving DecidableEq

def EngineCommand.argv (command : EngineCommand) : List Text :=
  (if command.usesSudo then [sudoPath, text "-n"] else []) ++
    command.binary :: command.request.arguments

/-- `subprocess.CompletedProcess` of a run with captured output, as bytes or as text. -/
structure Completed (Output : Type) where
  returncode : ℤ
  stdout : Output
  stderr : Output
  deriving DecidableEq

/-! ## Restore sessions -/

/-- A `Popen` object, and the pid of its process. The system may use a pid again. -/
structure EngineProcess where
  object : ℕ
  pid : ℕ
  deriving DecidableEq

/-- What `RestoreSession` keeps from its start. What the stream thread adds when the
process has ended is read with a call. -/
structure RestoreSession where
  name : Text
  process : EngineProcess
  startedAt : Text
  deriving DecidableEq

/-- `finished_at` and `returncode` of a session. -/
structure SessionEnd where
  finishedAt : Option Text
  returncode : Option ℤ
  deriving DecidableEq

/-- `signal.SIGTERM` and `signal.SIGKILL` -/
inductive StopSignal : Type where
  | terminate
  | kill
  deriving DecidableEq

/-! ## Files -/

/-- `st_size`, and `st_mtime`, a double already, in the microseconds that `datetime` rounds it
to. -/
structure FileStat where
  size : ℕ
  mtime : ℤ
  deriving DecidableEq

/-- The files of a process that `read_process` opens. -/
inductive ProcessFile : Type where
  | stat
  | cmdline
  | status
  deriving DecidableEq

/-! ## Console -/

/-- `INFO`, `SUCCESS`, `ERROR` and `OUTPUT` of `logbook.py` -/
inductive Level : Type where
  | info
  | success
  | error
  | output
  deriving DecidableEq

/-! ## Calls -/

inductive PanelCall : Type where
  /-- `Path(path).expanduser()` -/
  | expandUser (path : Text)
  /-- `path.resolve()` -/
  | resolve (path : Text)
  /-- `path.mkdir(parents=True, exist_ok=True)` -/
  | makeDirs (path : Text)
  | isDir (path : Text)
  | isFile (path : Text)
  /-- `os.access(path, os.X_OK)` -/
  | isExecutable (path : Text)
  | unlink (path : Text)
  /-- `open(path, "rb")` and `read(size)` -/
  | readHead (path : Text) (size : ℕ)
  /-- `path.stat()` -/
  | stat (path : Text)
  /-- `path.exists()` -/
  | pathExists (path : Text)
  /-- `sorted(directory.glob("*" + SUFFIX))` -/
  | snapshotPaths (directory : Text)
  /-- The names in `PROC.iterdir()` -/
  | processEntries
  /-- `(PROC / str(pid)).is_dir()` -/
  | processIsDir (pid : ℤ)
  /-- The bytes of a file in `PROC / pid` -/
  | readProcessFile (pid : Text) (file : ProcessFile)
  /-- `(PROC / pid).stat().st_uid` -/
  | processOwner (pid : Text)
  /-- `pwd.getpwuid(uid).pw_name` -/
  | userName (uid : ℤ)
  /-- `open` of the registry and `json.load` -/
  | loadRegistry
  /-- `mkdir` of the registry's folder -/
  | makeRegistryFolder
  /-- `tempfile.mkstemp` beside the registry -/
  | createTemporary
  /-- `json.dump` into the temporary file, and its close -/
  | writeTemporary (temporary : ℕ) (stored : List Text)
  /-- `os.replace` of the registry with the temporary file -/
  | replaceRegistry (temporary : ℕ)
  /-- `subprocess.run` -/
  | run (command : EngineCommand)
  /-- `subprocess.Popen` in a process group of its own -/
  | popen (command : EngineCommand)
  /-- `process.poll()` -/
  | poll (process : EngineProcess)
  /-- `process.wait(timeout=5)` -/
  | waitFor (process : EngineProcess)
  /-- `_signal_group` -/
  | signalGroup (process : EngineProcess) (signal : StopSignal)
  /-- `threading.Thread(target=_stream_output).start()` -/
  | startStream (session : RestoreSession)
  | readEnd (session : RestoreSession)
  /-- `_session_lock.acquire()` -/
  | acquireSession
  | releaseSession
  | readSession
  | writeSession (session : RestoreSession)
  /-- `datetime.now(timezone.utc).isoformat()` -/
  | now
  /-- `logbook.append` -/
  | log (message : Text) (level : Level) (source : Text)

/-- The replies. A call that can fail answers with the exception it raises. -/
def PanelCall.Reply : PanelCall → Type
  | .expandUser _ => Except PythonError Text
  | .resolve _ => Except PythonError Text
  | .makeDirs _ => Except PythonError Unit
  | .isDir _ => Except PythonError Bool
  | .isFile _ => Except PythonError Bool
  | .isExecutable _ => Bool
  | .unlink _ => Except PythonError Unit
  | .readHead _ _ => Except PythonError Bytes
  | .stat _ => Except PythonError FileStat
  | .pathExists _ => Except PythonError Bool
  | .snapshotPaths _ => List Text
  | .processEntries => List Text
  | .processIsDir _ => Except PythonError Bool
  | .readProcessFile _ _ => Except PythonError Bytes
  | .processOwner _ => Except PythonError ℤ
  | .userName _ => Except PythonError Text
  | .loadRegistry => Except PythonError Json
  | .makeRegistryFolder => Except PythonError Unit
  | .createTemporary => Except PythonError ℕ
  | .writeTemporary _ _ => Except PythonError Unit
  | .replaceRegistry _ => Except PythonError Unit
  | .run _ => Except PythonError (Completed Bytes)
  | .popen _ => Except PythonError EngineProcess
  | .poll _ => Option ℤ
  | .waitFor _ => Except PythonError ℤ
  | .signalGroup _ _ => Except PythonError Unit
  | .startStream _ => Except PythonError Unit
  | .readEnd _ => SessionEnd
  | .acquireSession => Unit
  | .releaseSession => Unit
  | .readSession => Option RestoreSession
  | .writeSession _ => Unit
  | .now => Text
  | .log _ _ _ => Unit

/-- The exception that a reply is. -/
def errorOf {α : Type} : Except PythonError α → Option PythonError
  | .ok _ => none
  | .error raised => some raised

/-- The exception that a call answers with. -/
def PanelCall.raised : (request : PanelCall) → request.Reply → Option PythonError
  | .expandUser _, reply => errorOf reply
  | .resolve _, reply => errorOf reply
  | .makeDirs _, reply => errorOf reply
  | .isDir _, reply => errorOf reply
  | .isFile _, reply => errorOf reply
  | .unlink _, reply => errorOf reply
  | .readHead _ _, reply => errorOf reply
  | .stat _, reply => errorOf reply
  | .pathExists _, reply => errorOf reply
  | .processIsDir _, reply => errorOf reply
  | .readProcessFile _ _, reply => errorOf reply
  | .processOwner _, reply => errorOf reply
  | .userName _, reply => errorOf reply
  | .loadRegistry, reply => errorOf reply
  | .makeRegistryFolder, reply => errorOf reply
  | .createTemporary, reply => errorOf reply
  | .writeTemporary _ _, reply => errorOf reply
  | .replaceRegistry _, reply => errorOf reply
  | .run _, reply => errorOf reply
  | .popen _, reply => errorOf reply
  | .waitFor _, reply => errorOf reply
  | .signalGroup _ _, reply => errorOf reply
  | .startStream _, reply => errorOf reply
  | _, _ => none

abbrev PanelInterface : Interface where
  Call := PanelCall
  Reply := PanelCall.Reply

/-- A function of the backend. -/
abbrev Request (α : Type) : Type := Raising PanelInterface PythonError α

namespace PanelCall

/-- Make a call that may raise, with its reply as a value or an exception. -/
def attempt {α : Type} (request : PanelCall) (value : request.Reply → Except PythonError α) :
    Request α :=
  Raising.attempt (.call request fun reply => .done (value reply))

/-- Make a call that raises nothing. -/
def ask {α : Type} (request : PanelCall) (value : request.Reply → α) : Request α :=
  request.attempt fun reply => .ok (value reply)

theorem onlyCalls_attempt {α : Type} {allowed : PanelCall → Prop} {request : PanelCall}
    {value : request.Reply → Except PythonError α} (holds : allowed request) :
    (request.attempt value).run.OnlyCalls allowed :=
  ⟨holds, fun _ => trivial⟩

theorem onlyCalls_ask {α : Type} {allowed : PanelCall → Prop} {request : PanelCall}
    {value : request.Reply → α} (holds : allowed request) :
    (request.ask value).run.OnlyCalls allowed :=
  onlyCalls_attempt holds

end PanelCall

/-! ## Runs on their own -/

/-- Every reply that may be given is given in every state, and recorded. -/
abbrev answering (answers : (request : PanelCall) → request.Reply → Prop) :
    Environment PanelInterface where
  State := List (Event PanelInterface)
  step := fun trace request reply trace' =>
    answers request reply ∧ trace' = trace ++ [⟨request, reply⟩]

theorem endsIn_attempt {α : Type} {answers : (request : PanelCall) → request.Reply → Prop}
    {request : PanelCall} {value : request.Reply → Except PythonError α}
    {raises : PythonError → Prop}
    (fails : ∀ reply raised, answers request reply → value reply = .error raised →
      raises raised) :
    EndsIn (answering answers) (request.attempt value)
      (fun result => ∃ reply, answers request reply ∧ value reply = .ok result) raises := by
  intro state reply middle taken
  refine ⟨trivial, ?_⟩
  dsimp only
  cases returned : value reply with
  | ok result => exact ⟨reply, taken.1, returned⟩
  | error raised => exact fails reply raised taken.1 returned

/-- A call that has an answer, and whose answers all come to the same. -/
theorem yields_call {α : Type} {answers : (request : PanelCall) → request.Reply → Prop}
    {request : PanelCall} {value : request.Reply → Except PythonError α}
    {outcome : Except PythonError α} (reply : request.Reply) (given : answers request reply)
    (same : ∀ other, answers request other → value other = outcome) :
    Yields (answering answers) (request.attempt value) outcome :=
  yields_attempt (fun _ => ⟨reply, _, given, rfl⟩) fun _ other _ taken => same other taken.1

/-- `logbook.append` -/
def log (message : Text) (level : Level) (source : Text) : Request Unit :=
  (PanelCall.log message level source).ask id

theorem onlyCalls_log {allowed : PanelCall → Prop} {message : Text} {level : Level}
    {source : Text} (logs : allowed (.log message level source)) :
    (log message level source).run.OnlyCalls allowed :=
  PanelCall.onlyCalls_ask logs

/-- The configuration, read once from the environment. -/
structure Config where
  engineBinary : Text
  snapshotDir : Text
  usesSudo : Bool

/-- A configuration for runs on fixed inputs. -/
def exampleConfig : Config where
  engineBinary := text "/Ksnap"
  snapshotDir := text "/save"
  usesSudo := false

end Ksnap.Panel
